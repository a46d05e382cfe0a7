import Mosaic.Plane.Rect

/-! Pointer events as a host reports them, with the sets of held buttons and modifier keys. -/
namespace Mosaic

inductive Button | left | right | middle deriving DecidableEq

/-- The buttons held down; each is one bit of the set's number. -/
structure Buttons where
  left : Bool
  right : Bool
  middle : Bool
deriving DecidableEq

namespace Buttons

def none : Buttons := ⟨false, false, false⟩

def only : Button → Buttons
  | .left => { none with left := true }
  | .right => { none with right := true }
  | .middle => { none with middle := true }

/-- Bits without a button are dropped. -/
def ofBits (n : Nat) : Buttons := ⟨n.testBit 0, n.testBit 1, n.testBit 2⟩

def bits (b : Buttons) : Nat := b.left.toNat + 2 * b.right.toNat + 4 * b.middle.toNat

@[simp] theorem ofBits_bits (b : Buttons) : ofBits b.bits = b := by
  rcases b with ⟨_ | _, _ | _, _ | _⟩ <;> rfl

end Buttons

/-- The modifier keys held down; each is one bit of the set's number. -/
structure Modifiers where
  shift : Bool
  alt : Bool
  ctrl : Bool
  super : Bool
deriving DecidableEq

namespace Modifiers

def none : Modifiers := ⟨false, false, false, false⟩

/-- Bits without a key are dropped. -/
def ofBits (n : Nat) : Modifiers := ⟨n.testBit 0, n.testBit 1, n.testBit 2, n.testBit 3⟩

def bits (m : Modifiers) : Nat :=
  m.shift.toNat + 2 * m.alt.toNat + 4 * m.ctrl.toNat + 8 * m.super.toNat

@[simp] theorem ofBits_bits (m : Modifiers) : ofBits m.bits = m := by
  rcases m with ⟨_ | _, _ | _, _ | _, _ | _⟩ <;> rfl

end Modifiers

/-- What the pointer did: `drag` is motion with a button held, `moved` without. -/
inductive Motion
  | down (button : Button)
  | up (button : Button)
  | drag (button : Button)
  | moved
  | leave
deriving DecidableEq

def Motion.held : Motion → Buttons
  | .down b | .drag b => .only b
  | .up _ | .moved | .leave => .none

structure PointerEvent where
  motion : Motion
  position : Point
  buttons : Buttons := motion.held
  modifiers : Modifiers := .none
deriving DecidableEq

inductive Event
  | pointer (event : PointerEvent)
  | resize (bounds : Rect)
  | focus (gained : Bool)
  | captureLost
deriving DecidableEq

end Mosaic
