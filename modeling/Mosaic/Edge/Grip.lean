import Mosaic.Plane.Rect

/-! Edge lines that are moved together, and the directions in which they travel. -/
namespace Mosaic

/-- The way along an axis: `up` is toward increasing coordinates. -/
inductive Direction | up | down deriving DecidableEq

namespace Direction

def sign : Direction → Int
  | .up => 1
  | .down => -1

/-- Of two coordinates the one reached first. -/
def nearer : Direction → Int → Int → Int
  | .up => min
  | .down => max

/-- Of two coordinates the one reached last. -/
def further : Direction → Int → Int → Int
  | .up => max
  | .down => min

def isAhead (d : Direction) (start goal : Int) : Checked Bool := do
  let gap ← Coord.mul (← Coord.sub goal start) d.sign
  return 0 < gap

def before (d : Direction) (edge distance : Int) : Checked Int := do
  Coord.sub edge (← Coord.mul d.sign distance)

end Direction

/-- The way in which an edge on this side travels when its region shrinks. -/
def Side.inward : Side → Direction
  | .near => .up
  | .far => .down

/-- The lines that a drag holds: a vertical one at `x`, a horizontal one at `y`, or both. -/
structure Grip where
  x : Option Int
  y : Option Int
deriving DecidableEq

namespace Grip

def none : Grip := ⟨.none, .none⟩

def vertical (x : Int) : Grip := ⟨x, .none⟩

def horizontal (y : Int) : Grip := ⟨.none, y⟩

def corner (x y : Int) : Grip := ⟨x, y⟩

def along (g : Grip) : Axis → Option Int
  | .x => g.x
  | .y => g.y

def set (g : Grip) (line : Option Int) : Axis → Grip
  | .x => { g with x := line }
  | .y => { g with y := line }

def IsEmpty (g : Grip) : Prop := g.x = .none ∧ g.y = .none

instance (g : Grip) : Decidable g.IsEmpty := inferInstanceAs (Decidable (_ ∧ _))

end Grip

/-- Which lines a grip holds. -/
inductive GripKind | none | horizontal | vertical | corner deriving DecidableEq

/-- A vertical line is moved horizontally and a horizontal line vertically. -/
def Grip.kind (g : Grip) : GripKind :=
  match g.x, g.y with
  | .none, .none => .none
  | some _, .none => .horizontal
  | .none, some _ => .vertical
  | some _, some _ => .corner

end Mosaic
