import Mosaic.Coord
import Mosaic.Plane.Axis

/-! Rectangles with half-open spans: the near edge belongs to a rectangle, the far edge does not.
Far edges saturate, and every other sum or difference is refused when it does not fit. -/
namespace Mosaic

/-- The two edges of a span along an axis. -/
inductive Side | near | far deriving DecidableEq

def Side.flip : Side → Side
  | .near => .far
  | .far => .near

@[simp] theorem Side.flip_flip (s : Side) : s.flip.flip = s := by cases s <;> rfl

structure Rect where
  x : Int
  y : Int
  width : Int
  height : Int
deriving DecidableEq

namespace Rect

def zero : Rect := ⟨0, 0, 0, 0⟩

/-- A rectangle whose negative extents are replaced by zero. -/
def clamped (x y width height : Int) : Rect := ⟨x, y, max width 0, max height 0⟩

def ofSize (width height : Int) : Rect := clamped 0 0 width height

/-- The rectangle between four edges; it is empty along an axis whose edges are out of order. -/
def ofEdges (left top right bottom : Int) : Checked Rect := do
  let width ← Coord.sub right left
  let height ← Coord.sub bottom top
  return clamped left top width height

def right (r : Rect) : Int := Coord.satAdd r.x r.width

def bottom (r : Rect) : Int := Coord.satAdd r.y r.height

def size (r : Rect) : Size := ⟨r.width, r.height⟩

def near (r : Rect) : Axis → Int
  | .x => r.x
  | .y => r.y

def far (r : Rect) : Axis → Int
  | .x => r.right
  | .y => r.bottom

def edge (r : Rect) (axis : Axis) : Side → Int
  | .near => r.near axis
  | .far => r.far axis

def extent (r : Rect) : Axis → Int
  | .x => r.width
  | .y => r.height

/-- The same rectangle with another near edge and extent along one axis. -/
def place (r : Rect) (near extent : Int) : Axis → Rect
  | .x => { r with x := near, width := extent }
  | .y => { r with y := near, height := extent }

/-- The same rectangle with another span along one axis; a span in reverse is empty. -/
def withSpan (r : Rect) (axis : Axis) (near far : Int) : Checked Rect :=
  if far < near then .ok (r.place near 0 axis)
  else do return r.place near (← Coord.sub far near) axis

def translate (r : Rect) (dx dy : Int) : Rect :=
  { r with x := Coord.satAdd r.x dx, y := Coord.satAdd r.y dy }

def area (r : Rect) : Int := r.width * r.height

def IsEmpty (r : Rect) : Prop := r.width = 0 ∨ r.height = 0

instance (r : Rect) : Decidable r.IsEmpty := inferInstanceAs (Decidable (_ ∨ _))

/-- The unit cell at `p` lies in the rectangle. -/
def Covers (r : Rect) (p : Point) : Prop :=
  r.x ≤ p.x ∧ p.x < r.right ∧ r.y ≤ p.y ∧ p.y < r.bottom

instance (r : Rect) (p : Point) : Decidable (r.Covers p) :=
  inferInstanceAs (Decidable (_ ∧ _ ∧ _ ∧ _))

/-- Every edge of `inner` lies within `outer`, so an empty `inner` counts by its position. -/
def Encloses (outer inner : Rect) : Prop :=
  outer.x ≤ inner.x ∧ outer.y ≤ inner.y ∧ inner.right ≤ outer.right ∧ inner.bottom ≤ outer.bottom

instance (outer inner : Rect) : Decidable (outer.Encloses inner) :=
  inferInstanceAs (Decidable (_ ∧ _ ∧ _ ∧ _))

/-- The shared part, when it has positive area. -/
def intersection? (a b : Rect) : Checked (Option Rect) :=
  let left := max a.x b.x
  let top := max a.y b.y
  let right := min a.right b.right
  let bottom := min a.bottom b.bottom
  if left < right ∧ top < bottom then do return some (← ofEdges left top right bottom)
  else .ok none

def intersection (a b : Rect) : Checked Rect := do return (← a.intersection? b).getD zero

/-- The least rectangle around both. -/
def union (a b : Rect) : Checked Rect :=
  ofEdges (min a.x b.x) (min a.y b.y) (max a.right b.right) (max a.bottom b.bottom)

def clampPoint (r : Rect) (p : Point) : Point :=
  ⟨max r.x (min p.x (max r.right r.x)), max r.y (min p.y (max r.bottom r.y))⟩

def boundingBox : List Rect → Checked (Option Rect)
  | [] => .ok none
  | r :: rs => do return some (← rs.foldlM union r)

end Rect

end Mosaic
