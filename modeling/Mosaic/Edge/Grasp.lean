import Mosaic.Edge.Grip
import Mosaic.Pointer.Cursor

/-! Finding the lines under the pointer. Only right and bottom edges are offered, and none that lies
on the far edges of the container. On each axis the closest edge wins, of equally close ones the
first. -/
namespace Mosaic

/-- The cursor that announces what moving the lines does. -/
def GripKind.cursor : GripKind → Cursor
  | .none => .default
  | .horizontal => .resizeH
  | .vertical => .resizeV
  | .corner => .move

/-- Lines under the pointer, with the pointer's offset from each of them. -/
structure Grasp where
  grip : Grip
  /-- Pointer minus line; zero on an axis without a line. -/
  offset : Point
  kind : GripKind
deriving DecidableEq

namespace Grasp

def IsActive (g : Grasp) : Prop := ¬ g.grip.IsEmpty

instance (g : Grasp) : Decidable g.IsActive := inferInstanceAs (Decidable (¬ _))

/-- Where the lines would be if they kept their offset from the pointer. -/
def candidate (g : Grasp) (pointer : Point) : Checked Point := do
  let x ← Coord.sub pointer.x g.offset.x
  let y ← Coord.sub pointer.y g.offset.y
  return ⟨x, y⟩

structure Reach where
  line : Int
  distance : Int
deriving DecidableEq

/-- The far edge of `r` along `axis`, if the pointer is within tolerance of it. -/
def reach? (container : Rect) (pointer : Point) (tolerance : Int) (axis : Axis) (r : Rect) :
    Checked (Option Reach) := do
  let line := r.far axis
  let distance ← Coord.abs (← Coord.sub (pointer.along axis) line)
  let across := pointer.along axis.cross
  if tolerance < distance ∨ line = container.far axis then return none
  else if across < (← Coord.sub (r.near axis.cross) tolerance) then return none
  else if (← Coord.add (r.far axis.cross) tolerance) < across then return none
  else return some ⟨line, distance⟩

/-- The closer of two edges; an earlier one wins a tie. -/
def closer (best found : Option Reach) : Option Reach :=
  match best, found with
  | none, found => found
  | some b, none => some b
  | some b, some f => if f.distance < b.distance then some f else some b

def consider (container : Rect) (pointer : Point) (tolerance : Int)
    (best : Option Reach × Option Reach) (r : Rect) : Checked (Option Reach × Option Reach) := do
  let x ← reach? container pointer tolerance .x r
  let y ← reach? container pointer tolerance .y r
  return (closer best.1 x, closer best.2 y)

/-- Pointer minus line, or zero without one. -/
def offsetFrom (place : Int) : Option Int → Checked Int
  | none => .ok 0
  | some line => Coord.sub place line

/-- The lines within `tolerance` of the pointer; the rectangle at position `skip` has none. -/
def locate (rects : List Rect) (skip : Option Nat) (container : Rect) (pointer : Point)
    (tolerance : Int) : Checked Grasp := do
  let offered := rects.zipIdx.filterMap fun (r, i) => if skip = some i then none else some r
  let (x, y) ← offered.foldlM (consider container pointer (max tolerance 0)) (none, none)
  let grip : Grip := ⟨x.map (·.line), y.map (·.line)⟩
  let dx ← offsetFrom pointer.x grip.x
  let dy ← offsetFrom pointer.y grip.y
  return ⟨grip, ⟨dx, dy⟩, grip.kind⟩

end Grasp

end Mosaic
