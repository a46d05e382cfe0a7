import Mosaic.Edge.Grip

/-! New bounds for a list of regions, built up write by write. On one axis all edges of a move
travel the same way, so of several writes to one edge the furthest stays. -/
namespace Mosaic

/-- The bounds to give to each region, in the order of the regions. -/
structure Patch where
  rects : List Rect
deriving DecidableEq

namespace Patch

/-- Moves one edge of the rectangle at a position, unless it already is further. -/
def moveEdge (patch : Patch) (position : Nat) (axis : Axis) (side : Side) (line : Int)
    (d : Direction) : Checked Patch :=
  match patch.rects[position]? with
  | none => .ok patch
  | some r => do
    let moved ← match side with
      | .near => r.withSpan axis (d.further (r.near axis) line) (r.far axis)
      | .far => r.withSpan axis (r.near axis) (d.further (r.far axis) line)
    return ⟨patch.rects.set position moved⟩

/-- Moves an empty span, which stays empty, unless it already is further. -/
def moveMarker (patch : Patch) (position : Nat) (axis : Axis) (line : Int) (d : Direction) :
    Checked Patch :=
  match patch.rects[position]? with
  | none => .ok patch
  | some r => do
    let place := d.further (r.near axis) line
    return ⟨patch.rects.set position (← r.withSpan axis place place)⟩

/-- The positions at which the patch differs from the rectangles before it. -/
def changed (patch : Patch) (before : List Rect) : List Nat :=
  (patch.rects.zip before).zipIdx.filterMap fun ((new, old), i) =>
    if new = old then none else some i

end Patch

end Mosaic
