import Mosaic.Edge.Grip

/-! Which rectangles of a list have an edge at a coordinate. The index keeps one table for each
axis and side, and lists positions in the order of the rectangles. -/
namespace Mosaic

/-- Positions filed under coordinates. -/
abbrev LineTable := List (Int × List Nat)

namespace LineTable

def file (line : Int) (position : Nat) : LineTable → LineTable
  | [] => [(line, [position])]
  | (l, ps) :: rest =>
    if l = line then (l, ps ++ [position]) :: rest else (l, ps) :: file line position rest

def positions (table : LineTable) (line : Int) : List Nat := (table.lookup line).getD []

def ofRects (rects : List Rect) (axis : Axis) (side : Side) : LineTable :=
  rects.zipIdx.foldl (fun table (r, i) => table.file (r.edge axis side) i) []

end LineTable

structure LineIndex where
  left : LineTable
  right : LineTable
  top : LineTable
  bottom : LineTable

namespace LineIndex

def ofRects (rects : List Rect) : LineIndex where
  left := .ofRects rects .x .near
  right := .ofRects rects .x .far
  top := .ofRects rects .y .near
  bottom := .ofRects rects .y .far

def table (index : LineIndex) : Axis → Side → LineTable
  | .x, .near => index.left
  | .x, .far => index.right
  | .y, .near => index.top
  | .y, .far => index.bottom

/-- The positions of the rectangles whose edge on `side` lies at `line`. -/
def positions (index : LineIndex) (axis : Axis) (side : Side) (line : Int) : List Nat :=
  (index.table axis side).positions line

theorem table_ofRects (rects : List Rect) (axis : Axis) (side : Side) :
    (ofRects rects).table axis side = .ofRects rects axis side := by
  cases axis <;> cases side <;> rfl

end LineIndex

end Mosaic
