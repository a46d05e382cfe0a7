import Mosaic.Edge.Index

/-! What a cascade of edge moves works on: the bounds of all regions, the extents they must keep,
and the rectangle that stops every move. -/
namespace Mosaic

structure Scene where
  rects : List Rect
  /-- The extents to keep, in the order of the rectangles; a missing one is zero. -/
  mins : List Size
  bounds : Rect
  index : LineIndex := .ofRects rects
  index_eq : index = .ofRects rects := by rfl

/-- The edges that lie on `side` at `line`, asked to move to `goal`. -/
structure Push where
  axis : Axis
  side : Side
  line : Int
  goal : Int
deriving DecidableEq

/-- A push handed on to the opposite edges of a region, and how far they could go. -/
structure Hop where
  axis : Axis
  side : Side
  line : Int
  requested : Int
  pushed : Int
deriving DecidableEq

/-- What is known about the pushes worked off so far. -/
structure Trace where
  /-- How far each push tried out can go. -/
  probes : List (Push × Int) := []
  /-- The pushes already written. -/
  commits : List Push := []
  /-- The pushes handed on, the latest first. -/
  hops : List Hop := []

def Trace.note (trace : Trace) (hop : Hop) : Trace := { trace with hops := hop :: trace.hops }

namespace Scene

/-- The extent to keep along an axis; a negative one counts as zero. -/
def minAlong (scene : Scene) (position : Nat) (axis : Axis) : Int :=
  match scene.mins[position]? with
  | some min => max (min.along axis) 0
  | none => 0

/-- The push with its goal drawn back to the edge of the bounds. -/
def confine (scene : Scene) (p : Push) : Push :=
  { p with goal := p.side.inward.nearer p.goal (scene.bounds.edge p.axis p.side.flip) }

def moved (scene : Scene) (p : Push) : List Nat := scene.index.positions p.axis p.side p.line

/-- A line at which some region has an edge, strictly inside the bounds. -/
def IsInterior (scene : Scene) (axis : Axis) (line : Int) : Prop :=
  scene.bounds.near axis < line ∧ line < scene.bounds.far axis ∧
    (scene.index.positions axis .near line ≠ [] ∨ scene.index.positions axis .far line ≠ [])

instance (scene : Scene) (axis : Axis) (line : Int) : Decidable (scene.IsInterior axis line) :=
  inferInstanceAs (Decidable (_ ∧ _ ∧ (_ ∨ _)))

end Scene

end Mosaic
