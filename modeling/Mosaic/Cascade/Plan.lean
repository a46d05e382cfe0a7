import Mosaic.Cascade.Shrink

/-! Plans: how far held lines can be moved toward a point, and the bounds that result. Only lines
inside the bounds move, unless the bounds themselves are being resized. -/
namespace Mosaic

structure Plan where
  held : Grip
  achieved : Grip
  patch : Patch
deriving DecidableEq

/-- Some held line leaves its place. -/
def Plan.Moves (plan : Plan) : Prop := plan.held ≠ plan.achieved

instance (plan : Plan) : Decidable plan.Moves := inferInstanceAs (Decidable (_ ≠ _))

namespace Scene

/-- How far the line can be moved toward the goal. -/
def probeLine (scene : Scene) (axis : Axis) (line goal : Int) (trace : Trace) :
    Checked (Int × Trace) :=
  if line < goal then scene.probe scene.depth ⟨axis, .near, line, goal⟩ trace
  else if goal < line then scene.probe scene.depth ⟨axis, .far, line, goal⟩ trace
  else .ok (line, trace)

def probeHeld (scene : Scene) (held : Grip) (goal : Point) (axis : Axis) (trace : Trace) :
    Checked (Option Int × Trace) :=
  match held.along axis with
  | none => .ok (none, trace)
  | some line => do
    let (reached, trace) ← scene.probeLine axis line (goal.along axis) trace
    return (some reached, trace)

/-- Writes the move of a held line: one side of it shrinks and the other grows. -/
def commitHeld (scene : Scene) (held achieved : Grip) (axis : Axis) (patch : Patch)
    (trace : Trace) : Checked (Patch × Trace) :=
  match held.along axis, achieved.along axis with
  | some line, some reached =>
    if line < reached then do
      let w ← scene.commit scene.depth ⟨axis, .near, line, reached⟩ patch trace
      return (← scene.grow axis .far line reached w.patch, w.trace)
    else if reached < line then do
      let w ← scene.commit scene.depth ⟨axis, .far, line, reached⟩ patch trace
      return (← scene.grow axis .near line reached w.patch, w.trace)
    else .ok (patch, trace)
  | _, _ => .ok (patch, trace)

/-- The plan that moves all held lines, also those on the bounds. -/
def planLines (scene : Scene) (held : Grip) (goal : Point) (trace : Trace) :
    Checked (Plan × Trace) := do
  let (x, trace) ← scene.probeHeld held goal .x trace
  let (y, trace) ← scene.probeHeld held goal .y trace
  let achieved : Grip := ⟨x, y⟩
  let (patch, trace) ← scene.commitHeld held achieved .x ⟨scene.rects⟩ trace
  let (patch, trace) ← scene.commitHeld held achieved .y patch trace
  return (⟨held, achieved, patch⟩, trace)

def movable (scene : Scene) (held : Grip) (axis : Axis) : Option Int :=
  (held.along axis).filter fun line => scene.IsInterior axis line

/-- The plan that moves the held lines inside the bounds; any other held line stays. -/
def planFrom (scene : Scene) (held : Grip) (goal : Point) (trace : Trace) :
    Checked (Plan × Trace) := do
  let moving : Grip := ⟨scene.movable held .x, scene.movable held .y⟩
  let (plan, trace) ← scene.planLines moving goal trace
  let achieved : Grip :=
    ⟨if moving.x = none then held.x else plan.achieved.x,
      if moving.y = none then held.y else plan.achieved.y⟩
  return ({ plan with held, achieved }, trace)

def plan (scene : Scene) (held : Grip) (goal : Point) : Checked Plan := do
  return (← scene.planFrom held goal {}).1

end Scene

end Mosaic
