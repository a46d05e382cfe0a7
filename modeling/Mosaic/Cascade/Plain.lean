import Mosaic.Cascade.Plan

/-! Cascades worked off the plain way: every region is looked at for every line, every push is tried
out anew, and every write is made, also one that was made before. -/
namespace Mosaic.Scene

/-- The regions whose edge on `side` lies at `line`, with their positions. -/
def touching (scene : Scene) (axis : Axis) (side : Side) (line : Int) : List (Rect × Nat) :=
  scene.rects.zipIdx.filter fun (r, _) => r.edge axis side = line

/-- Where the opposite edge of a region has to go, if it has to make room for the push. -/
def handOn? (scene : Scene) (p : Push) (r : Rect) (position : Nat) : Checked (Option Push) := do
  let opposite := r.edge p.axis p.side.flip
  let d := p.side.inward
  let allowed := d.nearer p.goal (← d.before opposite (scene.minAlong position p.axis))
  if allowed = p.goal then return none
  else return some { p with
    line := opposite
    goal := Coord.satAdd opposite (← Coord.sub p.goal allowed) }

/-- How far a push can go. -/
def plainProbe (scene : Scene) : Nat → Push → Checked Int
  | 0, _ => .error .stack
  | fuel + 1, p => do
    let p := scene.confine p
    let d := p.side.inward
    if ← d.isAhead p.line p.goal then
      let nearest ← (scene.touching p.axis p.side p.line).foldlM (fun nearest (r, position) => do
        if r.extent p.axis = 0 then return nearest
        else match ← scene.handOn? p r position with
          | none => return nearest
          | some next =>
            let pushed ← scene.plainProbe fuel next
            return d.nearer nearest (← d.before pushed (scene.minAlong position p.axis))) p.goal
      return d.further nearest p.line
    else return p.line

def plainGrow (scene : Scene) (axis : Axis) (side : Side) (line goal : Int) (patch : Patch) :
    Checked Patch :=
  if goal = line then .ok patch
  else
    let d : Direction := if line < goal then .up else .down
    (scene.touching axis side line).foldlM (fun (patch : Patch) (r, position) =>
      if r.extent axis = 0 then patch.moveMarker position axis goal d
      else patch.moveEdge position axis side goal d) patch

def plainCommit (scene : Scene) : Nat → Push → Patch → Checked Patch
  | 0, _, _ => .error .stack
  | fuel + 1, p, patch => do
    let p := scene.confine p
    let d := p.side.inward
    if ← d.isAhead p.line p.goal then
      (scene.touching p.axis p.side p.line).foldlM (fun (patch : Patch) (r, position) => do
        if r.extent p.axis = 0 then patch.moveMarker position p.axis p.goal d
        else
          let patch ← match ← scene.handOn? p r position with
            | none => pure patch
            | some next => do
              let pushed ← scene.plainProbe fuel next
              let written ← scene.plainCommit fuel { next with goal := pushed } patch
              scene.plainGrow p.axis p.side.flip next.line pushed written
          patch.moveEdge position p.axis p.side p.goal d) patch
    else return patch

/-- How far a line can be moved toward the goal. -/
def plainReach (scene : Scene) (axis : Axis) (line goal : Int) : Checked Int :=
  if line < goal then scene.plainProbe scene.depth ⟨axis, .near, line, goal⟩
  else if goal < line then scene.plainProbe scene.depth ⟨axis, .far, line, goal⟩
  else .ok line

/-- Writes the move of a line: one side of it shrinks and the other grows. -/
def plainMove (scene : Scene) (axis : Axis) (line reached : Int) (patch : Patch) : Checked Patch :=
  if line < reached then do
    scene.plainGrow axis .far line reached
      (← scene.plainCommit scene.depth ⟨axis, .near, line, reached⟩ patch)
  else if reached < line then do
    scene.plainGrow axis .near line reached
      (← scene.plainCommit scene.depth ⟨axis, .far, line, reached⟩ patch)
  else .ok patch

/-- A line inside the bounds at which some region has an edge. -/
def IsMovable (scene : Scene) (axis : Axis) (line : Int) : Prop :=
  scene.bounds.near axis < line ∧ line < scene.bounds.far axis ∧
    ∃ r ∈ scene.rects, r.near axis = line ∨ r.far axis = line

instance (scene : Scene) (axis : Axis) (line : Int) : Decidable (scene.IsMovable axis line) :=
  inferInstanceAs (Decidable (_ ∧ _ ∧ ∃ r ∈ _, _))

def plainAchieved (scene : Scene) (held : Grip) (goal : Point) (axis : Axis) :
    Checked (Option Int) :=
  match held.along axis with
  | none => .ok none
  | some line =>
    if scene.IsMovable axis line then do
      return some (← scene.plainReach axis line (goal.along axis))
    else .ok (some line)

def plainWrite (scene : Scene) (held achieved : Grip) (axis : Axis) (patch : Patch) :
    Checked Patch :=
  match held.along axis, achieved.along axis with
  | some line, some reached => scene.plainMove axis line reached patch
  | _, _ => .ok patch

/-- The plan that moves the held lines inside the bounds. -/
def plainPlan (scene : Scene) (held : Grip) (goal : Point) : Checked Plan := do
  let achieved : Grip :=
    ⟨← scene.plainAchieved held goal .x, ← scene.plainAchieved held goal .y⟩
  let patch ← scene.plainWrite held achieved .x ⟨scene.rects⟩
  let patch ← scene.plainWrite held achieved .y patch
  return ⟨held, achieved, patch⟩

end Mosaic.Scene
