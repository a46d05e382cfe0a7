import Mosaic.Cascade.Patch
import Mosaic.Cascade.Scene

/-! Moving lines of edges inward. A region that would fall below its minimum hands the push on to
its opposite edges, as far as the bounds allow. A push is first probed, which only tells how far it
can go, and then written to a patch. Each hop leaves the line of a region for its opposite line, so
two more levels than there are regions are enough, unless a far edge is cut off where its near edge
lies. Such a region would hand a push on to itself without end. -/
namespace Mosaic.Scene

/-- Levels of recursion. A cascade that takes them all overflows the stack. -/
def depth (scene : Scene) : Nat := scene.rects.length + 2

def probeRegion (scene : Scene) (onward : Push → Trace → Checked (Int × Trace)) (p : Push)
    (found : Int × Trace) (position : Nat) : Checked (Int × Trace) :=
  match scene.rects[position]? with
  | none => .ok found
  | some r =>
    if r.extent p.axis = 0 then .ok found
    else do
      let d := p.side.inward
      let min := scene.minAlong position p.axis
      let opposite := r.edge p.axis p.side.flip
      let allowed := d.nearer p.goal (← d.before opposite min)
      if allowed = p.goal then return found
      else
        let requested := Coord.satAdd opposite (← Coord.sub p.goal allowed)
        let (pushed, trace) ← onward ⟨p.axis, p.side, opposite, requested⟩ found.2
        let trace := trace.note ⟨p.axis, p.side, opposite, requested, pushed⟩
        return (d.nearer found.1 (← d.before pushed min), trace)

/-- How far a push can go, between its line and its goal. Answers are kept in the trace. -/
def probe (scene : Scene) : Nat → Push → Trace → Checked (Int × Trace)
  | 0, _, _ => .error .stack
  | fuel + 1, p, trace => do
    let p := scene.confine p
    if ← p.side.inward.isAhead p.line p.goal then
      match trace.probes.lookup p with
      | some reached => return (reached, trace)
      | none =>
        let (nearest, trace) ←
          (scene.moved p).foldlM (scene.probeRegion (scene.probe fuel) p) (p.goal, trace)
        let reached := p.side.inward.further nearest p.line
        return (reached, { trace with probes := (p, reached) :: trace.probes })
    else return (p.line, trace)

/-- Moves the edges on `side` at `line` outward to `goal`. -/
def grow (scene : Scene) (axis : Axis) (side : Side) (line goal : Int) (patch : Patch) :
    Checked Patch :=
  if goal = line then .ok patch
  else
    let d : Direction := if line < goal then .up else .down
    (scene.index.positions axis side line).foldlM (fun (patch : Patch) position =>
      match scene.rects[position]? with
      | none => .ok patch
      | some r =>
        if r.extent axis = 0 then patch.moveMarker position axis goal d
        else patch.moveEdge position axis side goal d) patch

/-- Bounds written so far, with the nearest goal and the trace. -/
structure Writing where
  nearest : Int
  patch : Patch
  trace : Trace

def commitRegion (scene : Scene) (onward : Push → Trace → Checked (Int × Trace))
    (write : Push → Patch → Trace → Checked Writing) (p : Push) (w : Writing) (position : Nat) :
    Checked Writing :=
  match scene.rects[position]? with
  | none => .ok w
  | some r => do
    let d := p.side.inward
    if r.extent p.axis = 0 then
      return { w with patch := ← w.patch.moveMarker position p.axis p.goal d }
    else
      let min := scene.minAlong position p.axis
      let opposite := r.edge p.axis p.side.flip
      let allowed := d.nearer p.goal (← d.before opposite min)
      let w ←
        if allowed = p.goal then pure w
        else do
          let requested := Coord.satAdd opposite (← Coord.sub p.goal allowed)
          let (pushed, trace) ← onward ⟨p.axis, p.side, opposite, requested⟩ w.trace
          let trace := trace.note ⟨p.axis, p.side, opposite, requested, pushed⟩
          let written ← write ⟨p.axis, p.side, opposite, pushed⟩ w.patch trace
          let patch ← scene.grow p.axis p.side.flip opposite pushed written.patch
          pure ⟨d.nearer w.nearest (← d.before pushed min), patch, written.trace⟩
      return { w with patch := ← w.patch.moveEdge position p.axis p.side p.goal d }

/-- Writes a push, and all that it hands on, to the patch. A push that is already written is not
written again. -/
def commit (scene : Scene) : Nat → Push → Patch → Trace → Checked Writing
  | 0, _, _, _ => .error .stack
  | fuel + 1, p, patch, trace => do
    let p := scene.confine p
    if ← p.side.inward.isAhead p.line p.goal then
      if p ∈ trace.commits then return ⟨p.goal, patch, trace⟩
      else
        let trace := { trace with commits := p :: trace.commits }
        let w ← (scene.moved p).foldlM
          (scene.commitRegion (scene.probe fuel) (scene.commit fuel) p) ⟨p.goal, patch, trace⟩
        return { w with nearest := p.side.inward.further w.nearest p.line }
    else return ⟨p.line, patch, trace⟩

end Mosaic.Scene
