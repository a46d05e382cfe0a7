import Mosaic.Proofs.Cascade.Recall

/-! How deep cascades nest. A push is handed on from one edge of a region to the opposite one, so there are fewer
regions ahead of it each time, and no more calls are ever under way at once than there are regions and one more. What
stands below them is never asked. -/
namespace Mosaic

/-- A way to probe pushes and to write them. -/
@[ext]
structure Pushing where
  probe : Push → Trace → Checked (Int × Trace)
  commit : Push → Patch → Trace → Checked Scene.Writing

namespace Pushing

def exhausted : Pushing := ⟨fun _ _ => .error .stack, fun _ _ _ => .error .stack⟩

/-- One call, which leaves all that it hands on to the calls below it. -/
def above (below : Pushing) (scene : Scene) : Pushing where
  probe p trace := do
    let p := scene.confine p
    if ← p.side.inward.isAhead p.line p.goal then
      match trace.probes.lookup p with
      | some reached => return (reached, trace)
      | none =>
        let (nearest, trace) ← (scene.moved p).foldlM (scene.probeRegion below.probe p) (p.goal, trace)
        let reached := p.side.inward.further nearest p.line
        return (reached, { trace with probes := (p, reached) :: trace.probes })
    else return (p.line, trace)
  commit p patch trace := do
    let p := scene.confine p
    if ← p.side.inward.isAhead p.line p.goal then
      if p ∈ trace.commits then return ⟨p.goal, patch, trace⟩
      else
        let trace := { trace with commits := p :: trace.commits }
        let w ← (scene.moved p).foldlM (scene.commitRegion below.probe below.commit p) ⟨p.goal, patch, trace⟩
        return { w with nearest := p.side.inward.further w.nearest p.line }
    else return ⟨p.line, patch, trace⟩

/-- Calls nested to a depth, with the rest below them. -/
def stacked (rest : Pushing) (scene : Scene) : Nat → Pushing
  | 0 => rest
  | levels + 1 => (rest.stacked scene levels).above scene

section

variable (s : Pushing) (scene : Scene)

def probeLine (axis : Axis) (line goal : Int) (trace : Trace) : Checked (Int × Trace) :=
  if line < goal then s.probe ⟨axis, .near, line, goal⟩ trace
  else if goal < line then s.probe ⟨axis, .far, line, goal⟩ trace
  else .ok (line, trace)

def probeHeld (held : Grip) (goal : Point) (axis : Axis) (trace : Trace) : Checked (Option Int × Trace) :=
  match held.along axis with
  | none => .ok (none, trace)
  | some line => do
    let (reached, trace) ← s.probeLine axis line (goal.along axis) trace
    return (some reached, trace)

def commitHeld (held achieved : Grip) (axis : Axis) (patch : Patch) (trace : Trace) : Checked (Patch × Trace) :=
  match held.along axis, achieved.along axis with
  | some line, some reached =>
    if line < reached then do
      let w ← s.commit ⟨axis, .near, line, reached⟩ patch trace
      return (← scene.grow axis .far line reached w.patch, w.trace)
    else if reached < line then do
      let w ← s.commit ⟨axis, .far, line, reached⟩ patch trace
      return (← scene.grow axis .near line reached w.patch, w.trace)
    else .ok (patch, trace)
  | _, _ => .ok (patch, trace)

def planLines (held : Grip) (goal : Point) (trace : Trace) : Checked (Plan × Trace) := do
  let (x, trace) ← s.probeHeld held goal .x trace
  let (y, trace) ← s.probeHeld held goal .y trace
  let achieved : Grip := ⟨x, y⟩
  let (patch, trace) ← s.commitHeld scene held achieved .x ⟨scene.rects⟩ trace
  let (patch, trace) ← s.commitHeld scene held achieved .y patch trace
  return (⟨held, achieved, patch⟩, trace)

def planFrom (held : Grip) (goal : Point) (trace : Trace) : Checked (Plan × Trace) := do
  let moving := scene.moving held
  let (plan, trace) ← s.planLines scene moving goal trace
  let achieved : Grip :=
    ⟨if moving.x = none then held.x else plan.achieved.x, if moving.y = none then held.y else plan.achieved.y⟩
  return ({ plan with held, achieved }, trace)

end

/-- All that is asked of a scene is answered as it is with the depth that a scene allows, whatever is known before. -/
structure Exact (s : Pushing) (scene : Scene) : Prop where
  probe : ∀ p trace, s.probe p trace = scene.probe scene.depth p trace
  commit : ∀ p patch trace, s.commit p patch trace = scene.commit scene.depth p patch trace
  probeLine : ∀ axis line goal trace, s.probeLine axis line goal trace = scene.probeLine axis line goal trace
  planFrom : ∀ held goal trace, s.planFrom scene held goal trace = scene.planFrom held goal trace

end Pushing

namespace Scene

variable {scene : Scene} {p : Push} {i : Nat} {r : Rect} {below below' : Pushing}

def pushing (scene : Scene) (fuel : Nat) : Pushing := ⟨scene.probe fuel, scene.commit fuel⟩

theorem pushing_eq_stacked (scene : Scene) (fuel : Nat) : scene.pushing fuel = Pushing.exhausted.stacked scene fuel := by
  induction fuel with
  | zero => rfl
  | succ fuel ih =>
    rw [Pushing.stacked, ← ih]
    rfl

theorem exact_pushing (scene : Scene) : (scene.pushing scene.depth).Exact scene :=
  ⟨fun _ _ => rfl, fun _ _ _ => rfl, fun _ _ _ _ => rfl, fun _ _ _ => rfl⟩

theorem ahead_le_length (scene : Scene) (p : Push) : scene.ahead p ≤ scene.rects.length := List.countP_le_length

/-- Two ways to push do the same with every push that has fewer regions ahead of it. -/
def SameAhead (scene : Scene) (below below' : Pushing) (p : Push) : Prop :=
  ∀ q, scene.ahead q < scene.ahead p → below.probe q = below'.probe q ∧ below.commit q = below'.commit q

theorem probeRegion_congr (hapart : scene.Apart) (hsame : scene.SameAhead below below' p) (hi : i ∈ scene.moved p)
    (found : Int × Trace) : scene.probeRegion below.probe p found i = scene.probeRegion below'.probe p found i := by
  obtain ⟨r, hr, hline⟩ := mem_moved.1 hi
  rw [probeRegion_eq hr, probeRegion_eq hr]
  split
  · rfl
  · next he =>
    apply Checked.Agree.eq
    refine handOn?_agree hr hline he (.refl _) fun hc _ => ?_
    simp only [(hsame (scene.asked p i r) (hc.ahead_lt_of_apart hapart)).1]
    exact .refl _

theorem commitRegion_congr (hapart : scene.Apart) (hsame : scene.SameAhead below below' p) (hi : i ∈ scene.moved p)
    (w : Writing) :
    scene.commitRegion below.probe below.commit p w i = scene.commitRegion below'.probe below'.commit p w i := by
  obtain ⟨r, hr, hline⟩ := mem_moved.1 hi
  rw [commitRegion_eq hr, commitRegion_eq hr]
  split
  · rfl
  · next he =>
    apply Checked.Agree.eq
    refine handOn?_agree hr hline he (.refl _) fun hc _ => ?_
    have hcommit : ∀ goal, below.commit { scene.asked p i r with goal } =
        below'.commit { scene.asked p i r with goal } :=
      fun goal => (hsame { scene.asked p i r with goal } (hc.ahead_lt_of_apart hapart)).2
    simp only [(hsame (scene.asked p i r) (hc.ahead_lt_of_apart hapart)).1, hcommit]
    exact .refl _

theorem above_congr (hapart : scene.Apart) (hsame : scene.SameAhead below below' p) :
    (below.above scene).probe p = (below'.above scene).probe p ∧
      (below.above scene).commit p = (below'.above scene).commit p := by
  have hsame : scene.SameAhead below below' (scene.confine p) := hsame
  refine ⟨funext fun trace => ?_, funext fun patch => funext fun trace => ?_⟩
  · have hfold : ∀ found,
        (scene.moved (scene.confine p)).foldlM (scene.probeRegion below.probe (scene.confine p)) found =
          (scene.moved (scene.confine p)).foldlM (scene.probeRegion below'.probe (scene.confine p)) found :=
      Checked.foldlM_congr fun i hi => probeRegion_congr hapart hsame hi
    simp only [Pushing.above, hfold]
  · have hfold : ∀ w, (scene.moved (scene.confine p)).foldlM
          (scene.commitRegion below.probe below.commit (scene.confine p)) w =
        (scene.moved (scene.confine p)).foldlM
          (scene.commitRegion below'.probe below'.commit (scene.confine p)) w :=
      Checked.foldlM_congr fun i hi => commitRegion_congr hapart hsame hi
    simp only [Pushing.above, hfold]

/-- What stands below as many calls as it takes is never asked, so it does not matter, nor how deep it stands. -/
theorem stacked_congr (hapart : scene.Apart) (rest rest' : Pushing) {levels levels' : Nat}
    (hlevels : scene.ahead p < levels) (hlevels' : scene.ahead p < levels') :
    (rest.stacked scene levels).probe p = (rest'.stacked scene levels').probe p ∧
      (rest.stacked scene levels).commit p = (rest'.stacked scene levels').commit p := by
  induction levels generalizing p levels' with
  | zero => omega
  | succ levels ih =>
    obtain ⟨levels', rfl⟩ := Nat.exists_eq_succ_of_ne_zero (Nat.ne_zero_of_lt hlevels')
    refine above_congr hapart fun q hq => ih ?_ ?_
    · omega
    · omega

/-- As many calls as there are regions, and one more, are enough for every push. -/
theorem stacked_eq_pushing (hapart : scene.Apart) (rest : Pushing) {levels : Nat}
    (hlevels : scene.rects.length + 1 ≤ levels) : rest.stacked scene levels = scene.pushing scene.depth := by
  have hcongr : ∀ p, (rest.stacked scene levels).probe p = (Pushing.exhausted.stacked scene scene.depth).probe p ∧
      (rest.stacked scene levels).commit p = (Pushing.exhausted.stacked scene scene.depth).commit p := by
    intro p
    have hle := scene.ahead_le_length p
    exact stacked_congr hapart rest .exhausted (by omega) (scene.ahead_lt_depth p)
  rw [pushing_eq_stacked]
  exact Pushing.ext (funext fun p => (hcongr p).1) (funext fun p => (hcongr p).2)

theorem apart_of_sharp (hsharp : ∀ r ∈ scene.rects, r.Sharp) : scene.Apart := by
  intro axis r hr hextent
  have hfar := (hsharp r hr).far axis
  have hnonneg := (hsharp r hr).proper.extent_nonneg axis
  omega

/-- Where no far edge is cut off, calls never nest deeper than there are regions and one more: whatever stands below
that is never asked, be it for a probe, for a push that is written or for a plan, with whatever is known before. So a
level of recursion more than that gives what any deeper recursion gives. -/
theorem stacked_exact (hsharp : ∀ r ∈ scene.rects, r.Sharp) :
    (∀ (rest : Pushing) (levels : Nat), scene.rects.length + 1 ≤ levels → (rest.stacked scene levels).Exact scene) ∧
      ∀ fuel, scene.rects.length + 2 ≤ fuel → (scene.pushing fuel).Exact scene := by
  have hapart := apart_of_sharp hsharp
  refine ⟨fun rest levels hlevels => ?_, fun fuel hfuel => ?_⟩
  · rw [stacked_eq_pushing hapart rest hlevels]
    exact exact_pushing scene
  · rw [pushing_eq_stacked, stacked_eq_pushing hapart .exhausted (by omega)]
    exact exact_pushing scene

/-- Four regions need five calls at most. -/
theorem stacked_exact_crowdedRows : (∀ r ∈ crowdedRows.rects, r.Sharp) ∧ ∃ plan trace,
    (Pushing.exhausted.stacked crowdedRows 5).planFrom crowdedRows (.vertical 10) ⟨18, 0⟩ {} = .ok (plan, trace) ∧
      plan.patch.rects = [⟨0, 0, 18, 20⟩, ⟨18, 0, 5, 10⟩, ⟨18, 10, 5, 10⟩, ⟨23, 0, 7, 20⟩] ∧
        (crowdedRows.pushing 6).Exact crowdedRows := by
  have hsharp : ∀ r ∈ crowdedRows.rects, r.Sharp := by decide
  obtain ⟨hstacked, hdeep⟩ := stacked_exact hsharp
  obtain ⟨plan, trace, h, hrects⟩ : ∃ plan trace,
      crowdedRows.planFrom (.vertical 10) ⟨18, 0⟩ {} = .ok (plan, trace) ∧
        plan.patch.rects = [⟨0, 0, 18, 20⟩, ⟨18, 0, 5, 10⟩, ⟨18, 10, 5, 10⟩, ⟨23, 0, 7, 20⟩] :=
    ⟨_, _, rfl, by decide⟩
  have hsame := (hstacked .exhausted 5 (by decide)).planFrom (.vertical 10) ⟨18, 0⟩ {}
  exact ⟨hsharp, plan, trace, hsame.trans h, hrects, hdeep 6 (by decide)⟩

def lone : Scene where
  rects := [⟨0, 0, 10, 10⟩]
  mins := [⟨5, 5⟩]
  bounds := ⟨0, 0, 12, 10⟩

/-- One call is not enough for one region, as its far edge is asked to make way. -/
example : (Pushing.exhausted.stacked lone 1).probeLine .x 0 8 {} = .error .stack ∧
    (do return (← (Pushing.exhausted.stacked lone 2).probeLine .x 0 8 {}).1) = (.ok 7 : Checked Int) := ⟨rfl, rfl⟩

end Scene

end Mosaic
