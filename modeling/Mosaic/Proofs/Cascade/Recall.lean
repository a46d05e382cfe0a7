import Mosaic.Proofs.Cascade.Plain

/-! Plans made with what earlier ones have left. Kept answers are right whenever they are used, so lines
go as far as ever. Pushes noted as written are not: they are on another patch. -/
namespace Mosaic.Scene

variable {scene : Scene} {held achieved : Grip} {goal : Point} {axis : Axis} {trace trace' : Trace}
  {patch patch' : Patch} {plan : Plan}

theorem commit_known (hs : scene.Fits) (fuel : Nat) {p : Push} {patch : Patch} {trace : Trace} {w : Writing}
    (hfuel : scene.ahead p < fuel) (hclear : scene.Clear p) (hknown : trace.Known scene)
    (h : scene.commit fuel p patch trace = .ok w) : w.trace.Known scene := by
  induction fuel generalizing p patch trace w with
  | zero => omega
  | succ fuel ih =>
    rw [commit] at h
    obtain ⟨b, hb, h⟩ := Checked.bind_eq_ok.1 h
    split at h
    · next hbt =>
      have hlt := (Direction.isAhead_eq_ok hb).1 hbt
      split at h
      · cases Checked.pure_eq_ok.1 h
        exact hknown
      · obtain ⟨done, hfold, h⟩ := Checked.bind_eq_ok.1 h
        cases Checked.pure_eq_ok.1 h
        change done.trace.Known scene
        refine Checked.foldlM_invariant (I := fun w : Writing => w.trace.Known scene) ?_ hknown hfold
        intro i hi s t hst ht
        obtain ⟨r, hr, hline⟩ := mem_moved.1 hi
        rcases commitRegion_eq_ok hr hline ht with ⟨-, -, hsame⟩ | ⟨-, _, -, hcase⟩
        · rwa [hsame]
        · rcases hcase with ⟨-, -, hsame⟩ | ⟨hc, pushed, after, hop, written, hprobe, hw, -, hsame⟩
          · rwa [hsame]
          · rw [hsame]
            have hfewer := hc.fewer hs hclear hlt (scene.confine_goal_le_stop p) hfuel
            have hnext := hc.clear hs hclear
            have hagree := probe_agree hs fuel (p := scene.asked (scene.confine p) i r) hfewer hnext hst
            rw [hprobe] at hagree
            obtain ⟨_, -, hfound⟩ := hagree.to_ok
            have hafter : (after.note hop).Known scene := hfound.known
            exact ih (p := { scene.handed (scene.confine p) i r with goal := pushed }) hfewer hnext hafter hw
    · cases Checked.pure_eq_ok.1 h
      exact hknown

theorem commitHeld_known (hs : scene.Fits) (hsteady : scene.Steady held) (hknown : trace.Known scene)
    (h : scene.commitHeld held achieved axis patch trace = .ok (patch', trace')) : trace'.Known scene := by
  unfold commitHeld at h
  split at h
  · next line reached hline hreached =>
    split at h
    · obtain ⟨w, hw, h⟩ := Checked.bind_eq_ok.1 h
      obtain ⟨grown, -, h⟩ := Checked.bind_eq_ok.1 h
      cases Checked.pure_eq_ok.1 h
      exact commit_known hs _ (scene.ahead_lt_depth _) (Fits.clear_of_near rfl) hknown hw
    · split at h
      · obtain ⟨w, hw, h⟩ := Checked.bind_eq_ok.1 h
        obtain ⟨grown, -, h⟩ := Checked.bind_eq_ok.1 h
        cases Checked.pure_eq_ok.1 h
        exact commit_known hs _ (scene.ahead_lt_depth _) ((hsteady axis line hline).2 reached) hknown hw
      · cases h
        exact hknown
  · cases h
    exact hknown

/-- With right answers at hand, lines go as far as the plain way takes them. -/
theorem planFrom_known (hs : scene.Fits) (hknown : trace.Known scene)
    (h : scene.planFrom held goal trace = .ok (plan, trace')) : trace'.Known scene ∧ plan.held = held ∧
      scene.plainAchieved held goal .x = .ok plan.achieved.x ∧
        scene.plainAchieved held goal .y = .ok plan.achieved.y := by
  have hsteady := steady_moving hs held
  rw [planFrom_eq] at h
  obtain ⟨⟨x, traceX⟩, hx, h⟩ := Checked.bind_eq_ok.1 h
  obtain ⟨⟨y, traceY⟩, hy, h⟩ := Checked.bind_eq_ok.1 h
  obtain ⟨⟨patchX, writtenX⟩, hcommitX, h⟩ := Checked.bind_eq_ok.1 h
  obtain ⟨⟨patchY, writtenY⟩, hcommitY, h⟩ := Checked.bind_eq_ok.1 h
  cases Checked.pure_eq_ok.1 h
  have hagreeX := probeHeld_agree hs hknown held goal .x
  rw [hx] at hagreeX
  obtain ⟨_, hplainX, rfl, hknownX, -⟩ := hagreeX.to_ok
  have hagreeY := probeHeld_agree hs hknownX held goal .y
  rw [hy] at hagreeY
  obtain ⟨_, hplainY, rfl, hknownY, -⟩ := hagreeY.to_ok
  exact ⟨commitHeld_known hs hsteady (commitHeld_known hs hsteady hknownY hcommitX) hcommitY, rfl,
    hplainX, hplainY⟩

/-- What may be asked of a scene again and again. -/
inductive Call
  | probe (axis : Axis) (line goal : Int)
  | plan (held : Grip) (goal : Point)

def Call.IsProbe : Call → Prop
  | .probe .. => True
  | .plan .. => False

def call (scene : Scene) (trace : Trace) : Call → Checked Trace
  | .probe axis line goal => do return (← scene.probeLine axis line goal trace).2
  | .plan held goal => do return (← scene.planFrom held goal trace).2

/-- What is known after calls made with nothing known beforehand. -/
def after (scene : Scene) (calls : List Call) : Checked Trace := calls.foldlM scene.call {}

theorem call_known (hs : scene.Fits) (hapart : scene.Apart) (hknown : trace.Known scene) {c : Call}
    (h : scene.call trace c = .ok trace') :
    trace'.Known scene ∧ (c.IsProbe → trace'.commits = trace.commits) := by
  cases c with
  | probe axis line goal =>
    obtain ⟨⟨reached, found⟩, hprobe, h⟩ := Checked.bind_eq_ok.1 h
    cases Checked.pure_eq_ok.1 h
    have hclear : ∀ goal, scene.Clear ⟨axis, .far, line, goal⟩ := fun _ _ r hr he _ => hapart axis r hr he
    have hagree := probeLine_agree hs hclear hknown goal
    rw [hprobe] at hagree
    obtain ⟨_, -, hfound⟩ := hagree.to_ok
    exact ⟨hfound.known, fun _ => hfound.commits⟩
  | plan held goal =>
    obtain ⟨⟨plan, found⟩, hplan, h⟩ := Checked.bind_eq_ok.1 h
    cases Checked.pure_eq_ok.1 h
    exact ⟨(planFrom_known hs hknown hplan).1, False.elim⟩

theorem after_known (hs : scene.Fits) (hapart : scene.Apart) {calls : List Call}
    (h : scene.after calls = .ok trace) :
    trace.Known scene ∧ ((∀ c ∈ calls, c.IsProbe) → trace.commits = []) := by
  refine Checked.foldlM_invariant (I := fun t : Trace => t.Known scene ∧
    ((∀ c ∈ calls, c.IsProbe) → t.commits = [])) ?_ ⟨Trace.known_empty scene, fun _ => rfl⟩ h
  rintro c hc s t ⟨hknown, hnone⟩ ht
  obtain ⟨hknown', hsame⟩ := call_known hs hapart hknown ht
  exact ⟨hknown', fun hall => (hsame (hall c hc)).trans (hnone hall)⟩

/-- After whatever calls, a plan takes the held lines where one made afresh takes them, and after calls
that write nothing it is the same plan. -/
theorem planFrom_after (hs : scene.Fits) (hapart : scene.Apart) {calls : List Call}
    (hcalls : scene.after calls = .ok trace) (h : scene.planFrom held goal trace = .ok (plan, trace'))
    {fresh : Plan} (hfresh : scene.plan held goal = .ok fresh) :
    plan.held = fresh.held ∧ plan.achieved = fresh.achieved ∧ ((∀ c ∈ calls, c.IsProbe) → plan = fresh) := by
  obtain ⟨⟨_, traceF⟩, hplan, heq⟩ := Checked.bind_eq_ok.1 hfresh
  cases Checked.pure_eq_ok.1 heq
  obtain ⟨hknown, hnone⟩ := after_known hs hapart hcalls
  obtain ⟨-, hheld, hx, hy⟩ := planFrom_known hs hknown h
  obtain ⟨-, hheld', hx', hy'⟩ := planFrom_known hs (Trace.known_empty scene) hplan
  refine ⟨hheld.trans hheld'.symm, ?_, fun hall => ?_⟩
  · have hsameX := Except.ok.inj (hx.symm.trans hx')
    have hsameY := Except.ok.inj (hy.symm.trans hy')
    exact congrArg₂ Grip.mk hsameX hsameY
  · have hagree := planFrom_agree hs hknown (hnone hall) held goal
    have hagree' := planFrom_agree hs (Trace.known_empty scene) rfl held goal
    rw [h] at hagree
    rw [hplan] at hagree'
    obtain ⟨_, hplain, rfl, -⟩ := hagree.to_ok
    obtain ⟨_, hplain', rfl, -⟩ := hagree'.to_ok
    exact Except.ok.inj (hplain.symm.trans hplain')

/-- Two columns of the same width. -/
def halves : Scene where
  rects := [⟨0, 0, 150, 300⟩, ⟨150, 0, 150, 300⟩]
  mins := []
  bounds := ⟨0, 0, 300, 300⟩

theorem planFrom_after_halves : ∃ trace plan trace', halves.after [.probe .x 150 260] = .ok trace ∧
    halves.planFrom (.vertical 150) ⟨200, 0⟩ trace = .ok (plan, trace') ∧
      halves.plan (.vertical 150) ⟨200, 0⟩ = .ok plan := by
  obtain ⟨trace, hcalls⟩ : ∃ trace, halves.after [.probe .x 150 260] = .ok trace := ⟨_, rfl⟩
  obtain ⟨⟨plan, trace'⟩, h⟩ : ∃ found, halves.planFrom (.vertical 150) ⟨200, 0⟩ trace = .ok found := by
    cases hcalls
    exact ⟨_, rfl⟩
  obtain ⟨fresh, hfresh⟩ : ∃ fresh, halves.plan (.vertical 150) ⟨200, 0⟩ = .ok fresh := ⟨_, rfl⟩
  have hapart : halves.Apart := Axis.rec (by decide) (by decide)
  have hsame := (planFrom_after ⟨by decide, by decide⟩ hapart hcalls h hfresh).2.2 (by simp [Call.IsProbe])
  exact ⟨trace, plan, trace', hcalls, h, hsame ▸ hfresh⟩

/-- A plan that is made again leaves the second column where it is: its move is noted as written, but
it is on the patch of the first plan. -/
theorem planFrom_after_ne_plan : ∃ trace plan trace' fresh,
    halves.after [.plan (.vertical 150) ⟨200, 0⟩] = .ok trace ∧
      halves.planFrom (.vertical 150) ⟨200, 0⟩ trace = .ok (plan, trace') ∧
        halves.plan (.vertical 150) ⟨200, 0⟩ = .ok fresh ∧
          plan.patch.rects = [⟨0, 0, 200, 300⟩, ⟨150, 0, 150, 300⟩] ∧
            fresh.patch.rects = [⟨0, 0, 200, 300⟩, ⟨200, 0, 100, 300⟩] :=
  ⟨_, _, _, _, rfl, rfl, rfl, by decide, by decide⟩

end Mosaic.Scene
