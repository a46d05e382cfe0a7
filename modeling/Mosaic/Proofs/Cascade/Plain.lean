import Mosaic.Proofs.Cascade.Cover
import Mosaic.Proofs.Cascade.Rewrite

/-! Plans made the plain way. Looking lines up, keeping answers and skipping what is written already are
all there is to the faster way: both make the same plan, or are refused for the same reason. -/
namespace Mosaic.Scene

variable {scene : Scene} {held : Grip} {goal : Point} {axis : Axis} {trace : Trace} {start : Patch}
  {root : Push} {line reached : Int}

theorem probeLine_agree (hs : scene.Fits) (hclear : ∀ goal, scene.Clear ⟨axis, .far, line, goal⟩)
    (hknown : trace.Known scene) (goal : Int) : Checked.Agree (scene.Found trace)
      (scene.probeLine axis line goal trace) (scene.plainReach axis line goal) := by
  unfold probeLine plainReach
  split
  · exact probe_agree hs _ (scene.ahead_lt_depth _) (Fits.clear_of_near rfl) hknown
  · split
    · exact probe_agree hs _ (scene.ahead_lt_depth _) (hclear goal) hknown
    · exact .ok ⟨rfl, hknown, rfl⟩

/-- Where a line goes when all held lines are told apart: one that cannot be moved stays. -/
def rested (scene : Scene) (held : Grip) (axis : Axis) (reached : Option Int) : Option Int :=
  if scene.movable held axis = none then held.along axis else reached

theorem planFrom_eq (scene : Scene) (held : Grip) (goal : Point) (trace : Trace) :
    scene.planFrom held goal trace = do
      let (x, trace) ← scene.probeHeld (scene.moving held) goal .x trace
      let (y, trace) ← scene.probeHeld (scene.moving held) goal .y trace
      let (patch, trace) ← scene.commitHeld (scene.moving held) ⟨x, y⟩ .x ⟨scene.rects⟩ trace
      let (patch, trace) ← scene.commitHeld (scene.moving held) ⟨x, y⟩ .y patch trace
      return (⟨held, ⟨scene.rested held .x x, scene.rested held .y y⟩, patch⟩, trace) := by
  simp only [planFrom, planLines, bind_assoc, pure_bind]
  rfl

theorem movable_cases (scene : Scene) (held : Grip) (axis : Axis) :
    (held.along axis = none ∧ scene.movable held axis = none) ∨
      ∃ line, held.along axis = some line ∧
        ((scene.IsMovable axis line ∧ scene.movable held axis = some line) ∨
          (¬ scene.IsMovable axis line ∧ scene.movable held axis = none)) := by
  unfold movable
  cases held.along axis with
  | none => exact .inl ⟨rfl, rfl⟩
  | some line =>
    refine .inr ⟨line, rfl, ?_⟩
    by_cases hin : scene.IsMovable axis line
    · exact .inl ⟨hin, Option.filter_some_pos (decide_eq_true (isInterior_iff.2 hin))⟩
    · exact .inr ⟨hin, Option.filter_some_neg (by simpa using mt isInterior_iff.1 hin)⟩

theorem probeHeld_agree (hs : scene.Fits) (hknown : trace.Known scene) (held : Grip) (goal : Point)
    (axis : Axis) : Checked.Agree (fun found achieved => scene.rested held axis found.1 = achieved ∧
      found.2.Known scene ∧ found.2.commits = trace.commits)
        (scene.probeHeld (scene.moving held) goal axis trace) (scene.plainAchieved held goal axis) := by
  have hsteady := steady_moving hs held axis
  rw [along_moving] at hsteady
  unfold probeHeld plainAchieved
  rw [along_moving]
  rcases movable_cases scene held axis with ⟨hnone, hmov⟩ | ⟨line, hline, ⟨hin, hmov⟩ | ⟨hout, hmov⟩⟩
  · rw [hnone, hmov]
    exact .ok ⟨by rw [rested, if_pos hmov, hnone], hknown, rfl⟩
  · rw [hline, hmov]
    simp only [if_pos hin]
    refine (probeLine_agree hs (hsteady line hmov).2 hknown (goal.along axis)).bind ?_
    rintro ⟨reached, after⟩ _ - - ⟨rfl, hafter, hcommits⟩
    exact .ok ⟨by rw [rested, hmov, if_neg (by simp)], hafter, hcommits⟩
  · rw [hline, hmov]
    simp only [if_neg hout]
    exact .ok ⟨by rw [rested, if_pos hmov, hline], hknown, rfl⟩

theorem plainMove_eq (hroot : scene.Viable root) (patch : Patch) :
    scene.plainMove root.axis root.line root.goal patch =
      scene.plainCommit scene.depth root patch >>=
        scene.plainGrow root.axis root.side.flip root.line root.goal :=
  hroot.ite_side (fun side => scene.plainCommit scene.depth ⟨root.axis, side, root.line, root.goal⟩ patch >>=
    scene.plainGrow root.axis side.flip root.line root.goal) _

theorem plainMove_self (scene : Scene) (axis : Axis) (line : Int) (patch : Patch) :
    scene.plainMove axis line line patch = .ok patch := by
  rw [plainMove, if_neg (Int.lt_irrefl _), if_neg (Int.lt_irrefl _)]

theorem commitHeld_agree (hs : scene.Fits) (achieved : Grip) (hstart : scene.Begins axis start)
    (hknown : trace.Known scene) (hfresh : ∀ q ∈ trace.commits, q.axis ≠ axis) {target : Int}
    (hprobed : scene.ProbedBy axis (scene.movable held axis) (achieved.along axis) target) {rest : Grip}
    (hrest : rest.along axis = scene.rested held axis (achieved.along axis)) :
    Checked.Agree (fun found patch => found.1 = patch ∧ found.2.Known scene)
      (scene.commitHeld (scene.moving held) achieved axis start trace)
      (scene.plainWrite held rest axis start) := by
  have hsteady := steady_moving hs held axis
  rw [along_moving] at hsteady
  rcases hprobed with ⟨hnone, -⟩ | ⟨line, reached, hmov, hreached, hprobed⟩
  · have hwrite : scene.plainWrite held rest axis start = .ok start := by
      rw [plainWrite, hrest, rested, if_pos hnone]
      cases held.along axis with
      | none => rfl
      | some line => exact plainMove_self scene axis line start
    rw [hwrite, commitHeld, along_moving, hnone]
    exact .ok ⟨rfl, hknown⟩
  · have hline := (movable_eq_some hmov).1
    have hwrite : scene.plainWrite held rest axis start = scene.plainMove axis line reached start := by
      rw [plainWrite, hrest, rested, if_neg (by simp [hmov]), hline, hreached]
    rw [hwrite]
    obtain ⟨hfits, hclear⟩ := hsteady line hmov
    rcases hprobed.reachable hfits hclear with rfl | ⟨side, hroot⟩
    · rw [plainMove_self, commitHeld, along_moving, hmov, hreached]
      simp only [if_neg (Int.lt_irrefl _)]
      exact .ok ⟨rfl, hknown⟩
    · have hmoving : (scene.moving held).along axis = some line := by rw [along_moving, hmov]
      rw [commitHeld_eq hroot hmoving hreached, plainMove_eq hroot]
      have hagree := commit_agree hs hroot scene.depth .refl (scene.ahead_lt_depth _) hstart.drafts hknown
        (fun q hq haxis _ _ => absurd haxis (hfresh q hq)) (fun q hq haxis _ _ => absurd haxis (hfresh q hq))
      refine hagree.bind ?_
      rintro w _ - - ⟨rfl, hw, -⟩
      rw [grow_eq_plainGrow]
      exact (Checked.Agree.refl _).map fun _ _ _ _ heq => ⟨heq, hw⟩

/-- A plan made with known answers, and with nothing written yet, is the plain one. -/
theorem planFrom_agree (hs : scene.Fits) (hknown : trace.Known scene) (hfresh : trace.commits = [])
    (held : Grip) (goal : Point) : Checked.Agree (fun found plan => found.1 = plan ∧ found.2.Known scene)
      (scene.planFrom held goal trace) (scene.plainPlan held goal) := by
  have hsteady := steady_moving hs held
  rw [planFrom_eq, plainPlan]
  refine (probeHeld_agree hs hknown held goal .x).bind ?_
  rintro ⟨x, traceX⟩ _ hx - ⟨rfl, hknownX, hsameX⟩
  refine (probeHeld_agree hs hknownX held goal .y).bind ?_
  rintro ⟨y, traceY⟩ _ hy - ⟨rfl, hknownY, hsameY⟩
  have hprobedX : scene.ProbedBy .x ((scene.moving held).along .x) (Grip.along ⟨x, y⟩ .x) (goal.along .x) :=
    (probeHeld_probed hs hsteady (hknown.sound hs) hx).1
  have hprobedY := (probeHeld_probed hs hsteady (hknownX.sound hs) hy).1
  have hnone : traceY.commits = [] := hsameY.trans (hsameX.trans hfresh)
  have hfreshX : ∀ q ∈ traceY.commits, q.axis ≠ .x := by
    rw [hnone]
    intro q hq
    cases hq
  refine (commitHeld_agree hs ⟨x, y⟩ (begins_self hs .x) hknownY hfreshX hprobedX rfl).bind ?_
  rintro ⟨patchX, writtenX⟩ _ hcommit - ⟨rfl, hwritten⟩
  obtain ⟨m, -, hredrawn, -, haxes⟩ := commitHeld_moved hs (begins_self hs .x) (hknownY.sound hs)
    hfreshX hsteady hprobedX hcommit
  have hfreshY : ∀ q ∈ writtenX.commits, q.axis ≠ .y := by
    intro q hq
    rcases haxes q hq with hq | hq
    · rw [hnone] at hq
      cases hq
    · simp [hq]
  have hbegins := begins_of_redrawn hredrawn
  refine (commitHeld_agree hs ⟨x, y⟩ hbegins hwritten hfreshY hprobedY rfl).bind ?_
  rintro ⟨patchY, writtenY⟩ _ - - ⟨rfl, hall⟩
  exact .ok ⟨rfl, hall⟩

/-- Plans made with an index, with kept answers and without repeated writes are the plain ones. -/
theorem plan_eq_plainPlan (hs : scene.Fits) (held : Grip) (goal : Point) :
    scene.plan held goal = scene.plainPlan held goal := by
  have hagree := planFrom_agree hs (Trace.known_empty scene) rfl held goal
  exact (hagree.map fun found plan _ _ h => h.1).eq

/-- A wide column before two rows, which both push the line behind them. -/
def crowdedRows : Scene where
  rects := [⟨0, 0, 10, 20⟩, ⟨10, 0, 10, 10⟩, ⟨10, 10, 10, 10⟩, ⟨20, 0, 10, 20⟩]
  mins := [⟨5, 5⟩, ⟨5, 5⟩, ⟨5, 5⟩, ⟨5, 5⟩]
  bounds := ⟨0, 0, 30, 20⟩

theorem plan_eq_plainPlan_crowdedRows : ∃ plan, crowdedRows.plan (.vertical 10) ⟨18, 0⟩ = .ok plan ∧
    crowdedRows.plainPlan (.vertical 10) ⟨18, 0⟩ = .ok plan ∧
      plan.patch.rects = [⟨0, 0, 18, 20⟩, ⟨18, 0, 5, 10⟩, ⟨18, 10, 5, 10⟩, ⟨23, 0, 7, 20⟩] := by
  obtain ⟨plan, h, hrects⟩ : ∃ plan, crowdedRows.plan (.vertical 10) ⟨18, 0⟩ = .ok plan ∧
      plan.patch.rects = [⟨0, 0, 18, 20⟩, ⟨18, 0, 5, 10⟩, ⟨18, 10, 5, 10⟩, ⟨23, 0, 7, 20⟩] :=
    ⟨_, rfl, by decide⟩
  have hfits : crowdedRows.Fits := ⟨by decide, by decide⟩
  have hsame := plan_eq_plainPlan hfits (.vertical 10) ⟨18, 0⟩
  exact ⟨plan, h, hsame ▸ h, hrects⟩

end Mosaic.Scene
