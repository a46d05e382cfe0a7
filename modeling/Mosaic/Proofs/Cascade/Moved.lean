import Mosaic.Cascade.Plan
import Mosaic.Proofs.Cascade.Lines
import Mosaic.Proofs.Cover.Carry

/-! What a plan does to the lines of an axis: it moves the held line as far as the probe said, and
with it the lines that are in the way. -/
namespace Mosaic

/-- A rectangle of a patch whose lines along the axis have been moved. -/
structure Rect.Redrawn (axis : Axis) (m : Int → Int) (r b : Rect) : Prop extends
    Rect.Carried axis m r b where
  fits : b.Fits
  proper : b.IsProper
  exact : r.far axis = r.near axis + r.extent axis → b.far axis = b.near axis + b.extent axis
  respanned : Rect.Respanned axis r b

theorem Rect.redrawn_fits {axis : Axis} {m : Int → Int} {rs bs : List Rect}
    (h : List.Forall₂ (Rect.Redrawn axis m) rs bs) : ∀ b ∈ bs, b.Fits ∧ b.IsProper := by
  intro b hb
  obtain ⟨r, -, hrb⟩ := forall₂_of_mem h hb
  exact ⟨hrb.fits, hrb.proper⟩

theorem Rect.Redrawn.sharp {axis : Axis} {m : Int → Int} {r b : Rect} (h : Rect.Redrawn axis m r b)
    (hr : r.Sharp) : b.Sharp := by
  refine ⟨h.fits, h.proper, fun other => ?_⟩
  rcases other.eq_or_eq_cross axis with rfl | rfl
  · exact h.exact (hr.far other)
  · rw [h.across.far, h.across.1, h.across.2]
    exact hr.far _

theorem Rect.redrawn_sharp {axis : Axis} {m : Int → Int} {rs bs : List Rect}
    (h : List.Forall₂ (Rect.Redrawn axis m) rs bs) (hrs : ∀ r ∈ rs, r.Sharp) : ∀ b ∈ bs, b.Sharp := by
  intro b hb
  obtain ⟨r, hr, hrb⟩ := forall₂_of_mem h hb
  exact hrb.sharp (hrs r hr)

namespace Scene

variable {scene : Scene} {root : Push} {axis : Axis} {line reached : Int} {m : Int → Int}
  {start patch : Patch} {trace trace' : Trace}

/-- The lines of an axis when one of them has been moved: all stay, or each is where the push of the
moved one rests it. -/
def Moved (scene : Scene) (axis : Axis) (line reached : Int) (m : Int → Int) : Prop :=
  (reached = line ∧ m = id) ∨ ∃ side, scene.Viable ⟨axis, side, line, reached⟩ ∧
    ∀ c, scene.Rests ⟨axis, side, line, reached⟩ c (m c)

theorem Moved.held (h : scene.Moved axis line reached m) (hs : scene.Fits) : m line = reached := by
  rcases h with ⟨rfl, rfl⟩ | ⟨side, hroot, hm⟩
  · rfl
  · exact (hm line).line hs hroot rfl

theorem Moved.up (h : scene.Moved axis line reached m) (hlt : line < reached) :
    scene.Viable ⟨axis, .near, line, reached⟩ ∧ ∀ c, scene.Rests ⟨axis, .near, line, reached⟩ c (m c) := by
  rcases h with ⟨rfl, -⟩ | ⟨side, hroot, hm⟩
  · exact absurd hlt (Int.lt_irrefl _)
  · cases side
    · exact ⟨hroot, hm⟩
    · have hback : line > reached := by simpa [Push.dir, Side.inward] using hroot.ahead
      exact absurd hlt (Int.lt_asymm hback)

/-- Both ends of the bounds stay, unless one of them is moved itself. -/
theorem Moved.near (h : scene.Moved axis line reached m) (hs : scene.Fits)
    (hline : scene.bounds.near axis < line) : m (scene.bounds.near axis) = scene.bounds.near axis := by
  rcases h with ⟨rfl, rfl⟩ | ⟨side, hroot, hm⟩
  · rfl
  · cases side
    · exact (hm _).behind hs hroot (by simpa [Push.dir, Side.inward] using hline)
    · exact (hm _).stop hs hroot rfl

theorem Moved.far (h : scene.Moved axis line reached m) (hs : scene.Fits)
    (hline : line < scene.bounds.far axis) : m (scene.bounds.far axis) = scene.bounds.far axis := by
  rcases h with ⟨rfl, rfl⟩ | ⟨side, hroot, hm⟩
  · rfl
  · cases side
    · exact (hm _).stop hs hroot rfl
    · exact (hm _).behind hs hroot (by simpa [Push.dir, Side.inward] using hline)

theorem Moved.within (h : scene.Moved axis line reached m) (hs : scene.Fits) {c : Int}
    (hn : scene.bounds.near axis ≤ c) (hf : c ≤ scene.bounds.far axis) :
    scene.bounds.near axis ≤ m c ∧ m c ≤ scene.bounds.far axis := by
  rcases h with ⟨rfl, rfl⟩ | ⟨side, hroot, hm⟩
  · exact ⟨hn, hf⟩
  · have hle := (hm c).le hs hroot
    have hstop := (hm c).le_stop hroot
    cases side
    · simp only [Push.dir, Side.inward, Direction.pos_up] at hle hstop
      exact ⟨Int.le_trans hn hle, hstop hf⟩
    · simp only [Push.dir, Side.inward, Direction.pos_down, Int.neg_le_neg_iff] at hle hstop
      exact ⟨hstop hn, Int.le_trans hle hf⟩

/-- No region gets smaller than its minimum, unless it was. -/
theorem Moved.room (h : scene.Moved axis line reached m) (hs : scene.Fits) {i : Nat} {r : Rect}
    (hr : scene.rects[i]? = some r) (he : r.extent axis ≠ 0) :
    min (scene.minAlong i axis) (r.far axis - r.near axis) ≤ m (r.far axis) - m (r.near axis) := by
  rcases h with ⟨rfl, rfl⟩ | ⟨side, hroot, hm⟩
  · exact Int.min_le_right _ _
  · cases side
    · have hroom := (hm (r.near axis)).room hs hroot hr he rfl (hm (r.far axis))
      simp only [Push.dir, Side.inward, Direction.pos_up, Rect.edge, Side.flip] at hroom
      omega
    · have hroom := (hm (r.far axis)).room hs hroot hr he rfl (hm (r.near axis))
      simp only [Push.dir, Side.inward, Direction.pos_down, Rect.edge, Side.flip] at hroom
      omega

/-- Writing a push and growing the regions behind it moves the lines of the axis. -/
theorem commit_grow (hs : scene.Fits) (hroot : scene.Viable root) (hstart : scene.Begins root.axis start)
    (hsound : trace.Sound scene) (hfresh : ∀ q ∈ trace.commits, q.axis ≠ root.axis) {w : Writing}
    (hw : scene.commit scene.depth root start trace = .ok w)
    (hg : scene.grow root.axis root.side.flip root.line root.goal w.patch = .ok patch) :
    ∃ m, (∀ c, scene.Rests root c (m c)) ∧
      List.Forall₂ (Rect.Redrawn root.axis m) start.rects patch.rects ∧ w.trace.Sound scene ∧
      ∀ q ∈ w.trace.commits, q ∈ trace.commits ∨ q.axis = root.axis := by
  obtain ⟨hcont, hdone⟩ := commit_continues hs hroot _ .refl (scene.ahead_lt_depth root) hstart.drafts
    hsound (fun q hq haxis _ _ => absurd haxis (hfresh q hq)) hw
  obtain ⟨hd, hadv, hback⟩ := hcont.drafts.grow hs hroot .refl hg
  have hdone := hdone.mono hadv
  choose m hm using scene.exists_rests hroot.feasible
  refine ⟨m, hm, ?_, hcont.sound, fun q hq => ?_⟩
  · refine List.forall₂_of_length_eq_of_get (hstart.length.trans hd.length.symm) fun i hi hi' => ?_
    have hr := List.getElem?_eq_getElem (hstart.length ▸ hi)
    obtain ⟨a, ha, -, -, hsame⟩ := hstart.region i _ hr
    obtain ⟨a', b, ha', hb, hdrafted⟩ := hd.drafted i _ hr
    obtain rfl := Option.some.inj (ha.symm.trans ha')
    have hedge : ∀ side, b.edge root.axis side = m (a.edge root.axis side) := by
      intro side
      rw [hsame.edge side]
      exact (hd.rests hdone hback hr hb side).unique (hm _) hs hroot
    obtain ⟨_, rfl⟩ := List.getElem?_eq_some_iff.1 ha
    obtain ⟨_, rfl⟩ := List.getElem?_eq_some_iff.1 hb
    exact ⟨⟨hedge .near, hedge .far, hdrafted.across⟩, hdrafted.fits, hdrafted.proper,
      hdrafted.exact_of_start hsame, hdrafted.respanned.of_sameAlong hsame⟩
  · exact (hcont.commits q hq).imp_right fun hq => (Follows.axis_side hq.1).1

/-- How far a line can be moved, as far as writing the move is concerned. -/
def Reachable (scene : Scene) (axis : Axis) (line reached : Int) : Prop :=
  reached = line ∨ ∃ side, scene.Viable ⟨axis, side, line, reached⟩

/-- The lines of an axis when a line of it may have been held and moved. -/
def MovedBy (scene : Scene) (axis : Axis) (held achieved : Option Int) (m : Int → Int) : Prop :=
  (held = none ∧ achieved = none ∧ m = id) ∨
    ∃ line reached, held = some line ∧ achieved = some reached ∧ scene.Moved axis line reached m

/-- The held lines are coordinates, and the regions up to them have their edges apart. -/
def Steady (scene : Scene) (held : Grip) : Prop :=
  ∀ axis line, held.along axis = some line → Coord.Fits line ∧ ∀ goal, scene.Clear ⟨axis, .far, line, goal⟩

variable {held achieved : Grip}

theorem Reaches.reachable {side : Side} {line goal reached : Int}
    (h : scene.Reaches ⟨axis, side, line, goal⟩ reached) (hline : Coord.Fits line)
    (hclear : scene.Clear ⟨axis, side, line, goal⟩) : scene.Reachable axis line reached := by
  by_cases heq : reached = line
  · exact .inl heq
  · obtain ⟨-, hf⟩ := h.moved heq
    have hahead : side.inward.pos line ≤ side.inward.pos reached := h.ahead
    have hne : side.inward.pos line ≠ side.inward.pos reached := fun he =>
      heq (side.inward.pos_inj.1 he).symm
    exact .inr ⟨side, hline, by simp only [Push.dir]; omega, hclear, hf⟩

/-- How far a line has been found to go toward a goal. -/
structure Probed (scene : Scene) (axis : Axis) (line goal reached : Int) : Prop where
  up : line < goal → scene.Reaches ⟨axis, .near, line, goal⟩ reached
  down : goal < line → scene.Reaches ⟨axis, .far, line, goal⟩ reached
  still : line = goal → reached = line

def ProbedBy (scene : Scene) (axis : Axis) (held achieved : Option Int) (goal : Int) : Prop :=
  (held = none ∧ achieved = none) ∨
    ∃ line reached, held = some line ∧ achieved = some reached ∧ scene.Probed axis line goal reached

theorem Probed.reaches {side : Side} {line goal reached : Int} (h : scene.Probed axis line goal reached)
    (hlt : side.inward.pos line < side.inward.pos goal) : scene.Reaches ⟨axis, side, line, goal⟩ reached := by
  cases side
  · exact h.up (by simpa [Side.inward] using hlt)
  · exact h.down (by simpa [Side.inward] using hlt)

theorem Probed.reachable {line goal reached : Int} (h : scene.Probed axis line goal reached)
    (hline : Coord.Fits line) (hclear : ∀ goal, scene.Clear ⟨axis, .far, line, goal⟩) :
    scene.Reachable axis line reached := by
  rcases Int.lt_trichotomy line goal with hlt | heq | hgt
  · exact (h.up hlt).reachable hline (Fits.clear_of_near rfl)
  · exact .inl (h.still heq)
  · exact (h.down hgt).reachable hline (hclear goal)

/-- Nothing stands in the way of a line on which no region with an extent begins. -/
theorem Probed.outward {line goal reached : Int} (h : scene.Probed axis line goal reached)
    (hout : ∀ r ∈ scene.rects, r.extent axis ≠ 0 → r.near axis ≠ line) (hlt : line < goal)
    (hgoal : goal ≤ scene.bounds.far axis) : reached = goal := by
  have hpush : scene.Feasible ⟨axis, .near, line, goal⟩ := by
    apply Feasible.intro
    · simpa [Push.dir, Side.inward, stop, Side.flip, Rect.edge] using hgoal
    · intro i r hc
      exact absurd hc.edge (hout r (List.mem_of_getElem? hc.get) hc.extent)
  apply (h.up hlt).eq_goal _ hpush
  simpa [Push.dir, Side.inward] using Int.le_of_lt hlt

theorem Probed.back {line goal reached : Int} (h : scene.Probed axis line goal reached) (hle : goal ≤ line) :
    scene.Reaches ⟨axis, .far, line, goal⟩ reached := by
  rcases Int.lt_or_eq_of_le hle with hlt | rfl
  · exact h.down hlt
  · rw [h.still rfl]
    exact ⟨Int.le_refl _, fun hne => absurd rfl hne, fun g hg hle _ => absurd (Int.lt_of_lt_of_le hg hle)
      (Int.lt_irrefl _)⟩

theorem Probed.inward {line goal reached : Int} (h : scene.Probed axis line goal reached)
    (hle : goal ≤ line) : goal ≤ reached ∧ reached ≤ line := by
  have hreach := h.back hle
  have hahead := hreach.ahead
  have hmoved := fun hne => (hreach.moved hne).1
  simp only [Push.dir, Side.inward, Direction.pos_down] at hahead hmoved
  omega

/-- A line that has been found to go back as far as it goes could not be pushed back further. -/
theorem Probed.least {line goal reached g : Int} (h : scene.Probed axis line goal reached) (hlt : g < line)
    (hle : goal ≤ g) (hf : scene.Feasible ⟨axis, .far, line, g⟩) : reached ≤ g := by
  have hlast := (h.down (Int.lt_of_le_of_lt hle hlt)).last g
  simp only [Push.dir, Side.inward, Direction.pos_down, Int.neg_le_neg_iff, Int.neg_lt_neg_iff] at hlast
  exact hlast hlt hle hf

theorem probeLine_probed (hs : scene.Fits) {line goal reached : Int}
    (hclear : ∀ goal, scene.Clear ⟨axis, .far, line, goal⟩) (hsound : trace.Sound scene)
    (h : scene.probeLine axis line goal trace = .ok (reached, trace')) :
    scene.Probed axis line goal reached ∧ trace'.Sound scene ∧ trace'.commits = trace.commits := by
  unfold probeLine at h
  split at h
  · next hlt =>
    obtain ⟨hreach, hrest⟩ :=
      probe_reaches hs _ (scene.ahead_lt_depth _) (Fits.clear_of_near rfl) hsound h
    exact ⟨⟨fun _ => hreach, fun hgt => absurd hgt (Int.lt_asymm hlt),
      fun heq => absurd heq (Int.ne_of_lt hlt)⟩, hrest⟩
  · split at h
    · next hgt =>
      obtain ⟨hreach, hrest⟩ := probe_reaches hs _ (scene.ahead_lt_depth _) (hclear goal) hsound h
      exact ⟨⟨fun hlt => absurd hlt (Int.lt_asymm hgt), fun _ => hreach,
        fun heq => absurd heq.symm (Int.ne_of_lt hgt)⟩, hrest⟩
    · next hnlt hngt =>
      cases h
      exact ⟨⟨fun hlt => absurd hlt hnlt, fun hgt => absurd hgt hngt, fun _ => rfl⟩, hsound, rfl⟩

theorem probeHeld_probed (hs : scene.Fits) (hsteady : scene.Steady held) {goal : Point}
    (hsound : trace.Sound scene) {found : Option Int}
    (h : scene.probeHeld held goal axis trace = .ok (found, trace')) :
    scene.ProbedBy axis (held.along axis) found (goal.along axis) ∧ trace'.Sound scene ∧
      trace'.commits = trace.commits := by
  unfold probeHeld at h
  split at h
  · next hnone =>
    cases h
    exact ⟨.inl ⟨hnone, rfl⟩, hsound, rfl⟩
  · next line hline =>
    obtain ⟨⟨reached, after⟩, hprobe, h⟩ := Checked.bind_eq_ok.1 h
    cases Checked.pure_eq_ok.1 h
    obtain ⟨hprobed, hrest⟩ := probeLine_probed hs (hsteady axis line hline).2 hsound hprobe
    exact ⟨.inr ⟨line, reached, hline, rfl, hprobed⟩, hrest⟩

theorem planLines_eq_ok (hs : scene.Fits) (hsteady : scene.Steady held) {goal : Point} {plan : Plan}
    (hsound : trace.Sound scene) (h : scene.planLines held goal trace = .ok (plan, trace')) :
    (∀ axis, scene.ProbedBy axis (held.along axis) (plan.achieved.along axis) (goal.along axis)) ∧
      ∃ probed mid written, probed.Sound scene ∧ probed.commits = trace.commits ∧
        scene.commitHeld held plan.achieved .x ⟨scene.rects⟩ probed = .ok (mid, written) ∧
          scene.commitHeld held plan.achieved .y mid written = .ok (plan.patch, trace') := by
  obtain ⟨⟨reachedX, traceX⟩, hprobeX, h⟩ := Checked.bind_eq_ok.1 h
  obtain ⟨⟨reachedY, traceY⟩, hprobeY, h⟩ := Checked.bind_eq_ok.1 h
  obtain ⟨⟨patchX, writtenX⟩, hcommitX, h⟩ := Checked.bind_eq_ok.1 h
  obtain ⟨⟨patchY, writtenY⟩, hcommitY, h⟩ := Checked.bind_eq_ok.1 h
  cases Checked.pure_eq_ok.1 h
  obtain ⟨hprobedX, hsoundX, hcommitsX⟩ := probeHeld_probed hs hsteady hsound hprobeX
  obtain ⟨hprobedY, hsoundY, hcommitsY⟩ := probeHeld_probed hs hsteady hsoundX hprobeY
  refine ⟨fun axis => ?_, traceY, patchX, writtenX, hsoundY, hcommitsY.trans hcommitsX, hcommitX, hcommitY⟩
  cases axis
  · exact hprobedX
  · exact hprobedY

theorem commitHeld_eq (hroot : scene.Viable root) (hline : held.along root.axis = some root.line)
    (hreached : achieved.along root.axis = some root.goal) (patch : Patch) (trace : Trace) :
    scene.commitHeld held achieved root.axis patch trace = do
      let w ← scene.commit scene.depth root patch trace
      return (← scene.grow root.axis root.side.flip root.line root.goal w.patch, w.trace) := by
  simp only [commitHeld, hline, hreached]
  exact hroot.ite_side (fun side => do
    let w ← scene.commit scene.depth ⟨root.axis, side, root.line, root.goal⟩ patch trace
    return (← scene.grow root.axis side.flip root.line root.goal w.patch, w.trace)) _

theorem commitHeld_none (hnone : held.along axis = none) (patch : Patch) (trace : Trace) :
    scene.commitHeld held achieved axis patch trace = .ok (patch, trace) := by
  rw [commitHeld, hnone]

theorem commitHeld_still (hstill : achieved.along axis = held.along axis) (patch : Patch) (trace : Trace) :
    scene.commitHeld held achieved axis patch trace = .ok (patch, trace) := by
  rw [commitHeld, hstill]
  cases held.along axis with
  | none => rfl
  | some line => simp only [Int.lt_irrefl, if_false]

/-- A plan that leaves all held lines in place leaves all regions. -/
theorem planLines_still (hs : scene.Fits) (hsteady : scene.Steady held) {goal : Point} {plan : Plan}
    (hsound : trace.Sound scene) (h : scene.planLines held goal trace = .ok (plan, trace'))
    (hstill : ∀ axis, plan.achieved.along axis = held.along axis) : plan.patch.rects = scene.rects := by
  obtain ⟨-, probed, mid, written, -, -, hcommitX, hcommitY⟩ := planLines_eq_ok hs hsteady hsound h
  rw [commitHeld_still (hstill .x)] at hcommitX
  cases hcommitX
  rw [commitHeld_still (hstill .y)] at hcommitY
  exact congrArg Patch.rects (congrArg Prod.fst (Except.ok.inj hcommitY)).symm

theorem commitHeld_moved (hs : scene.Fits) (hstart : scene.Begins axis start) (hsound : trace.Sound scene)
    (hfresh : ∀ q ∈ trace.commits, q.axis ≠ axis)
    (hsteady : scene.Steady held) {goal : Int}
    (hheld : scene.ProbedBy axis (held.along axis) (achieved.along axis) goal)
    (h : scene.commitHeld held achieved axis start trace = .ok (patch, trace')) :
    ∃ m, scene.MovedBy axis (held.along axis) (achieved.along axis) m ∧
      List.Forall₂ (Rect.Redrawn axis m) start.rects patch.rects ∧ trace'.Sound scene ∧
      ∀ q ∈ trace'.commits, q ∈ trace.commits ∨ q.axis = axis := by
  have hkept : List.Forall₂ (Rect.Redrawn axis id) start.rects start.rects := by
    refine List.forall₂_same.2 fun b hb => ?_
    obtain ⟨i, hi, rfl⟩ := List.getElem_of_mem hb
    obtain ⟨a, ha, hf, hp, -⟩ := hstart.region i _ (List.getElem?_eq_getElem (hstart.length ▸ hi))
    obtain ⟨_, rfl⟩ := List.getElem?_eq_some_iff.1 ha
    exact ⟨⟨rfl, rfl, .refl _ _⟩, hf, hp, id, .inl ⟨rfl, rfl⟩⟩
  rcases hheld with ⟨hnone, hnone'⟩ | ⟨line, reached, hline, hreached, hprobed⟩
  · cases (commitHeld_none hnone start trace).symm.trans h
    exact ⟨id, .inl ⟨hnone, hnone', rfl⟩, hkept, hsound, fun q hq => .inl hq⟩
  · obtain ⟨hfits, hclear⟩ := hsteady axis line hline
    rcases hprobed.reachable hfits hclear with rfl | ⟨side, hroot⟩
    · simp only [commitHeld, hline, hreached] at h
      rw [if_neg (Int.lt_irrefl _), if_neg (Int.lt_irrefl _)] at h
      cases h
      exact ⟨id, .inr ⟨_, _, hline, hreached, .inl ⟨rfl, rfl⟩⟩, hkept, hsound, fun q hq => .inl hq⟩
    · rw [commitHeld_eq hroot hline hreached] at h
      obtain ⟨w, hw, h⟩ := Checked.bind_eq_ok.1 h
      obtain ⟨grown, hg, h⟩ := Checked.bind_eq_ok.1 h
      cases Checked.pure_eq_ok.1 h
      obtain ⟨m, hm, hredrawn, hrest⟩ := commit_grow hs hroot hstart hsound hfresh hw hg
      exact ⟨m, .inr ⟨line, reached, hline, hreached, .inr ⟨side, hroot, hm⟩⟩, hredrawn, hrest⟩

theorem begins_self (hs : scene.Fits) (axis : Axis) : scene.Begins axis ⟨scene.rects⟩ :=
  ⟨rfl, fun _ r hr => ⟨r, hr, (hs.get hr).1, (hs.get hr).2, rfl, rfl⟩⟩

theorem begins_of_redrawn {mid : Patch} (h : List.Forall₂ (Rect.Redrawn .x m) scene.rects mid.rects) :
    scene.Begins .y mid := by
  refine ⟨h.length_eq.symm, fun i r hr => ?_⟩
  obtain ⟨b, hb, hrb⟩ := forall₂_of_getElem? h hr
  exact ⟨b, hb, hrb.fits, hrb.proper, hrb.across⟩

/-- A plan moves the lines of the one axis and then those of the other, and on an axis on which nothing
is held it writes nothing. -/
theorem planLines_moved (hs : scene.Fits) (hsteady : scene.Steady held) {goal : Point} {plan : Plan}
    (hsound : trace.Sound scene) (hfresh : trace.commits = [])
    (h : scene.planLines held goal trace = .ok (plan, trace')) :
    ∃ x y mid, scene.MovedBy .x held.x plan.achieved.x x ∧ scene.MovedBy .y held.y plan.achieved.y y ∧
      List.Forall₂ (Rect.Redrawn .x x) scene.rects mid ∧
      List.Forall₂ (Rect.Redrawn .y y) mid plan.patch.rects ∧
      (held.x = none → mid = scene.rects) ∧ (held.y = none → plan.patch.rects = mid) := by
  obtain ⟨hprobed, probed, patchX, writtenX, hsoundY, hcommits, hcommitX, hcommitY⟩ :=
    planLines_eq_ok hs hsteady hsound h
  rw [hfresh] at hcommits
  have hfreshX : ∀ q ∈ probed.commits, q.axis ≠ .x := by
    rw [hcommits]
    intro q hq
    cases hq
  obtain ⟨x, hx, hredrawnX, hsound, haxes⟩ :=
    commitHeld_moved hs (begins_self hs .x) hsoundY hfreshX hsteady (hprobed .x) hcommitX
  have hstart : scene.Begins .y patchX := begins_of_redrawn hredrawnX
  have haxes : ∀ q ∈ writtenX.commits, q.axis ≠ .y := by
    intro q hq
    rcases haxes q hq with hq | hq
    · rw [hcommits] at hq
      cases hq
    · simp [hq]
  obtain ⟨y, hy, hredrawnY, -⟩ := commitHeld_moved hs hstart hsound haxes hsteady (hprobed .y) hcommitY
  refine ⟨x, y, patchX.rects, hx, hy, hredrawnX, hredrawnY, fun hnone => ?_, fun hnone => ?_⟩
  · cases (commitHeld_none (show held.along .x = none from hnone) _ _).symm.trans hcommitX
    rfl
  · cases (commitHeld_none (show held.along .y = none from hnone) _ _).symm.trans hcommitY
    rfl

end Scene

end Mosaic
