import Mosaic.Proofs.Cascade.Cover

/-! What a plan does to the lines of an axis. All edges on a line go to one place, so that edges that meet stay
together: the held line goes where it was found to go, and no line goes the other way. -/
namespace Mosaic

theorem Rect.Respanned.trans_sameAlong {axis : Axis} {r s t : Rect} (h : Respanned axis r s)
    (hsame : SameAlong axis s t) : Respanned axis r t := by
  rcases h with hstays | ⟨hexact, side, hmoved⟩
  · exact .inl ⟨hsame.1.trans hstays.1, hsame.2.trans hstays.2⟩
  · refine .inr ⟨?_, side, by rwa [hsame.edge]⟩
    have hfar : t.far axis = s.far axis := hsame.edge .far
    rw [hfar, hexact, hsame.1, hsame.2]

namespace Scene

variable {scene : Scene} {axis : Axis} {held achieved : Option Int} {goal : Int} {m : Int → Int} {bs : List Rect}

/-- A line of the axis may have been held and moved toward a goal, and the edges along with the lines. -/
structure Drawn (scene : Scene) (axis : Axis) (held : Option Int) (goal : Int) (achieved : Option Int)
    (m : Int → Int) (bs : List Rect) : Prop where
  probed : scene.ProbedBy axis held achieved goal
  moved : scene.MovedBy axis held achieved m
  edges : Rect.MovedWith axis m scene.rects bs

theorem Drawn.still (scene : Scene) (axis : Axis) (goal : Int) :
    scene.Drawn axis none goal none id scene.rects :=
  ⟨.inl ⟨rfl, rfl⟩, .inl ⟨rfl, rfl, rfl⟩, .refl axis _⟩

theorem Drawn.eq_id (h : scene.Drawn axis held goal achieved m bs) (hnone : held = none) : m = id := by
  rcases h.moved with ⟨-, -, hm⟩ | ⟨line, -, hline, -⟩
  · exact hm
  · rw [hnone] at hline
    cases hline

theorem Drawn.of_some {line : Int} (h : scene.Drawn axis held goal achieved m bs) (hline : held = some line) :
    ∃ reached, achieved = some reached ∧ scene.Probed axis line goal reached ∧ scene.Moved axis line reached m := by
  subst hline
  rcases h.probed with ⟨hnone, -⟩ | ⟨line', reached, hline, hachieved, hprobed⟩
  · cases hnone
  · rcases h.moved with ⟨hnone, -⟩ | ⟨line'', reached', hline', hachieved', hmoved⟩
    · cases hnone
    · cases hline
      cases hline'
      cases hachieved.symm.trans hachieved'
      exact ⟨reached, hachieved, hprobed, hmoved⟩

theorem Drawn.achieved_eq (h : scene.Drawn axis held goal achieved m bs) (hs : scene.Fits) :
    achieved = held.map m := by
  rcases h.moved with ⟨rfl, rfl, -⟩ | ⟨line, reached, rfl, rfl, hmoved⟩
  · rfl
  · rw [Option.map_some, hmoved.held hs]

/-- Lines only go the way of the one that is moved. -/
theorem Moved.onward {line reached : Int} (h : scene.Moved axis line reached m) (hs : scene.Fits) :
    (line ≤ reached → ∀ c, c ≤ m c) ∧ (reached ≤ line → ∀ c, m c ≤ c) := by
  rcases h with ⟨rfl, rfl⟩ | ⟨side, hroot, hm⟩
  · exact ⟨fun _ _ => Int.le_refl _, fun _ _ => Int.le_refl _⟩
  · have hahead := hroot.ahead
    have hle := fun c => (hm c).le hs hroot
    cases side
    · simp only [Push.dir, Side.inward, Direction.pos_up] at hahead hle
      exact ⟨fun _ => hle, fun hback => absurd hahead (Int.not_lt.2 hback)⟩
    · simp only [Push.dir, Side.inward, Direction.pos_down, Int.neg_lt_neg_iff, Int.neg_le_neg_iff] at hahead hle
      exact ⟨fun hforth => absurd hahead (Int.not_lt.2 hforth), fun _ => hle⟩

theorem Probed.between {line goal reached : Int} (h : scene.Probed axis line goal reached) :
    (line ≤ goal → line ≤ reached ∧ reached ≤ goal) ∧ (goal ≤ line → goal ≤ reached ∧ reached ≤ line) := by
  refine ⟨fun hle => ?_, h.inward⟩
  rcases Int.lt_or_eq_of_le hle with hlt | rfl
  · have hahead := (h.up hlt).ahead
    have hmoved := fun hne => ((h.up hlt).moved hne).1
    simp only [Push.dir, Side.inward, Direction.pos_up] at hahead hmoved
    omega
  · rw [h.still rfl]
    exact ⟨Int.le_refl _, Int.le_refl _⟩

section

variable {grip : Grip} {point : Point} {plan : Plan} {trace trace' : Trace}

theorem planLines_drawn (hs : scene.Fits) (hsteady : scene.Steady grip) (hsound : trace.Sound scene)
    (hfresh : trace.commits = []) (h : scene.planLines grip point trace = .ok (plan, trace')) (axis : Axis) :
    ∃ m, scene.Drawn axis (grip.along axis) (point.along axis) (plan.achieved.along axis) m plan.patch.rects := by
  obtain ⟨hprobed, -⟩ := planLines_eq_ok hs hsteady hsound h
  obtain ⟨x, y, mid, hx, hy, hmid, hpatch, -⟩ := planLines_moved hs hsteady hsound hfresh h
  have hfirst : List.Forall₂ (Rect.Carried .x x) scene.rects mid := hmid.imp fun _ _ h => h.toCarried
  have hsecond : List.Forall₂ (Rect.Carried .y y) mid plan.patch.rects := hpatch.imp fun _ _ h => h.toCarried
  cases axis
  · exact ⟨x, hprobed .x, hx, (Rect.movedWith_of_carried hfirst).trans (Rect.movedWith_cross hsecond)⟩
  · exact ⟨y, hprobed .y, hy, (Rect.movedWith_cross hfirst).trans (Rect.movedWith_of_carried hsecond)⟩

/-- A plan tells of every held line where it has gone, also of one that was not to be moved. -/
theorem planFrom_drawn (hs : scene.Fits) (h : scene.planFrom grip point {} = .ok (plan, trace')) (axis : Axis) :
    ∃ m, scene.Drawn axis (scene.movable grip axis) (point.along axis) ((scene.movable grip axis).map m) m
      plan.patch.rects ∧ plan.achieved.along axis = (grip.along axis).map m := by
  obtain ⟨moved, hmoved, hpatch, -, hachieved⟩ := planFrom_eq_ok h
  obtain ⟨m, hm⟩ := planLines_drawn hs (steady_moving hs grip) (Trace.sound_empty scene) rfl hmoved axis
  rw [along_moving, ← hpatch] at hm
  have heq := hm.achieved_eq hs
  refine ⟨m, heq ▸ hm, ?_⟩
  rw [hachieved]
  split
  · next hnone => rw [hm.eq_id hnone, Option.map_id, id]
  · next hmovable =>
    obtain ⟨line, hline⟩ := Option.ne_none_iff_exists'.1 hmovable
    rw [heq, hline, (movable_eq_some hline).1]

/-- A plan leaves the span of a region, or moves an edge of it and cuts no far edge off. -/
theorem planFrom_respanned (hs : scene.Fits) (h : scene.planFrom grip point {} = .ok (plan, trace')) (axis : Axis) :
    List.Forall₂ (Rect.Respanned axis) scene.rects plan.patch.rects := by
  obtain ⟨x, y, mid, hmid, hpatch⟩ := planFrom_redrawn hs h
  refine forall₂_of_positions (hmid.length_eq.trans hpatch.length_eq) fun i r b hr hb => ?_
  obtain ⟨q, hq, hrq⟩ := forall₂_of_getElem? hmid hr
  obtain ⟨b', hb', hqb⟩ := forall₂_of_getElem? hpatch hq
  obtain rfl := Option.some.inj (hb.symm.trans hb')
  cases axis
  · exact hrq.respanned.trans_sameAlong hqb.across
  · exact hqb.respanned.of_sameAlong ⟨hrq.across.1.symm, hrq.across.2.symm⟩

/-- On each axis a plan moves all edges along with the lines. Those of the bounds stay, a held line goes where the plan
says, which is no further than asked for, and no line goes the other way. -/
theorem plan_moves_lines (hs : scene.Fits) (h : scene.plan grip point = .ok plan) (axis : Axis) :
    ∃ m : Int → Int, Rect.MovedWith axis m scene.rects plan.patch.rects ∧
      (∀ side, m (scene.bounds.edge axis side) = scene.bounds.edge axis side) ∧
        plan.achieved.along axis = (grip.along axis).map m ∧ (grip.along axis = none → m = id) ∧
          ∀ line, grip.along axis = some line →
            (line ≤ point.along axis → m line ≤ point.along axis ∧ ∀ c, c ≤ m c) ∧
              (point.along axis ≤ line → point.along axis ≤ m line ∧ ∀ c, m c ≤ c) := by
  obtain ⟨trace, hplan⟩ := exists_planFrom h
  obtain ⟨m, hm, hachieved⟩ := planFrom_drawn hs hplan axis
  have hfixed := hm.moved.fixed hs fun c hc => (movable_eq_some hc).2
  refine ⟨m, hm.edges, Side.rec hfixed.near hfixed.far, hachieved, fun hnone => hm.eq_id ?_, fun line hline => ?_⟩
  · rw [movable, hnone, Option.filter_none]
  cases hmovable : scene.movable grip axis with
  | none =>
    obtain rfl := hm.eq_id hmovable
    exact ⟨fun hle => ⟨hle, fun _ => Int.le_refl _⟩, fun hle => ⟨hle, fun _ => Int.le_refl _⟩⟩
  | some line' =>
    obtain rfl := Option.some.inj (hline.symm.trans (movable_eq_some hmovable).1)
    obtain ⟨reached, -, hprobed, hmoved⟩ := hm.of_some hmovable
    obtain ⟨hforth, hback⟩ := hprobed.between
    obtain ⟨hahead, hbehind⟩ := hmoved.onward hs
    rw [hmoved.held hs]
    exact ⟨fun hle => ⟨(hforth hle).2, hahead (hforth hle).1⟩, fun hle => ⟨(hback hle).1, hbehind (hback hle).2⟩⟩

end

/-- A column before two rows, of which the upper one has to push the column behind it. -/
def pushedRows : Scene where
  rects := [⟨0, 0, 10, 20⟩, ⟨10, 0, 6, 10⟩, ⟨10, 10, 12, 10⟩, ⟨16, 0, 14, 10⟩, ⟨22, 10, 8, 10⟩]
  mins := [⟨4, 4⟩, ⟨4, 4⟩, ⟨4, 4⟩, ⟨4, 4⟩, ⟨4, 4⟩]
  bounds := ⟨0, 0, 30, 20⟩

theorem plan_moves_lines_pushedRows : pushedRows.Fits ∧ ∃ plan, pushedRows.plan (.corner 10 10) ⟨15, 3⟩ = .ok plan ∧
    plan.patch.rects = [⟨0, 0, 15, 20⟩, ⟨15, 0, 4, 4⟩, ⟨15, 4, 7, 16⟩, ⟨19, 0, 11, 4⟩, ⟨22, 4, 8, 16⟩] ∧
      ∃ m : Int → Int, Rect.MovedWith .x m pushedRows.rects plan.patch.rects ∧ m 0 = 0 ∧ m 30 = 30 ∧ m 10 = 15 ∧
        ∀ c, c ≤ m c := by
  have hs : pushedRows.Fits := ⟨by decide, by decide⟩
  obtain ⟨plan, h, hrects, hachieved⟩ : ∃ plan, pushedRows.plan (.corner 10 10) ⟨15, 3⟩ = .ok plan ∧
      plan.patch.rects = [⟨0, 0, 15, 20⟩, ⟨15, 0, 4, 4⟩, ⟨15, 4, 7, 16⟩, ⟨19, 0, 11, 4⟩, ⟨22, 4, 8, 16⟩] ∧
        plan.achieved = .corner 15 4 := ⟨_, rfl, by decide, by decide⟩
  obtain ⟨m, hedges, hends, hheld, -, honward⟩ := plan_moves_lines hs h .x
  rw [hachieved] at hheld
  exact ⟨hs, plan, h, hrects, m, hedges, hends .near, hends .far, (Option.some.inj hheld).symm,
    ((honward 10 rfl).1 (by decide)).2⟩

end Scene

end Mosaic
