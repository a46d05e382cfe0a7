import Mosaic.Proofs.Cascade.Mirrored

/-! Plans that move and plans that change something. What is achieved is read off the probes, and the bounds come
from the writes; both tell the same, as a line that may be moved has an edge of some region on it. -/
namespace Mosaic

theorem Patch.mem_changed {patch : Patch} {before : List Rect} {i : Nat} :
    i ∈ patch.changed before ↔ ∃ new old, patch.rects[i]? = some new ∧ before[i]? = some old ∧ new ≠ old := by
  simp only [changed, List.mem_filterMap, Prod.exists, List.mem_zipIdx_iff_getElem?, List.getElem?_zip_eq_some]
  constructor
  · rintro ⟨new, old, j, ⟨hnew, hold⟩, hchanged⟩
    split at hchanged
    · cases hchanged
    · next hne =>
      cases hchanged
      exact ⟨new, old, hnew, hold, hne⟩
  · rintro ⟨new, old, hnew, hold, hne⟩
    exact ⟨new, old, i, ⟨hnew, hold⟩, if_neg hne⟩

theorem Patch.changed_eq_nil_iff {patch : Patch} {before : List Rect} (hlength : patch.rects.length = before.length) :
    patch.changed before = [] ↔ patch.rects = before := by
  rw [List.eq_nil_iff_forall_not_mem]
  constructor
  · intro hnone
    refine List.ext_getElem hlength fun i hnew hold => ?_
    by_contra hne
    exact hnone i (mem_changed.2 ⟨_, _, List.getElem?_eq_getElem hnew, List.getElem?_eq_getElem hold, hne⟩)
  · rintro heq i hi
    obtain ⟨new, old, hnew, hold, hne⟩ := mem_changed.1 hi
    rw [heq] at hnew
    exact hne (Option.some.inj (hnew.symm.trans hold))

/-- Where no line is moved all spans stay, also those that are cut off at the end of the coordinates. -/
theorem Rect.sameAlong_of_still {axis : Axis} {rs bs : List Rect} (hedges : Rect.MovedWith axis id rs bs)
    (hspans : List.Forall₂ (Rect.Respanned axis) rs bs) : List.Forall₂ (Rect.SameAlong axis) rs bs := by
  refine forall₂_of_positions hspans.length_eq fun i r b hr hb => ?_
  obtain ⟨_, hget, hspan⟩ := forall₂_of_getElem? hspans hr
  obtain rfl := Option.some.inj (hb.symm.trans hget)
  obtain ⟨_, hget, hedge⟩ := forall₂_of_getElem? hedges hr
  obtain rfl := Option.some.inj (hb.symm.trans hget)
  rcases hspan with hstays | ⟨-, side, hmoved⟩
  · exact hstays
  · exact absurd (hedge side) hmoved

namespace Scene

variable {scene : Scene} {axis : Axis} {grip : Grip} {point : Point} {plan : Plan} {trace : Trace}

theorem Moved.eq_id {line : Int} {m : Int → Int} (h : scene.Moved axis line line m) : m = id := by
  rcases h with ⟨-, hm⟩ | ⟨side, hroot, -⟩
  · exact hm
  · exact absurd rfl hroot.goal_ne_line

/-- A held line stays exactly when all spans along the axis do. -/
theorem planFrom_stays_iff (hs : scene.Fits) (h : scene.planFrom grip point {} = .ok (plan, trace)) (axis : Axis) :
    plan.achieved.along axis = grip.along axis ↔
      List.Forall₂ (Rect.SameAlong axis) scene.rects plan.patch.rects := by
  obtain ⟨m, hm, hachieved⟩ := planFrom_drawn hs h axis
  constructor
  · intro hstays
    have hid : m = id := by
      cases hmovable : scene.movable grip axis with
      | none => exact hm.eq_id hmovable
      | some line =>
        obtain ⟨reached, -, -, hmoved⟩ := hm.of_some hmovable
        rw [hachieved, (movable_eq_some hmovable).1, Option.map_some, hmoved.held hs] at hstays
        obtain rfl := Option.some.inj hstays
        exact hmoved.eq_id
    exact Rect.sameAlong_of_still (hid ▸ hm.edges) (planFrom_respanned hs h axis)
  · intro hsame
    rw [hachieved]
    cases hmovable : scene.movable grip axis with
    | none => rw [hm.eq_id hmovable, Option.map_id, id]
    | some line =>
      -- Some region has an edge on the line, and both the line and the span of that region tell where it is now.
      obtain ⟨hline, hin⟩ := movable_eq_some_iff.1 hmovable
      obtain ⟨-, r, hr, side, hedge⟩ := isMovable_iff.1 hin
      obtain ⟨i, hi⟩ := List.getElem?_of_mem hr
      obtain ⟨b, hb, hmoved⟩ := forall₂_of_getElem? hm.edges hi
      obtain ⟨_, hget, hspan⟩ := forall₂_of_getElem? hsame hi
      obtain rfl := Option.some.inj (hb.symm.trans hget)
      have hstays : m line = line := by rw [← hedge, ← hmoved side, hspan.edge]
      rw [hline, Option.map_some, hstays]

/-- A line that may not be moved stays, and so does one that already is where it is to go. -/
theorem planFrom_stays (hs : scene.Fits) (h : scene.planFrom grip point {} = .ok (plan, trace))
    (hstill : ∀ line, grip.along axis = some line → ¬ scene.IsMovable axis line ∨ point.along axis = line) :
    plan.achieved.along axis = grip.along axis := by
  obtain ⟨m, hm, hachieved⟩ := planFrom_drawn hs h axis
  rw [hachieved]
  cases hmovable : scene.movable grip axis with
  | none => rw [hm.eq_id hmovable, Option.map_id, id]
  | some line =>
    obtain ⟨hline, hin⟩ := movable_eq_some_iff.1 hmovable
    have hgoal : point.along axis = line := (hstill line hline).resolve_left (not_not_intro hin)
    obtain ⟨reached, -, hprobed, hmoved⟩ := hm.of_some hmovable
    rw [hline, Option.map_some, hmoved.held hs, hprobed.still hgoal.symm]

/-- A plan moves exactly when it changes the bounds of some region, and an axis is left as it is exactly when nothing
is achieved on it. Lines on or outside the bounds, lines on which no region has an edge and lines that are where they are
to go stay, and so do all spans along their axis. -/
theorem plan_moves_iff (hs : scene.Fits) (h : scene.plan grip point = .ok plan) :
    (plan.Moves ↔ plan.patch.changed scene.rects ≠ []) ∧ (plan.Moves ↔ plan.patch.rects ≠ scene.rects) ∧
      ∀ axis, (plan.achieved.along axis = grip.along axis ↔
          List.Forall₂ (Rect.SameAlong axis) scene.rects plan.patch.rects) ∧
        ((∀ line, grip.along axis = some line → ¬ scene.IsMovable axis line ∨ point.along axis = line) →
          plan.achieved.along axis = grip.along axis ∧
            List.Forall₂ (Rect.SameAlong axis) scene.rects plan.patch.rects) := by
  obtain ⟨trace, hplan⟩ := exists_planFrom h
  obtain ⟨-, -, -, hheld, -⟩ := planFrom_eq_ok hplan
  obtain ⟨hlength, -⟩ := planFrom_fits hs hplan
  have hstays := planFrom_stays_iff hs hplan
  have hmoves : plan.Moves ↔ plan.patch.rects ≠ scene.rects := by
    refine not_congr ⟨fun heq => ?_, fun heq => ?_⟩
    · have halong : ∀ axis, List.Forall₂ (Rect.SameAlong axis) scene.rects plan.patch.rects := fun axis =>
        (hstays axis).1 (by rw [← heq, hheld])
      refine List.ext_getElem hlength fun i hb hr => ?_
      refine Rect.ext_spans fun axis => ?_
      obtain ⟨_, hget, hspan⟩ := forall₂_of_getElem? (halong axis) (List.getElem?_eq_getElem hr)
      obtain rfl := Option.some.inj ((List.getElem?_eq_getElem hb).symm.trans hget)
      exact hspan
    · have halong : ∀ axis, plan.achieved.along axis = grip.along axis := fun axis =>
        (hstays axis).2 (heq ▸ List.forall₂_same.2 fun _ _ => ⟨rfl, rfl⟩)
      rw [hheld]
      exact congrArg₂ Grip.mk (halong .x).symm (halong .y).symm
  refine ⟨?_, hmoves, fun axis => ⟨hstays axis, fun hstill => ?_⟩⟩
  · rw [hmoves, ne_eq, ne_eq, Patch.changed_eq_nil_iff hlength]
  · have hachieved := planFrom_stays hs hplan hstill
    exact ⟨hachieved, (hstays axis).1 hachieved⟩

/-- The column takes the second brick of the upper row along, and the rows stay as they are. -/
theorem plan_moves_iff_pushedRows : pushedRows.Fits ∧ ∃ plan, pushedRows.plan (.corner 10 10) ⟨15, 10⟩ = .ok plan ∧
    plan.patch.changed pushedRows.rects = [0, 1, 2, 3] ∧ plan.Moves ∧ plan.achieved.along .x ≠ some 10 ∧
      plan.achieved.along .y = some 10 ∧
        List.Forall₂ (Rect.SameAlong .y) pushedRows.rects plan.patch.rects := by
  have hs : pushedRows.Fits := ⟨by decide, by decide⟩
  obtain ⟨plan, h, hchanged, hnear⟩ : ∃ plan, pushedRows.plan (.corner 10 10) ⟨15, 10⟩ = .ok plan ∧
      plan.patch.changed pushedRows.rects = [0, 1, 2, 3] ∧ plan.patch.rects[0]? = some ⟨0, 0, 15, 20⟩ :=
    ⟨_, rfl, by decide, by decide⟩
  obtain ⟨hmoves, -, halong⟩ := plan_moves_iff hs h
  obtain ⟨hy, hrows⟩ := (halong .y).2 fun line hline => .inr (Option.some.inj hline)
  refine ⟨hs, plan, h, hchanged, hmoves.2 (by simp [hchanged]), fun hx => ?_, hy, hrows⟩
  obtain ⟨b, hb, hspan⟩ := forall₂_of_getElem? ((halong .x).1.1 hx) (i := 0) rfl
  obtain rfl := Option.some.inj (hnear.symm.trans hb)
  exact absurd hspan.2 (by decide)

end Scene

end Mosaic
