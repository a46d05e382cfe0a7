import Mosaic.Proofs.Cascade.Scan
import Mosaic.Proofs.Cascade.Drawn

/-! A line that has been moved as far as it goes does not go further when it is moved again. What stopped it still
does, though lines may have come together and regions may have become empty: a push that can be made in full once
the lines have been driven ahead could have been made in full, all the way, before. -/
namespace Mosaic

namespace Scene

variable {scene scene' : Scene} {axis : Axis} {side : Side} {m : Int → Int} {line goal reached : Int} {p : Push}

/-- The lines of an axis have been driven inward from one side: no further than the bounds, and each region whose
pushed edge has moved has its minimum. -/
structure Driven (scene : Scene) (axis : Axis) (side : Side) (m : Int → Int) : Prop where
  within : ∀ c, m c ≠ c → side.inward.pos (m c) ≤ side.inward.pos (scene.bounds.edge axis side.flip)
  kept : ∀ (i : Nat) (r : Rect), scene.rects[i]? = some r → r.extent axis ≠ 0 →
    m (r.edge axis side) ≠ r.edge axis side →
      side.inward.pos (m (r.edge axis side)) + scene.minAlong i axis ≤ side.inward.pos (m (r.edge axis side.flip))
  room : ∀ (i : Nat) (r : Rect), scene.rects[i]? = some r → r.extent axis ≠ 0 →
    min (scene.minAlong i axis)
        (side.inward.pos (r.edge axis side.flip) - side.inward.pos (r.edge axis side)) ≤
      side.inward.pos (m (r.edge axis side.flip)) - side.inward.pos (m (r.edge axis side))

theorem Driven.still (scene : Scene) (axis : Axis) (side : Side) : scene.Driven axis side id :=
  ⟨fun _ hne => absurd rfl hne, fun _ _ _ _ hne => absurd rfl hne, fun _ _ _ _ => Int.min_le_right _ _⟩

theorem Viable.driven (hroot : scene.Viable p) (hs : scene.Fits) (hm : ∀ c, scene.Rests p c (m c)) :
    scene.Driven p.axis p.side m := by
  refine ⟨fun c hne => ?_, fun i r hr he hne => (hm _).kept hs hroot hr he rfl hne (hm _), fun i r hr he => ?_⟩
  · rcases (hm c).attains with hsame | ⟨q, hq, -, hgoal⟩
    · exact absurd hsame hne
    · rw [← hgoal]
      exact Follows.le_stop hq hroot.feasible
  · have hroom := (hm _).room hs hroot hr he rfl (hm _)
    simp only [Push.dir] at hroom
    omega

theorem Moved.driven (h : scene.Moved axis line reached m) (hs : scene.Fits)
    (hahead : side.inward.pos line ≤ side.inward.pos reached) : scene.Driven axis side m := by
  rcases h with ⟨-, rfl⟩ | ⟨side', hroot, hm⟩
  · exact .still scene axis side
  · have hpushed := hroot.ahead
    obtain rfl : side' = side := by
      cases side <;> cases side'
      · rfl
      · simp only [Push.dir, Side.inward, Direction.pos_up, Direction.pos_down] at hahead hpushed
        omega
      · simp only [Push.dir, Side.inward, Direction.pos_up, Direction.pos_down] at hahead hpushed
        omega
      · rfl
    exact hroot.driven hs hm

section

variable (hd : scene.Driven axis side m) (hs : scene.Fits) (hs' : scene'.Fits)
  (hmins : ∀ i, scene'.minAlong i axis = scene.minAlong i axis)
  (hstop : scene'.bounds.edge axis side.flip = scene.bounds.edge axis side.flip)
  (hm : Rect.MovedWith axis m scene.rects scene'.rects)
include hd hs' hmins hm

/-- A region that a push crowds: it is handed on as well where the lines have been driven to, or what it is to make
room for has its room there. -/
theorem Driven.handsOn {line goal : Int} {i : Nat} {r : Rect} (hc : scene.Crowds ⟨axis, side, line, goal⟩ i r)
    (hbeyond : side.inward.pos line < side.inward.pos (r.edge axis side.flip)) :
    let q := scene.handed ⟨axis, side, line, goal⟩ i r
    scene'.Follows ⟨axis, side, m line, goal⟩ ⟨axis, side, m q.line, q.goal⟩ ∨
      side.inward.pos q.goal ≤ side.inward.pos (m q.line) := by
  intro q
  have hgoal : side.inward.pos q.goal = side.inward.pos goal + scene.minAlong i axis :=
    pos_goal_handed scene ⟨axis, side, line, goal⟩ i r
  obtain ⟨r', hr', hedges⟩ := forall₂_of_getElem? hm hc.get
  have hline : r.edge axis side = line := hc.edge
  by_cases hroom : side.inward.pos q.goal ≤ side.inward.pos (m q.line)
  · exact .inr hroom
  left
  by_cases hempty : r'.extent axis = 0
  · -- A region that has become empty has no minimum, and its lines have come together.
    have hmerged : m q.line = m line := by
      have hsame := Rect.edge_eq_edge (hs'.get hr').1 hempty side side.flip
      rwa [hedges, hedges, hline] at hsame
    have hnone : q.goal = goal := by
      have hspan := hd.room i r hc.get hc.extent
      have hmin := scene.minAlong_nonneg i axis
      rw [hline, show m (r.edge axis side.flip) = m line from hmerged] at hspan
      exact side.inward.pos_inj.1 (by omega)
    rw [hmerged, hnone]
    exact .refl
  · refine .single ⟨i, r', ⟨hr', ?_, hempty, ?_⟩, ?_⟩
    · rw [hedges, hline]
    · rw [hedges, hmins]
      change side.inward.pos (m q.line) < side.inward.pos goal + scene.minAlong i axis
      omega
    · simp only [handed, hedges, hmins, q]

include hs hstop

/-- What a push sets off, it sets off from where the lines have been driven to, or the lines are past its goal there. -/
theorem Driven.follows (hclear : scene.Clear ⟨axis, side, line, goal⟩)
    (hahead : side.inward.pos line < side.inward.pos goal) (hf : scene'.Feasible ⟨axis, side, m line, goal⟩)
    {q : Push} (hq : scene.Follows ⟨axis, side, line, goal⟩ q) :
    (scene.Clear q ∧ q.dir.pos q.line < q.dir.pos q.goal) ∧ q.dir.pos q.goal ≤ q.dir.pos (scene.stop q) ∧
      (scene'.Follows ⟨axis, side, m line, goal⟩ { q with line := m q.line } ∨
        q.dir.pos q.goal ≤ q.dir.pos (m q.line)) := by
  have hend : ∀ c g, side.inward.pos c < side.inward.pos g →
      (scene'.Follows ⟨axis, side, m line, goal⟩ ⟨axis, side, m c, g⟩ ∨ side.inward.pos g ≤ side.inward.pos (m c)) →
        side.inward.pos g ≤ side.inward.pos (scene.bounds.edge axis side.flip) := by
    rintro c g hlt (hfollows | hpast)
    · rw [← hstop]
      exact hf _ hfollows
    · refine Int.le_trans hpast (hd.within c fun hsame => ?_)
      rw [hsame] at hpast
      omega
  induction hq with
  | refl => exact ⟨⟨hclear, hahead⟩, hend line goal hahead (.inl .refl), .inl .refl⟩
  | @tail t u ht hu ih =>
    obtain ⟨⟨hclear', hlt⟩, hle, hcase⟩ := ih
    obtain ⟨haxis, hside⟩ := Follows.axis_side ht
    obtain ⟨axis', side', line', goal'⟩ := t
    obtain rfl : axis' = axis := haxis
    obtain rfl : side' = side := hside
    obtain ⟨i, r, hc, rfl⟩ := hu
    have hgoal := pos_goal_handed scene ⟨axis', side', line', goal'⟩ i r
    have hshort := hc.short
    have hon : scene'.Follows ⟨axis', side', m line, goal⟩
        { scene.handed ⟨axis', side', line', goal'⟩ i r with line := m (r.edge axis' side'.flip) } ∨
          side'.inward.pos (scene.handed ⟨axis', side', line', goal'⟩ i r).goal ≤
            side'.inward.pos (m (r.edge axis' side'.flip)) := by
      rcases hcase with hfollows | hpast
      · exact (hd.handsOn hs' hmins hm hc (hc.ahead hs hclear' hlt hle)).imp_left hfollows.trans
      · -- The line has been driven past the goal, and the region has its minimum behind it.
        right
        have hline : r.edge axis' side' = line' := hc.edge
        have hkept := hd.kept i r hc.get hc.extent (fun hsame => by
          rw [hline] at hsame
          simp only [Push.dir, hsame] at hpast hlt
          omega)
        rw [hline] at hkept
        simp only [Push.dir] at hpast hgoal ⊢
        omega
    have hnext := Int.lt_of_lt_of_le hshort (Int.le_of_eq hgoal.symm)
    exact ⟨⟨hc.clear hs hclear', hnext⟩, hend _ _ hnext hon, hon⟩

/-- What can be made in full once the lines have been driven ahead could be made in full before, all the way. -/
theorem Driven.feasible (hclear : scene.Clear ⟨axis, side, line, goal⟩)
    (hahead : side.inward.pos line < side.inward.pos goal) (hf : scene'.Feasible ⟨axis, side, m line, goal⟩) :
    scene.Feasible ⟨axis, side, line, goal⟩ :=
  fun _ hq => (hd.follows hs hs' hmins hstop hm hclear hahead hf hq).2.1

/-- Where a line has come to rest on the way to a goal, it stays when it is pushed toward the goal again. -/
theorem Driven.again (hclear : ∀ goal, scene.Clear ⟨axis, side, line, goal⟩) {reached' : Int}
    (h : scene.Reaches ⟨axis, side, line, goal⟩ (m line))
    (h' : scene'.Reaches ⟨axis, side, m line, goal⟩ reached') : reached' = m line := by
  by_contra hne
  obtain ⟨hgoal, hf⟩ := h'.moved hne
  have hahead := h.ahead
  have hahead' := h'.ahead
  have hfurther : side.inward.pos (m line) < side.inward.pos reached' :=
    lt_of_le_of_ne hahead' fun heq => hne (side.inward.pos_inj.1 heq).symm
  have hlt : side.inward.pos line < side.inward.pos reached' := Int.lt_of_le_of_lt hahead hfurther
  have hlast := h.last reached' hlt hgoal (hd.feasible hs hs' hmins hstop hm (hclear reached') hlt hf)
  exact absurd hfurther (Int.not_lt.2 hlast)

end

theorem Probed.again (h : scene.Probed axis line goal reached) (hlines : scene.Moved axis line reached m)
    (hs : scene.Fits) (hs' : scene'.Fits) (hmins : scene'.minAlong = scene.minAlong)
    (hstop : ∀ side, scene'.bounds.edge axis side = scene.bounds.edge axis side)
    (hm : Rect.MovedWith axis m scene.rects scene'.rects) (hclear : ∀ goal, scene.Clear ⟨axis, .far, line, goal⟩)
    {reached' : Int} (h' : scene'.Probed axis reached goal reached') : reached' = reached := by
  have hheld := hlines.held hs
  rcases eq_or_ne reached goal with hdone | hshort
  · exact h'.still hdone
  have hne : line ≠ goal := fun hsame => hshort ((h.still hsame).trans hsame)
  obtain ⟨side, hlt⟩ : ∃ side : Side, side.inward.pos line < side.inward.pos goal := by
    rcases Int.lt_or_gt_of_ne hne with hlt | hgt
    · exact ⟨.near, by simpa [Side.inward] using hlt⟩
    · exact ⟨.far, by simpa [Side.inward] using hgt⟩
  have hreach := h.reaches hlt
  have hlt' : side.inward.pos reached < side.inward.pos goal := by
    rcases eq_or_ne reached line with rfl | hmoved
    · exact hlt
    · exact lt_of_le_of_ne (hreach.moved hmoved).1 fun heq => hshort (side.inward.pos_inj.1 heq)
  have hclear' : ∀ goal, scene.Clear ⟨axis, side, line, goal⟩ := by
    cases side
    · exact fun _ => Fits.clear_of_near rfl
    · exact hclear
  have hreach' := h'.reaches hlt'
  have hdriven := hlines.driven hs hreach.ahead
  rw [← hheld] at hreach hreach' ⊢
  exact hdriven.again hs hs' (fun i => by rw [hmins]) (hstop _) hm hclear' hreach hreach'

section

variable {held : Grip} {point : Point} {plan plan' : Plan} {trace trace' : Trace}

/-- A line that a plan has achieved, and that may be moved from there, is one that the plan has moved. -/
theorem planFrom_moved (hs : scene.Fits) (h : scene.planFrom held point {} = .ok (plan, trace))
    (hrects : scene'.rects = plan.patch.rects) (hbounds : scene'.bounds = scene.bounds)
    (hline : scene'.movable plan.achieved axis = some reached) : ∃ line m,
      scene.Probed axis line (point.along axis) reached ∧ scene.Moved axis line reached m ∧
        Rect.MovedWith axis m scene.rects scene'.rects ∧ ∀ goal, scene.Clear ⟨axis, .far, line, goal⟩ := by
  obtain ⟨moved, hmoved, hpatch, -, hachieved⟩ := planFrom_eq_ok h
  have hsteady := steady_moving hs held
  obtain ⟨m, hm⟩ := planLines_drawn hs hsteady (Trace.sound_empty scene) rfl hmoved axis
  rw [along_moving, ← hpatch, ← hrects] at hm
  obtain ⟨hheld, hinside⟩ := movable_eq_some_iff.1 hline
  rw [hachieved] at hheld
  split at hheld
  · next hnone =>
    -- Where the plan has moved no line of the axis, the line could have been moved before.
    have hedges := hm.edges
    rw [hm.eq_id hnone] at hedges
    have hmovable : scene.IsMovable axis reached := by
      obtain ⟨hnear, hfar, b, hb, hend⟩ := hinside
      obtain ⟨r, hr, hrb⟩ := forall₂_of_mem hedges hb
      rw [hbounds] at hnear hfar
      have hrnear : b.near axis = r.near axis := hrb .near
      have hrfar : b.far axis = r.far axis := hrb .far
      rw [hrnear, hrfar] at hend
      exact ⟨hnear, hfar, r, hr, hend⟩
    cases hnone.symm.trans (movable_eq_some_iff.2 ⟨hheld, hmovable⟩)
  · next hmovable =>
    obtain ⟨line, hstart⟩ := Option.ne_none_iff_exists'.1 hmovable
    obtain ⟨reached', hreached, hprobed, hlines⟩ := hm.of_some hstart
    cases hreached.symm.trans hheld
    exact ⟨line, m, hprobed, hlines, hm.edges, (hsteady axis line ((along_moving ..).trans hstart)).2⟩

/-- The plan is made once more, for the lines that it has achieved, where it has left the regions. -/
theorem planFrom_again (hs : scene.Fits) (h : scene.planFrom held point {} = .ok (plan, trace))
    (hrects : scene'.rects = plan.patch.rects) (hmins : scene'.mins = scene.mins)
    (hbounds : scene'.bounds = scene.bounds) (h' : scene'.planFrom plan.achieved point {} = .ok (plan', trace')) :
    plan'.achieved = plan.achieved ∧ plan'.patch.rects = scene'.rects := by
  have hs' : scene'.Fits := ⟨hbounds ▸ hs.bounds, hrects ▸ (planFrom_fits hs h).2⟩
  have hminAlong : scene'.minAlong = scene.minAlong := by
    funext i axis
    simp only [minAlong, hmins]
  obtain ⟨moved, hmoved, hpatch, -, hachieved⟩ := planFrom_eq_ok h'
  obtain ⟨hprobed, -⟩ := planLines_eq_ok hs' (steady_moving hs' plan.achieved) (Trace.sound_empty scene') hmoved
  have hstill : ∀ axis, moved.achieved.along axis = (scene'.moving plan.achieved).along axis := by
    intro axis
    rcases hprobed axis with ⟨hnone, hnone'⟩ | ⟨line, reached, hline, hreached, hprobed⟩
    · rw [hnone, hnone']
    · rw [along_moving] at hline
      obtain ⟨start, m, hstart, hlines, hedges, hclear⟩ := planFrom_moved hs h hrects hbounds hline
      rw [along_moving, hline, hreached, hstart.again hlines hs hs' hminAlong (fun _ => by rw [hbounds]) hedges hclear
        hprobed]
  constructor
  · have hsame : ∀ axis, plan'.achieved.along axis = plan.achieved.along axis := by
      intro axis
      rw [hachieved]
      split
      · rfl
      · next hmovable =>
        obtain ⟨line, hline⟩ := Option.ne_none_iff_exists'.1 hmovable
        rw [hstill, along_moving, hline, (movable_eq_some hline).1]
    have hx : plan'.achieved.x = plan.achieved.x := hsame .x
    have hy : plan'.achieved.y = plan.achieved.y := hsame .y
    exact congrArg₂ Grip.mk hx hy
  · rw [hpatch]
    exact planLines_still hs' (steady_moving hs' plan.achieved) (Trace.sound_empty scene') hmoved hstill

end

end Scene

end Mosaic
