import Mosaic.Proofs.Cascade.Cover

/-! What a plan leaves of each region: along an axis it keeps its span or at least its minimum, also
where both of its edges are pushed, and it stays as it is along an axis on which nothing is held. -/
namespace Mosaic

namespace Rect

variable {floor : Axis → Int} {axis : Axis} {m : Int → Int} {r b c : Rect}

/-- Along each axis the rectangle has kept its span, or at least the floor. -/
def Keeps (floor : Axis → Int) (r b : Rect) : Prop :=
  ∀ axis, min (r.far axis - r.near axis) (floor axis) ≤ b.far axis - b.near axis

theorem Keeps.refl (floor : Axis → Int) (r : Rect) : Keeps floor r r := fun _ => Int.min_le_left _ _

theorem Keeps.trans (h : Keeps floor r b) (h' : Keeps floor b c) : Keeps floor r c := by
  intro axis
  have hfirst := h axis
  have hsecond := h' axis
  omega

theorem span_le_extent (h : r.Fits) (hp : r.IsProper) (axis : Axis) :
    r.far axis - r.near axis ≤ r.extent axis := by
  have hn := h.near axis
  have he := hp.extent_nonneg axis
  rw [far_eq]
  unfold Coord.Fits at hn
  unfold Coord.saturate
  omega

theorem Redrawn.keeps (h : Redrawn axis m r b)
    (hspan : min (r.far axis - r.near axis) (floor axis) ≤ m (r.far axis) - m (r.near axis)) :
    Keeps floor r b := by
  intro other
  rcases other.eq_or_eq_cross axis with rfl | rfl
  · rw [h.near, h.far]
    exact hspan
  · rw [h.across.1, h.across.far]
    exact Int.min_le_left _ _

theorem Redrawn.extent_eq_zero (h : Redrawn axis m r b) (hr : r.Fits) {other : Axis}
    (he : r.extent other = 0) : b.extent other = 0 := by
  rcases other.eq_or_eq_cross axis with rfl | rfl
  · have hmark := far_eq_near hr he
    have hexact := h.exact (by omega)
    have hfar := h.far
    rw [hmark, ← h.near] at hfar
    omega
  · rw [h.across.2, he]

end Rect

namespace Scene

variable {scene : Scene} {held : Grip} {goal : Point} {plan : Plan} {trace trace' : Trace} {axis : Axis}
  {line reached : Option Int} {m : Int → Int} {i : Nat} {r : Rect}

theorem MovedBy.room (hm : scene.MovedBy axis line reached m) (hs : scene.Fits)
    (hr : scene.rects[i]? = some r) : min (r.far axis - r.near axis) (scene.minAlong i axis) ≤
      m (r.far axis) - m (r.near axis) := by
  rcases hm with ⟨-, -, rfl⟩ | ⟨_, _, -, -, hm⟩
  · exact Int.min_le_left _ _
  · by_cases he : r.extent axis = 0
    · rw [Rect.far_eq_near (hs.get hr).1 he]
      omega
    · have hroom := hm.room hs hr he
      omega

theorem planLines_keeps (hs : scene.Fits) (hsteady : scene.Steady held) (hsound : trace.Sound scene)
    (hfresh : trace.commits = []) (h : scene.planLines held goal trace = .ok (plan, trace')) :
    plan.patch.rects.length = scene.rects.length ∧ ∀ (i : Nat) (r b : Rect), scene.rects[i]? = some r →
      plan.patch.rects[i]? = some b → (b.Fits ∧ b.IsProper) ∧ Rect.Keeps (scene.minAlong i) r b ∧
        ∀ axis, (r.extent axis = 0 → b.extent axis = 0) ∧
          (held.along axis = none → b.near axis = r.near axis ∧ b.extent axis = r.extent axis) := by
  obtain ⟨x, y, mid, hx, hy, hmid, hpatch, hsameX, hsameY⟩ := planLines_moved hs hsteady hsound hfresh h
  refine ⟨hpatch.length_eq.symm.trans hmid.length_eq.symm, fun i r b hr hb => ?_⟩
  obtain ⟨q, hq, hqb⟩ := forall₂_of_getElem?_right hpatch hb
  obtain ⟨r', hr', hrq⟩ := forall₂_of_getElem?_right hmid hq
  obtain rfl : r = r' := Option.some.inj (hr.symm.trans hr')
  have hfirst : Rect.Keeps (scene.minAlong i) r q := hrq.keeps (hx.room hs hr)
  -- The span along the second axis is still that of the region.
  have hroom := hy.room hs hr
  rw [← show q.near .y = r.near .y from hrq.across.1, ← show q.far .y = r.far .y from hrq.across.far]
    at hroom
  refine ⟨⟨hqb.fits, hqb.proper⟩, hfirst.trans (hqb.keeps hroom), fun axis => ⟨fun he => ?_, fun hnone => ?_⟩⟩
  · exact hqb.extent_eq_zero hrq.fits (hrq.extent_eq_zero (hs.get hr).1 he)
  · cases axis
    · cases Option.some.inj (hq.symm.trans (hsameX hnone ▸ hr))
      exact hqb.across
    · cases Option.some.inj (hb.symm.trans (hsameY hnone ▸ hq))
      exact hrq.across

/-- A plan leaves of the span of a region as much as its minimum, if it was that much; a region that is
empty along an axis stays so, and along an axis on which nothing is held all spans stay. -/
theorem plan_floor (hs : scene.Fits) (h : scene.plan held goal = .ok plan) :
    plan.patch.rects.length = scene.rects.length ∧ ∀ (i : Nat) (r b : Rect), scene.rects[i]? = some r →
      plan.patch.rects[i]? = some b → ∀ axis,
        min (r.far axis - r.near axis) (scene.minAlong i axis) ≤ b.extent axis ∧
          (r.extent axis = 0 → b.extent axis = 0) ∧
            (held.along axis = none → b.near axis = r.near axis ∧ b.extent axis = r.extent axis) := by
  obtain ⟨⟨_, after⟩, hplan, h⟩ := Checked.bind_eq_ok.1 h
  obtain rfl := Checked.pure_eq_ok.1 h
  obtain ⟨moved, hmoved, hpatch, -⟩ := planFrom_eq_ok hplan
  obtain ⟨hlength, hkeeps⟩ :=
    planLines_keeps hs (steady_moving hs held) (Trace.sound_empty scene) rfl hmoved
  rw [hpatch]
  refine ⟨hlength, fun i r b hr hb axis => ?_⟩
  obtain ⟨⟨hfits, hproper⟩, hkept, hspans⟩ := hkeeps i r b hr hb
  obtain ⟨hempty, hsame⟩ := hspans axis
  refine ⟨(hkept axis).trans (Rect.span_le_extent hfits hproper axis), hempty, fun hnone => hsame ?_⟩
  rw [along_moving, movable, hnone, Option.filter_none]

/-- A row of columns with a narrow one, which is below its minimum, and an empty one. -/
def thinColumns : Scene where
  rects := [⟨0, 0, 10, 10⟩, ⟨10, 0, 2, 10⟩, ⟨12, 0, 0, 10⟩, ⟨12, 0, 18, 10⟩]
  mins := [⟨4, 4⟩, ⟨4, 4⟩, ⟨4, 4⟩, ⟨6, -1⟩]
  bounds := ⟨0, 0, 30, 10⟩

theorem plan_floor_thinColumns : thinColumns.Fits ∧
    ∃ plan, thinColumns.plan (.vertical 12) ⟨3, 50⟩ = .ok plan ∧ plan.patch.rects.length = 4 ∧
      ∀ b, plan.patch.rects[1]? = some b → 2 ≤ b.width ∧ b.y = 0 ∧ b.height = 10 := by
  have hs : thinColumns.Fits := ⟨by decide, by decide⟩
  obtain ⟨plan, h⟩ : ∃ plan, thinColumns.plan (.vertical 12) ⟨3, 50⟩ = .ok plan := ⟨_, rfl⟩
  obtain ⟨hlength, hfloor⟩ := plan_floor hs h
  refine ⟨hs, plan, h, hlength, fun b hb => ?_⟩
  obtain ⟨hwidth, -⟩ := hfloor 1 ⟨10, 0, 2, 10⟩ b rfl hb .x
  obtain ⟨-, -, hsame⟩ := hfloor 1 ⟨10, 0, 2, 10⟩ b rfl hb .y
  exact ⟨hwidth, hsame rfl⟩

/-- The second column is cut off at the end of the coordinates. -/
def cutColumn : Scene where
  rects := [⟨10, 0, 50, 10⟩, ⟨60, 0, 2147483597, 10⟩]
  mins := [⟨0, 0⟩, ⟨2147483597, 0⟩]
  bounds := ⟨10, 0, 2147483647, 10⟩

/-- The part of an extent that is cut off is lost when the region is written anew. -/
theorem not_floor_of_cut_off : ¬ ∀ (scene : Scene) (held : Grip) (goal : Point) (plan : Plan),
    scene.Fits → scene.bounds.IsProper → (∀ r ∈ scene.rects, scene.bounds.Encloses r) →
    scene.plan held goal = .ok plan → ∀ (i : Nat) (r b : Rect), scene.rects[i]? = some r →
      plan.patch.rects[i]? = some b → ∀ axis,
        min (r.extent axis) (scene.minAlong i axis) ≤ b.extent axis := by
  intro h
  have hfloor := h cutColumn (.vertical 60) ⟨55, 0⟩ _ ⟨by decide, by decide⟩ (by decide) (by decide) rfl
    1 ⟨60, 0, 2147483597, 10⟩ ⟨55, 0, 2147483592, 10⟩ rfl rfl .x
  exact absurd hfloor (by decide)

end Scene

end Mosaic
