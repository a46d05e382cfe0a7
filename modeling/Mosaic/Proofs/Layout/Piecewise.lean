import Mosaic.Proofs.Layout.Restretch

/-! The three pieces that an axis is stretched in: up to the old near edge, from there to the anchor's far edge, and
from there on. They are joined in order, and together they carry the old container onto the target, unless the old far
edge is cut off at the end of the coordinates. Growth moves each piece as a whole. -/
namespace Mosaic

namespace Stretch

variable {s : Stretch} {old anchor target : Rect} {axis : Axis}

/-- What the map of an axis does to the edges that it takes anywhere. -/
structure Carries (s : Stretch) (old anchor target : Rect) (axis : Axis) : Prop where
  mono : ∀ a b v w, a ≤ b → s.map a = .ok v → s.map b = .ok w → v ≤ w
  near : s.map (old.near axis) = .ok (target.near axis)
  /-- A far edge that is cut off lies before the end of the extent. -/
  far : Coord.Fits (old.near axis + old.extent axis) → ∀ v, s.map (old.far axis) = .ok v → v = target.far axis
  within : ∀ edge v, s.map edge = .ok v → target.near axis ≤ v ∧ v ≤ target.far axis
  before : old.extent axis ≤ target.extent axis → ∀ edge v, s.map edge = .ok v →
    old.near axis < edge → edge < anchor.far axis → v = edge + (target.near axis - old.near axis)
  behind : old.extent axis ≤ target.extent axis → ∀ edge v, s.map edge = .ok v →
    old.near axis < edge → anchor.far axis ≤ edge → edge ≤ old.far axis →
      v = edge + (target.near axis - old.near axis) + (target.extent axis - old.extent axis)
  length : old.extent axis ≤ target.extent axis → old.near axis < anchor.far axis →
    ∀ a b v w, s.map a = .ok v → s.map b = .ok w → old.near axis ≤ a → a ≤ b → b ≤ old.far axis →
      b < anchor.far axis ∨ anchor.far axis ≤ a → w - v = b - a

/-- Growth moves an edge along with the near edge of the container, or, from the anchor's far edge on, along with its
far edge. -/
theorem map_of_larger (h : between old anchor target axis = .ok s) (hold : old.Fits) (hextent : 0 < old.extent axis)
    (htarget : target.Fits) (hlarger : old.extent axis ≤ target.extent axis) {edge v : Int}
    (hv : s.map edge = .ok v) (hedge : old.near axis ≤ edge ∧ edge ≤ old.far axis) :
    (edge < anchor.far axis → v = edge + (target.near axis - old.near axis)) ∧
      (old.near axis < edge → anchor.far axis ≤ edge →
        v = edge + (target.near axis - old.near axis) + (target.extent axis - old.extent axis)) := by
  have himage := image_of_larger h hold hextent htarget hlarger hedge (fits_of_map h ⟨v, hv⟩)
  rw [← (map_eq_ok hv).1] at himage
  constructor
  · intro hbefore
    rw [if_neg (Int.not_le.2 hbefore)] at himage
    split at himage
    · omega
    · exact himage
  · intro hpast hbehind
    rw [himage, if_neg (Int.not_le.2 hpast), if_pos hbehind]

section

variable (h : between old anchor target axis = .ok s) (hextent : 0 < old.extent axis)
  (hanchor : anchor.far axis ≤ old.far axis)
include h hextent hanchor

/-- Wherever the old far edge is where the extent ends, it goes to the far edge of the target: that it is mapped at all
keeps the target from being cut off. -/
theorem map_far {v : Int} (htarget : 0 < target.extent axis) (hend : Coord.Fits (old.near axis + old.extent axis))
    (hv : s.map (old.far axis) = .ok v) : v = target.far axis := by
  have hfar : old.far axis = old.near axis + old.extent axis := by rw [Rect.far_eq, Coord.saturate_of_fits hend]
  have hfits := fits_of_map h ⟨v, hv⟩ (by omega) hanchor
  have hspan : old.far axis + (target.near axis - old.near axis) + (target.extent axis - old.extent axis) =
      target.near axis + target.extent axis := by omega
  rw [hspan] at hfits
  have hfar' : target.far axis = target.near axis + target.extent axis := by
    rw [Rect.far_eq, Coord.saturate_of_fits hfits]
  obtain ⟨rfl, -⟩ := map_eq_ok hv
  obtain rfl := between_eq_ok h
  have hlt : old.near axis < old.far axis := by omega
  simp only [image, if_neg (Int.not_le.2 hlt), if_pos hanchor]
  omega

/-- The map of an axis keeps the edges in order and carries the container onto the target, piece by piece. -/
theorem carries_of_between (hold : old.Fits) (htarget : target.Fits) (hpositive : 0 < target.extent axis) :
    s.Carries old anchor target axis := by
  have hordered : target.near axis ≤ target.far axis := by
    have hnear := htarget.near axis
    rw [Rect.far_eq]
    simp only [Coord.Fits, Coord.saturate] at *
    omega
  refine ⟨?mono, ?near, fun hend v hv => map_far h hextent hanchor hpositive hend hv, ?within, ?before, ?behind,
    ?length⟩
  case mono =>
    intro a b v w hab ha hb
    rw [(map_eq_ok ha).1, (map_eq_ok hb).1]
    exact image_mono h hab
  case near =>
    obtain rfl := between_eq_ok h
    exact if_pos (Int.le_refl _)
  case within =>
    intro edge v hv
    rw [(map_eq_ok hv).1]
    exact image_within h hordered edge
  case before =>
    intro hlarger edge v hv hlow hhigh
    have hedge : edge ≤ old.far axis := Int.le_trans (Int.le_of_lt hhigh) hanchor
    exact (map_of_larger h hold hextent htarget hlarger hv ⟨Int.le_of_lt hlow, hedge⟩).1 hhigh
  case behind =>
    intro hlarger edge v hv hlow hfollows hhigh
    exact (map_of_larger h hold hextent htarget hlarger hv ⟨Int.le_of_lt hlow, hhigh⟩).2 hlow hfollows
  case length =>
    intro hlarger hbeyond a b v w ha hb hlow hab hhigh hside
    have hv := map_of_larger h hold hextent htarget hlarger ha ⟨hlow, Int.le_trans hab hhigh⟩
    have hw := map_of_larger h hold hextent htarget hlarger hb ⟨Int.le_trans hlow hab, hhigh⟩
    rcases hside with hside | hside
    · have hv := hv.1 (Int.lt_of_le_of_lt hab hside)
      have hw := hw.1 hside
      omega
    · have hv := hv.2 (Int.lt_of_lt_of_le hbeyond hside) hside
      have hw := hw.2 (by omega) (Int.le_trans hside hab)
      omega

end

/-- A container from 10 to 110 with an anchor that ends at 40, stretched to one from 5 to 135. -/
theorem carries_of_between_columns : ∃ s, between ⟨10, 0, 100, 50⟩ ⟨10, 0, 30, 50⟩ ⟨5, 0, 130, 50⟩ .x = .ok s ∧
    s.Carries ⟨10, 0, 100, 50⟩ ⟨10, 0, 30, 50⟩ ⟨5, 0, 130, 50⟩ .x ∧
      s.map 10 = .ok 5 ∧ s.map 39 = .ok 34 ∧ s.map 40 = .ok 65 ∧ s.map 110 = .ok 135 := by
  refine ⟨_, rfl, carries_of_between rfl (by decide) (by decide) (by decide) (by decide) (by decide), ?_⟩
  decide

/-- An old far edge that is cut off does not go to the far edge of the target. -/
theorem not_map_far : ¬ ∀ (old anchor target : Rect) (axis : Axis) (s : Stretch) (v : Int),
    old.Fits → 0 < old.extent axis → anchor.Fits →
    old.near axis ≤ anchor.far axis ∧ anchor.far axis ≤ old.far axis → target.Fits → 0 < target.extent axis →
    between old anchor target axis = .ok s → s.map (old.far axis) = .ok v → v = target.far axis := by
  intro h
  have hfar := h ⟨2147483638, 0, 100, 10⟩ ⟨2147483638, 0, 100, 10⟩ ⟨0, 0, 100, 10⟩ .x _ 9 (by decide) (by decide)
    (by decide) (by decide) (by decide) (by decide) rfl rfl
  exact absurd hfar (by decide)

end Stretch

end Mosaic
