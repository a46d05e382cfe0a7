import Mosaic.Proofs.Cover.Hull
import Mosaic.Proofs.Gives

/-! Rectangles whose fields leave room for sums. The edges of all regions in such a container lie in its span, which
takes up no more than a quarter of the coordinates, so none is cut off. -/
namespace Mosaic

/-- An eighth of the coordinates, around zero. -/
def Coord.Moderate (v : Int) : Prop := -2 ^ 28 ≤ v ∧ v ≤ 2 ^ 28

instance (v : Int) : Decidable (Coord.Moderate v) := inferInstanceAs (Decidable (_ ∧ _))

/-- Where the edges of moderate rectangles are. -/
def Coord.Reached (v : Int) : Prop := -2 ^ 28 ≤ v ∧ v ≤ 2 ^ 29

theorem Coord.Reached.fits {v : Int} (h : Coord.Reached v) : Coord.Fits v := by
  unfold Coord.Reached at h
  unfold Coord.Fits
  omega

theorem Coord.Moderate.reached {v : Int} (h : Coord.Moderate v) : Coord.Reached v := by
  unfold Coord.Moderate at h
  unfold Coord.Reached
  omega

/-- No extent is negative, and none is too large to be moderate. -/
def Size.Moderate (s : Size) : Prop := (0 ≤ s.width ∧ s.width ≤ 2 ^ 28) ∧ 0 ≤ s.height ∧ s.height ≤ 2 ^ 28

instance (s : Size) : Decidable s.Moderate := inferInstanceAs (Decidable (_ ∧ _))

theorem Size.Moderate.along {s : Size} (h : s.Moderate) (axis : Axis) : 0 ≤ s.along axis ∧ s.along axis ≤ 2 ^ 28 := by
  cases axis
  · exact h.1
  · exact h.2

namespace Rect

open Checked

variable {box r s : Rect} {rects : List Rect} {axis : Axis}

/-- All edges are where those of moderate rectangles are. -/
structure Reached (r : Rect) : Prop where
  proper : r.IsProper
  edge : ∀ axis side, Coord.Reached (r.edge axis side)

namespace Reached

theorem near (h : r.Reached) (axis : Axis) : Coord.Reached (r.near axis) := h.edge axis .near

theorem far (h : r.Reached) (axis : Axis) : Coord.Reached (r.far axis) := h.edge axis .far

theorem near_lt_far (h : r.Reached) (he : r.extent axis ≠ 0) : r.near axis < r.far axis := by
  have hnear := h.near axis
  unfold Coord.Reached at hnear
  exact Rect.near_lt_far h.proper he (by omega)

theorem place {near extent : Int} (h : r.Reached) (hnear : Coord.Reached near) (hextent : 0 ≤ extent)
    (hfar : Coord.Reached (near + extent)) : (r.place near extent axis).Reached := by
  have hacross := sameAcross_place r near extent axis
  refine ⟨hacross.isProper h.proper (by rwa [extent_place]), fun other side => ?_⟩
  rcases Axis.eq_or_eq_cross other axis with rfl | rfl
  · cases side
    · rwa [Rect.edge, near_place]
    · rwa [Rect.edge, far_place near extent hfar.fits]
  · rw [hacross.edge side]
    exact h.edge _ side

theorem gives_withSpan {near far : Int} (h : r.Reached) (hnear : Coord.Reached near) (hfar : Coord.Reached far) :
    Gives (r.withSpan axis near far) Reached := by
  unfold withSpan
  split
  · exact .pure (h.place hnear (Int.le_refl 0) (by rwa [Int.add_zero]))
  · next hle =>
    refine (Coord.gives_sub ?_).bind fun extent _ hextent => .pure ?_
    · unfold Coord.Reached at hnear hfar
      unfold Coord.Fits
      omega
    · rw [hextent]
      exact h.place hnear (by omega) (by rwa [add_sub_cancel])

end Reached

theorem reached_of_axes (hp : r.IsProper)
    (h : ∀ axis, Coord.Reached (r.near axis) ∧ Coord.Reached (r.near axis + r.extent axis)) : r.Reached := by
  refine ⟨hp, fun axis side => ?_⟩
  obtain ⟨hnear, hfar⟩ := h axis
  cases side
  · exact hnear
  · rwa [edge, far_eq, Coord.saturate_of_fits hfar.fits]

theorem gives_ofEdges {left top right bottom : Int} (hleft : Coord.Reached left) (htop : Coord.Reached top)
    (hright : Coord.Reached right) (hbottom : Coord.Reached bottom) :
    Gives (ofEdges left top right bottom) Reached := by
  unfold Coord.Reached at hleft htop hright hbottom
  refine (Coord.gives_sub ?_).bind fun width _ hwidth => (Coord.gives_sub ?_).bind fun height _ hheight => .pure ?_
  · unfold Coord.Fits
    omega
  · unfold Coord.Fits
    omega
  · subst hwidth hheight
    refine reached_of_axes (isProper_clamped ..) fun axis => ?_
    unfold Coord.Reached
    cases axis
    · simp only [clamped, Rect.near, Rect.extent]
      omega
    · simp only [clamped, Rect.near, Rect.extent]
      omega

theorem gives_union (hr : r.Reached) (hs : s.Reached) : Gives (r.union s) Reached := by
  have hmin {a b : Int} (ha : Coord.Reached a) (hb : Coord.Reached b) : Coord.Reached (min a b) := by
    unfold Coord.Reached at *
    omega
  have hmax {a b : Int} (ha : Coord.Reached a) (hb : Coord.Reached b) : Coord.Reached (max a b) := by
    unfold Coord.Reached at *
    omega
  exact gives_ofEdges (hmin (hr.near .x) (hs.near .x)) (hmin (hr.near .y) (hs.near .y)) (hmax (hr.far .x) (hs.far .x))
    (hmax (hr.far .y) (hs.far .y))

def Moderate (r : Rect) : Prop :=
  Coord.Moderate r.x ∧ Coord.Moderate r.y ∧ Coord.Moderate r.width ∧ Coord.Moderate r.height

instance (r : Rect) : Decidable r.Moderate := inferInstanceAs (Decidable (_ ∧ _ ∧ _ ∧ _))

namespace Moderate

theorem clamped (h : r.Moderate) : (clamped r.x r.y r.width r.height).Moderate := by
  unfold Moderate Coord.Moderate at *
  simp only [Rect.clamped]
  omega

theorem near (h : r.Moderate) (axis : Axis) : Coord.Moderate (r.near axis) := by
  cases axis
  · exact h.1
  · exact h.2.1

theorem extent (h : r.Moderate) (axis : Axis) : Coord.Moderate (r.extent axis) := by
  cases axis
  · exact h.2.2.1
  · exact h.2.2.2

theorem far_eq (h : r.Moderate) (axis : Axis) : r.far axis = r.near axis + r.extent axis := by
  have hnear := h.near axis
  have hextent := h.extent axis
  rw [Rect.far_eq, Coord.saturate_of_fits]
  unfold Coord.Moderate Coord.Fits at *
  omega

theorem fits (h : r.Moderate) : r.Fits := by
  obtain ⟨hx, hy, hwidth, hheight⟩ := h
  unfold Fits Coord.Moderate Coord.Fits at *
  omega

theorem sharp_of_encloses (h : box.Moderate) (hin : box.Encloses r) (hr : r.IsProper) : r.Sharp := by
  have hspan : ∀ axis, -2 ^ 28 ≤ r.near axis ∧ 0 ≤ r.extent axis ∧ r.near axis + r.extent axis ≤ 2 ^ 29 ∧
      r.far axis = r.near axis + r.extent axis := by
    intro axis
    have hnear := h.near axis
    have hextent := h.extent axis
    have hedges := hin.edges axis
    have hproper := hr.extent_nonneg axis
    rw [h.far_eq] at hedges
    rw [Rect.far_eq] at hedges ⊢
    unfold Coord.Moderate Coord.saturate at *
    omega
  have hx := hspan .x
  have hy := hspan .y
  refine ⟨?_, hr, fun axis => (hspan axis).2.2.2⟩
  simp only [Rect.near, Rect.extent] at hx hy
  unfold Fits Coord.Fits
  omega

theorem reached_of_encloses (h : box.Moderate) (hin : box.Encloses r) (hr : r.IsProper) : r.Reached := by
  refine ⟨hr, fun axis side => ?_⟩
  have hnear := h.near axis
  have hextent := h.extent axis
  have hedges := hin.edges axis
  have hordered := (h.sharp_of_encloses hin hr).near_le_far axis
  rw [h.far_eq] at hedges
  unfold Coord.Moderate Coord.Reached at *
  cases side
  · simp only [edge]
    omega
  · simp only [edge]
    omega

theorem reached (h : r.Moderate) (hr : r.IsProper) : r.Reached :=
  h.reached_of_encloses ⟨Int.le_refl _, Int.le_refl _, Int.le_refl _, Int.le_refl _⟩ hr

theorem solid (h : r.Moderate) (hextent : ∀ axis, 0 < r.extent axis) : r.Solid := ⟨h.fits, hextent, h.far_eq⟩

section

variable (h : box.Moderate) (ht : box.Tile rects)
include h ht

theorem sharp_of_tile : ∀ r ∈ rects, r.Sharp := fun r hr => h.sharp_of_encloses (ht.1 r hr).2 (ht.1 r hr).1

theorem reached_of_tile : ∀ r ∈ rects, r.Reached :=
  fun r hr => h.reached_of_encloses (ht.1 r hr).2 (ht.1 r hr).1

end

end Moderate

end Rect

end Mosaic
