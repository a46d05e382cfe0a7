import Mosaic.Proofs.Checked
import Mosaic.Cover.Tiling

/-! Spans of rectangles along an axis. As long as the fields of a rectangle are coordinates its
edges stand in order, even where the far edge is cut off at the end of the coordinates. -/
namespace Mosaic

theorem Axis.eq_or_eq_cross (a b : Axis) : a = b ∨ a = b.cross := by
  cases a <;> cases b <;> simp [cross]

def Rect.Fits (r : Rect) : Prop :=
  Coord.Fits r.x ∧ Coord.Fits r.y ∧ Coord.Fits r.width ∧ Coord.Fits r.height

instance (r : Rect) : Decidable r.Fits := inferInstanceAs (Decidable (_ ∧ _ ∧ _ ∧ _))

namespace Rect

variable {r s : Rect} {axis : Axis} {side : Side}

theorem far_eq (r : Rect) (axis : Axis) :
    r.far axis = Coord.saturate (r.near axis + r.extent axis) := by cases axis <;> rfl

theorem near_clamped (r : Rect) (axis : Axis) :
    (clamped r.x r.y r.width r.height).near axis = r.near axis := by cases axis <;> rfl

theorem extent_clamped (r : Rect) (axis : Axis) :
    (clamped r.x r.y r.width r.height).extent axis = max (r.extent axis) 0 := by cases axis <;> rfl

theorem IsProper.clamped_eq (h : r.IsProper) : clamped r.x r.y r.width r.height = r := by
  rw [clamped, Int.max_eq_left h.1, Int.max_eq_left h.2]

theorem IsProper.extent_nonneg (h : r.IsProper) (axis : Axis) : 0 ≤ r.extent axis := by
  cases axis
  · exact h.1
  · exact h.2

theorem Fits.near (h : r.Fits) (axis : Axis) : Coord.Fits (r.near axis) := by
  cases axis
  · exact h.1
  · exact h.2.1

theorem Fits.extent (h : r.Fits) (axis : Axis) : Coord.Fits (r.extent axis) := by
  cases axis
  · exact h.2.2.1
  · exact h.2.2.2

theorem fits_far (r : Rect) (axis : Axis) : Coord.Fits (r.far axis) :=
  far_eq r axis ▸ Coord.fits_saturate _

/-- A rectangle can have its far edge before its near one, but never too far before it. -/
theorem Fits.span (h : r.Fits) (axis : Axis) :
    -2147483648 ≤ r.far axis - r.near axis ∧ r.far axis - r.near axis ≤ 2147483647 := by
  have hn := h.near axis
  have he := h.extent axis
  rw [far_eq]
  unfold Coord.Fits at hn he
  unfold Coord.saturate
  omega

theorem Fits.edge (h : r.Fits) (axis : Axis) (side : Side) : Coord.Fits (r.edge axis side) := by
  cases side
  · exact h.near axis
  · exact fits_far r axis

theorem near_le_far (h : r.Fits) (hp : r.IsProper) (axis : Axis) : r.near axis ≤ r.far axis := by
  have hn := h.near axis
  have he := hp.extent_nonneg axis
  rw [far_eq]
  unfold Coord.Fits at hn
  unfold Coord.saturate
  omega

theorem far_eq_near (h : r.Fits) (he : r.extent axis = 0) : r.far axis = r.near axis := by
  rw [far_eq, he, Int.add_zero, Coord.saturate_of_fits (h.near axis)]

theorem edge_eq_edge (h : r.Fits) (he : r.extent axis = 0) (side other : Side) :
    r.edge axis other = r.edge axis side := by
  have hmark := far_eq_near h he
  cases other <;> cases side <;> simp [edge, hmark]

/-- Only at the very end of the coordinates a rectangle with an extent has both edges in one place. -/
theorem near_lt_far (hp : r.IsProper) (he : r.extent axis ≠ 0) (hlt : r.near axis < 2147483647) :
    r.near axis < r.far axis := by
  have := hp.extent_nonneg axis
  rw [far_eq]
  unfold Coord.saturate
  omega

@[simp] theorem near_place (r : Rect) (n e : Int) (axis : Axis) : (r.place n e axis).near axis = n := by
  cases axis <;> rfl

@[simp] theorem extent_place (r : Rect) (n e : Int) (axis : Axis) :
    (r.place n e axis).extent axis = e := by cases axis <;> rfl

@[simp] theorem near_place_cross (r : Rect) (n e : Int) (axis : Axis) :
    (r.place n e axis).near axis.cross = r.near axis.cross := by cases axis <;> rfl

@[simp] theorem extent_place_cross (r : Rect) (n e : Int) (axis : Axis) :
    (r.place n e axis).extent axis.cross = r.extent axis.cross := by cases axis <;> rfl

theorem far_place (n e : Int) (h : Coord.Fits (n + e)) : (r.place n e axis).far axis = n + e := by
  rw [far_eq, near_place, extent_place, Coord.saturate_of_fits h]

/-- No extent is negative, and the far edges are not cut off at the end of the coordinates. -/
structure Sharp (r : Rect) : Prop where
  fits : r.Fits
  proper : r.IsProper
  far : ∀ axis, r.far axis = r.near axis + r.extent axis

theorem sharp_iff : r.Sharp ↔ (r.Fits ∧ r.IsProper) ∧
    r.right = r.x + r.width ∧ r.bottom = r.y + r.height := by
  constructor
  · rintro ⟨hfits, hproper, hfar⟩
    exact ⟨⟨hfits, hproper⟩, hfar .x, hfar .y⟩
  · rintro ⟨⟨hfits, hproper⟩, hright, hbottom⟩
    exact ⟨hfits, hproper, Axis.rec hright hbottom⟩

instance (r : Rect) : Decidable r.Sharp := decidable_of_iff _ sharp_iff.symm

theorem Sharp.near_le_far (h : r.Sharp) (axis : Axis) : r.near axis ≤ r.far axis :=
  Rect.near_le_far h.fits h.proper axis

/-- The rectangle has an area, and its far edges are not cut off at the end of the coordinates. -/
structure Solid (r : Rect) : Prop where
  fits : r.Fits
  extent : ∀ axis, 0 < r.extent axis
  far : ∀ axis, r.far axis = r.near axis + r.extent axis

theorem solid_iff : r.Solid ↔ r.Fits ∧ (0 < r.width ∧ 0 < r.height) ∧
    r.right = r.x + r.width ∧ r.bottom = r.y + r.height := by
  constructor
  · rintro ⟨hfits, hextent, hfar⟩
    exact ⟨hfits, ⟨hextent .x, hextent .y⟩, hfar .x, hfar .y⟩
  · rintro ⟨hfits, ⟨hwidth, hheight⟩, hright, hbottom⟩
    exact ⟨hfits, Axis.rec hwidth hheight, Axis.rec hright hbottom⟩

instance (r : Rect) : Decidable r.Solid := decidable_of_iff _ solid_iff.symm

theorem Solid.isProper (h : r.Solid) : r.IsProper :=
  ⟨Int.le_of_lt (h.extent .x), Int.le_of_lt (h.extent .y)⟩

theorem Solid.sharp (h : r.Solid) : r.Sharp := ⟨h.fits, h.isProper, h.far⟩

theorem Solid.near_lt_far (h : r.Solid) (axis : Axis) : r.near axis < r.far axis := by
  have := h.extent axis
  rw [h.far]
  omega

theorem Solid.covers_near (h : r.Solid) : r.Covers ⟨r.x, r.y⟩ :=
  ⟨Int.le_refl _, h.near_lt_far .x, Int.le_refl _, h.near_lt_far .y⟩

theorem Solid.not_isEmpty (h : r.Solid) : ¬ r.IsEmpty := by
  rintro (he | he)
  · exact absurd he (Int.ne_of_gt (h.extent .x))
  · exact absurd he (Int.ne_of_gt (h.extent .y))

/-- The two rectangles have the same span across the axis. -/
def SameAcross (axis : Axis) (r s : Rect) : Prop :=
  s.near axis.cross = r.near axis.cross ∧ s.extent axis.cross = r.extent axis.cross

theorem SameAcross.refl (axis : Axis) (r : Rect) : SameAcross axis r r := ⟨rfl, rfl⟩

theorem SameAcross.trans {t : Rect} (h : SameAcross axis r s) (h' : SameAcross axis s t) :
    SameAcross axis r t := ⟨h'.1.trans h.1, h'.2.trans h.2⟩

theorem SameAcross.far (h : SameAcross axis r s) : s.far axis.cross = r.far axis.cross := by
  rw [far_eq, far_eq, h.1, h.2]

theorem SameAcross.edge (h : SameAcross axis r s) (side : Side) :
    s.edge axis.cross side = r.edge axis.cross side := by
  cases side
  · exact h.1
  · exact h.far

theorem sameAcross_place (r : Rect) (n e : Int) (axis : Axis) : SameAcross axis r (r.place n e axis) :=
  ⟨near_place_cross .., extent_place_cross ..⟩

theorem SameAcross.fits (h : SameAcross axis r s) (hr : r.Fits) (hn : Coord.Fits (s.near axis))
    (he : Coord.Fits (s.extent axis)) : s.Fits := by
  have hn' : Coord.Fits (s.near axis.cross) := h.1 ▸ hr.near axis.cross
  have he' : Coord.Fits (s.extent axis.cross) := h.2 ▸ hr.extent axis.cross
  cases axis
  · exact ⟨hn, hn', he, he'⟩
  · exact ⟨hn', hn, he', he⟩

theorem SameAcross.isProper (h : SameAcross axis r s) (hr : r.IsProper) (he : 0 ≤ s.extent axis) :
    s.IsProper := by
  have he' : 0 ≤ s.extent axis.cross := h.2 ▸ hr.extent_nonneg axis.cross
  cases axis
  · exact ⟨he, he'⟩
  · exact ⟨he', he⟩

theorem withSpan_eq_ok {n f : Int} (h : r.withSpan axis n f = .ok s) (hle : n ≤ f)
    (hn : Coord.Fits n) (hf : Coord.Fits f) (hr : r.Fits) (hp : r.IsProper) :
    s.near axis = n ∧ s.far axis = f ∧ s.extent axis = f - n ∧ SameAcross axis r s ∧ s.Fits ∧
      s.IsProper := by
  rw [withSpan, if_neg (by omega), Checked.bind_eq_ok] at h
  obtain ⟨e, he, hs⟩ := h
  obtain ⟨hfe, rfl⟩ := Coord.sub_eq_ok_iff.1 he
  obtain rfl := Checked.pure_eq_ok.1 hs
  have hsame := sameAcross_place r n (f - n) axis
  have hfar : n + (f - n) = f := by omega
  refine ⟨near_place .., ?_, extent_place .., hsame, hsame.fits hr (by simpa using hn) (by simpa using hfe),
    hsame.isProper hp (by simpa using hle)⟩
  rw [far_place _ _ (by rwa [hfar]), hfar]

theorem withSpan_self (hr : r.Fits) (hp : r.IsProper) (hexact : r.far axis = r.near axis + r.extent axis) :
    r.withSpan axis (r.near axis) (r.far axis) = .ok r := by
  have hle := near_le_far hr hp axis
  have hextent : r.far axis - r.near axis = r.extent axis := by omega
  rw [withSpan, if_neg (by omega), Coord.sub_eq_ok_iff.2 ⟨hextent ▸ hr.extent axis, hextent⟩]
  cases axis <;> rfl

theorem exists_ofEdges {left top right bottom : Int} (hwidth : Coord.Fits (right - left))
    (hheight : Coord.Fits (bottom - top)) : ∃ r, ofEdges left top right bottom = .ok r := by
  rw [ofEdges, Coord.sub_eq_ok_iff.2 ⟨hwidth, rfl⟩, Coord.sub_eq_ok_iff.2 ⟨hheight, rfl⟩]
  exact ⟨_, rfl⟩

/-- A rectangle between coordinates has them as its edges, and is empty along an axis where they are out of order. -/
theorem ofEdges_sharp {left top right bottom : Int} (h : ofEdges left top right bottom = .ok r)
    (hleft : Coord.Fits left) (htop : Coord.Fits top) (hright : Coord.Fits right) (hbottom : Coord.Fits bottom) :
    r.Sharp ∧ (r.x = left ∧ r.y = top) ∧ r.right = max right left ∧ r.bottom = max bottom top := by
  obtain ⟨width, hwidth, h⟩ := Checked.bind_eq_ok.1 h
  obtain ⟨height, hheight, h⟩ := Checked.bind_eq_ok.1 h
  obtain ⟨hfitsW, rfl⟩ := Coord.sub_eq_ok_iff.1 hwidth
  obtain ⟨hfitsH, rfl⟩ := Coord.sub_eq_ok_iff.1 hheight
  obtain rfl := Checked.pure_eq_ok.1 h
  -- The far edge is the near one where the span is in reverse, so it is not cut off either way.
  have hsaturate : ∀ {n f : Int}, Coord.Fits n → Coord.Fits f → Coord.saturate (n + max (f - n) 0) = max f n := by
    intro n f hn hf
    unfold Coord.Fits at hn hf
    unfold Coord.saturate
    omega
  have hmax : ∀ {e : Int}, Coord.Fits e → Coord.Fits (max e 0) := by
    intro e he
    unfold Coord.Fits at *
    omega
  have hfarX := hsaturate hleft hright
  have hfarY := hsaturate htop hbottom
  refine ⟨⟨⟨hleft, htop, hmax hfitsW, hmax hfitsH⟩, isProper_clamped .., ?_⟩, ⟨rfl, rfl⟩, hfarX, hfarY⟩
  refine Axis.rec (hfarX.trans ?_) (hfarY.trans ?_)
  · change _ = left + max (right - left) 0
    omega
  · change _ = top + max (bottom - top) 0
    omega

theorem ofEdges_eq_ok {left top right bottom : Int} (h : ofEdges left top right bottom = .ok r)
    (hx : left ≤ right) (hy : top ≤ bottom) (hleft : Coord.Fits left) (htop : Coord.Fits top)
    (hright : Coord.Fits right) (hbottom : Coord.Fits bottom) :
    (r.x = left ∧ r.y = top) ∧ (r.right = right ∧ r.bottom = bottom) ∧
      (r.width = right - left ∧ r.height = bottom - top) ∧ r.Fits ∧ r.IsProper := by
  obtain ⟨hsharp, hnear, hfarX, hfarY⟩ := ofEdges_sharp h hleft htop hright hbottom
  rw [Int.max_eq_left hx] at hfarX
  rw [Int.max_eq_left hy] at hfarY
  have hwidth : r.right = r.x + r.width := hsharp.far .x
  have hheight : r.bottom = r.y + r.height := hsharp.far .y
  exact ⟨hnear, ⟨hfarX, hfarY⟩, ⟨by omega, by omega⟩, hsharp.fits, hsharp.proper⟩

/-- What two rectangles are joined to reaches as far as they do, and is empty where their edges are out of order. -/
theorem union_eq_ok {a b : Rect} (ha : a.Fits) (hb : b.Fits) (h : a.union b = .ok r) : r.Sharp ∧
    (∀ axis, r.near axis = min (a.near axis) (b.near axis)) ∧
      ∀ axis, r.far axis = max (max (a.far axis) (b.far axis)) (r.near axis) := by
  have hnear : ∀ axis, Coord.Fits (min (a.near axis) (b.near axis)) := by
    intro axis
    have hfitsA := ha.near axis
    have hfitsB := hb.near axis
    unfold Coord.Fits at *
    omega
  have hfar : ∀ axis, Coord.Fits (max (a.far axis) (b.far axis)) := by
    intro axis
    have hfitsA := fits_far a axis
    have hfitsB := fits_far b axis
    unfold Coord.Fits at *
    omega
  obtain ⟨hsharp, ⟨hx, hy⟩, hright, hbottom⟩ := ofEdges_sharp h (hnear .x) (hnear .y) (hfar .x) (hfar .y)
  rw [← hx] at hright
  rw [← hy] at hbottom
  exact ⟨hsharp, Axis.rec hx hy, Axis.rec hright hbottom⟩

theorem union_edges {a b : Rect} (h : a.union b = .ok r) (ha : a.Fits ∧ a.IsProper)
    (hb : b.Fits ∧ b.IsProper) : r.Fits ∧ (∀ axis, r.near axis = min (a.near axis) (b.near axis)) ∧
      (∀ axis, r.far axis = max (a.far axis) (b.far axis)) ∧
        ∀ axis, r.extent axis = max (a.far axis) (b.far axis) - min (a.near axis) (b.near axis) := by
  obtain ⟨hsharp, hnear, hfar⟩ := union_eq_ok ha.1 hb.1 h
  have hordered : ∀ axis, r.far axis = max (a.far axis) (b.far axis) := by
    intro axis
    have hspan := near_le_far ha.1 ha.2 axis
    rw [hfar, hnear]
    omega
  refine ⟨hsharp.fits, hnear, hordered, fun axis => ?_⟩
  have hexact := hsharp.far axis
  rw [hordered, hnear] at hexact
  omega

end Rect

end Mosaic
