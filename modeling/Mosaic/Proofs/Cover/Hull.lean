import Mosaic.Proofs.Cover.Carry
import Mosaic.Proofs.Cover.Reach

/-! The least rectangle around others. It is found by joining them one by one, which goes well as long
as no far edge is too far from a near one. -/
namespace Mosaic.Rect

variable {box a b u : Rect} {rects rs seen : List Rect}

theorem ext_edges (h : ∀ axis side, a.edge axis side = b.edge axis side) (ha : a.Sharp) (hb : b.Sharp) :
    a = b := by
  have hx := h .x .near
  have hy := h .y .near
  have hright := (ha.far .x).symm.trans ((h .x .far).trans (hb.far .x))
  have hbottom := (ha.far .y).symm.trans ((h .y .far).trans (hb.far .y))
  obtain ⟨x, y, width, height⟩ := a
  obtain ⟨x', y', width', height'⟩ := b
  simp only [edge, near, extent] at hx hy hright hbottom
  simp only [mk.injEq]
  omega

theorem Encloses.edges (h : a.Encloses b) (axis : Axis) :
    a.near axis ≤ b.near axis ∧ b.far axis ≤ a.far axis :=
  ((encloses_iff axis a b).1 h).1

theorem encloses_of_edges (h : ∀ axis, a.near axis ≤ b.near axis ∧ b.far axis ≤ a.far axis) :
    a.Encloses b :=
  ⟨(h .x).1, (h .y).1, (h .x).2, (h .y).2⟩

/-- Two rectangles lie in each other when they have the same edges. One of them may still run on past the end of the
coordinates, where it is cut off. -/
theorem edge_eq_iff : (∀ axis side, a.edge axis side = b.edge axis side) ↔ a.Encloses b ∧ b.Encloses a := by
  constructor
  · intro h
    exact ⟨encloses_of_edges fun axis => ⟨Int.le_of_eq (h axis .near), Int.le_of_eq (h axis .far).symm⟩,
      encloses_of_edges fun axis => ⟨Int.le_of_eq (h axis .near).symm, Int.le_of_eq (h axis .far)⟩⟩
  · rintro ⟨hab, hba⟩ axis side
    have hin := hab.edges axis
    have hin' := hba.edges axis
    cases side
    · exact Int.le_antisymm hin.1 hin'.1
    · exact Int.le_antisymm hin'.2 hin.2

/-- The rectangles lie inside `u`, and each edge of `u` is the edge of one of them. -/
structure Hull (u : Rect) (rects : List Rect) : Prop where
  sharp : u.Sharp
  around : ∀ r ∈ rects, u.Encloses r
  touched : ∀ axis side, ∃ r ∈ rects, r.edge axis side = u.edge axis side

/-- No far edge is too far from a near edge for their distance to be a coordinate. -/
def Spanned (rects : List Rect) : Prop :=
  ∀ r ∈ rects, ∀ s ∈ rects, ∀ axis, Coord.Fits (s.far axis - r.near axis)

theorem hull_singleton (h : a.Sharp) : Hull a [a] :=
  ⟨h, fun _ hr => List.mem_singleton.1 hr ▸ ⟨Int.le_refl _, Int.le_refl _, Int.le_refl _, Int.le_refl _⟩,
    fun _ _ => ⟨a, List.mem_singleton_self a, rfl⟩⟩

theorem Hull.encloses (h : Hull u rects) (hin : ∀ r ∈ rects, box.Encloses r) : box.Encloses u := by
  refine encloses_of_edges fun axis => ⟨?_, ?_⟩
  · obtain ⟨r, hr, hedge⟩ := h.touched axis .near
    exact Int.le_trans ((hin r hr).edges axis).1 (Int.le_of_eq hedge)
  · obtain ⟨r, hr, hedge⟩ := h.touched axis .far
    exact Int.le_trans (Int.le_of_eq hedge.symm) ((hin r hr).edges axis).2

theorem Hull.unique (h : Hull a rects) (h' : Hull b rects) : a = b :=
  ext_edges (edge_eq_iff.2 ⟨h'.encloses h.around, h.encloses h'.around⟩) h.sharp h'.sharp

/-- Neither the order of the rectangles matters nor how often each of them occurs. -/
theorem Hull.congr {others : List Rect} (h : Hull u rects) (hsame : ∀ r, r ∈ others ↔ r ∈ rects) :
    Hull u others := by
  refine ⟨h.sharp, fun r hr => h.around r ((hsame r).1 hr), fun axis side => ?_⟩
  obtain ⟨r, hr, hedge⟩ := h.touched axis side
  exact ⟨r, (hsame r).2 hr, hedge⟩

theorem Hull.union (h : Hull a seen) (hb : b.Sharp) (hu : a.union b = .ok u) : Hull u (seen ++ [b]) := by
  obtain ⟨hfits, hnear, hfar, hextent⟩ := union_edges hu ⟨h.sharp.fits, h.sharp.proper⟩ ⟨hb.fits, hb.proper⟩
  have hordered : ∀ axis, 0 ≤ u.extent axis := by
    intro axis
    have hspan := hb.near_le_far axis
    rw [hextent]
    omega
  have haround : ∀ r, a.Encloses r ∨ r = b → u.Encloses r := by
    intro r hr
    apply encloses_of_edges
    intro axis
    rw [hnear, hfar]
    rcases hr with hr | rfl
    · have hin := hr.edges axis
      omega
    · omega
  refine ⟨⟨hfits, ⟨hordered .x, hordered .y⟩, fun axis => ?_⟩, fun r hr => ?_, fun axis side => ?_⟩
  · rw [hfar, hnear, hextent]
    omega
  · rcases List.mem_append.1 hr with hr | hr
    · exact haround r (.inl (h.around r hr))
    · exact haround r (.inr (List.mem_singleton.1 hr))
  · obtain ⟨r, hr, hedge⟩ := h.touched axis side
    have hold : r ∈ seen ++ [b] := List.mem_append_left _ hr
    have hnew : b ∈ seen ++ [b] := List.mem_append_right _ (List.mem_singleton_self b)
    cases side
    · simp only [edge, hnear] at hedge ⊢
      rcases Int.le_total (a.near axis) (b.near axis) with hle | hle
      · exact ⟨r, hold, hedge.trans (Int.min_eq_left hle).symm⟩
      · exact ⟨b, hnew, (Int.min_eq_right hle).symm⟩
    · simp only [edge, hfar] at hedge ⊢
      rcases Int.le_total (a.far axis) (b.far axis) with hle | hle
      · exact ⟨b, hnew, (Int.max_eq_right hle).symm⟩
      · exact ⟨r, hold, hedge.trans (Int.max_eq_left hle).symm⟩

theorem Hull.foldlM_union (h : Hull a seen) (hrs : ∀ r ∈ rs, r.Sharp) (hu : rs.foldlM Rect.union a = .ok u) :
    Hull u (seen ++ rs) := by
  induction rs generalizing a seen with
  | nil =>
    rw [List.foldlM_nil, Checked.pure_eq_ok] at hu
    rwa [List.append_nil, ← hu]
  | cons r rs ih =>
    rw [List.foldlM_cons] at hu
    obtain ⟨v, hv, hu⟩ := Checked.bind_eq_ok.1 hu
    have hall := ih (h.union (hrs r List.mem_cons_self) hv)
      (fun s hs => hrs s (List.mem_cons_of_mem _ hs)) hu
    rwa [List.append_assoc, List.singleton_append] at hall

/-- The bounding box is the least rectangle around all. -/
theorem boundingBox_hull (hrects : ∀ r ∈ rects, r.Sharp) (h : boundingBox rects = .ok (some u)) :
    Hull u rects := by
  cases rects with
  | nil => cases h
  | cons r rs =>
    obtain ⟨v, hv, h⟩ := Checked.bind_eq_ok.1 h
    cases Checked.pure_eq_ok.1 h
    exact (hull_singleton (hrects r List.mem_cons_self)).foldlM_union
      (fun s hs => hrects s (List.mem_cons_of_mem _ hs)) hv

theorem exists_boundingBox (hne : rects ≠ []) (hrects : ∀ r ∈ rects, r.Sharp) (hspan : Spanned rects) :
    ∃ u, boundingBox rects = .ok (some u) := by
  have hjoinable : Joinable rects := by
    refine ⟨fun r hr s hs axis => (hspan r hr s hs axis).2, fun r hr axis => ?_⟩
    obtain ⟨s, hs⟩ : ∃ s, s ∈ rects.take 2 := List.exists_mem_of_ne_nil _ (by simpa using hne)
    have hordered := (hrects s (List.mem_of_mem_take hs)).near_le_far axis
    have hreach := (hspan r (List.mem_of_mem_drop hr) s (List.mem_of_mem_take hs) axis).2
    exact ⟨s, hs, by omega⟩
  obtain ⟨box, hbox⟩ := (exists_boundingBox_iff fun r hr => (hrects r hr).fits).2 hjoinable
  cases rects with
  | nil => exact absurd rfl hne
  | cons r rs =>
    obtain ⟨u, hu, -⟩ := Checked.bind_eq_ok.1 hbox
    exact ⟨u, by rw [boundingBox, hu]; rfl⟩

theorem spanned_of_encloses (hbox : box.Sharp) (hin : ∀ r ∈ rects, box.Encloses r) (hrects : ∀ r ∈ rects, r.Sharp) :
    Spanned rects := by
  intro r hr s hs axis
  have hinr := (hin r hr).edges axis
  have hins := (hin s hs).edges axis
  have hspanr := (hrects r hr).near_le_far axis
  have hspans := (hrects s hs).near_le_far axis
  have hends := hbox.far axis
  have hfits := hbox.fits.extent axis
  unfold Coord.Fits at *
  omega

theorem Hull.spanned (h : Hull box rects) (hrects : ∀ r ∈ rects, r.Sharp) : Spanned rects :=
  spanned_of_encloses h.sharp h.around hrects

theorem Hull.boundingBox_eq (h : Hull box rects) (hrects : ∀ r ∈ rects, r.Sharp) :
    boundingBox rects = .ok (some box) := by
  obtain ⟨r, hr, -⟩ := h.touched .x .near
  obtain ⟨u, hu⟩ := exists_boundingBox (List.ne_nil_of_mem hr) hrects (h.spanned hrects)
  rw [hu, (boundingBox_hull hrects hu).unique h]

/-- What is covered exactly is the least rectangle around all that cover it. -/
theorem Tile.hull (h : Tile box rects) (hbox : box.Solid) : Hull box rects :=
  ⟨hbox.sharp, fun r hr => (h.1 r hr).2, h.exists_edge hbox⟩

theorem Tile.boundingBox_eq (h : Tile box rects) (hbox : box.Solid) (hrects : ∀ r ∈ rects, r.Sharp) :
    boundingBox rects = .ok (some box) :=
  (h.hull hbox).boundingBox_eq hrects

end Mosaic.Rect
