import Mosaic.Proofs.Plane.Span

/-! When rectangles can be joined. They are joined one by one, whatever their fields hold, which is refused exactly
where two edges lie too far apart. Negative extents are joined too. -/
namespace Mosaic.Rect

variable {a b r s u : Rect} {rects rs : List Rect}

/-- No far edge lies further past a near edge than a coordinate can tell. -/
def InReach (rects : List Rect) : Prop :=
  ∀ r ∈ rects, ∀ s ∈ rects, ∀ axis, s.far axis - r.near axis ≤ 2147483647

theorem InReach.mono (h : InReach rects) (hsub : ∀ r ∈ rs, r ∈ rects) : InReach rs :=
  fun r hr s hs => h r (hsub r hr) s (hsub s hs)

theorem inReach_singleton (h : r.Fits) : InReach [r] := by
  intro s hs t ht axis
  rw [List.mem_singleton.1 hs, List.mem_singleton.1 ht]
  exact (h.span axis).2

/-- Two rectangles are joined where no edge of them is too far from another. -/
theorem exists_union_iff (hb : b.Fits) : (∃ u, a.union b = .ok u) ↔ InReach [a, b] := by
  have hreach : InReach [a, b] ↔
      ∀ axis, max (a.far axis) (b.far axis) - min (a.near axis) (b.near axis) ≤ 2147483647 := by
    have hpair : InReach [a, b] ↔ ∀ axis, (a.far axis - a.near axis ≤ 2147483647 ∧
        b.far axis - a.near axis ≤ 2147483647) ∧ a.far axis - b.near axis ≤ 2147483647 ∧
          b.far axis - b.near axis ≤ 2147483647 := by
      simp only [InReach, List.forall_mem_cons, List.not_mem_nil, false_imp_iff, implies_true, and_true]
      constructor
      · rintro ⟨⟨haa, hba⟩, hab, hbb⟩ axis
        exact ⟨⟨haa axis, hba axis⟩, hab axis, hbb axis⟩
      · intro h
        exact ⟨⟨fun axis => (h axis).1.1, fun axis => (h axis).1.2⟩, fun axis => (h axis).2.1, fun axis => (h axis).2.2⟩
    rw [hpair]
    refine forall_congr' fun axis => ?_
    omega
  have hfits : ∀ axis, Coord.Fits (max (a.far axis) (b.far axis) - min (a.near axis) (b.near axis)) ↔
      max (a.far axis) (b.far axis) - min (a.near axis) (b.near axis) ≤ 2147483647 := by
    intro axis
    have hspan := (hb.span axis).1
    unfold Coord.Fits
    omega
  rw [hreach]
  constructor
  · rintro ⟨u, hu⟩ axis
    obtain ⟨width, hwidth, hu⟩ := Checked.bind_eq_ok.1 hu
    obtain ⟨height, hheight, -⟩ := Checked.bind_eq_ok.1 hu
    cases axis
    · exact (hfits .x).1 (Coord.sub_eq_ok_iff.1 hwidth).1
    · exact (hfits .y).1 (Coord.sub_eq_ok_iff.1 hheight).1
  · exact fun h => exists_ofEdges ((hfits .x).2 (h .x)) ((hfits .y).2 (h .y))

/-- Joining two rectangles keeps their edges, but what they are joined to ends no earlier than it begins. -/
theorem inReach_union (ha : a.Fits) (hb : b.Fits) (h : a.union b = .ok u) : InReach (u :: rs) ↔
    InReach (a :: b :: rs) ∧ ∀ r ∈ rs, ∀ axis, u.near axis - r.near axis ≤ 2147483647 := by
  obtain ⟨hsharp, hnear, hfar⟩ := union_eq_ok ha hb h
  constructor
  · intro hreach
    have haround : ∀ r ∈ a :: b :: rs, ∃ v ∈ u :: rs, ∀ axis, v.near axis ≤ r.near axis ∧ r.far axis ≤ v.far axis := by
      intro r hr
      rcases List.mem_cons.1 hr with rfl | hr
      · exact ⟨u, List.mem_cons_self, fun axis => by rw [hnear, hfar]; omega⟩
      · rcases List.mem_cons.1 hr with rfl | hr
        · exact ⟨u, List.mem_cons_self, fun axis => by rw [hnear, hfar]; omega⟩
        · exact ⟨r, List.mem_cons_of_mem _ hr, fun axis => ⟨Int.le_refl _, Int.le_refl _⟩⟩
    refine ⟨fun r hr s hs axis => ?_, fun r hr axis => ?_⟩
    · obtain ⟨v, hv, hrv⟩ := haround r hr
      obtain ⟨w, hw, hsw⟩ := haround s hs
      have hspan := hreach v hv w hw axis
      have hnearer := (hrv axis).1
      have hfurther := (hsw axis).2
      omega
    · have hspan := hreach r (List.mem_cons_of_mem _ hr) u List.mem_cons_self axis
      have hordered := hsharp.near_le_far axis
      omega
  · rintro ⟨hreach, hstarts⟩ r hr s hs axis
    have hfirst : ∀ t ∈ rs, t ∈ a :: b :: rs := fun t ht => List.mem_cons_of_mem _ (List.mem_cons_of_mem _ ht)
    have hsecond : b ∈ a :: b :: rs := List.mem_cons_of_mem _ List.mem_cons_self
    rcases List.mem_cons.1 hr with hru | hr <;> rcases List.mem_cons.1 hs with hsu | hs
    · rw [hru, hsu]
      exact (hsharp.fits.span axis).2
    · have hspanA := hreach a List.mem_cons_self s (hfirst s hs) axis
      have hspanB := hreach b hsecond s (hfirst s hs) axis
      rw [hru, hnear]
      omega
    · have hspanA := hreach r (hfirst r hr) a List.mem_cons_self axis
      have hspanB := hreach r (hfirst r hr) b hsecond axis
      have hstart := hstarts r hr axis
      rw [hsu, hfar]
      omega
    · exact hreach r (hfirst r hr) s (hfirst s hs) axis

theorem exists_foldlM_union_iff (ha : a.Sharp) (hrs : ∀ r ∈ rs, r.Fits) :
    (∃ u, rs.foldlM union a = .ok u) ↔ InReach (a :: rs) := by
  induction rs generalizing a with
  | nil => exact iff_of_true ⟨a, rfl⟩ (inReach_singleton ha.fits)
  | cons b rs ih =>
    obtain ⟨hb, hrs⟩ := List.forall_mem_cons.1 hrs
    rw [List.foldlM_cons]
    constructor
    · rintro ⟨u, hu⟩
      obtain ⟨v, hv, hu⟩ := Checked.bind_eq_ok.1 hu
      have hreach := (ih (union_eq_ok ha.fits hb hv).1 hrs).1 ⟨u, hu⟩
      exact ((inReach_union ha.fits hb hv).1 hreach).1
    · intro hreach
      obtain ⟨v, hv⟩ := (exists_union_iff hb).2 (hreach.mono (List.cons_subset_cons a (by simp)))
      obtain ⟨hsharp, hnear, -⟩ := union_eq_ok ha.fits hb hv
      -- What is joined begins no later than the first one, which ends no earlier than it begins.
      have hstarts : ∀ r ∈ rs, ∀ axis, v.near axis - r.near axis ≤ 2147483647 := by
        intro r hr axis
        have hspan := hreach r (List.mem_cons_of_mem _ (List.mem_cons_of_mem _ hr)) a List.mem_cons_self axis
        have hordered := ha.near_le_far axis
        rw [hnear]
        omega
      obtain ⟨u, hu⟩ := (ih hsharp hrs).2 ((inReach_union ha.fits hb hv).2 ⟨hreach, hstarts⟩)
      exact ⟨u, Checked.bind_eq_ok.2 ⟨v, hv, hu⟩⟩

/-- Rectangles can be joined one by one. Two that have their edges out of order are joined to an empty one,
which begins where the first of them does and must not lie too far past any of the others. -/
structure Joinable (rects : List Rect) : Prop where
  reach : InReach rects
  starts : ∀ r ∈ rects.drop 2, ∀ axis, ∃ s ∈ rects.take 2, s.near axis - r.near axis ≤ 2147483647

theorem exists_boundingBox_iff (hrects : ∀ r ∈ rects, r.Fits) :
    (∃ box, boundingBox rects = .ok box) ↔ Joinable rects := by
  cases rects with
  | nil => exact iff_of_true ⟨none, rfl⟩ ⟨fun r hr => (List.not_mem_nil hr).elim, fun r hr => (List.not_mem_nil hr).elim⟩
  | cons a rects =>
    obtain ⟨ha, hrects⟩ := List.forall_mem_cons.1 hrects
    cases rects with
    | nil => exact iff_of_true ⟨some a, rfl⟩ ⟨inReach_singleton ha, fun r hr => (List.not_mem_nil hr).elim⟩
    | cons b rs =>
      obtain ⟨hb, hrs⟩ := List.forall_mem_cons.1 hrects
      have hstarts : ∀ {u}, a.union b = .ok u → ∀ (r : Rect) axis, u.near axis - r.near axis ≤ 2147483647 ↔
          ∃ s ∈ [a, b], s.near axis - r.near axis ≤ 2147483647 := by
        intro u hu r axis
        have hnear := (union_eq_ok ha hb hu).2.1 axis
        simp only [List.mem_cons, List.not_mem_nil, or_false, exists_eq_or_imp, exists_eq_left]
        omega
      constructor
      · rintro ⟨box, hbox⟩
        obtain ⟨u, hu, -⟩ := Checked.bind_eq_ok.1 hbox
        rw [List.foldlM_cons] at hu
        obtain ⟨v, hv, hu⟩ := Checked.bind_eq_ok.1 hu
        have hreach := (exists_foldlM_union_iff (union_eq_ok ha hb hv).1 hrs).1 ⟨u, hu⟩
        obtain ⟨hreach, hlate⟩ := (inReach_union ha hb hv).1 hreach
        exact ⟨hreach, fun r hr axis => (hstarts hv r axis).1 (hlate r hr axis)⟩
      · rintro ⟨hreach, hlate⟩
        obtain ⟨v, hv⟩ := (exists_union_iff hb).2 (hreach.mono (List.cons_subset_cons a (by simp)))
        have hjoined := (inReach_union ha hb hv).2 ⟨hreach, fun r hr axis => (hstarts hv r axis).2 (hlate r hr axis)⟩
        obtain ⟨u, hu⟩ := (exists_foldlM_union_iff (union_eq_ok ha hb hv).1 hrs).2 hjoined
        have hfold : (b :: rs).foldlM union a = .ok u := by
          rw [List.foldlM_cons]
          exact Checked.bind_eq_ok.2 ⟨v, hv, hu⟩
        exact ⟨some u, Checked.bind_eq_ok.2 ⟨u, hfold, rfl⟩⟩

end Mosaic.Rect
