import Mathlib.Algebra.Order.BigOperators.Group.List
import Mosaic.Cover.Check
import Mosaic.Proofs.Cover.Area

/-! What the check finds. The bounding box, the areas and the pairwise overlaps together decide whether
the regions cover the container exactly; findings about sizes come on top. -/
namespace Mosaic

namespace Area

theorem foldlM_add_eq_ok {as : List Int} {a : Int} (has : ∀ b ∈ as, 0 ≤ b) (ha : 0 ≤ a)
    (hfits : Fits (a + as.sum)) : as.foldlM add a = .ok (a + as.sum) := by
  induction as generalizing a with
  | nil => simp [pure, Except.pure]
  | cons b as ih =>
    have hb := has b List.mem_cons_self
    have hrest : 0 ≤ as.sum := List.sum_nonneg fun c hc => has c (List.mem_cons_of_mem _ hc)
    rw [List.sum_cons] at hfits ⊢
    have hstep : Fits (a + b) := by
      unfold Fits at *
      omega
    rw [List.foldlM_cons, add, if_pos hstep]
    change as.foldlM add (a + b) = _
    rw [ih (fun c hc => has c (List.mem_cons_of_mem _ hc)) (by omega) (by rwa [Int.add_assoc]),
      Int.add_assoc]

theorem eq_sum_of_foldlM_add {as : List Int} {a b : Int} (h : as.foldlM add a = .ok b) :
    b = a + as.sum := by
  induction as generalizing a with
  | nil =>
    rw [List.foldlM_nil, Checked.pure_eq_ok] at h
    rw [← h, List.sum_nil, Int.add_zero]
  | cons c as ih =>
    rw [List.foldlM_cons] at h
    obtain ⟨m, hm, h⟩ := Checked.bind_eq_ok.1 h
    unfold add at hm
    split at hm
    · cases hm
      rw [ih h, List.sum_cons, Int.add_assoc]
    · cases hm

theorem fits_area {r : Rect} (hf : r.Fits) (hp : r.IsProper) : Fits r.area := by
  obtain ⟨-, -, hw, hh⟩ := hf
  obtain ⟨hw', hh'⟩ := hp
  have hmul : r.width * r.height ≤ 2147483647 * 2147483647 := Int.mul_le_mul hw.2 hh.2 hh' (by decide)
  have hpos := Int.mul_nonneg hw' hh'
  rw [Rect.area]
  unfold Fits
  omega

end Area

/-- Nothing is found about where the regions lie: they leave no gap, share no cell and stay inside. -/
def Report.ClearsCover (report : Report) : Prop :=
  report.withKind .coverMismatch = [] ∧ report.withKind .overlap = [] ∧ report.withKind .outOfBounds = []

instance (report : Report) : Decidable report.ClearsCover := inferInstanceAs (Decidable (_ ∧ _ ∧ _))

theorem Report.clearsCover_iff {report : Report} : report.ClearsCover ↔
    ∀ i ∈ report.issues, i.kind ≠ .coverMismatch ∧ i.kind ≠ .overlap ∧ i.kind ≠ .outOfBounds := by
  simp only [ClearsCover, withKind, List.filter_eq_nil_iff, decide_eq_true_eq]
  exact ⟨fun ⟨hc, ho, hb⟩ i hi => ⟨hc i hi, ho i hi, hb i hi⟩,
    fun h => ⟨fun i hi => (h i hi).1, fun i hi => (h i hi).2.1, fun i hi => (h i hi).2.2⟩⟩

namespace Cover

variable {container : Rect} {placements : List Placement} {cover places : List Issue} {report : Report}

def rects (placements : List Placement) : List Rect := placements.map (·.bounds)

theorem coverIssues_eq_ok (hne : placements ≠ []) (hsharp : ∀ r ∈ rects placements, r.Sharp)
    (h : coverIssues container placements = .ok cover) :
    (∀ i ∈ cover, i.kind = .coverMismatch ∧ i.severity = .error) ∧
      (cover = [] ↔ Rect.Hull container (rects placements) ∧
        ((rects placements).map (·.area)).sum = container.area) := by
  obtain ⟨box?, hbox, h⟩ := Checked.bind_eq_ok.1 h
  obtain ⟨total, htotal, h⟩ := Checked.bind_eq_ok.1 h
  obtain ⟨box, rfl⟩ : ∃ box, box? = some box := by
    cases hrects : placements.map (·.bounds) with
    | nil => exact absurd (List.map_eq_nil_iff.1 hrects) hne
    | cons r rs =>
      rw [hrects] at hbox
      obtain ⟨box, -, hbox⟩ := Checked.bind_eq_ok.1 hbox
      exact ⟨box, (Checked.pure_eq_ok.1 hbox).symm⟩
  have hull : Rect.Hull box (rects placements) := Rect.boundingBox_hull hsharp hbox
  have hsum : total = ((rects placements).map (·.area)).sum := by
    rw [Area.eq_sum_of_foldlM_add htotal, Int.zero_add]
    rfl
  have hiff : box = container ∧ total = container.area ↔ Rect.Hull container (rects placements) ∧
      ((rects placements).map (·.area)).sum = container.area := by
    rw [hsum]
    exact and_congr_left fun _ => ⟨fun heq => heq ▸ hull, hull.unique⟩
  rw [Option.getD_some] at h
  split at h
  · next hexact =>
    cases Checked.pure_eq_ok.1 h
    exact ⟨fun _ hi => (List.not_mem_nil hi).elim, iff_of_true rfl (hiff.1 hexact)⟩
  · next hno =>
    cases Checked.pure_eq_ok.1 h
    refine ⟨fun i hi => ?_, iff_of_false (List.cons_ne_nil _ _) fun hexact => hno (hiff.2 hexact)⟩
    obtain rfl := List.mem_singleton.1 hi
    exact ⟨rfl, rfl⟩

/-- Every kind of finding on places is an error. -/
private def OnPlace (i : Issue) : Prop := (i.kind = .outOfBounds ∨ i.kind = .overlap) ∧ i.severity = .error

private theorem boundsIssues_onPlace (container : Rect) (p : Placement) : (∀ i ∈ boundsIssues container p, OnPlace i) ∧
    (boundsIssues container p = [] ↔ container.Encloses p.bounds) := by
  unfold boundsIssues
  split
  · next hin => exact ⟨fun _ hi => (List.not_mem_nil hi).elim, iff_of_true rfl hin⟩
  · next hout =>
    refine ⟨fun i hi => ?_, iff_of_false (List.cons_ne_nil _ _) hout⟩
    obtain rfl := List.mem_singleton.1 hi
    exact ⟨.inl rfl, rfl⟩

private theorem exists_overlapIssue? {p q : Placement} (hp : p.bounds.Fits) :
    ∃ found, overlapIssue? p q = .ok found ∧ (∀ i, found = some i → OnPlace i) ∧
      (found = none ↔ ∀ c, ¬(p.bounds.Covers c ∧ q.bounds.Covers c)) := by
  obtain ⟨shared, hshared, hiff⟩ := Rect.exists_intersection? (s := q.bounds) hp
  refine ⟨_, by rw [overlapIssue?, hshared]; rfl, fun i hi => ?_, by rw [Option.map_eq_none_iff, hiff]⟩
  obtain ⟨r, -, rfl⟩ := Option.map_eq_some_iff.1 hi
  exact ⟨.inr rfl, rfl⟩

private theorem exists_overlapIssues {p : Placement} (hp : p.bounds.Fits) (rest : List Placement) :
    ∃ shared, rest.mapM (overlapIssue? p) = .ok shared ∧ (∀ i ∈ shared.filterMap id, OnPlace i) ∧
      (shared.filterMap id = [] ↔ ∀ q ∈ rest, ∀ c, ¬(p.bounds.Covers c ∧ q.bounds.Covers c)) := by
  induction rest with
  | nil => exact ⟨[], rfl, fun _ hi => (List.not_mem_nil hi).elim, by simp⟩
  | cons q rest ih =>
    obtain ⟨shared, hshared, hkinds, hiff⟩ := ih
    obtain ⟨found, hfound, hkind, hnone⟩ := exists_overlapIssue? (q := q) hp
    refine ⟨found :: shared, by rw [List.mapM_cons, hfound, hshared]; rfl, ?_, ?_⟩
    · cases found with
      | none => exact hkinds
      | some i => exact List.forall_mem_cons.2 ⟨hkind i rfl, hkinds⟩
    · rw [List.forall_mem_cons, ← hnone, ← hiff]
      cases found <;> simp

theorem exists_placeIssues (container : Rect) (hfits : ∀ r ∈ rects placements, r.Fits) :
    ∃ places, placeIssues container placements = .ok places ∧
      (∀ i ∈ places, (i.kind = .outOfBounds ∨ i.kind = .overlap) ∧ i.severity = .error) ∧
      (places = [] ↔ (∀ r ∈ rects placements, container.Encloses r) ∧ Rect.Disjoint (rects placements)) := by
  induction placements with
  | nil => exact ⟨[], rfl, fun _ hi => (List.not_mem_nil hi).elim, by simp [rects, Rect.Disjoint]⟩
  | cons p rest ih =>
    obtain ⟨hp, hrest⟩ := List.forall_mem_cons.1 hfits
    obtain ⟨places, hplaces, hkinds, hiff⟩ := ih hrest
    obtain ⟨shared, hshared, hoverlaps, hnone⟩ := exists_overlapIssues hp rest
    obtain ⟨hbounds, hinside⟩ := boundsIssues_onPlace container p
    refine ⟨_, by rw [placeIssues, hshared, hplaces]; rfl, fun i hi => ?_, ?_⟩
    · simp only [List.mem_append] at hi
      rcases hi with (hi | hi) | hi
      · exact hbounds i hi
      · exact hoverlaps i hi
      · exact hkinds i hi
    · have hcons : rects (p :: rest) = p.bounds :: rects rest := rfl
      have hshares : (∀ s ∈ rects rest, ∀ c, ¬(p.bounds.Covers c ∧ s.Covers c)) ↔
          ∀ q ∈ rest, ∀ c, ¬(p.bounds.Covers c ∧ q.bounds.Covers c) := List.forall_mem_map
      rw [List.append_eq_nil_iff, List.append_eq_nil_iff, hinside, hnone, hiff, hcons,
        List.forall_mem_cons, Rect.disjoint_cons, hshares]
      exact and_and_and_comm

theorem sizeIssues_kind {short : Bool} {p : Placement} {i : Issue} (hi : i ∈ sizeIssues short p) :
    i.kind = .belowMinimum ∨ i.kind = .aboveMaximum := by
  simp only [sizeIssues, List.mem_append] at hi
  rcases hi with hi | hi
  · left
    cases hp : p.min with
    | none => simp [hp] at hi
    | some min =>
      simp only [hp] at hi
      split at hi
      · rw [List.mem_singleton.1 hi]
      · cases hi
  · right
    cases hp : p.max with
    | none => simp [hp] at hi
    | some max =>
      simp only [hp] at hi
      split at hi
      · rw [List.mem_singleton.1 hi]
      · cases hi

/-- The findings on places come before those on sizes; there are none exactly where the regions fill
the container. -/
theorem check_eq_ok (hne : placements ≠ []) (hsharp : ∀ r ∈ rects placements, r.Sharp)
    (h : check container placements = .ok report) :
    ∃ found, report.issues =
        found ++ placements.flatMap (sizeIssues (tooSmall container placements)) ∧
      (∀ i ∈ found, (i.kind = .coverMismatch ∨ i.kind = .outOfBounds ∨ i.kind = .overlap) ∧
        i.severity = .error) ∧
      (found = [] ↔ Rect.Fills container (rects placements)) := by
  rw [check, if_neg hne] at h
  obtain ⟨cover, hcover, h⟩ := Checked.bind_eq_ok.1 h
  obtain ⟨places, hplaces, h⟩ := Checked.bind_eq_ok.1 h
  cases Checked.pure_eq_ok.1 h
  obtain ⟨hcoverKinds, hcoverIff⟩ := coverIssues_eq_ok hne hsharp hcover
  obtain ⟨_, hsame, hplaceKinds, hplaceIff⟩ := exists_placeIssues container fun r hr => (hsharp r hr).fits
  cases hsame.symm.trans hplaces
  refine ⟨cover ++ places, rfl, fun i hi => ?_, ?_⟩
  · rcases List.mem_append.1 hi with hi | hi
    · exact ⟨.inl (hcoverKinds i hi).1, (hcoverKinds i hi).2⟩
    · exact ⟨.inr (hplaceKinds i hi).1, (hplaceKinds i hi).2⟩
  · rw [List.append_eq_nil_iff, hcoverIff, hplaceIff]
    exact ⟨fun ⟨⟨hhull, harea⟩, _, hdisjoint⟩ => ⟨hhull, hdisjoint, harea⟩,
      fun ⟨hhull, hdisjoint, harea⟩ => ⟨⟨hhull, harea⟩, hhull.around, hdisjoint⟩⟩

theorem clearsCover_iff_fills (hne : placements ≠ []) (hsharp : ∀ r ∈ rects placements, r.Sharp)
    (h : check container placements = .ok report) :
    report.ClearsCover ↔ Rect.Fills container (rects placements) := by
  obtain ⟨found, hissues, hkinds, hiff⟩ := check_eq_ok hne hsharp h
  rw [← hiff, Report.clearsCover_iff, hissues]
  constructor
  · intro hclear
    refine List.eq_nil_iff_forall_not_mem.2 fun i hi => ?_
    obtain ⟨hcover, hoverlap, hbounds⟩ := hclear i (List.mem_append_left _ hi)
    rcases (hkinds i hi).1 with hk | hk | hk
    · exact hcover hk
    · exact hbounds hk
    · exact hoverlap hk
  · rintro rfl i hi
    obtain ⟨p, -, hi⟩ := List.mem_flatMap.1 hi
    rcases sizeIssues_kind hi with hk | hk
    · simp [hk]
    · simp [hk]

theorem exists_check (container : Rect) (hne : placements ≠ []) (hsharp : ∀ r ∈ rects placements, r.Sharp)
    (hspan : Rect.Spanned (rects placements))
    (harea : Area.Fits ((rects placements).map (·.area)).sum) :
    ∃ report, check container placements = .ok report := by
  obtain ⟨box, hbox⟩ := Rect.exists_boundingBox (fun hnil => hne (List.map_eq_nil_iff.1 hnil)) hsharp hspan
  have hareas : ∀ a ∈ (rects placements).map (·.area), 0 ≤ a :=
    List.forall_mem_map.2 fun r hr => Int.mul_nonneg (hsharp r hr).proper.1 (hsharp r hr).proper.2
  have htotal := Area.foldlM_add_eq_ok hareas (Int.le_refl 0) (by rwa [Int.zero_add])
  obtain ⟨cover, hcover⟩ : ∃ cover, coverIssues container placements = .ok cover := by
    unfold rects at htotal
    simp only [coverIssues, hbox, htotal, bind, Except.bind]
    split
    · exact ⟨_, rfl⟩
    · exact ⟨_, rfl⟩
  obtain ⟨places, hplaces, -⟩ := exists_placeIssues container fun r hr => (hsharp r hr).fits
  exact ⟨_, by rw [check, if_neg hne, hcover, hplaces]; rfl⟩

theorem sizeIssues_warning {short : Bool} {p : Placement}
    (hmin : ∀ min, p.min = some min → min.width ≤ p.bounds.width ∧ min.height ≤ p.bounds.height)
    {i : Issue} (hi : i ∈ sizeIssues short p) : i.severity = .warning := by
  unfold sizeIssues at hi
  rcases List.mem_append.1 hi with hi | hi
  · cases hp : p.min with
    | none =>
      simp only [hp] at hi
      cases hi
    | some min =>
      obtain ⟨hw, hh⟩ := hmin min hp
      have hbelow : ¬((0 < p.bounds.width ∧ p.bounds.width < min.width) ∨
          (0 < p.bounds.height ∧ p.bounds.height < min.height)) := by omega
      simp only [hp] at hi
      split at hi
      · next hlt => exact absurd hlt hbelow
      · cases hi
  · cases hp : p.max with
    | none =>
      simp only [hp] at hi
      cases hi
    | some max =>
      simp only [hp] at hi
      split at hi
      · obtain rfl := List.mem_singleton.1 hi
        rfl
      · cases hi

/-- Where the regions keep to their minimums, errors can only be about places. -/
theorem hasErrors_iff_fills (hne : placements ≠ []) (hsharp : ∀ r ∈ rects placements, r.Sharp)
    (hmin : ∀ p ∈ placements, ∀ min, p.min = some min →
      min.width ≤ p.bounds.width ∧ min.height ≤ p.bounds.height)
    (h : check container placements = .ok report) :
    ¬ report.HasErrors ↔ Rect.Fills container (rects placements) := by
  obtain ⟨found, hissues, hkinds, hiff⟩ := check_eq_ok hne hsharp h
  rw [← hiff, Report.HasErrors, hissues]
  constructor
  · intro hclear
    refine List.eq_nil_iff_forall_not_mem.2 fun i hi => ?_
    exact hclear ⟨i, List.mem_append_left _ hi, (hkinds i hi).2⟩
  · rintro rfl ⟨i, hi, herror⟩
    obtain ⟨p, hp, hi⟩ := List.mem_flatMap.1 hi
    rw [sizeIssues_warning (hmin p hp) hi] at herror
    cases herror

/-- A check finds no errors where regions cover the container and keep to their minimums. -/
theorem check_of_tile (hbox : container.Solid) (ht : container.Tile (placements.map (·.bounds)))
    (hsharp : ∀ p ∈ placements, p.bounds.Sharp)
    (hmin : ∀ p ∈ placements, ∀ min, p.min = some min →
      min.width ≤ p.bounds.width ∧ min.height ≤ p.bounds.height) :
    ∃ report, check container placements = .ok report ∧ ¬ report.HasErrors := by
  have hsharp : ∀ r ∈ rects placements, r.Sharp := List.forall_mem_map.2 hsharp
  have hfills := ht.fills hbox hsharp
  have hne : placements ≠ [] := fun hnil => ht.ne_nil hbox.covers_near (hnil ▸ rfl)
  obtain ⟨report, h⟩ := exists_check container hne hsharp (hfills.hull.spanned hsharp)
    (hfills.area ▸ Area.fits_area hbox.fits hbox.isProper)
  exact ⟨report, h, (hasErrors_iff_fills hne hsharp hmin h).2 hfills⟩

theorem check_of_tile_unlimited {rects : List Rect} (hbox : container.Solid) (ht : container.Tile rects)
    (hsharp : ∀ r ∈ rects, r.Sharp) (hplaced : placements.map (·.bounds) = rects)
    (hmin : ∀ p ∈ placements, p.min = none) :
    ∃ report, check container placements = .ok report ∧ ¬ report.HasErrors := by
  subst hplaced
  refine check_of_tile hbox ht (fun p hp => hsharp _ (List.mem_map_of_mem hp)) fun p hp min hp' => ?_
  rw [hmin p hp] at hp'
  cases hp'

/-- The check tells exact covers from all else: it always answers, and finds nothing about where the
regions lie exactly when they lie in the container and each of its cells is in exactly one of them. -/
theorem check_decides_tile (hne : placements ≠ []) (hbox : container.Solid)
    (hsharp : ∀ p ∈ placements, p.bounds.Sharp)
    (hspan : ∀ p ∈ placements, ∀ q ∈ placements, ∀ axis,
      Coord.Fits (q.bounds.far axis - p.bounds.near axis))
    (harea : Area.Fits (placements.map (·.bounds.area)).sum) :
    ∃ report, check container placements = .ok report ∧
      (report.ClearsCover ↔ container.Tile (placements.map (·.bounds))) := by
  have hsharp : ∀ r ∈ rects placements, r.Sharp := List.forall_mem_map.2 hsharp
  have hspan : Rect.Spanned (rects placements) :=
    List.forall_mem_map.2 fun p hp => List.forall_mem_map.2 fun q hq => hspan p hp q hq
  have hareas : (rects placements).map (·.area) = placements.map (·.bounds.area) := by
    rw [rects, List.map_map]
    rfl
  obtain ⟨report, h⟩ := exists_check container hne hsharp hspan (hareas.symm ▸ harea)
  refine ⟨report, h, (clearsCover_iff_fills hne hsharp h).trans ⟨fun hf => hf.tile hsharp, fun ht => ?_⟩⟩
  exact ht.fills hbox hsharp

/-- Two columns, an empty region on the line between them, and an overlap as large as the gap. -/
def slipped : List Placement :=
  [{ id := ⟨1⟩, bounds := ⟨0, 0, 10, 10⟩ }, { id := ⟨2⟩, bounds := ⟨10, 0, 0, 10⟩ },
    { id := ⟨3⟩, bounds := ⟨5, 0, 10, 10⟩ }, { id := ⟨4⟩, bounds := ⟨20, 0, 10, 10⟩ }]

theorem check_decides_tile_slipped : ∃ report, check ⟨0, 0, 30, 10⟩ slipped = .ok report ∧
    ¬ report.ClearsCover ∧ ¬ Rect.Tile ⟨0, 0, 30, 10⟩ (slipped.map (·.bounds)) := by
  have hbox : Rect.Solid ⟨0, 0, 30, 10⟩ := by decide
  have hne : slipped ≠ [] := by decide
  have hspan : ∀ axis, ∀ p ∈ slipped, ∀ q ∈ slipped, Coord.Fits (q.bounds.far axis - p.bounds.near axis) :=
    Axis.rec (by decide) (by decide)
  obtain ⟨report, h, hiff⟩ := check_decides_tile hne hbox (by decide)
    (fun p hp q hq axis => hspan axis p hp q hq) (by decide)
  have hnot : ¬ report.ClearsCover := by
    obtain rfl : report = _ := (Except.ok.inj h).symm
    decide
  exact ⟨report, h, hnot, fun ht => hnot (hiff.2 ht)⟩

end Cover

end Mosaic
