import Mathlib.Algebra.Order.BigOperators.Group.List
import Mathlib.Data.List.MinMax
import Mosaic.Proofs.Cover.Clean

/-! What it means that the container is too small. Of the lines that run through the same regions the near edge of
the last of these needs the most, so trying the near edges leaves out no line. Along a line the regions of an exact
cover share out the whole container, so where they need more than that, one of them has less than it needs. -/
namespace Mosaic

/-- The least extent that a region may have along an axis. -/
def Placement.minAlong (axis : Axis) (p : Placement) : Int := p.min.elim 0 (·.along axis)

namespace Cover

variable {container : Rect} {placements : List Placement} {axis : Axis} {cross other : Int} {p : Placement}
  {report : Report}

/-- The line at `cross` runs through the region, which has an extent along it. -/
def Crosses (axis : Axis) (cross : Int) (p : Placement) : Prop :=
  0 < p.bounds.extent axis ∧ p.bounds.OnRow axis cross

instance : Decidable (Crosses axis cross p) := inferInstanceAs (Decidable (_ ∧ _))

def crossed (placements : List Placement) (axis : Axis) (cross : Int) : List Placement :=
  placements.filter (Crosses axis cross)

/-- The regions that a line runs through need more than the extent of the container. -/
def Overfull (container : Rect) (placements : List Placement) (axis : Axis) (cross : Int) : Prop :=
  container.extent axis < ((crossed placements axis cross).map (·.minAlong axis)).sum

theorem mem_crossed : p ∈ crossed placements axis cross ↔ p ∈ placements ∧ Crosses axis cross p := by
  rw [crossed, List.mem_filter, decide_eq_true_eq]

theorem needed_eq (placements : List Placement) (axis : Axis) (cross : Int) :
    needed placements axis cross = ((crossed placements axis cross).map (·.minAlong axis)).sum := rfl

theorem Crosses.span_pos (h : Crosses axis cross p) (hp : p.bounds.Sharp) : 0 < p.bounds.extent axis.cross := by
  obtain ⟨-, hnear, hfar⟩ := h
  rw [hp.far] at hfar
  omega

theorem sum_crossed_le (hmin : ∀ p ∈ placements, 0 ≤ p.minAlong axis)
    (h : ∀ p ∈ placements, Crosses axis cross p → Crosses axis other p) :
    ((crossed placements axis cross).map (·.minAlong axis)).sum ≤
      ((crossed placements axis other).map (·.minAlong axis)).sum := by
  have hsame : crossed placements axis cross = (crossed placements axis other).filter (Crosses axis cross) := by
    rw [crossed, crossed, List.filter_filter]
    refine List.filter_congr fun p hp => ?_
    rw [← Bool.decide_and]
    exact decide_eq_decide.2 ⟨fun hcross => ⟨hcross, h p hp hcross⟩, And.left⟩
  rw [hsame]
  refine (List.filter_sublist.map _).sum_le_sum (List.forall_mem_map.2 fun p hp => ?_)
  exact hmin p (mem_crossed.1 hp).1

/-- What is too much for some line is too much for the one along the near edge of a region. -/
theorem Overfull.exists_edge (h : Overfull container placements axis cross) (hbox : 0 ≤ container.extent axis)
    (hmin : ∀ p ∈ placements, 0 ≤ p.minAlong axis) :
    ∃ p ∈ placements, Crosses axis cross p ∧ Overfull container placements axis (p.bounds.near axis.cross) := by
  -- Behind the near edge of the last region to begin, all the others have begun too.
  cases hlast : (crossed placements axis cross).argmax fun p => p.bounds.near axis.cross with
  | none =>
    rw [Overfull, List.argmax_eq_none.1 hlast] at h
    exact absurd hbox (Int.not_le.2 h)
  | some last =>
    obtain ⟨hmem, hcross⟩ := mem_crossed.1 (List.argmax_mem hlast)
    refine ⟨last, hmem, hcross, Int.lt_of_lt_of_le h (sum_crossed_le hmin fun p hp hp' => ⟨hp'.1, ?_, ?_⟩)⟩
    · exact List.le_of_mem_argmax (mem_crossed.2 ⟨hp, hp'⟩) hlast
    · exact Int.lt_of_le_of_lt hcross.2.1 hp'.2.2

/-- Trying the near edges of the regions finds out about all lines. -/
theorem tooSmall_iff (hbox : container.IsProper) (hsharp : ∀ p ∈ placements, p.bounds.Sharp)
    (hmin : ∀ p ∈ placements, ∀ axis, 0 ≤ p.minAlong axis) :
    tooSmall container placements = true ↔ ∃ axis cross, Overfull container placements axis cross := by
  simp only [tooSmall, List.any_eq_true, List.mem_map, List.mem_filter, decide_eq_true_eq]
  constructor
  · rintro ⟨axis, -, cross, -, h⟩
    rw [needed_eq] at h
    exact ⟨axis, cross, h⟩
  · rintro ⟨axis, cross, h⟩
    have hall : axis ∈ Axis.all := by cases axis <;> decide
    obtain ⟨p, hp, hcross, hedge⟩ := h.exists_edge (hbox.extent_nonneg axis) fun p hp => hmin p hp axis
    refine ⟨axis, hall, p.bounds.near axis.cross, ⟨p, ⟨hp, hcross.span_pos (hsharp p hp)⟩, rfl⟩, ?_⟩
    rw [needed_eq]
    exact hedge

/-- The regions on a line through a paved container have no more than its extent. -/
theorem sum_extent_le (hbox : container.Sharp) (hsharp : ∀ p ∈ placements, p.bounds.Sharp)
    (hpaves : container.Paves (rects placements)) (hp : p ∈ crossed placements axis cross) :
    ((crossed placements axis cross).map (·.bounds.extent axis)).sum ≤ container.extent axis := by
  obtain ⟨hmem, hcross⟩ := mem_crossed.1 hp
  have hrow : container.OnRow axis cross := by
    have hspan : p.bounds.near axis < p.bounds.far axis := by
      have hextent := hcross.1
      rw [(hsharp p hmem).far]
      omega
    have harea := Rect.hasArea_of_along axis hspan (Int.lt_of_le_of_lt hcross.2.1 hcross.2.2)
    have hin := ((Rect.encloses_iff axis _ _).1 (hpaves.inside _ (List.mem_map_of_mem hmem) harea)).2
    exact ⟨Int.le_trans hin.1 hcross.2.1, Int.lt_of_lt_of_le hcross.2.2 hin.2⟩
  have hspan : ∀ q ∈ placements, id (q.bounds.far axis) - id (q.bounds.near axis) = q.bounds.extent axis := by
    intro q hq
    rw [id, id, (hsharp q hq).far]
    omega
  have hbalance := hpaves.row_balance (hbox.near_le_far axis)
    (List.forall_mem_map.2 fun q hq => (hsharp q hq).near_le_far axis) hrow id
  rw [rects, List.filter_map, List.map_map] at hbalance
  calc ((crossed placements axis cross).map (·.bounds.extent axis)).sum
      ≤ ((placements.filter fun q => q.bounds.OnRow axis cross).map (·.bounds.extent axis)).sum := by
        refine ((List.monotone_filter_right placements fun q hq => ?_).map _).sum_le_sum
          (List.forall_mem_map.2 fun q hq => (hsharp q (List.mem_of_mem_filter hq)).proper.extent_nonneg axis)
        exact decide_eq_true (of_decide_eq_true hq : Crosses axis cross q).2
    _ = container.far axis - container.near axis := by
        rw [← id_def (container.far axis), ← id_def (container.near axis), ← hbalance]
        exact congrArg List.sum (List.map_congr_left fun q hq => (hspan q (List.mem_of_mem_filter hq)).symm)
    _ = container.extent axis := by
        rw [hbox.far]
        omega

/-- Where the regions on a line of an exact cover need too much, one of them has less than it needs. -/
theorem Overfull.exists_short (h : Overfull container placements axis cross) (hbox : container.Sharp)
    (hsharp : ∀ p ∈ placements, p.bounds.Sharp) (ht : container.Tile (rects placements)) :
    ∃ p ∈ placements, 0 < p.bounds.extent axis ∧ p.bounds.extent axis < p.minAlong axis := by
  by_contra hno
  have henough : ∀ p ∈ crossed placements axis cross, p.minAlong axis ≤ p.bounds.extent axis := by
    intro p hp
    obtain ⟨hmem, hcross⟩ := mem_crossed.1 hp
    exact Int.not_lt.1 fun hlt => hno ⟨p, hmem, hcross.1, hlt⟩
  cases hcrossed : crossed placements axis cross with
  | nil =>
    rw [Overfull, hcrossed] at h
    exact absurd (hbox.proper.extent_nonneg axis) (Int.not_le.2 h)
  | cons p rest =>
    have hsum := sum_extent_le hbox hsharp ht.paves (hcrossed ▸ List.mem_cons_self : p ∈ crossed placements axis cross)
    exact absurd (Int.le_trans (List.sum_le_sum henough) hsum) (Int.not_le.2 h)

theorem exists_belowMinimum (short : Bool) (hextent : 0 < p.bounds.extent axis)
    (hmin : p.bounds.extent axis < p.minAlong axis) : ∃ i ∈ sizeIssues short p, i.kind = .belowMinimum := by
  cases hlimit : p.min with
  | none =>
    rw [Placement.minAlong, hlimit, Option.elim_none] at hmin
    omega
  | some min =>
    rw [Placement.minAlong, hlimit, Option.elim_some] at hmin
    have hbelow : (0 < p.bounds.size.width ∧ p.bounds.size.width < min.width) ∨
        (0 < p.bounds.size.height ∧ p.bounds.size.height < min.height) := by
      cases axis
      · exact .inl ⟨hextent, hmin⟩
      · exact .inr ⟨hextent, hmin⟩
    simp only [sizeIssues, hlimit, if_pos hbelow]
    exact ⟨_, List.mem_append_left _ (List.mem_singleton_self _), rfl⟩

theorem check_tooSmall (h : check container placements = .ok report) :
    report.tooSmall = tooSmall container placements := by
  by_cases hnil : placements = []
  · subst hnil
    cases h
    rfl
  · rw [check, if_neg hnil] at h
    obtain ⟨cover, -, h⟩ := Checked.bind_eq_ok.1 h
    obtain ⟨places, -, h⟩ := Checked.bind_eq_ok.1 h
    rw [← Checked.pure_eq_ok.1 h]

theorem exists_check_of_tile (hbox : container.Sharp) (hsharp : ∀ r ∈ rects placements, r.Sharp)
    (ht : container.Tile (rects placements)) : ∃ report, check container placements = .ok report := by
  by_cases hnil : placements = []
  · exact ⟨{}, by rw [check, if_pos hnil]⟩
  · refine exists_check container hnil hsharp (Rect.spanned_of_encloses hbox (fun r hr => (ht.1 r hr).2) hsharp) ?_
    rw [ht.sum_area hbox hsharp]
    exact Area.fits_area hbox.fits hbox.proper

/-- In an exact cover a container that is too small shows in a region below its minimum. -/
theorem belowMinimum_of_tooSmall (hbox : container.Sharp) (hsharp : ∀ p ∈ placements, p.bounds.Sharp)
    (hmin : ∀ p ∈ placements, ∀ axis, 0 ≤ p.minAlong axis) (h : check container placements = .ok report)
    (ht : container.Tile (rects placements)) (hshort : report.tooSmall = true) :
    report.withKind .belowMinimum ≠ [] := by
  rw [check_tooSmall h] at hshort
  obtain ⟨axis, cross, hover⟩ := (tooSmall_iff hbox.proper hsharp hmin).1 hshort
  obtain ⟨p, hp, hextent, hbelow⟩ := hover.exists_short hbox hsharp ht
  obtain ⟨i, hi, hkind⟩ := exists_belowMinimum (tooSmall container placements) hextent hbelow
  obtain ⟨found, hissues, -⟩ := check_eq_ok (List.ne_nil_of_mem hp) (List.forall_mem_map.2 hsharp) h
  have hmem : i ∈ report.issues := by
    rw [hissues]
    exact List.mem_append_right _ (List.mem_flatMap.2 ⟨p, hp, hi⟩)
  exact List.ne_nil_of_mem (List.mem_filter.2 ⟨hmem, decide_eq_true hkind⟩)

theorem tile_of_isClean (hne : placements ≠ []) (hsharp : ∀ p ∈ placements, p.bounds.Sharp)
    (h : check container placements = .ok report) (hclean : report.IsClean) :
    container.Tile (rects placements) := by
  have hsharp : ∀ r ∈ rects placements, r.Sharp := List.forall_mem_map.2 hsharp
  obtain ⟨found, hissues, -, hiff⟩ := check_eq_ok hne hsharp h
  rw [hclean] at hissues
  exact (hiff.1 (List.append_eq_nil_iff.1 hissues.symm).1).tile hsharp

/-- The container is said to be too small exactly where along some line the regions need more than its extent. A check
of an exact cover answers, and says so only where it finds a region below its minimum. -/
theorem tooSmall_explained (hbox : container.Sharp) (hsharp : ∀ p ∈ placements, p.bounds.Sharp)
    (hmin : ∀ p ∈ placements, ∀ min, p.min = some min → 0 ≤ min.width ∧ 0 ≤ min.height) :
    (∀ report, check container placements = .ok report →
      (report.tooSmall = true ↔ ∃ axis cross, Overfull container placements axis cross) ∧
      (container.Tile (rects placements) → report.tooSmall = true → report.withKind .belowMinimum ≠ []) ∧
      (report.IsClean → report.tooSmall = false)) ∧
    (container.Tile (rects placements) → ∃ report, check container placements = .ok report) := by
  have hmin : ∀ p ∈ placements, ∀ axis, 0 ≤ p.minAlong axis := by
    intro p hp axis
    cases hlimit : p.min with
    | none => rw [Placement.minAlong, hlimit, Option.elim_none]
    | some min =>
      rw [Placement.minAlong, hlimit, Option.elim_some]
      cases axis
      · exact (hmin p hp min hlimit).1
      · exact (hmin p hp min hlimit).2
  refine ⟨fun report h => ⟨?_, belowMinimum_of_tooSmall hbox hsharp hmin h, fun hclean => ?_⟩,
    exists_check_of_tile hbox (List.forall_mem_map.2 hsharp)⟩
  · rw [check_tooSmall h]
    exact tooSmall_iff hbox.proper hsharp hmin
  · by_cases hnil : placements = []
    · rw [check_tooSmall h, hnil]
      rfl
    · refine Bool.not_eq_true _ ▸ fun hshort => ?_
      have hbelow := belowMinimum_of_tooSmall hbox hsharp hmin h (tile_of_isClean hnil hsharp h hclean) hshort
      rw [Report.withKind, hclean] at hbelow
      exact hbelow rfl

/-- Two columns, of which the second is narrower than it may be. -/
def squeezed : List Placement :=
  [{ id := ⟨1⟩, bounds := ⟨0, 0, 50, 100⟩, min := some ⟨50, 50⟩ },
    { id := ⟨2⟩, bounds := ⟨50, 0, 30, 100⟩, min := some ⟨50, 50⟩ }]

theorem tooSmall_explained_squeezed : Overfull ⟨0, 0, 80, 100⟩ squeezed .x 99 ∧
    ∃ report, check ⟨0, 0, 80, 100⟩ squeezed = .ok report ∧ report.tooSmall = true ∧
      report.withKind .belowMinimum ≠ [] := by
  have hover : Overfull ⟨0, 0, 80, 100⟩ squeezed .x 99 := by
    change (80 : Int) < _
    decide
  have ht : Rect.Tile ⟨0, 0, 80, 100⟩ (rects squeezed) :=
    Rect.tile_beside .x (by decide) ⟨⟨rfl, rfl⟩, rfl, rfl⟩ rfl rfl rfl
  obtain ⟨hall, hanswered⟩ := tooSmall_explained (by decide : Rect.Sharp ⟨0, 0, 80, 100⟩)
    (by decide : ∀ p ∈ squeezed, p.bounds.Sharp) (by decide)
  obtain ⟨report, h⟩ := hanswered ht
  have hshort := (hall report h).1.2 ⟨.x, 99, hover⟩
  exact ⟨hover, report, h, hshort, (hall report h).2.1 ht hshort⟩

end Cover

end Mosaic
