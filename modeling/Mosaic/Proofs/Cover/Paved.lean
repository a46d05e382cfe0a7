import Mosaic.Proofs.Cover.Shortage
import Mosaic.Proofs.Plane.Moderate

/-! What a check of a paved container adds up. Its areas come to that of the container, as regions without an area add
nothing wherever they lie, and the minimums on a line through it are no more than it has room for regions, so every sum
stays in its range. -/
namespace Mosaic

namespace Rect

variable {box r : Rect} {rects : List Rect}

theorem Sharp.area_nonneg (h : r.Sharp) : 0 ≤ r.area := Int.mul_nonneg h.proper.1 h.proper.2

theorem Sharp.area_pos_iff (h : r.Sharp) : 0 < r.area ↔ r.HasArea := by
  have hx := h.far .x
  have hy := h.far .y
  obtain ⟨hwidth, hheight⟩ := h.proper
  simp only [near, extent] at hx hy
  constructor
  · intro harea
    have hextent : r.width ≠ 0 ∧ r.height ≠ 0 := by
      rw [← not_or, ← Int.mul_eq_zero]
      exact Int.ne_of_gt harea
    refine Axis.rec ?_ ?_
    · rw [hx, near]
      omega
    · rw [hy, near]
      omega
  · intro harea
    have hleft := harea .x
    have htop := harea .y
    rw [hx, near] at hleft
    rw [hy, near] at htop
    exact Int.mul_pos (by omega) (by omega)

/-- Without the regions that have no area, a paved box is covered exactly. -/
theorem Paves.tile_filter (h : box.Paves rects) (hrects : ∀ r ∈ rects, r.Sharp) :
    box.Tile (rects.filter fun r => 0 < r.area) := by
  refine ⟨fun r hr => ?_, fun p hp => ?_⟩
  · obtain ⟨hmem, harea⟩ := List.mem_filter.1 hr
    have hsharp := hrects r hmem
    exact ⟨hsharp.proper, h.inside r hmem (hsharp.area_pos_iff.1 (of_decide_eq_true harea))⟩
  · rw [← h.once p hp, List.countP_filter]
    refine List.countP_congr fun r hr => ?_
    simp only [Bool.and_eq_true, decide_eq_true_eq, and_iff_left_iff_imp]
    exact fun hcovers => (hrects r hr).area_pos_iff.2 hcovers.hasArea

theorem Paves.sum_area (h : box.Paves rects) (hbox : box.Sharp) (hrects : ∀ r ∈ rects, r.Sharp) :
    (rects.map area).sum = box.area := by
  have hfilter : ∀ rs : List Rect, (∀ r ∈ rs, r.Sharp) →
      ((rs.filter fun r => 0 < r.area).map area).sum = (rs.map area).sum := by
    intro rs hrs
    induction rs with
    | nil => rfl
    | cons r rs ih =>
      have hrest := ih fun s hs => hrs s (List.mem_cons_of_mem _ hs)
      have hnonneg := (hrs r List.mem_cons_self).area_nonneg
      rw [List.filter_cons]
      split
      · rw [List.map_cons, List.sum_cons, List.map_cons, List.sum_cons, hrest]
      · next hzero =>
        rw [decide_eq_true_eq] at hzero
        rw [hrest, List.map_cons, List.sum_cons]
        omega
  rw [← hfilter rects hrects]
  exact (h.tile_filter hrects).sum_area hbox fun r hr => hrects r (List.mem_of_mem_filter hr)

end Rect

namespace Cover

variable {container : Rect} {placements : List Placement} {axis : Axis} {cross : Int}

theorem exists_check_of_paves (hbox : container.Sharp) (hsharp : ∀ r ∈ rects placements, r.Sharp)
    (hreached : ∀ r ∈ rects placements, r.Reached) (hpaves : container.Paves (rects placements)) :
    ∃ report, check container placements = .ok report := by
  by_cases hnil : placements = []
  · exact ⟨{}, by rw [check, if_pos hnil]⟩
  · refine exists_check container hnil hsharp (fun r hr s hs axis => ?_) ?_
    · have hnear := (hreached r hr).near axis
      have hfar := (hreached s hs).far axis
      unfold Coord.Reached at hnear hfar
      unfold Coord.Fits
      omega
    · rw [hpaves.sum_area hbox hsharp]
      exact Area.fits_area hbox.fits hbox.proper

/-- The minimums of the first regions, however many, can be added up along every line. -/
def Summable (placements : List Placement) : Prop :=
  ∀ (n : Nat) (axis : Axis) (cross : Int), Area.Fits (needed (placements.take n) axis cross)

/-- Each region on a line takes up some of the extent that the container has along it. -/
theorem needed_le (hbox : container.Sharp) (hsharp : ∀ p ∈ placements, p.bounds.Sharp)
    (hpaves : container.Paves (rects placements)) (hmin : ∀ p ∈ placements, p.minAlong axis ≤ 2 ^ 28) :
    needed placements axis cross ≤ 2 ^ 28 * container.extent axis := by
  rw [needed_eq]
  cases hcrossed : crossed placements axis cross with
  | nil => exact Int.mul_nonneg (by decide) (hbox.proper.extent_nonneg axis)
  | cons p rest =>
    have hsum := sum_extent_le hbox hsharp hpaves (hcrossed ▸ List.mem_cons_self : p ∈ crossed placements axis cross)
    rw [← hcrossed]
    calc ((crossed placements axis cross).map (·.minAlong axis)).sum
        ≤ ((crossed placements axis cross).map fun p => 2 ^ 28 * p.bounds.extent axis).sum := by
          refine List.sum_le_sum fun p hp => ?_
          obtain ⟨hmem, hextent, -⟩ := mem_crossed.1 hp
          have hle := hmin p hmem
          omega
      _ = 2 ^ 28 * ((crossed placements axis cross).map (·.bounds.extent axis)).sum := List.sum_map_mul_left ..
      _ ≤ 2 ^ 28 * container.extent axis := Int.mul_le_mul_of_nonneg_left hsum (by decide)

theorem summable_of_paves (hbox : container.Sharp) (hsharp : ∀ p ∈ placements, p.bounds.Sharp)
    (hpaves : container.Paves (rects placements))
    (hmin : ∀ p ∈ placements, ∀ axis, 0 ≤ p.minAlong axis ∧ p.minAlong axis ≤ 2 ^ 28) : Summable placements := by
  intro n axis cross
  have hmem : ∀ p ∈ crossed (placements.take n) axis cross, p ∈ placements := fun p hp =>
    List.mem_of_mem_take (mem_crossed.1 hp).1
  have hnonneg : 0 ≤ needed (placements.take n) axis cross :=
    List.sum_nonneg (List.forall_mem_map.2 fun p hp => (hmin p (hmem p hp) axis).1)
  have hall : needed (placements.take n) axis cross ≤ needed placements axis cross := by
    rw [needed_eq, needed_eq]
    refine (((List.take_sublist n placements).filter _).map _).sum_le_sum (List.forall_mem_map.2 fun p hp => ?_)
    exact (hmin p (mem_crossed.1 hp).1 axis).1
  have hle : needed placements axis cross ≤ 2 ^ 28 * container.extent axis :=
    needed_le hbox hsharp hpaves fun p hp => (hmin p hp axis).2
  have hextent := hbox.fits.extent axis
  unfold Coord.Fits at hextent
  unfold Area.Fits
  omega

end Cover

end Mosaic
