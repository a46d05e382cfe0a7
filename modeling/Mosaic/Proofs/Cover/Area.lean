import Mathlib.Algebra.BigOperators.Ring.Finset
import Mathlib.Algebra.Order.BigOperators.Group.Finset
import Mathlib.Algebra.Order.Ring.Int
import Mosaic.Proofs.Cover.Hull

/-! Counting the cells of rectangles. The areas of rectangles inside a box count each cell of the box as
often as it is covered, so rectangles without a shared cell cover the box exactly when their areas add up
to its area. -/
namespace Mosaic.Rect

variable {box r s u : Rect} {rects others rs : List Rect}

def cells (r : Rect) : Finset (Int × Int) :=
  (Finset.range r.width.toNat ×ˢ Finset.range r.height.toNat).image fun p => (r.x + p.1, r.y + p.2)

theorem mem_cells (h : r.Sharp) {x y : Int} : (x, y) ∈ r.cells ↔ r.Covers ⟨x, y⟩ := by
  have hright : r.right = r.x + r.width := h.far .x
  have hbottom : r.bottom = r.y + r.height := h.far .y
  simp only [cells, Finset.mem_image, Finset.mem_product, Finset.mem_range, Prod.exists,
    Prod.mk.injEq, Covers]
  constructor
  · rintro ⟨i, j, ⟨hi, hj⟩, rfl, rfl⟩
    omega
  · intro hcovers
    exact ⟨(x - r.x).toNat, (y - r.y).toNat, by omega, by omega, by omega⟩

theorem card_cells (h : r.IsProper) : (r.cells.card : Int) = r.area := by
  obtain ⟨hwidth, hheight⟩ := h
  have hinj : Function.Injective fun p : Nat × Nat => (r.x + (p.1 : Int), r.y + (p.2 : Int)) := by
    rintro ⟨i, j⟩ ⟨i', j'⟩ h
    simp only [Prod.mk.injEq] at h ⊢
    omega
  rw [cells, Finset.card_image_of_injective _ hinj, Finset.card_product, Finset.card_range,
    Finset.card_range, Int.natCast_mul, Int.toNat_of_nonneg hwidth, Int.toNat_of_nonneg hheight, area]

/-- The areas count every cell of the box as often as it is covered. -/
theorem sum_area_eq (hbox : box.Sharp) (hrs : ∀ r ∈ rs, r.Sharp ∧ box.Encloses r) :
    (rs.map area).sum = ∑ p ∈ box.cells, (rs.countP (·.Covers ⟨p.1, p.2⟩) : Int) := by
  induction rs with
  | nil => simp
  | cons r rs ih =>
    obtain ⟨hr, hin⟩ := hrs r List.mem_cons_self
    have hcells : box.cells.filter (fun p => r.Covers ⟨p.1, p.2⟩) = r.cells := by
      ext ⟨x, y⟩
      rw [Finset.mem_filter, mem_cells hbox, mem_cells hr]
      exact ⟨And.right, fun hc => ⟨hin.covers hc, hc⟩⟩
    rw [List.map_cons, List.sum_cons, ih fun s hs => hrs s (List.mem_cons_of_mem _ hs),
      ← card_cells hr.proper, ← hcells, Finset.card_filter, Nat.cast_sum, ← Finset.sum_add_distrib]
    apply Finset.sum_congr rfl
    intro p _
    simp only [List.countP_cons, decide_eq_true_eq]
    push_cast
    exact Int.add_comm _ _

/-- No two rectangles share a cell. -/
def Disjoint (rects : List Rect) : Prop := ∀ p : Point, rects.countP (·.Covers p) ≤ 1

theorem disjoint_cons :
    Disjoint (r :: rs) ↔ (∀ s ∈ rs, ∀ p, ¬(r.Covers p ∧ s.Covers p)) ∧ Disjoint rs := by
  constructor
  · intro h
    refine ⟨fun s hs p hp => ?_, fun p => ?_⟩
    · have hle := h p
      have hpos : 0 < rs.countP (·.Covers p) := List.countP_pos_iff.2 ⟨s, hs, decide_eq_true hp.2⟩
      rw [List.countP_cons, if_pos (decide_eq_true hp.1)] at hle
      omega
    · have hle := h p
      rw [List.countP_cons] at hle
      omega
  · rintro ⟨hr, hrs⟩ p
    have hle := hrs p
    rw [List.countP_cons]
    by_cases hp : r.Covers p
    · have hnone : rs.countP (·.Covers p) = 0 := by
        rw [List.countP_eq_zero]
        intro s hs
        simpa using fun hsp => hr s hs p ⟨hp, hsp⟩
      rw [hnone, if_pos (decide_eq_true hp)]
    · rwa [if_neg (by simpa using hp), Nat.add_zero]

theorem Disjoint.perm (h : Disjoint rects) (hp : rects.Perm others) : Disjoint others :=
  fun p => hp.countP_eq _ ▸ h p

theorem Tile.disjoint (h : Tile box rects) : Disjoint rects := by
  intro p
  by_cases hp : box.Covers p
  · exact Nat.le_of_eq (h.2 p hp)
  · have hnone : rects.countP (·.Covers p) = 0 := by
      rw [List.countP_eq_zero]
      intro r hr
      simpa using fun hc => hp ((h.1 r hr).2.covers hc)
    omega

/-- The areas of a cover add up, as every cell is counted where it is covered. -/
theorem Tile.sum_area (h : Tile box rects) (hbox : box.Sharp) (hrects : ∀ r ∈ rects, r.Sharp) :
    (rects.map area).sum = box.area := by
  rw [sum_area_eq hbox fun r hr => ⟨hrects r hr, (h.1 r hr).2⟩, ← card_cells hbox.proper,
    Finset.card_eq_sum_ones, Nat.cast_sum]
  apply Finset.sum_congr rfl
  intro p hp
  rw [h.2 ⟨p.1, p.2⟩ ((mem_cells hbox).1 hp)]

/-- What can be seen of an exact cover without looking at its cells. -/
structure Fills (box : Rect) (rects : List Rect) : Prop where
  hull : Hull box rects
  disjoint : Disjoint rects
  area : (rects.map area).sum = box.area

theorem Tile.fills (h : Tile box rects) (hbox : box.Solid) (hrects : ∀ r ∈ rects, r.Sharp) :
    Fills box rects :=
  ⟨h.hull hbox, h.disjoint, h.sum_area hbox.sharp hrects⟩

/-- Where no cell is covered twice and the areas add up, no cell is left out. -/
theorem Fills.tile (h : Fills box rects) (hrects : ∀ r ∈ rects, r.Sharp) : Tile box rects := by
  have hbox := h.hull.sharp
  refine ⟨fun r hr => ⟨(hrects r hr).proper, h.hull.around r hr⟩, fun ⟨x, y⟩ hp => ?_⟩
  have hle : ∀ p ∈ box.cells, (rects.countP (·.Covers ⟨p.1, p.2⟩) : Int) ≤ 1 :=
    fun p _ => by exact_mod_cast h.disjoint ⟨p.1, p.2⟩
  have hsum : ∑ p ∈ box.cells, (rects.countP (·.Covers ⟨p.1, p.2⟩) : Int) = ∑ _p ∈ box.cells, 1 := by
    rw [← sum_area_eq hbox fun r hr => ⟨hrects r hr, h.hull.around r hr⟩, h.area,
      ← card_cells hbox.proper, Finset.card_eq_sum_ones, Nat.cast_sum]
    rfl
  have hone := (Finset.sum_eq_sum_iff_of_le hle).1 hsum (x, y) ((mem_cells hbox).2 hp)
  exact_mod_cast hone

theorem Fills.perm (h : Fills box rects) (hp : rects.Perm others) : Fills box others :=
  ⟨h.hull.congr fun _ => hp.symm.mem_iff, h.disjoint.perm hp, (hp.map Rect.area).sum_eq ▸ h.area⟩

/-- Whether two rectangles share cells is always answered, as what they share is no larger than one of them. -/
theorem exists_intersection? (hr : r.Fits) :
    ∃ shared, r.intersection? s = .ok shared ∧ (shared = none ↔ ∀ p, ¬(r.Covers p ∧ s.Covers p)) := by
  simp only [intersection?]
  split
  · next hlt =>
    have hwidth : r.right = Coord.saturate (r.x + r.width) := far_eq r .x
    have hheight : r.bottom = Coord.saturate (r.y + r.height) := far_eq r .y
    obtain ⟨hx, hy, hfitsW, hfitsH⟩ := hr
    have hsharedW : Coord.Fits (min r.right s.right - max r.x s.x) := by
      unfold Coord.Fits Coord.saturate at *
      omega
    have hsharedH : Coord.Fits (min r.bottom s.bottom - max r.y s.y) := by
      unfold Coord.Fits Coord.saturate at *
      omega
    obtain ⟨shared, hshared⟩ := exists_ofEdges hsharedW hsharedH
    refine ⟨some shared, by rw [hshared]; rfl, iff_of_false (by simp) fun hno => ?_⟩
    apply hno ⟨max r.x s.x, max r.y s.y⟩
    simp only [Covers]
    omega
  · next hno =>
    refine ⟨none, rfl, iff_of_true rfl fun p ⟨hp, hp'⟩ => hno ?_⟩
    simp only [Covers] at hp hp'
    omega

end Mosaic.Rect
