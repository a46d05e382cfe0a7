import Mosaic.Plane.Rect

/-! What it means to cover a rectangle exactly, said cell by cell. Empty rectangles cover no cell,
but they too have to lie inside. -/
namespace Mosaic.Rect

/-- No extent is negative. -/
def IsProper (r : Rect) : Prop := 0 ≤ r.width ∧ 0 ≤ r.height

instance (r : Rect) : Decidable r.IsProper := inferInstanceAs (Decidable (_ ∧ _))

/-- The rectangles lie inside the box, and each cell of the box lies in exactly one of them. -/
def Tile (box : Rect) (rects : List Rect) : Prop :=
  (∀ r ∈ rects, r.IsProper ∧ box.Encloses r) ∧
    ∀ p, box.Covers p → rects.countP (·.Covers p) = 1

theorem isProper_clamped (x y width height : Int) : (clamped x y width height).IsProper :=
  ⟨Int.le_max_right .., Int.le_max_right ..⟩

theorem tile_self {box : Rect} (h : box.IsProper) : Tile box [box] := by
  refine ⟨fun r hr => ?_, fun p hp => by simp [hp]⟩
  obtain rfl := List.mem_singleton.1 hr
  exact ⟨h, by simp [Encloses]⟩

theorem Tile.perm {box : Rect} {rects others : List Rect} (h : Tile box rects)
    (hp : rects.Perm others) : Tile box others :=
  ⟨fun r hr => h.1 r (hp.mem_iff.2 hr), fun p hc => hp.countP_eq _ ▸ h.2 p hc⟩

theorem Encloses.covers {outer inner : Rect} (h : outer.Encloses inner) {p : Point}
    (hp : inner.Covers p) : outer.Covers p :=
  ⟨Int.le_trans h.1 hp.1, Int.lt_of_lt_of_le hp.2.1 h.2.2.1, Int.le_trans h.2.1 hp.2.2.1,
    Int.lt_of_lt_of_le hp.2.2.2 h.2.2.2⟩

theorem Encloses.trans {a b c : Rect} (h : a.Encloses b) (h' : b.Encloses c) : a.Encloses c :=
  ⟨Int.le_trans h.1 h'.1, Int.le_trans h.2.1 h'.2.1, Int.le_trans h'.2.2.1 h.2.2.1,
    Int.le_trans h'.2.2.2 h.2.2.2⟩

/-- A rectangle of a cover can be replaced by rectangles that cover it. -/
theorem Tile.split {box r : Rect} {rest parts : List Rect} (h : Tile box (r :: rest))
    (hr : Tile r parts) : Tile box (rest ++ parts) := by
  have hin := h.1 r List.mem_cons_self
  refine ⟨fun s hs => ?_, fun p hp => ?_⟩
  · rcases List.mem_append.1 hs with hs | hs
    · exact h.1 s (List.mem_cons_of_mem _ hs)
    · exact ⟨(hr.1 s hs).1, hin.2.trans (hr.1 s hs).2⟩
  · have hone := h.2 p hp
    rw [List.countP_cons] at hone
    rw [List.countP_append]
    by_cases hc : r.Covers p
    · have hparts := hr.2 p hc
      simp only [hc, decide_true, if_true] at hone
      omega
    · have hparts : parts.countP (·.Covers p) = 0 := by
        rw [List.countP_eq_zero]
        intro s hs
        simpa using fun hsp => hc ((hr.1 s hs).2.covers hsp)
      simp only [hc, decide_false, Bool.false_eq_true, if_false] at hone
      omega

theorem Tile.ne_nil {box : Rect} {rects : List Rect} (h : Tile box rects) {p : Point}
    (hp : box.Covers p) : rects ≠ [] := by
  rintro rfl
  simpa using h.2 p hp

end Mosaic.Rect
