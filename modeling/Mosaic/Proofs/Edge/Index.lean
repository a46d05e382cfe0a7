import Mosaic.Edge.Index

/-! The index files exactly the rectangles with an edge at a coordinate, in their order. -/
namespace Mosaic.LineTable

theorem positions_nil (l : Int) : positions [] l = [] := rfl

theorem positions_cons (k l : Int) (ps : List Nat) (rest : LineTable) :
    positions ((k, ps) :: rest) l = if l = k then ps else positions rest l := by
  by_cases h : l = k
  · simp [positions, h]
  · simp [positions, List.lookup_cons, beq_eq_false_iff_ne.2 h, h]

theorem positions_file (line l : Int) (position : Nat) (table : LineTable) :
    (table.file line position).positions l =
      table.positions l ++ if l = line then [position] else [] := by
  induction table with
  | nil => simp [file, positions_cons, positions_nil]
  | cons entry rest ih =>
    obtain ⟨k, ps⟩ := entry
    by_cases hk : k = line
    · by_cases hl : l = line <;> simp [file, positions_cons, hk, hl]
    · by_cases hl : l = k
      · simp [file, positions_cons, hk, hl]
      · simp [file, positions_cons, hk, hl, ih]

private theorem positions_foldl (entries : List (Rect × Nat)) (axis : Axis) (side : Side) (line : Int)
    (table : LineTable) :
    (entries.foldl (fun t (r, i) => t.file (r.edge axis side) i) table).positions line =
      table.positions line ++ (entries.filter fun e => e.1.edge axis side = line).map Prod.snd := by
  induction entries generalizing table with
  | nil => simp
  | cons e entries ih =>
    rw [List.foldl_cons, ih, positions_file, List.filter_cons]
    by_cases h : line = e.1.edge axis side
    · simp [h]
    · simp [h, Ne.symm h]

theorem positions_ofRects (rects : List Rect) (axis : Axis) (side : Side) (line : Int) :
    (ofRects rects axis side).positions line =
      (rects.zipIdx.filter fun e => e.1.edge axis side = line).map Prod.snd := by
  rw [ofRects, positions_foldl]
  simp [positions]

end Mosaic.LineTable

namespace Mosaic.LineIndex

theorem positions_ofRects (rects : List Rect) (axis : Axis) (side : Side) (line : Int) :
    (ofRects rects).positions axis side line =
      (rects.zipIdx.filter fun e => e.1.edge axis side = line).map Prod.snd := by
  rw [positions, table_ofRects, LineTable.positions_ofRects]

theorem mem_positions_ofRects {rects : List Rect} {axis : Axis} {side : Side} {line : Int} {i : Nat} :
    i ∈ (ofRects rects).positions axis side line ↔
      ∃ r, rects[i]? = some r ∧ r.edge axis side = line := by
  simp only [positions_ofRects, List.mem_map, List.mem_filter, decide_eq_true_eq, Prod.exists,
    List.mem_zipIdx_iff_getElem?, exists_eq_right]

end Mosaic.LineIndex
