import Mosaic.Cascade.Patch
import Mosaic.Proofs.Edge.Direction
import Mosaic.Proofs.Plane.Span

/-! What single writes do to a patch: edges only go ahead, and no rectangle is turned inside out. -/
namespace Mosaic

/-- Every rectangle of the later patch was there before, and no edge lies behind where it was. -/
def Patch.Advances (d : Direction) (axis : Axis) (patch patch' : Patch) : Prop :=
  ∀ (i : Nat) (b' : Rect), patch'.rects[i]? = some b' → ∃ b, patch.rects[i]? = some b ∧
    ∀ side, d.pos (b.edge axis side) ≤ d.pos (b'.edge axis side)

theorem Patch.Advances.refl (d : Direction) (axis : Axis) (patch : Patch) : patch.Advances d axis patch :=
  fun _ b hb => ⟨b, hb, fun _ => Int.le_refl _⟩

theorem Patch.Advances.trans {d : Direction} {axis : Axis} {patch patch' patch'' : Patch}
    (h : patch.Advances d axis patch') (h' : patch'.Advances d axis patch'') :
    patch.Advances d axis patch'' := by
  intro i b'' hb''
  obtain ⟨b', hb', hle'⟩ := h' i b'' hb''
  obtain ⟨b, hb, hle⟩ := h i b' hb'
  exact ⟨b, hb, fun side => Int.le_trans (hle side) (hle' side)⟩

namespace Patch

variable {patch patch' : Patch} {i : Nat} {b : Rect} {axis : Axis} {side other : Side} {v : Int}

/-- One edge is moved, unless it already is further; the other edge and the span across stay. A line
going inward must not go past the other edge. -/
theorem moveEdge_eq_ok (hb : patch.rects[i]? = some b) (hf : b.Fits) (hp : b.IsProper)
    (hv : Coord.Fits v)
    (hroom : other = side → side.inward.pos v ≤ side.inward.pos (b.edge axis side.flip))
    (h : patch.moveEdge i axis other v side.inward = .ok patch') :
    ∃ b', patch'.rects = patch.rects.set i b' ∧
      b'.edge axis other = side.inward.further (b.edge axis other) v ∧
      b'.edge axis other.flip = b.edge axis other.flip ∧
      b'.far axis = b'.near axis + b'.extent axis ∧ Rect.SameAcross axis b b' ∧
      b'.Fits ∧ b'.IsProper := by
  have hn := hf.near axis
  have hfar := Rect.fits_far b axis
  have hle := Rect.near_le_far hf hp axis
  rw [moveEdge, hb] at h
  cases other
  · obtain ⟨b', hspan, hset⟩ := Checked.bind_eq_ok.1 h
    cases Checked.pure_eq_ok.1 hset
    have hedge : side.inward.further (b.near axis) v ≤ b.far axis ∧
        Coord.Fits (side.inward.further (b.near axis) v) := by
      unfold Coord.Fits at *
      cases side
      · have := hroom rfl
        simp only [Side.inward, Direction.pos_up, Rect.edge, Side.flip, Direction.further] at this ⊢
        omega
      · simp only [Side.inward, Direction.further]
        omega
    obtain ⟨hnear', hfar', hextent', hsame, hf', hp'⟩ :=
      Rect.withSpan_eq_ok hspan hedge.1 hedge.2 hfar hf hp
    exact ⟨b', rfl, hnear', hfar', by omega, hsame, hf', hp'⟩
  · obtain ⟨b', hspan, hset⟩ := Checked.bind_eq_ok.1 h
    cases Checked.pure_eq_ok.1 hset
    have hedge : b.near axis ≤ side.inward.further (b.far axis) v ∧
        Coord.Fits (side.inward.further (b.far axis) v) := by
      unfold Coord.Fits at *
      cases side
      · simp only [Side.inward, Direction.further]
        omega
      · have := hroom rfl
        simp only [Side.inward, Direction.pos_down, Rect.edge, Side.flip, Direction.further] at this ⊢
        omega
    obtain ⟨hnear', hfar', hextent', hsame, hf', hp'⟩ :=
      Rect.withSpan_eq_ok hspan hedge.1 hn hedge.2 hf hp
    exact ⟨b', rfl, hfar', hnear', by omega, hsame, hf', hp'⟩

theorem moveMarker_eq_ok (hb : patch.rects[i]? = some b) (hf : b.Fits) (hp : b.IsProper)
    (hv : Coord.Fits v) {d : Direction} (h : patch.moveMarker i axis v d = .ok patch') :
    ∃ b', patch'.rects = patch.rects.set i b' ∧
      (∀ side, b'.edge axis side = d.further (b.near axis) v) ∧
      b'.far axis = b'.near axis + b'.extent axis ∧ Rect.SameAcross axis b b' ∧
      b'.Fits ∧ b'.IsProper := by
  have hn := hf.near axis
  rw [moveMarker, hb] at h
  obtain ⟨b', hspan, hset⟩ := Checked.bind_eq_ok.1 h
  cases Checked.pure_eq_ok.1 hset
  have hplace : Coord.Fits (d.further (b.near axis) v) := by
    unfold Coord.Fits at *
    cases d
    · simp only [Direction.further]
      omega
    · simp only [Direction.further]
      omega
  obtain ⟨hnear', hfar', hextent', hsame, hf', hp'⟩ :=
    Rect.withSpan_eq_ok hspan (Int.le_refl _) hplace hplace hf hp
  refine ⟨b', rfl, fun side => ?_, by omega, hsame, hf', hp'⟩
  cases side
  · exact hnear'
  · exact hfar'

private theorem set_self (hb : patch.rects[i]? = some b) : (⟨patch.rects.set i b⟩ : Patch) = patch := by
  obtain ⟨hi, rfl⟩ := List.getElem?_eq_some_iff.1 hb
  rw [List.set_getElem_self]

theorem moveEdge_idle (hb : patch.rects[i]? = some b) (hf : b.Fits) (hp : b.IsProper)
    (hexact : b.far axis = b.near axis + b.extent axis) {d : Direction}
    (hle : d.pos v ≤ d.pos (b.edge axis side)) : patch.moveEdge i axis side v d = .ok patch := by
  have hspan := Rect.withSpan_self hf hp hexact
  have hstays := Direction.further_eq_left hle
  rw [moveEdge, hb]
  cases side
  · simp only [Rect.edge] at hstays
    simp only [hstays, hspan]
    exact congrArg Except.ok (set_self hb)
  · simp only [Rect.edge] at hstays
    simp only [hstays, hspan]
    exact congrArg Except.ok (set_self hb)

theorem moveMarker_idle (hb : patch.rects[i]? = some b) (hf : b.Fits) (hp : b.IsProper)
    (hexact : b.far axis = b.near axis + b.extent axis) (hempty : b.far axis = b.near axis) {d : Direction}
    (hle : d.pos v ≤ d.pos (b.near axis)) : patch.moveMarker i axis v d = .ok patch := by
  have hspan := Rect.withSpan_self hf hp hexact
  rw [hempty] at hspan
  rw [moveMarker, hb]
  simp only [Direction.further_eq_left hle, hspan]
  exact congrArg Except.ok (set_self hb)

end Patch

end Mosaic
