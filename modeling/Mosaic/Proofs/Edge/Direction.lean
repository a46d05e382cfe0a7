import Mosaic.Edge.Grip
import Mosaic.Proofs.Checked

/-! Positions along a direction. They turn statements about pushes of either direction into one
statement about what lies ahead and what lies behind. -/
namespace Mosaic.Direction

/-- The position of a coordinate along the direction: it grows as one goes that way. -/
def pos (d : Direction) (c : Int) : Int := d.sign * c

@[simp] theorem pos_up (c : Int) : up.pos c = c := Int.one_mul c

@[simp] theorem pos_down (c : Int) : down.pos c = -c := by simp [pos, sign]

theorem pos_inj (d : Direction) {a b : Int} : d.pos a = d.pos b ↔ a = b := by
  cases d <;> simp

theorem pos_nearer (d : Direction) (a b : Int) : d.pos (d.nearer a b) = min (d.pos a) (d.pos b) := by
  cases d
  · simp [nearer]
  · simp only [nearer, pos_down]
    omega

theorem pos_further (d : Direction) (a b : Int) :
    d.pos (d.further a b) = max (d.pos a) (d.pos b) := by
  cases d
  · simp [further]
  · simp only [further, pos_down]
    omega

theorem exists_inward (d : Direction) : ∃ side : Side, side.inward = d := by
  cases d
  · exact ⟨.near, rfl⟩
  · exact ⟨.far, rfl⟩

/-- A coordinate other than the start lies ahead on one side, and only on one. -/
theorem exists_ahead {a b : Int} (h : a ≠ b) : ∃ side : Side, side.inward.pos a < side.inward.pos b := by
  rcases Int.lt_or_gt_of_ne h with hlt | hgt
  · exact ⟨.near, by simpa [Side.inward] using hlt⟩
  · exact ⟨.far, by simpa [Side.inward] using hgt⟩

theorem side_unique {side side' : Side} {a b : Int} (h : side.inward.pos a < side.inward.pos b)
    (h' : side'.inward.pos a < side'.inward.pos b) : side = side' := by
  cases side <;> cases side' <;> simp only [Side.inward, pos_up, pos_down] at h h' <;> first | rfl | omega

theorem further_eq_or (d : Direction) (a b : Int) : d.further a b = a ∨ d.further a b = b := by
  cases d
  · simp only [further]
    omega
  · simp only [further]
    omega

theorem further_eq_left {d : Direction} {a b : Int} (h : d.pos b ≤ d.pos a) : d.further a b = a := by
  refine d.pos_inj.1 ?_
  rw [pos_further]
  exact Int.max_eq_left h

theorem pos_add_sign_mul (d : Direction) (a b : Int) : d.pos (a + d.sign * b) = d.pos a + b := by
  cases d
  · simp [sign]
  · simp only [sign, pos_down]
    omega

theorem isAhead_eq_ok {d : Direction} {start goal : Int} {b : Bool}
    (h : d.isAhead start goal = .ok b) : b = true ↔ d.pos start < d.pos goal := by
  simp only [isAhead, Checked.bind_eq_ok, Coord.sub_eq_ok_iff, Coord.mul_eq_ok_iff,
    Checked.pure_eq_ok] at h
  obtain ⟨gap, ⟨_, rfl⟩, scaled, ⟨_, rfl⟩, rfl⟩ := h
  rw [decide_eq_true_iff]
  cases d
  · simp only [sign, pos_up]
    omega
  · simp only [sign, pos_down]
    omega

theorem before_eq_ok {d : Direction} {edge distance v : Int} (h : d.before edge distance = .ok v) :
    d.pos v = d.pos edge - distance := by
  simp only [before, Checked.bind_eq_ok, Coord.sub_eq_ok_iff, Coord.mul_eq_ok_iff] at h
  obtain ⟨scaled, ⟨_, rfl⟩, ⟨_, rfl⟩⟩ := h
  cases d
  · simp [sign]
  · simp only [sign, pos_down]
    omega

theorem isAhead_between {d : Direction} {start goal g : Int} {b : Bool} (h : d.isAhead start goal = .ok b)
    (hstart : d.pos start ≤ d.pos g) (hgoal : d.pos g ≤ d.pos goal) : ∃ b', d.isAhead start g = .ok b' := by
  simp only [isAhead, Checked.bind_eq_ok, Coord.sub_eq_ok_iff, Coord.mul_eq_ok_iff, Checked.pure_eq_ok] at h ⊢
  obtain ⟨_, ⟨hgap, rfl⟩, _, ⟨hscaled, rfl⟩, -⟩ := h
  refine ⟨_, _, ⟨?_, rfl⟩, _, ⟨?_, rfl⟩, rfl⟩
  all_goals
    unfold Coord.Fits at *
    cases d
    · simp only [sign, pos_up] at *
      omega
    · simp only [sign, pos_down] at *
      omega

theorem before_between {d : Direction} {first last c distance v w : Int} (hfirst : d.before first distance = .ok v)
    (hlast : d.before last distance = .ok w) (hfc : d.pos first ≤ d.pos c) (hcl : d.pos c ≤ d.pos last) :
    ∃ u, d.before c distance = .ok u := by
  simp only [before, Checked.bind_eq_ok, Coord.sub_eq_ok_iff, Coord.mul_eq_ok_iff] at hfirst hlast ⊢
  obtain ⟨_, ⟨hscaled, rfl⟩, hv, rfl⟩ := hfirst
  obtain ⟨_, ⟨-, rfl⟩, hw, rfl⟩ := hlast
  refine ⟨_, _, ⟨hscaled, rfl⟩, ?_, rfl⟩
  cases d
  · simp only [sign, pos_up] at *
    exact hv.between hw (Int.sub_le_sub_right hfc _) (Int.sub_le_sub_right hcl _)
  · simp only [sign, pos_down, Int.neg_le_neg_iff] at *
    exact hw.between hv (Int.sub_le_sub_right hcl _) (Int.sub_le_sub_right hfc _)

end Mosaic.Direction
