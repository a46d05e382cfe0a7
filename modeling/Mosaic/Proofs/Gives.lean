import Mathlib.Algebra.Order.Group.Unbundled.Int
import Mosaic.Proofs.Checked

/-! Computations that stay within the coordinates. That one is answered is shown along its steps, each from what is
known of the answers before it. -/
namespace Mosaic.Checked

variable {α β σ : Type}

/-- The computation is answered, and the answer has the property. -/
def Gives (x : Checked α) (P : α → Prop) : Prop := ∃ a, x = .ok a ∧ P a

namespace Gives

variable {x : Checked α} {P P' : α → Prop} {Q : β → Prop}

theorem pure {a : α} (h : P a) : Gives (pure a) P := ⟨a, rfl, h⟩

theorem answered (h : Gives x P) : ∃ a, x = .ok a := Exists.imp (fun _ ha => ha.1) h

theorem of_answered (h : ∃ a, x = .ok a) : Gives x fun _ => True := Exists.imp (fun _ ha => ⟨ha, trivial⟩) h

theorem imp (h : Gives x P) (hP : ∀ a, x = .ok a → P a → P' a) : Gives x P' :=
  Exists.imp (fun a ha => ⟨ha.1, hP a ha.1 ha.2⟩) h

theorem bind {f : α → Checked β} (h : Gives x P) (hf : ∀ a, x = .ok a → P a → Gives (f a) Q) :
    Gives (x >>= f) Q := by
  obtain ⟨a, ha, hP⟩ := h
  rw [ha]
  exact hf a ha hP

/-- A fold whose steps keep a property, and are answered as long as it holds. -/
theorem foldlM {f : σ → α → Checked σ} {I : σ → Prop} {xs : List α} (step : ∀ a ∈ xs, ∀ s, I s → Gives (f s a) I)
    {s : σ} (start : I s) : Gives (xs.foldlM f s) I := by
  induction xs generalizing s with
  | nil => exact ⟨s, rfl, start⟩
  | cons a xs ih =>
    rw [List.foldlM_cons]
    exact (step a List.mem_cons_self s start).bind fun t _ ht => ih (fun b hb => step b (List.mem_cons_of_mem _ hb)) ht

theorem mapM {f : α → Checked β} {xs : List α} (h : ∀ a ∈ xs, Gives (f a) Q) :
    Gives (xs.mapM f) fun ys => ∀ y ∈ ys, Q y := by
  induction xs with
  | nil => exact ⟨[], rfl, by simp⟩
  | cons a xs ih =>
    rw [List.mapM_cons]
    refine (h a List.mem_cons_self).bind fun b _ hb => ?_
    refine (ih fun a ha => h a (List.mem_cons_of_mem _ ha)).bind fun bs _ hbs => pure ?_
    exact List.forall_mem_cons.2 ⟨hb, hbs⟩

end Gives

end Mosaic.Checked

namespace Mosaic.Coord

open Checked

variable {a b : Int}

theorem gives_add (h : Fits (a + b)) : Gives (add a b) (· = a + b) := ⟨_, add_eq_ok_iff.2 ⟨h, rfl⟩, rfl⟩

theorem gives_sub (h : Fits (a - b)) : Gives (sub a b) (· = a - b) := ⟨_, sub_eq_ok_iff.2 ⟨h, rfl⟩, rfl⟩

theorem gives_mul (h : Fits (a * b)) : Gives (mul a b) (· = a * b) := ⟨_, mul_eq_ok_iff.2 ⟨h, rfl⟩, rfl⟩

theorem gives_abs (h : Fits (-a)) : Gives (abs a) (· = |a|) := by
  unfold abs
  split
  · next hneg => exact ⟨-a, keep_eq_ok_iff.2 ⟨h, rfl⟩, (abs_of_neg hneg).symm⟩
  · next hpos => exact ⟨a, rfl, (abs_of_nonneg (by omega)).symm⟩

end Mosaic.Coord
