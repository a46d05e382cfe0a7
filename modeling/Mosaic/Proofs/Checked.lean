import Mathlib.Data.List.Forall2
import Mosaic.Coord

/-! Computations that may leave the coordinates: what an answer says about the steps that led to
it, and what folding such steps over a list keeps. -/
namespace Mosaic.Checked

variable {α β σ : Type}

theorem bind_eq_ok {x : Checked α} {f : α → Checked β} {b : β} :
    (x >>= f) = .ok b ↔ ∃ a, x = .ok a ∧ f a = .ok b := by
  cases x <;> simp [bind, Except.bind]

theorem pure_eq_ok {a b : α} : (pure a : Checked α) = .ok b ↔ a = b := by
  simp [pure, Except.pure]

theorem map_eq_ok {x : Checked α} {f : α → β} {b : β} :
    (do return f (← x)) = .ok b ↔ ∃ a, x = .ok a ∧ f a = b := by
  cases x <;> simp [bind, Except.bind, pure, Except.pure]

theorem forall₂_of_mapM {f : α → Checked β} {xs : List α} {ys : List β} (h : xs.mapM f = .ok ys) :
    List.Forall₂ (fun x y => f x = .ok y) xs ys := by
  induction xs generalizing ys with
  | nil =>
    rw [List.mapM_nil, pure_eq_ok] at h
    exact h ▸ .nil
  | cons x xs ih =>
    rw [List.mapM_cons, bind_eq_ok] at h
    obtain ⟨y, hy, h⟩ := h
    obtain ⟨ys, hys, h⟩ := bind_eq_ok.1 h
    exact pure_eq_ok.1 h ▸ .cons hy (ih hys)

/-- Folding a step over a list keeps what each step keeps, goes only where the steps go, and in the
end each element has done what its step does. -/
theorem foldlM_induction {f : σ → α → Checked σ} {I : σ → Prop} {R : σ → σ → Prop}
    {D : α → σ → Prop} (refl : ∀ s, R s s) (trans : ∀ s t u, R s t → R t u → R s u)
    (keep : ∀ a s t, D a s → R s t → D a t) {xs : List α}
    (step : ∀ a ∈ xs, ∀ s t, I s → f s a = .ok t → I t ∧ R s t ∧ D a t) {s t : σ} (start : I s)
    (h : xs.foldlM f s = .ok t) : I t ∧ R s t ∧ ∀ a ∈ xs, D a t := by
  induction xs generalizing s with
  | nil =>
    rw [List.foldlM_nil, pure_eq_ok] at h
    subst h
    exact ⟨start, refl s, by simp⟩
  | cons a xs ih =>
    rw [List.foldlM_cons, bind_eq_ok] at h
    obtain ⟨m, hm, ht⟩ := h
    obtain ⟨him, hsm, ham⟩ := step a List.mem_cons_self s m start hm
    obtain ⟨hit, hmt, hall⟩ := ih (fun b hb => step b (List.mem_cons_of_mem _ hb)) him ht
    refine ⟨hit, trans s m t hsm hmt, fun b hb => ?_⟩
    rcases List.mem_cons.1 hb with rfl | hb
    · exact keep _ m t ham hmt
    · exact hall b hb

theorem foldlM_invariant {f : σ → α → Checked σ} {I : σ → Prop} {xs : List α}
    (step : ∀ a ∈ xs, ∀ s t, I s → f s a = .ok t → I t) {s t : σ} (start : I s)
    (h : xs.foldlM f s = .ok t) : I t :=
  (foldlM_induction (R := fun _ _ => True) (D := fun _ _ => True) (fun _ => trivial)
    (fun _ _ _ _ _ => trivial) (fun _ _ _ _ _ => trivial)
    (fun a ha s t hs ht => ⟨step a ha s t hs ht, trivial, trivial⟩) start h).1

theorem exists_of_mem_foldlM {f : σ → α → Checked σ} {xs : List α} {s t : σ} (h : xs.foldlM f s = .ok t) :
    ∀ a ∈ xs, ∃ u v, f u a = .ok v :=
  (foldlM_induction (I := fun _ => True) (R := fun _ _ => True) (D := fun a _ => ∃ u v, f u a = .ok v)
    (fun _ => trivial) (fun _ _ _ _ _ => trivial) (fun _ _ _ h _ => h)
    (fun _ _ s t _ h => ⟨trivial, trivial, s, t, h⟩) trivial h).2.2

theorem exists_foldlM {f : σ → α → Checked σ} {xs : List α} (h : ∀ a ∈ xs, ∀ s, ∃ t, f s a = .ok t) (s : σ) :
    ∃ t, xs.foldlM f s = .ok t := by
  induction xs generalizing s with
  | nil => exact ⟨s, rfl⟩
  | cons a xs ih =>
    obtain ⟨m, hm⟩ := h a List.mem_cons_self s
    obtain ⟨t, ht⟩ := ih (fun b hb => h b (List.mem_cons_of_mem _ hb)) m
    exact ⟨t, by rw [List.foldlM_cons, hm]; exact ht⟩

theorem foldlM_eq_self {f : σ → α → Checked σ} {xs : List α} {s : σ} (h : ∀ a ∈ xs, f s a = .ok s) :
    xs.foldlM f s = .ok s := by
  induction xs with
  | nil => rfl
  | cons a xs ih =>
    rw [List.foldlM_cons, h a List.mem_cons_self]
    exact ih fun b hb => h b (List.mem_cons_of_mem _ hb)

/-- Two computations have answers that go together, or they are refused for the same reason. -/
inductive Agree (R : α → β → Prop) : Checked α → Checked β → Prop
  | ok {a : α} {b : β} (h : R a b) : Agree R (.ok a) (.ok b)
  | error (e : Overflow) : Agree R (.error e) (.error e)

namespace Agree

variable {α' β' τ : Type} {R : α → β → Prop} {S : α' → β' → Prop} {x : Checked α} {y : Checked β}
  {a : α} {b : β}

theorem refl (x : Checked α) : Agree Eq x x := by
  cases x
  · exact .error _
  · exact .ok rfl

theorem eq {x y : Checked α} (h : Agree Eq x y) : x = y := by
  cases h with
  | ok h => rw [h]
  | error => rfl

theorem symm (h : Agree R x y) : Agree (fun b a => R a b) y x := by
  cases h with
  | ok h => exact .ok h
  | error e => exact .error e

theorem imp {T : α → β → Prop} (h : Agree R x y) (hRT : ∀ a b, x = .ok a → y = .ok b → R a b → T a b) :
    Agree T x y := by
  cases h with
  | ok h => exact .ok (hRT _ _ rfl rfl h)
  | error e => exact .error e

theorem of_ok (h : Agree R x (.ok b)) : ∃ a, x = .ok a ∧ R a b := by
  cases h with
  | ok h => exact ⟨_, rfl, h⟩

theorem to_ok (h : Agree R (.ok a) y) : ∃ b, y = .ok b ∧ R a b := by
  cases h with
  | ok h => exact ⟨_, rfl, h⟩

theorem bind {f : α → Checked α'} {g : β → Checked β'} (h : Agree R x y)
    (hfg : ∀ a b, x = .ok a → y = .ok b → R a b → Agree S (f a) (g b)) :
    Agree S (x >>= f) (y >>= g) := by
  cases h with
  | ok h => exact hfg _ _ rfl rfl h
  | error e => exact .error e

theorem bind_self {z : Checked σ} {f : σ → Checked α} {g : σ → Checked β}
    (hfg : ∀ a, z = .ok a → Agree R (f a) (g a)) : Agree R (z >>= f) (z >>= g) := by
  cases z with
  | error e => exact .error e
  | ok a => exact hfg a rfl

/-- Only what is made of the first answer has to go together with the second. -/
theorem map {f : α → α'} {T : α' → β → Prop} (h : Agree R x y)
    (hf : ∀ a b, x = .ok a → y = .ok b → R a b → T (f a) b) : Agree T (do return f (← x)) y := by
  cases h with
  | ok h => exact .ok (hf _ _ rfl rfl h)
  | error e => exact .error e

theorem foldlM {f : σ → α → Checked σ} {g : τ → α → Checked τ} {T : σ → τ → Prop} {xs : List α}
    (step : ∀ a ∈ xs, ∀ s t, T s t → Agree T (f s a) (g t a)) {s : σ} {t : τ} (start : T s t) :
    Agree T (xs.foldlM f s) (xs.foldlM g t) := by
  induction xs generalizing s t with
  | nil => exact .ok start
  | cons a xs ih =>
    rw [List.foldlM_cons, List.foldlM_cons]
    refine (step a List.mem_cons_self s t start).bind fun s' t' _ _ h => ?_
    exact ih (fun b hb => step b (List.mem_cons_of_mem _ hb)) h

end Agree

theorem foldlM_congr {f g : σ → α → Checked σ} {xs : List α} (h : ∀ a ∈ xs, ∀ s, f s a = g s a) (s : σ) :
    xs.foldlM f s = xs.foldlM g s :=
  (Agree.foldlM (fun a ha s _ hst => hst ▸ h a ha s ▸ .refl _) rfl).eq

end Mosaic.Checked

namespace Mosaic.Coord

theorem add_eq_ok_iff {a b c : Int} : add a b = .ok c ↔ Fits (a + b) ∧ a + b = c := keep_eq_ok_iff

theorem sub_eq_ok_iff {a b c : Int} : sub a b = .ok c ↔ Fits (a - b) ∧ a - b = c := keep_eq_ok_iff

theorem mul_eq_ok_iff {a b c : Int} : mul a b = .ok c ↔ Fits (a * b) ∧ a * b = c := keep_eq_ok_iff

theorem Fits.between {a b c : Int} (ha : Fits a) (hb : Fits b) (hac : a ≤ c) (hcb : c ≤ b) :
    Fits c := by
  unfold Fits at *
  omega

theorem saturate_add_sub (a : Int) {b : Int} (h : Fits b) : saturate (a + (b - a)) = b := by
  have hsum : a + (b - a) = b := by omega
  rw [hsum, saturate_of_fits h]

end Mosaic.Coord
