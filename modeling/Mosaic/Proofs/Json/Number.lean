import Mathlib.Algebra.Group.Nat.Defs
import Mosaic.Json.Number

/-! A number literal is read back from its own text, up to the first character that cannot go on it, and
the literal of an integer denotes that integer. -/
namespace Mosaic.Json.Number

/-- The text does not go on a number. -/
def Ends (cs : List Char) : Prop := ∀ c ∈ cs.head?, c.isDigit = false ∧ c ≠ '.' ∧ c ≠ 'e' ∧ c ≠ 'E'

/-- The parts of a number are digits, as many as they have to be. Of several digits of the whole part the first one
is not zero. -/
structure IsLiteral (n : Number) : Prop where
  whole : n.whole ≠ []
  digits : ∀ c ∈ n.whole, c.isDigit = true
  lead : n.whole.head? = some '0' → n.whole = ['0']
  fraction : ∀ c ∈ n.fraction, c.isDigit = true
  exponent : ∀ e ∈ n.exponent, e.digits ≠ [] ∧ ∀ c ∈ e.digits, c.isDigit = true

variable {n : Number} {digits rest : List Char}

theorem Ends.isDigit (h : Ends rest) : ∀ c ∈ rest.head?, c.isDigit = false := fun c hc => (h c hc).1

theorem split_digits (hdigits : ∀ c ∈ digits, c.isDigit = true) (hrest : ∀ c ∈ rest.head?, c.isDigit = false) :
    (digits ++ rest).takeWhile Char.isDigit = digits ∧ (digits ++ rest).dropWhile Char.isDigit = rest := by
  rw [List.takeWhile_append_of_pos hdigits, List.dropWhile_append_of_pos hdigits]
  cases rest with
  | nil => exact ⟨List.append_nil _, rfl⟩
  | cons c rest => simp [hrest c rfl]

theorem ne_of_isDigit {c : Char} (h : c.isDigit = true) : c ≠ '-' ∧ c ≠ '+' ∧ c ≠ '.' ∧ c ≠ 'e' ∧ c ≠ 'E' := by
  refine ⟨?_, ?_, ?_, ?_, ?_⟩
  all_goals
    rintro rfl
    cases h

def exponentChars : Option Exponent → List Char
  | none => []
  | some e => 'e' :: (if e.negative then ['-'] else []) ++ e.digits

theorem scanExponent_chars {e : Option Exponent}
    (he : ∀ x ∈ e, x.digits ≠ [] ∧ ∀ c ∈ x.digits, c.isDigit = true) (hrest : Ends rest) :
    scanExponent (exponentChars e ++ rest) = some (e, rest) := by
  cases e with
  | none =>
    cases rest with
    | nil => rfl
    | cons c rest =>
      obtain ⟨-, -, hlower, hupper⟩ := hrest c rfl
      simp [exponentChars, scanExponent, hlower, hupper]
  | some e =>
    obtain ⟨negative, digits⟩ := e
    obtain ⟨hne, hdigits⟩ := he _ rfl
    obtain ⟨htake, hdrop⟩ := split_digits hdigits hrest.isDigit
    cases negative with
    | true => simp [exponentChars, scanExponent, htake, hdrop, hne]
    | false =>
      -- Without a sign, the first digit is not taken for one.
      obtain ⟨d, ds, rfl⟩ := List.exists_cons_of_ne_nil hne
      obtain ⟨hminus, hplus, -⟩ := ne_of_isDigit (hdigits d List.mem_cons_self)
      rw [List.cons_append] at htake hdrop
      simp [exponentChars, scanExponent, htake, hdrop, hminus, hplus]

def fractionChars (digits : List Char) : List Char := if digits = [] then [] else '.' :: digits

theorem head?_exponentChars (e : Option Exponent) (hrest : Ends rest) :
    ∀ c ∈ (exponentChars e ++ rest).head?, c.isDigit = false ∧ c ≠ '.' := by
  cases e with
  | none => exact fun c hc => ⟨(hrest c hc).1, (hrest c hc).2.1⟩
  | some e =>
    rintro c ⟨⟩
    decide

theorem scanFraction_chars (hdigits : ∀ c ∈ digits, c.isDigit = true)
    (hrest : ∀ c ∈ rest.head?, c.isDigit = false ∧ c ≠ '.') :
    scanFraction (fractionChars digits ++ rest) = some (digits, rest) := by
  by_cases hne : digits = []
  · subst hne
    cases rest with
    | nil => rfl
    | cons c rest => simp [fractionChars, scanFraction, (hrest c rfl).2]
  · obtain ⟨htake, hdrop⟩ := split_digits hdigits fun c hc => (hrest c hc).1
    simp [fractionChars, scanFraction, htake, hdrop, hne]

theorem head?_fractionChars (digits : List Char) (hrest : ∀ c ∈ rest.head?, c.isDigit = false) :
    ∀ c ∈ (fractionChars digits ++ rest).head?, c.isDigit = false := by
  unfold fractionChars
  split
  · exact hrest
  · rintro c ⟨⟩
    decide

theorem chars_eq (n : Number) : n.chars =
    (if n.negative then ['-'] else []) ++ n.whole ++ fractionChars n.fraction ++ exponentChars n.exponent := by
  obtain ⟨negative, whole, fraction, exponent⟩ := n
  cases exponent with
  | none => rfl
  | some e => rfl

theorem scan_unsigned (h : n.IsLiteral) (hrest : Ends rest) :
    let cs := n.whole ++ (fractionChars n.fraction ++ (exponentChars n.exponent ++ rest))
    (cs.takeWhile Char.isDigit = n.whole ∧ ¬ (n.whole = [] ∨ n.whole.head? = some '0' ∧ n.whole ≠ ['0'])) ∧
      ∃ behind, scanFraction (cs.dropWhile Char.isDigit) = some (n.fraction, behind) ∧
        scanExponent behind = some (n.exponent, rest) := by
  have hexponent := head?_exponentChars n.exponent hrest
  obtain ⟨htake, hdrop⟩ := split_digits h.digits
    (head?_fractionChars n.fraction fun c hc => (hexponent c hc).1)
  refine ⟨⟨htake, ?_⟩, _, ?_, scanExponent_chars h.exponent hrest⟩
  · rintro (hnil | ⟨hzero, hmore⟩)
    · exact h.whole hnil
    · exact hmore (h.lead hzero)
  · rw [hdrop]
    exact scanFraction_chars h.fraction hexponent

/-- A number is read back from its text. -/
theorem scan_chars (h : n.IsLiteral) (hrest : Ends rest) : scan (n.chars ++ rest) = some (n, rest) := by
  obtain ⟨⟨htake, hwhole⟩, behind, hfraction, hexponent⟩ := scan_unsigned h hrest
  rw [chars_eq]
  obtain ⟨negative, whole, fraction, exponent⟩ := n
  simp only [List.append_assoc] at *
  cases negative with
  | true => simp [scan, htake, hwhole, hfraction, hexponent]
  | false =>
    obtain ⟨d, ds, rfl⟩ := List.exists_cons_of_ne_nil h.whole
    obtain ⟨hminus, -⟩ := ne_of_isDigit (h.digits d List.mem_cons_self)
    rw [List.cons_append] at htake hfraction
    simpa [scan, hminus, htake, hfraction, hexponent] using h.lead

/-! ### Integers -/

/-- Only zero is written with a zero in front. -/
theorem head?_toDigits {k : Nat} (h : (Nat.toDigits 10 k).head? = some '0') : Nat.toDigits 10 k = ['0'] := by
  induction k using Nat.strongRecOn with
  | ind k ih =>
    rw [Nat.toDigits_eq_if (by decide)] at h ⊢
    split at h
    · next hlt =>
      rw [if_pos hlt]
      exact congrArg (fun c => [c]) (Option.some.inj h)
    · next hge =>
      have hne : Nat.toDigits 10 (k / 10) ≠ [] := Nat.toDigits_ne_nil
      rw [List.head?_append, Option.or_of_isSome (List.isSome_head?.2 hne)] at h
      -- The quotient would be zero then, though there are several digits.
      have hvalue : Nat.ofDigitChars 10 (Nat.toDigits 10 (k / 10)) 0 = k / 10 := Nat.ofDigitChars_ten_toDigits
      rw [ih (k / 10) (Nat.div_lt_self (by omega) (by decide)) h] at hvalue
      have hzero : 0 = k / 10 := hvalue
      omega

theorem isLiteral_ofInt (v : Int) : (ofInt v).IsLiteral where
  whole := Nat.toDigits_ne_nil
  digits _ hc := Nat.isDigit_of_mem_toDigits (by decide) (by decide) hc
  lead := head?_toDigits
  fraction := nofun
  exponent := nofun

theorem toInt?_ofInt (v : Int) : (ofInt v).toInt? = some v := by
  have hvalue : value (Nat.toDigits 10 v.natAbs) = v.natAbs := Nat.ofDigitChars_ten_toDigits
  by_cases hneg : v < 0
  · have hne : v.natAbs ≠ 0 := by omega
    simp only [ofInt, toInt?, hvalue, hneg, hne, decide_true, and_self, if_true, if_false]
    exact congrArg some (by omega)
  · simp only [ofInt, toInt?, hvalue, hneg, decide_false, and_self, Bool.false_eq_true, if_true, if_false]
    exact congrArg some (by omega)

/-! ### Magnitude -/

theorem le_ofDigitChars (s : Nat) (digits : List Char) : s ≤ Nat.ofDigitChars 10 digits s := by
  induction digits generalizing s with
  | nil => exact Nat.le_refl s
  | cons d ds ih =>
    have hrest := ih (10 * s + (d.toNat - '0'.toNat))
    rw [Nat.ofDigitChars_cons]
    omega

/-- All digits are taken in if the number that they make up fits in 64 bits. -/
theorem absorb_eq {s : Nat} (h : Nat.ofDigitChars 10 digits s < 2 ^ 64) :
    absorb s digits = (Nat.ofDigitChars 10 digits s, digits.length) := by
  induction digits generalizing s with
  | nil => rfl
  | cons d ds ih =>
    have hdigit : value [d] = d.toNat - '0'.toNat := by simp [value, Nat.ofDigitChars_cons]
    rw [Nat.ofDigitChars_cons, ← hdigit] at h ⊢
    have hnext : 10 * s + value [d] < Nat.pow 2 64 := Nat.lt_of_le_of_lt (le_ofDigitChars _ ds) h
    rw [absorb, if_pos hnext, ih h]
    rfl

theorem round53_le (k : Nat) : round53 k ≤ k + Nat.pow 2 (k.log2 + 1 - 53) := by
  have hquotient := Nat.div_mul_le_self k (Nat.pow 2 (k.log2 + 1 - 53))
  simp only [round53]
  split
  · rw [Nat.add_mul, Nat.one_mul]
    omega
  · omega

theorem round53_lt {k : Nat} (h : k < 2 ^ 64) : round53 k < 2 ^ 66 := by
  have hlog : k.log2 < 64 := by
    by_cases hzero : k = 0
    · simp [hzero]
    · exact (Nat.log2_lt hzero).2 h
  have hunit : Nat.pow 2 (k.log2 + 1 - 53) ≤ 2 ^ 64 := Nat.pow_le_pow_right (by decide) (by omega)
  have hround := round53_le k
  omega

/-- No integer of 64 bits is too large for a double. -/
theorem isHuge_ofInt {v : Int} (h : v.natAbs < 2 ^ 64) : (ofInt v).isHuge = false := by
  have hvalue : Nat.ofDigitChars 10 (Nat.toDigits 10 v.natAbs) 0 = v.natAbs := Nat.ofDigitChars_ten_toDigits
  have habsorb := absorb_eq (hvalue.symm ▸ h : Nat.ofDigitChars 10 (Nat.toDigits 10 v.natAbs) 0 < 2 ^ 64)
  rw [hvalue] at habsorb
  have hlargest : 2 ^ 66 ≤ Nat.pow 2 1024 - Nat.pow 2 970 := by decide +kernel
  have hround : round53 v.natAbs * round53 (Nat.pow 10 0) < Nat.pow 2 1024 - Nat.pow 2 970 := by
    have hone : round53 (Nat.pow 10 0) = 1 := by decide
    rw [hone, Nat.mul_one]
    exact Nat.lt_of_lt_of_le (round53_lt h) hlargest
  have hscale (digits : List Char) : scale ⟨decide (v < 0), digits, [], none⟩ (digits.length - digits.length) 0 = 0 := by
    simp [scale]
  simp only [isHuge, ofInt, habsorb, absorb, hscale, Int.toNat_zero]
  split
  · rfl
  · rw [if_neg (by decide), decide_eq_false (Nat.not_le.2 hround)]

end Mosaic.Json.Number
