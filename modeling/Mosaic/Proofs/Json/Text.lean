import Mosaic.Json.Text

/-! A text is read back from what is written for it in quotes: every escape names the piece that it was written
for. -/
namespace Mosaic.Json

/-- Half of a character is one of the numbers set apart for that. -/
def Piece.IsWritable : Piece → Prop
  | .char _ => True
  | .half n => 0xd800 ≤ n ∧ n < 0xe000

namespace Text

variable {done rest : List Char} {t : Text}

theorem hexDigit?_digitChar : ∀ n < 16, hexDigit? n.digitChar = some n := by decide

theorem unit?_digits {n : Nat} (h : n < 0x10000) :
    unit? (n / 0x1000).digitChar (n / 0x100 % 16).digitChar (n / 0x10 % 16).digitChar (n % 16).digitChar =
      some (if 0xd800 ≤ n ∧ n < 0xe000 then .half n else .char (Char.ofNat n)) := by
  have hsum : 0x1000 * (n / 0x1000) + 0x100 * (n / 0x100 % 16) + 0x10 * (n / 0x10 % 16) + n % 16 = n := by omega
  rw [unit?, hexDigit?_digitChar _ (by omega), hexDigit?_digitChar _ (by omega), hexDigit?_digitChar _ (by omega),
    hexDigit?_digitChar _ (by omega)]
  simp only [Option.bind_eq_bind, Option.bind_some, hsum]
  rfl

theorem scan_unitEscape (done : Text) {n : Nat} (h : n < 0x10000) (rest : List Char) :
    scan done (unitEscape n ++ rest) =
      scan ((if 0xd800 ≤ n ∧ n < 0xe000 then .half n else .char (Char.ofNat n)) :: done) rest := by
  simp only [unitEscape, List.cons_append, List.nil_append, scan, unit?_digits h, Option.bind_eq_bind,
    Option.bind_some]

/-- What is written for a piece is read as that piece. -/
theorem scan_escape (done : Text) {p : Piece} (h : p.IsWritable) (rest : List Char) :
    scan done (escape p ++ rest) = scan (p :: done) rest := by
  cases p with
  | half n =>
    have hhalf : 0xd800 ≤ n ∧ n < 0xe000 := h
    rw [escape, scan_unitEscape done (by omega) rest, if_pos hhalf]
  | char c =>
    by_cases hshort : c = '"' ∨ c = '\\' ∨ c = '\x08' ∨ c = '\x0c' ∨ c = '\n' ∨ c = '\r' ∨ c = '\t'
    · rcases hshort with rfl | rfl | rfl | rfl | rfl | rfl | rfl
      all_goals rfl
    · simp only [not_or] at hshort
      obtain ⟨hquote, hslash, hback, hfeed, hline, hreturn, htab⟩ := hshort
      simp only [escape, hquote, hslash, hback, hfeed, hline, hreturn, htab, if_false]
      split
      · next hcontrol =>
        rw [scan_unitEscape done (by omega) rest, if_neg (by omega), Char.ofNat_toNat]
      · next hplain => simp [scan, hslash, hplain]

theorem scan_flatMap_escape (h : ∀ p ∈ t, p.IsWritable) (done : Text) (rest : List Char) :
    scan done (t.flatMap escape ++ '"' :: rest) = some (done.reverse ++ t, rest) := by
  induction t generalizing done with
  | nil => simp [scan]
  | cons p t ih =>
    obtain ⟨hp, ht⟩ := List.forall_mem_cons.1 h
    rw [List.flatMap_cons, List.append_assoc, scan_escape done hp, ih ht]
    simp

theorem isWritable_ofString (s : String) : ∀ p ∈ ofString s, p.IsWritable := by
  intro p hp
  obtain ⟨c, -, rfl⟩ := List.mem_map.1 hp
  trivial

end Text

end Mosaic.Json
