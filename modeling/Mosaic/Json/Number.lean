/-! Number literals, kept as they are written. -/
namespace Mosaic.Json

structure Exponent where
  negative : Bool
  digits : List Char
deriving DecidableEq

structure Number where
  negative : Bool
  whole : List Char
  /-- The digits behind the point; none if there is no point. -/
  fraction : List Char := []
  exponent : Option Exponent := none
deriving DecidableEq

namespace Number

def value (digits : List Char) : Nat := Nat.ofDigitChars 10 digits 0

def ofInt (v : Int) : Number := ⟨v < 0, Nat.toDigits 10 v.natAbs, [], none⟩

/-- The integer that a literal without point and exponent denotes. Negative zero denotes none. -/
def toInt? (n : Number) : Option Int :=
  if n.fraction = [] ∧ n.exponent = none then
    if n.negative then if value n.whole = 0 then none else some (-value n.whole)
    else some (value n.whole)
  else none

/-! ### Magnitude -/

/-- Takes in digits as long as the significand fits in 64 bits, and tells how many. -/
def absorb : Nat → List Char → Nat × Nat
  | s, [] => (s, 0)
  | s, d :: ds =>
    let next := 10 * s + value [d]
    if next < Nat.pow 2 64 then
      let (s, n) := absorb next ds
      (s, n + 1)
    else (s, 0)

/-- The nearest number of 53 significant bits, a half going to the even one. -/
def round53 (n : Nat) : Nat :=
  let unit := Nat.pow 2 (n.log2 + 1 - 53)
  let q := n / unit
  let twice := 2 * (n % unit)
  (if unit < twice ∨ (twice = unit ∧ q % 2 = 1) then q + 1 else q) * unit

/-- The power of ten by which the significand is multiplied: digits not taken in before the point
raise it, digits taken in behind the point lower it. -/
def scale (n : Number) (dropped taken : Nat) : Int :=
  let exponent : Int := match n.exponent with
    | none => 0
    | some e => if e.negative then -value e.digits else value e.digits
  exponent + dropped - taken

/-- The product of significand and power, both rounded to doubles, is past the largest double. -/
def isHuge (n : Number) : Bool :=
  let (s, taken) := absorb 0 n.whole
  let (s, behind) := absorb s n.fraction
  let e := n.scale (n.whole.length - taken) behind
  if s = 0 ∨ e < 0 then false
  else if 308 < e then true
  else decide (Nat.pow 2 1024 - Nat.pow 2 970 ≤ round53 s * round53 (Nat.pow 10 e.toNat))

/-! ### Reading and writing -/

/-- The exponent that the text starts with, if any; a sign without digits is none. -/
def scanExponent : List Char → Option (Option Exponent × List Char)
  | e :: cs =>
    if e = 'e' ∨ e = 'E' then
      let (negative, cs) := match cs with
        | '-' :: r => (true, r)
        | '+' :: r => (false, r)
        | _ => (false, cs)
      let digits := cs.takeWhile Char.isDigit
      if digits = [] then none else some (some ⟨negative, digits⟩, cs.dropWhile Char.isDigit)
    else some (none, e :: cs)
  | [] => some (none, [])

/-- The digits behind a point that the text starts with; a point without digits is refused. -/
def scanFraction : List Char → Option (List Char × List Char)
  | '.' :: cs =>
    let digits := cs.takeWhile Char.isDigit
    if digits = [] then none else some (digits, cs.dropWhile Char.isDigit)
  | cs => some ([], cs)

/-- The literal that the text starts with, and the rest. A whole part of several digits starts with
no zero. -/
def scan (cs : List Char) : Option (Number × List Char) := do
  let (negative, cs) := match cs with
    | '-' :: r => (true, r)
    | _ => (false, cs)
  let whole := cs.takeWhile Char.isDigit
  if whole = [] ∨ (whole.head? = some '0' ∧ whole ≠ ['0']) then none
  else
    let (fraction, cs) ← scanFraction (cs.dropWhile Char.isDigit)
    let (exponent, cs) ← scanExponent cs
    return (⟨negative, whole, fraction, exponent⟩, cs)

def chars (n : Number) : List Char :=
  (if n.negative then ['-'] else []) ++ n.whole ++
    (if n.fraction = [] then [] else '.' :: n.fraction) ++
    match n.exponent with
    | none => []
    | some e => 'e' :: (if e.negative then ['-'] else []) ++ e.digits

end Number

end Mosaic.Json
