/-! Texts in quotes. An escape can name half of a character beyond the first plane; a text is made
of characters only if every such half has its partner next to it. -/
namespace Mosaic.Json

/-- A character, or a half of one. -/
inductive Piece
  | char (c : Char)
  | half (unit : Nat)
deriving DecidableEq

abbrev Text := List Piece

namespace Text

def ofString (s : String) : Text := s.toList.map .char

def pair? (high low : Nat) : Option Char :=
  if 0xd800 ≤ high ∧ high < 0xdc00 ∧ 0xdc00 ≤ low ∧ low < 0xe000 then
    some (Char.ofNat (0x10000 + (high - 0xd800) * 0x400 + (low - 0xdc00)))
  else none

/-- The characters of a text, if no half is without its partner. -/
def toChars? : Text → Option (List Char)
  | [] => some []
  | .char c :: rest => (toChars? rest).map (c :: ·)
  | .half high :: .half low :: rest => do
    let c ← pair? high low
    return c :: (← toChars? rest)
  | .half _ :: _ => none

def toString? (t : Text) : Option String := t.toChars?.map String.ofList

theorem toString?_ofString (s : String) : toString? (ofString s) = some s := by
  have h : ∀ cs : List Char, toChars? (cs.map .char) = some cs := by
    intro cs
    induction cs with
    | nil => rfl
    | cons c cs ih => simp [toChars?, ih]
  simp [toString?, ofString, h]

/-! ### Reading -/

/-- The character that stands behind a backslash for another one. -/
def escaped? : Char → Option Char
  | '"' => some '"'
  | '\\' => some '\\'
  | '/' => some '/'
  | 'b' => some '\x08'
  | 'f' => some '\x0c'
  | 'n' => some '\n'
  | 'r' => some '\r'
  | 't' => some '\t'
  | _ => none

def hexDigit? (c : Char) : Option Nat :=
  if c.isDigit then some (c.toNat - 48)
  else if 'a' ≤ c ∧ c ≤ 'f' then some (c.toNat - 87)
  else if 'A' ≤ c ∧ c ≤ 'F' then some (c.toNat - 55)
  else none

def unit? (a b c d : Char) : Option Piece := do
  let n := 0x1000 * (← hexDigit? a) + 0x100 * (← hexDigit? b) + 0x10 * (← hexDigit? c) +
    (← hexDigit? d)
  return if 0xd800 ≤ n ∧ n < 0xe000 then .half n else .char (Char.ofNat n)

/-- Reads up to the closing quote; `done` holds the pieces read, the latest first. Control
characters have to be escaped. -/
def scan (done : Text) : List Char → Option (Text × List Char)
  | [] => none
  | '"' :: rest => some (done.reverse, rest)
  | '\\' :: 'u' :: a :: b :: c :: d :: rest => do scan ((← unit? a b c d) :: done) rest
  | '\\' :: e :: rest => do scan (.char (← escaped? e) :: done) rest
  | c :: rest => if c = '\\' ∨ c.toNat < 32 then none else scan (.char c :: done) rest

/-! ### Writing -/

def unitEscape (n : Nat) : List Char :=
  ['\\', 'u', (n / 0x1000).digitChar, (n / 0x100 % 16).digitChar, (n / 0x10 % 16).digitChar,
    (n % 16).digitChar]

/-- Quotes, backslashes and control characters are escaped, all else stands for itself. -/
def escape : Piece → List Char
  | .half n => unitEscape n
  | .char c =>
    if c = '"' then ['\\', '"']
    else if c = '\\' then ['\\', '\\']
    else if c = '\x08' then ['\\', 'b']
    else if c = '\x0c' then ['\\', 'f']
    else if c = '\n' then ['\\', 'n']
    else if c = '\r' then ['\\', 'r']
    else if c = '\t' then ['\\', 't']
    else if c.toNat < 32 then unitEscape c.toNat
    else [c]

def quote (t : Text) : List Char := '"' :: (t.flatMap escape ++ ['"'])

end Text

end Mosaic.Json
