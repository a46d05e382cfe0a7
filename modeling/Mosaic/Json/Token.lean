import Mosaic.Json.Number
import Mosaic.Json.Text

/-! The tokens of a document. -/
namespace Mosaic.Json

inductive Token
  | openRecord | closeRecord | openList | closeList | comma | colon
  | null
  | bool (b : Bool)
  | number (n : Number)
  | text (t : Text)
deriving DecidableEq

namespace Token

def isBlank (c : Char) : Bool := c == ' ' || c == '\n' || c == '\t' || c == '\r'

/-- The token that the text starts with, and the rest. -/
def next? : List Char → Option (Token × List Char)
  | '\x7b' :: rest => some (.openRecord, rest)
  | '\x7d' :: rest => some (.closeRecord, rest)
  | '[' :: rest => some (.openList, rest)
  | ']' :: rest => some (.closeList, rest)
  | ',' :: rest => some (.comma, rest)
  | ':' :: rest => some (.colon, rest)
  | 'n' :: 'u' :: 'l' :: 'l' :: rest => some (.null, rest)
  | 't' :: 'r' :: 'u' :: 'e' :: rest => some (.bool true, rest)
  | 'f' :: 'a' :: 'l' :: 's' :: 'e' :: rest => some (.bool false, rest)
  | '"' :: rest => do
    let (t, rest) ← Text.scan [] rest
    return (.text t, rest)
  | cs => do
    let (n, rest) ← Number.scan cs
    return (.number n, rest)

/-- Splits a text; `done` holds the tokens found, the latest first. Each turn takes at least one
character, so as many turns as there are characters are enough. -/
def scan (done : List Token) : Nat → List Char → Option (List Token)
  | _, [] => some done.reverse
  | 0, _ :: _ => none
  | fuel + 1, c :: cs =>
    if isBlank c then scan done fuel cs
    else do
      let (t, rest) ← next? (c :: cs)
      scan (t :: done) fuel rest

def split (cs : List Char) : Option (List Token) := scan [] cs.length cs

end Token

end Mosaic.Json
