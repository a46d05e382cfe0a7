import Mosaic.Json.Token
import Mosaic.Json.Value

/-! Documents as texts. A text is split into tokens, and these are read with what is still open around
them. -/
namespace Mosaic.Json

namespace Value

/-! ### Reading -/

/-- What is still open around the place that is read: the items or fields before it, the latest
first, and the name of the field that is read. -/
inductive Frame
  | list (items : List Value)
  | record (fields : List (Text × Value)) (name : Text)

/-- What may come next. -/
inductive Expect
  | value
  | itemOrClose
  | nameOrClose
  | name (fields : List (Text × Value))
  | colon (fields : List (Text × Value)) (name : Text)
  /-- The rest of what is open around a value. -/
  | rest (v : Value)

structure State where
  expect : Expect
  frames : List Frame

def start (frames : List Frame) : Token → Option State
  | .null => some ⟨.rest .null, frames⟩
  | .bool b => some ⟨.rest (.bool b), frames⟩
  | .number n => some ⟨.rest (.number n), frames⟩
  | .text t => some ⟨.rest (.text t), frames⟩
  | .openList => some ⟨.itemOrClose, frames⟩
  | .openRecord => some ⟨.nameOrClose, frames⟩
  | _ => none

def follow (v : Value) : List Frame → Token → Option State
  | .list items :: frames, .comma => some ⟨.value, .list (v :: items) :: frames⟩
  | .list items :: frames, .closeList => some ⟨.rest (.list (v :: items).reverse), frames⟩
  | .record fields name :: frames, .comma => some ⟨.name ((name, v) :: fields), frames⟩
  | .record fields name :: frames, .closeRecord =>
    some ⟨.rest (.record ((name, v) :: fields).reverse), frames⟩
  | _, _ => none

def step (s : State) (t : Token) : Option State :=
  match s.expect, t with
  | .value, t => start s.frames t
  | .itemOrClose, .closeList => some ⟨.rest (.list []), s.frames⟩
  | .itemOrClose, t => start (.list [] :: s.frames) t
  | .nameOrClose, .closeRecord => some ⟨.rest (.record []), s.frames⟩
  | .nameOrClose, .text name => some ⟨.colon [] name, s.frames⟩
  | .name fields, .text name => some ⟨.colon fields name, s.frames⟩
  | .colon fields name, .colon => some ⟨.value, .record fields name :: s.frames⟩
  | .rest v, t => follow v s.frames t
  | _, _ => none

/-- The value, once it is complete and nothing is open. -/
def State.value? : State → Option Value
  | ⟨.rest v, []⟩ => some v
  | _ => none

def ofTokens? (ts : List Token) : Option Value := do (← ts.foldlM step ⟨.value, []⟩).value?

/-- The document that a text holds. -/
def parse? (text : String) : Option Value := do ofTokens? (← Token.split text.toList)

/-! ### Writing -/

/-- How a document is laid out: all in one line, or indented by some blanks for each level. -/
inductive Style | compact | indented (step : Nat)

def Style.newline : Style → Nat → List Char
  | .compact, _ => []
  | .indented step, level => '\n' :: List.replicate (step * level) ' '

def Style.colon : Style → List Char
  | .compact => [':']
  | .indented _ => [':', ' ']

mutual

def chars (style : Style) (level : Nat) : Value → List Char
  | .null => ['n', 'u', 'l', 'l']
  | .bool true => ['t', 'r', 'u', 'e']
  | .bool false => ['f', 'a', 'l', 's', 'e']
  | .number n => n.chars
  | .text t => t.quote
  | .list [] => ['[', ']']
  | .list (v :: vs) =>
    '[' :: (style.newline (level + 1) ++ chars style (level + 1) v ++
      itemsChars style (level + 1) vs ++ style.newline level ++ [']'])
  | .record [] => ['\x7b', '\x7d']
  | .record ((name, v) :: fs) =>
    '\x7b' :: (style.newline (level + 1) ++ name.quote ++ style.colon ++
      chars style (level + 1) v ++ fieldsChars style (level + 1) fs ++ style.newline level ++
      ['\x7d'])

def itemsChars (style : Style) (level : Nat) : List Value → List Char
  | [] => []
  | v :: vs => ',' :: (style.newline level ++ chars style level v ++ itemsChars style level vs)

def fieldsChars (style : Style) (level : Nat) : List (Text × Value) → List Char
  | [] => []
  | (name, v) :: fs =>
    ',' :: (style.newline level ++ name.quote ++ style.colon ++ chars style level v ++
      fieldsChars style level fs)

end

def render (style : Style) (v : Value) : String := String.ofList (v.chars style 0)

def compact (v : Value) : String := v.render .compact

def pretty (v : Value) : String := v.render (.indented 2)

end Value

end Mosaic.Json
