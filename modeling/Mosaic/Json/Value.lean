import Mosaic.Json.Number
import Mosaic.Json.Text

/-! Documents as trees. Fields keep their order, and a name may occur more than once. -/
namespace Mosaic.Json

inductive Value
  | null
  | bool (b : Bool)
  | number (n : Number)
  | text (t : Text)
  | list (items : List Value)
  | record (fields : List (Text × Value))

namespace Value

def ofInt (v : Int) : Value := .number (.ofInt v)

def ofString (s : String) : Value := .text (.ofString s)

def ofOption {α : Type} (write : α → Value) : Option α → Value
  | none => .null
  | some a => write a

def fields (entries : List (String × Value)) : Value :=
  .record (entries.map fun (name, v) => (.ofString name, v))

/-- A variant: its name in the field `tag`, and its other fields. -/
def ofVariant (tag name : String) (entries : List (String × Value)) : Value :=
  fields ((tag, ofString name) :: entries)

end Value

end Mosaic.Json
