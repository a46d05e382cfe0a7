import Mosaic.Json.Value

/-! What is used of a library for documents. It turns texts into documents and back, and takes
documents apart by what is declared of records, choices and variants. How it does that is left open;
the laws say what of it is relied on. -/
namespace Mosaic.Json

/-- A declared field of a record, by when it may be missing. -/
inductive Field
  | required (name : String)
  /-- It can be null, and left out of an object. -/
  | optional (name : String)
  /-- It can be left out, also at the end of a list. -/
  | defaulted (name : String)
  /-- It can be null, and left out, also at the end of a list. -/
  | omittable (name : String)

@[simp]
def Field.name : Field → String
  | .required name | .optional name | .defaulted name | .omittable name => name

def Value.isNull : Value → Bool
  | .null => true
  | _ => false

/-- The field of an object, if there may be what was found of it. Null is nothing where it can be
null. -/
def Field.take? : Field → Option Value → Option (Option Value)
  | .required _, found => found.map some
  | .defaulted _, found => some found
  | .optional _, found | .omittable _, found => some (found.filter (!·.isNull))

/-- How a document is read: as it comes, or from a copy kept of a variant. -/
inductive Source | direct | kept deriving DecidableEq

structure Library where
  /-- The document that a text holds. -/
  parse? : String → Option Value
  /-- What is said of a text that does not hold what is looked for. -/
  reason : (sought text : String) → String
  /-- The document as a text in one line, or why there is none. -/
  compact : Value → Except String String
  /-- The document as an indented text, or why there is none. -/
  pretty : Value → Except String String
  bool? : Value → Option Bool
  int? : Value → Option Int
  string? : Value → Option String
  items? : Value → Option (List Value)
  /-- What is found of the declared fields of a record, in their order. -/
  fields? : List Field → Value → Option (List (Option Value))
  /-- The name that stands for one of several choices. -/
  choiceName? : Source → Value → Option String
  /-- The name of a variant, which is in the field `tag`, and what is left beside it. It is read as a
  whole before its name is looked at, with room for so many lists and records inside one another. -/
  variant? : (tag : String) → (room : Nat) → Value → Option (String × Value)
  /-- What is left beside the name of a variant without fields. -/
  noFields? : Value → Option Unit

namespace Library

variable (lib : Library) {α : Type}

def intBetween? (least greatest : Int) (v : Value) : Option Int :=
  (lib.int? v).filter fun n => least ≤ n ∧ n ≤ greatest

def coord? : Value → Option Int := lib.intBetween? (-2147483648) 2147483647

/-- A natural number that is not past the last one. -/
def natUpTo? (last : Nat) (v : Value) : Option Nat := (lib.intBetween? 0 last v).map (·.toNat)

def list? (read : Value → Option α) (v : Value) : Option (List α) := do (← lib.items? v).mapM read

def choice? (all : List α) (name : α → String) (source : Source) (v : Value) : Option α := do
  let found ← lib.choiceName? source v
  all.find? (name · = found)

end Library

/-! ### Laws -/

/-- How deep documents may be nested. -/
def Value.maxDepth : Nat := 127

/-- Documents whose integers have 64 bits, whose records do not have two fields of one name, and which
have no more than so many lists and records inside one another. -/
inductive Value.Plain : Nat → Value → Prop
  | null {room : Nat} : Plain room .null
  | bool {room : Nat} (b : Bool) : Plain room (.bool b)
  | int {room : Nat} {n : Int} (h : -9223372036854775808 ≤ n ∧ n ≤ 18446744073709551615) :
      Plain room (.ofInt n)
  | string {room : Nat} (s : String) : Plain room (.ofString s)
  | list {room : Nat} {items : List Value} (h : ∀ v ∈ items, Plain room v) :
      Plain (room + 1) (.list items)
  | fields {room : Nat} {entries : List (String × Value)} (hnames : (entries.map (·.1)).Nodup)
      (h : ∀ e ∈ entries, Plain room e.2) : Plain (room + 1) (.fields entries)

/-- What a library is documented to do with documents that are written here. -/
structure Library.Lawful (lib : Library) : Prop where
  parse?_compact : ∀ v, v.Plain Value.maxDepth →
    ∃ text, lib.compact v = .ok text ∧ lib.parse? text = some v
  parse?_pretty : ∀ v, v.Plain Value.maxDepth →
    ∃ text, lib.pretty v = .ok text ∧ lib.parse? text = some v
  bool?_bool : ∀ b, lib.bool? (.bool b) = some b
  int?_ofInt : ∀ n : Int, -9223372036854775808 ≤ n ∧ n ≤ 18446744073709551615 →
    lib.int? (.ofInt n) = some n
  string?_ofString : ∀ s, lib.string? (.ofString s) = some s
  items?_list : ∀ items, lib.items? (.list items) = some items
  /-- Fields are found by their names, and others are passed over. -/
  fields?_fields : ∀ declared entries, (entries.map (·.1)).Nodup →
    lib.fields? declared (.fields entries) = declared.mapM fun f => f.take? (entries.lookup f.name)
  choiceName?_ofString : ∀ source s, lib.choiceName? source (.ofString s) = some s
  variant?_ofVariant : ∀ tag name entries room, (Value.ofVariant tag name entries).Plain room →
    lib.variant? tag room (.ofVariant tag name entries) = some (name, .fields entries)
  noFields?_fields : lib.noFields? (.fields []) = some ()

end Mosaic.Json
