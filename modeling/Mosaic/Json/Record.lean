import Mosaic.Json.Library

/-! Records, choices and variants in documents. A record is an object, whose unknown fields are passed
over, or the list of its fields in declared order. A variant carries its name in a field of its own; it
is read as a whole before its name is looked at, so all of it has to be sound. -/
namespace Mosaic.Json

/-- A field of a record as it was found. -/
inductive Slot
  | given (v : Value)
  | absent
  /-- Past the end of a list that is too short. -/
  | cut

/-- The declared field, if there may be what was found of it. -/
def Slot.take? (f : Field) : Slot → Option (Option Value)
  | .given v => f.take? (some v)
  | .absent => f.take? none
  | .cut => match f with
    | .required _ | .optional _ => none
    | .defaulted _ | .omittable _ => some none

namespace Value

def string? : Value → Option String
  | .text t => t.toString?
  | _ => none

def bool? : Value → Option Bool
  | .bool b => some b
  | _ => none

def int? : Value → Option Int
  | .number n => n.toInt?
  | _ => none

def items? : Value → Option (List Value)
  | .list items => some items
  | _ => none

def namedFields? (fields : List (Text × Value)) : Option (List (String × Value)) :=
  fields.mapM fun (name, v) => name.toString?.map (·, v)

/-- The field of this name; it may not occur twice. -/
def slot? (fields : List (String × Value)) (name : String) : Option Slot :=
  match fields.filter (·.1 = name) with
  | [] => some .absent
  | [(_, v)] => some (.given v)
  | _ => none

def slots? (names : List String) : Value → Option (List Slot)
  | .record fields => do names.mapM (slot? (← namedFields? fields))
  | .list items =>
    if items.length ≤ names.length then
      some (items.map .given ++ List.replicate (names.length - items.length) .cut)
    else none
  | _ => none

def fields? (declared : List Field) (v : Value) : Option (List (Option Value)) := do
  let slots ← v.slots? (declared.map (·.name))
  (declared.zip slots).mapM fun (f, slot) => slot.take? f

/-! ### Choices -/

/-- What can stand for nothing beside the name of a choice. -/
def isUnit : Source → Value → Bool
  | _, .null => true
  | .kept, .record [] => true
  | _, _ => false

/-- The name of a choice, bare or as the only field of an object. -/
def choiceName? (source : Source) : Value → Option String
  | .text t => t.toString?
  | .record [(name, v)] => if isUnit source v then name.toString? else none
  | _ => none

/-! ### Variants -/

mutual

/-- All texts are made of characters, no number is huge, and no more than `room` lists and records
are nested. -/
def isSound (room : Nat) : Value → Bool
  | .null | .bool _ => true
  | .number n => !n.isHuge
  | .text t => t.toChars?.isSome
  | .list items => room != 0 && itemsAreSound (room - 1) items
  | .record fields => room != 0 && fieldsAreSound (room - 1) fields

def itemsAreSound (room : Nat) : List Value → Bool
  | [] => true
  | v :: vs => isSound room v && itemsAreSound room vs

def fieldsAreSound (room : Nat) : List (Text × Value) → Bool
  | [] => true
  | (name, v) :: fs => name.toChars?.isSome && isSound room v && fieldsAreSound room fs

end

/-- The name of a variant and what is left beside it. The name is the one field `tag`, or the first
item of a list. -/
def variant? (tag : String) (room : Nat) (v : Value) : Option (String × Value) :=
  if v.isSound room then
    match v with
    | .record fields =>
      let isTag : Text × Value → Bool := fun f => f.1.toString? = some tag
      match fields.filter isTag with
      | [(_, name)] => name.string?.map (·, .record (fields.filter (!isTag ·)))
      | _ => none
    | .list (name :: items) => name.string?.map (·, .list items)
    | _ => none
  else none

/-- What is left beside the name of a variant without fields. -/
def noFields? : Value → Option Unit
  | .record _ | .list [] => some ()
  | _ => none

end Value

end Mosaic.Json
