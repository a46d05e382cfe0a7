import Mosaic.Coord
import Mosaic.Json.Library

/-! What is written is read back by every library that keeps the laws: a record field by field, whether a field that has
no value is left out or written as null, a number if it is in the range of its type, and a choice by its name. -/
namespace Mosaic.Json

variable {α : Type} {write : α → Value} {read : Value → Option α} {o : Option α} {room : Nat}

namespace Value

theorem isNull_ofInt (n : Int) : (ofInt n).isNull = false := rfl

theorem plain_coord {n : Int} (h : Coord.Fits n) : (ofInt n).Plain room := by
  obtain ⟨hleast, hgreatest⟩ := h
  exact .int ⟨by omega, by omega⟩

theorem plain_ofNat {n : Nat} (h : n ≤ 18446744073709551615) : (ofInt n).Plain room := .int ⟨by omega, by omega⟩

theorem plain_ofOption (h : ∀ a ∈ o, (write a).Plain room) : (ofOption write o).Plain room := by
  cases o with
  | none => exact .null
  | some a => exact h a rfl

end Value

namespace Field

variable {name : String}

@[simp]
theorem take?_required (v : Value) : (required name).take? (some v) = some (some v) := rfl

@[simp]
theorem take?_defaulted (found : Option Value) : (defaulted name).take? found = some found := rfl

/-- What is written as null if there is nothing is found again, if nothing else is written as null. -/
theorem take?_optional (h : ∀ a, (write a).isNull = false) :
    (optional name).take? (some (.ofOption write o)) = some (o.map write) := by
  cases o with
  | none => rfl
  | some a => simp [take?, Value.ofOption, h]

theorem take?_omittable (h : ∀ a, (write a).isNull = false) :
    (omittable name).take? (some (.ofOption write o)) = some (o.map write) :=
  show (optional name).take? (some (.ofOption write o)) = some (o.map write) from take?_optional h

end Field

theorem mapM_map (h : ∀ a ∈ o, read (write a) = some a) : (o.map write).mapM read = some o := by
  cases o with
  | none => rfl
  | some a => simp [h a rfl]

namespace Library.Lawful

variable {lib : Library} (hlib : lib.Lawful)

include hlib

theorem coord?_ofInt {n : Int} (h : Coord.Fits n) : lib.coord? (.ofInt n) = some n := by
  obtain ⟨hleast, hgreatest⟩ := h
  rw [coord?, intBetween?, hlib.int?_ofInt n ⟨by omega, by omega⟩]
  simp [hleast, hgreatest]

theorem natUpTo?_ofInt {last n : Nat} (h : n ≤ last) (hlast : last ≤ 18446744073709551615) :
    lib.natUpTo? last (.ofInt n) = some n := by
  have hbetween : (0 : Int) ≤ n ∧ (n : Int) ≤ last := ⟨by omega, by omega⟩
  rw [natUpTo?, intBetween?, hlib.int?_ofInt n ⟨by omega, by omega⟩, Option.filter_some,
    if_pos (by simpa using hbetween)]
  rfl

theorem list?_map {as : List α} (h : ∀ a ∈ as, read (write a) = some a) :
    lib.list? read (.list (as.map write)) = some as := by
  rw [list?, hlib.items?_list]
  induction as with
  | nil => rfl
  | cons a as ih =>
    obtain ⟨ha, has⟩ := List.forall_mem_cons.1 h
    have hrest := ih has
    simp only [Option.bind_eq_bind, Option.bind_some] at hrest
    simp [List.mapM_cons, ha, hrest]

theorem choice?_ofString {all : List α} {name : α → String} {a : α} (hname : (all.map name).Nodup) (ha : a ∈ all)
    (source : Source) : lib.choice? all name source (.ofString (name a)) = some a := by
  have hfind : all.find? (name · = name a) = some a := by
    induction all with
    | nil => cases ha
    | cons b all ih =>
      obtain ⟨hfirst, hrest⟩ := List.nodup_cons.1 hname
      rw [List.find?_cons]
      rcases List.mem_cons.1 ha with rfl | ha
      · simp
      · have hne : name b ≠ name a := fun heq => hfirst (heq ▸ List.mem_map_of_mem ha)
        simp [hne, ih hrest ha]
  simp [choice?, hlib.choiceName?_ofString, hfind]

/-- What is read back from its document is read back from a text of one line. -/
theorem exists_compact {a : α} (hplain : (write a).Plain Value.maxDepth) (hback : read (write a) = some a) :
    ∃ text, lib.compact (write a) = .ok text ∧ (lib.parse? text).bind read = some a := by
  obtain ⟨text, hwritten, hread⟩ := hlib.parse?_compact (write a) hplain
  exact ⟨text, hwritten, by rw [hread, Option.bind_some, hback]⟩

end Library.Lawful

end Mosaic.Json
