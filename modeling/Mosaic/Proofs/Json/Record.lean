import Mosaic.Json.Record
import Mosaic.Proofs.Json.Number

/-! Records and variants that are written. The fields of a record are found by their names. A variant is read as a whole
before its name is looked at, and what is written for one is sound: its texts are made of characters, its integers are
far from the largest double, and there is room for the records in it. -/
namespace Mosaic.Json

variable {entries : List (String × Value)} {room : Nat} {name : String}

def Slot.ofFound (found : Option Value) : Slot := found.elim .absent .given

theorem Slot.take?_ofFound (f : Field) (found : Option Value) : (ofFound found).take? f = f.take? found := by
  cases found <;> rfl

namespace Value

theorem namedFields?_written (entries : List (String × Value)) :
    namedFields? (entries.map fun (name, v) => (.ofString name, v)) = some entries := by
  induction entries with
  | nil => rfl
  | cons e entries ih =>
    rw [namedFields?] at ih
    simp [namedFields?, List.mapM_cons, Text.toString?_ofString, ih]

/-- Where no name occurs twice, the field of a name is the first one of that name. -/
theorem slot?_eq (h : (entries.map (·.1)).Nodup) (name : String) :
    slot? entries name = some (.ofFound (entries.lookup name)) := by
  induction entries with
  | nil => rfl
  | cons e entries ih =>
    obtain ⟨hfirst, hrest⟩ := List.nodup_cons.1 h
    by_cases hname : e.1 = name
    · have hnone : entries.filter (·.1 = name) = [] :=
        List.filter_eq_nil_iff.2 fun other hother heq =>
          hfirst (List.mem_map.2 ⟨other, hother, (of_decide_eq_true heq).trans hname.symm⟩)
      rw [slot?, List.filter_cons_of_pos (by simpa using hname), hnone, ← hname, List.lookup_cons_self]
      rfl
    · have hskip : (name == e.1) = false := beq_eq_false_iff_ne.2 (Ne.symm hname)
      rw [slot?, List.filter_cons_of_neg (by simpa using hname), List.lookup_cons, hskip]
      exact ih hrest

theorem fields?_fields (declared : List Field) (h : (entries.map (·.1)).Nodup) :
    (fields entries).fields? declared = declared.mapM fun f => f.take? (entries.lookup f.name) := by
  have hslots : ∀ names : List String,
      names.mapM (slot? entries) = some (names.map fun name => .ofFound (entries.lookup name)) := by
    intro names
    induction names with
    | nil => rfl
    | cons name names ih => simp [List.mapM_cons, slot?_eq h, ih]
  have htake : (declared.zip (declared.map fun f => Slot.ofFound (entries.lookup f.name))).mapM
      (fun e => e.2.take? e.1) = declared.mapM fun f => f.take? (entries.lookup f.name) := by
    induction declared with
    | nil => rfl
    | cons f declared ih => simp only [List.map_cons, List.zip_cons_cons, List.mapM_cons, Slot.take?_ofFound, ih]
  rw [fields?, fields, slots?, namedFields?_written]
  simp only [Option.bind_eq_bind, Option.bind_some, hslots, List.map_map, Function.comp_def]
  exact htake

/-! ### Soundness -/

theorem isSome_toChars?_ofString (s : String) : (Text.ofString s).toChars?.isSome = true := by
  have hread := congrArg Option.isSome (Text.toString?_ofString s)
  rwa [Text.toString?, Option.isSome_map] at hread

theorem itemsAreSound_of_forall {items : List Value} (h : ∀ v ∈ items, v.isSound room = true) :
    itemsAreSound room items = true := by
  induction items with
  | nil => rfl
  | cons v items ih =>
    obtain ⟨hfirst, hrest⟩ := List.forall_mem_cons.1 h
    simp [itemsAreSound, hfirst, ih hrest]

theorem fieldsAreSound_written (h : ∀ e ∈ entries, e.2.isSound room = true) :
    fieldsAreSound room (entries.map fun (name, v) => (.ofString name, v)) = true := by
  induction entries with
  | nil => rfl
  | cons e entries ih =>
    obtain ⟨hfirst, hrest⟩ := List.forall_mem_cons.1 h
    simp [fieldsAreSound, isSome_toChars?_ofString, hfirst, ih hrest]

theorem Plain.isSound {v : Value} (h : v.Plain room) : v.isSound room = true := by
  induction h with
  | null => rw [Value.isSound]
  | bool b => rw [Value.isSound]
  | int h => rw [ofInt, Value.isSound, Number.isHuge_ofInt (by omega), Bool.not_false]
  | string s => rw [ofString, Value.isSound, isSome_toChars?_ofString]
  | list _ ih =>
    rw [Value.isSound, Nat.add_sub_cancel, itemsAreSound_of_forall ih]
    rfl
  | fields _ _ ih =>
    rw [Value.fields, Value.isSound, Nat.add_sub_cancel, fieldsAreSound_written ih]
    rfl

/-! ### Variants -/

theorem fields_inj {entries' : List (String × Value)} (h : fields entries = fields entries') : entries = entries' := by
  have hread := congrArg (fun v => match v with
    | .record fs => namedFields? fs
    | _ => none) h
  simpa [fields, namedFields?_written] using hread

theorem Plain.nodup (h : (Value.fields entries).Plain room) : (entries.map (·.1)).Nodup := by
  generalize hv : Value.fields entries = v at h
  cases h with
  | fields hnames _ => exact fields_inj hv ▸ hnames
  | _ => cases hv

/-- A variant that is written is found by its name, and its own fields are left. -/
theorem variant?_ofVariant {tag : String} (h : (ofVariant tag name entries).Plain room) :
    (ofVariant tag name entries).variant? tag room = some (name, fields entries) := by
  have hothers : ∀ f ∈ entries.map fun (name, v) => ((.ofString name, v) : Text × Value), f.1.toString? ≠ some tag := by
    intro f hf
    obtain ⟨e, he, rfl⟩ := List.mem_map.1 hf
    rw [Text.toString?_ofString]
    intro heq
    exact (List.nodup_cons.1 h.nodup).1 (List.mem_map.2 ⟨e, he, Option.some.inj heq⟩)
  unfold variant?
  rw [if_pos h.isSound]
  unfold ofVariant fields
  rw [List.map_cons]
  generalize List.map _ entries = others at hothers ⊢
  have htags : others.filter (fun f => decide (f.1.toString? = some tag)) = [] :=
    List.filter_eq_nil_iff.2 fun f hf => by simp [hothers f hf]
  have hrest : others.filter (fun f => !decide (f.1.toString? = some tag)) = others :=
    List.filter_eq_self.2 fun f hf => by simp [hothers f hf]
  simp [Text.toString?_ofString, htags, hrest, string?, ofString]

end Value

end Mosaic.Json
