import Mosaic.Format.Settings
import Mosaic.Proofs.Json.Library
import Mosaic.Proofs.Json.Standard

/-! Settings are written whether they are valid or not, and checked when they are read. What is read is what was
written, as no value that is there gives way to a default one, so the answer is that of the check. -/
namespace Mosaic

open Json

variable {lib : Library} (hlib : lib.Lawful) {room : Nat}

namespace Button

include hlib in
theorem ofJson?_toJson (b : Button) : ofJson? lib b.toJson = some b :=
  hlib.choice?_ofString (by decide) (by cases b <;> decide) .direct

end Button

namespace SizeRange

structure Fits (r : SizeRange) : Prop where
  minWidth : Coord.Fits r.minWidth
  minHeight : Coord.Fits r.minHeight

theorem isNull_toJson (r : SizeRange) : r.toJson.isNull = false := rfl

include hlib in
theorem ofJson?_toJson {r : SizeRange} (h : r.Fits) : ofJson? lib r.toJson = some r := by
  simp [ofJson?, toJson, hlib.fields?_fields, List.lookup_cons, hlib.coord?_ofInt h.minWidth,
    hlib.coord?_ofInt h.minHeight]

theorem plain_toJson {r : SizeRange} (h : r.Fits) : r.toJson.Plain (room + 1) :=
  .fields (by simp) (by simp [Value.plain_coord h.minWidth, Value.plain_coord h.minHeight])

end SizeRange

namespace Settings

variable {s t : Settings} {e : SettingsError}

structure Fits (s : Settings) : Prop where
  grabTolerance : Coord.Fits s.grabTolerance
  sizeRange : ∀ r ∈ s.sizeRange, r.Fits

include hlib in
theorem ofJson?_toJson (h : s.Fits) : ofJson? lib s.toJson = some s := by
  have hrange : (s.sizeRange.map SizeRange.toJson).mapM (SizeRange.ofJson? lib) = some s.sizeRange :=
    mapM_map fun r hr => SizeRange.ofJson?_toJson hlib (h.sizeRange r hr)
  simp [ofJson?, toJson, hlib.fields?_fields, List.lookup_cons, hlib.coord?_ofInt h.grabTolerance,
    Field.take?_omittable SizeRange.isNull_toJson, hrange, hlib.bool?_bool, Button.ofJson?_toJson hlib]

theorem plain_toJson (h : s.Fits) : s.toJson.Plain (room + 2) := by
  have hrange : (Value.ofOption SizeRange.toJson s.sizeRange).Plain (room + 1) :=
    Value.plain_ofOption fun r hr => SizeRange.plain_toJson (h.sizeRange r hr)
  exact .fields (by simp) (by simp [Value.plain_coord h.grabTolerance, hrange, Value.Plain.bool, Button.toJson,
    Value.Plain.string])

/-- Neither the tolerance nor a minimum is negative. -/
structure IsValid (s : Settings) : Prop where
  grabTolerance : 0 ≤ s.grabTolerance
  minWidth : ∀ r ∈ s.sizeRange, 0 ≤ r.minWidth
  minHeight : ∀ r ∈ s.sizeRange, 0 ≤ r.minHeight

theorem fault?_eq_none_iff : s.fault? = none ↔ s.IsValid := by
  constructor
  · intro h
    unfold fault? at h
    split at h
    · cases h
    · next htolerance =>
      split at h
      · next hrange => exact ⟨by omega, by simp [hrange], by simp [hrange]⟩
      · next range hrange =>
        split at h
        · cases h
        · next hwidth =>
          split at h
          · cases h
          · next hheight => exact ⟨by omega, by simpa [hrange] using hwidth, by simpa [hrange] using hheight⟩
  · rintro ⟨htolerance, hwidth, hheight⟩
    unfold fault?
    rw [if_neg (by omega)]
    split
    · rfl
    · next range hrange =>
      rw [if_neg (Int.not_lt.2 (hwidth range hrange)), if_neg (Int.not_lt.2 (hheight range hrange))]

theorem validate_eq_ok_iff : s.validate = .ok s ↔ s.IsValid := by
  rw [← fault?_eq_none_iff, validate]
  split <;> simp [*]

/-- Whatever library is used, as long as it keeps the laws, a text is written for all settings, and they come back from
it exactly if they are valid; else the answer is their first fault, as a check of the settings themselves gives it. -/
theorem parse_render_eq_validate (hlib : lib.Lawful) (h : s.Fits) :
    ∃ text, s.render lib = .ok text ∧ parse lib text = s.validate ∧ (parse lib text = .ok s ↔ s.IsValid) := by
  obtain ⟨text, hwritten, hread⟩ := hlib.parse?_pretty s.toJson (plain_toJson h)
  have hparse : parse lib text = s.validate := by rw [parse, hread, Option.bind_some, ofJson?_toJson hlib h]
  exact ⟨text, by rw [render, hwritten]; rfl, hparse, hparse ▸ validate_eq_ok_iff⟩

/-- Largest values are kept, and of a negative height the check tells the least value there is. -/
theorem parse_render_eq_validate_ends :
    let s : Settings := ⟨2147483647, some ⟨0, 2147483647⟩, true, .middle⟩
    let t : Settings := ⟨0, some ⟨2147483647, -2147483648⟩, false, .right⟩
    Library.standard.Lawful ∧
      (s.Fits ∧ ∃ text, s.render .standard = .ok text ∧ parse .standard text = .ok s) ∧
      t.Fits ∧ ∃ text, t.render .standard = .ok text ∧
        parse .standard text = .error (.negativeMinimum .y (-2147483648)) := by
  intro s t
  have hs : s.Fits := ⟨by decide, fun _ hr => Option.mem_some.1 hr ▸ ⟨by decide, by decide⟩⟩
  have ht : t.Fits := ⟨by decide, fun _ hr => Option.mem_some.1 hr ▸ ⟨by decide, by decide⟩⟩
  obtain ⟨kept, hkept, hsame, -⟩ := parse_render_eq_validate Library.standard_lawful hs
  obtain ⟨refused, hrefused, hfault, -⟩ := parse_render_eq_validate Library.standard_lawful ht
  exact ⟨Library.standard_lawful, ⟨hs, kept, hkept, hsame⟩, ht, refused, hrefused, hfault⟩

end Settings

end Mosaic
