import Mosaic.Json.Standard
import Mosaic.Proofs.Json.Document
import Mosaic.Proofs.Json.Record

/-! The library that follows the format as it is laid down keeps the laws. -/
namespace Mosaic.Json

theorem Value.Plain.isWritable {v : Value} {room : Nat} (h : v.Plain room) : v.IsWritable := by
  induction h with
  | null => exact isWritable_null
  | bool b => exact isWritable_bool b
  | int => exact isWritable_ofInt _
  | string s => exact isWritable_ofString s
  | list _ ih => exact isWritable_list ih
  | fields _ _ ih => exact isWritable_fields ih

theorem Library.standard_lawful : Library.standard.Lawful where
  parse?_compact v h := ⟨v.compact, rfl, Value.parse?_render h.isWritable .compact⟩
  parse?_pretty v h := ⟨v.pretty, rfl, Value.parse?_render h.isWritable (.indented 2)⟩
  bool?_bool _ := rfl
  int?_ofInt n _ := Number.toInt?_ofInt n
  string?_ofString := Text.toString?_ofString
  items?_list _ := rfl
  fields?_fields declared _ h := Value.fields?_fields declared h
  choiceName?_ofString _ := Text.toString?_ofString
  variant?_ofVariant _ _ _ _ h := Value.variant?_ofVariant h
  noFields?_fields := rfl

end Mosaic.Json
