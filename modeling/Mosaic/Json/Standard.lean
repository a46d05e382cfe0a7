import Mosaic.Json.Document
import Mosaic.Json.Record

/-! A library that reads and writes documents as the format is laid down. -/
namespace Mosaic.Json

def Library.standard : Library where
  parse? := Value.parse?
  reason sought _ := "no " ++ sought
  compact v := .ok v.compact
  pretty v := .ok v.pretty
  bool? := Value.bool?
  int? := Value.int?
  string? := Value.string?
  items? := Value.items?
  fields? := Value.fields?
  choiceName? := Value.choiceName?
  variant? := Value.variant?
  noFields? := Value.noFields?

end Mosaic.Json
