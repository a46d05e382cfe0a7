import Mosaic.Format.Plane
import Mosaic.Settings
import Mosaic.Snapshot.Basic

/-! The documents of snapshots. Sizes that a region does not have are left out. -/
namespace Mosaic

open Json

variable (lib : Library)

namespace RegionId

def toJson (id : RegionId) : Value := .ofInt id.number

/-- Any 64-bit number is read, also zero. -/
def ofJson? (v : Value) : Option RegionId := (lib.natUpTo? last v).map (⟨·⟩)

end RegionId

namespace Snapshot

def Item.toJson (i : Item) : Value :=
  .fields ([("id", i.id.toJson), ("bounds", i.bounds.toJson)] ++
    (i.minSize.toList.map fun s => ("min_size", s.toJson)) ++
    (i.maxSize.toList.map fun s => ("max_size", s.toJson)))

def Item.ofJson? (v : Value) : Option Item := do
  let declared := [.required "id", .required "bounds", .omittable "min_size", .omittable "max_size"]
  match ← lib.fields? declared v with
  | [some id, some bounds, min, max] =>
    return ⟨← RegionId.ofJson? lib id, ← Rect.ofJson? lib bounds, ← min.mapM (Size.ofJson? lib),
      ← max.mapM (Size.ofJson? lib)⟩
  | _ => none

def toJson (s : Snapshot) : Value :=
  .fields [
    ("schema_version", .ofInt s.version),
    ("container", s.container.toJson),
    ("anchor", .ofOption RegionId.toJson s.anchor),
    ("regions", .list (s.items.map Item.toJson))]

def ofJson? (v : Value) : Option Snapshot := do
  let declared :=
    [.defaulted "schema_version", .required "container", .omittable "anchor", .required "regions"]
  match ← lib.fields? declared v with
  | [version, some container, anchor, some items] =>
    return {
      version := ← version.elim (some supportedVersion) (lib.natUpTo? lastVersion)
      container := ← Rect.ofJson? lib container
      anchor := ← anchor.mapM (RegionId.ofJson? lib)
      items := ← lib.list? (Item.ofJson? lib) items }
  | _ => none

def render (s : Snapshot) : Except SettingsError String := (lib.compact s.toJson).mapError .malformed

/-- Reads a snapshot from a text. Whether it can be restored is not looked at. -/
def parse (text : String) : Except SettingsError Snapshot :=
  match (lib.parse? text).bind (ofJson? lib) with
  | some s => .ok s
  | none => .error (.malformed (lib.reason "snapshot" text))

end Snapshot

end Mosaic
