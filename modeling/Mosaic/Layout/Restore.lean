import Mosaic.Layout.Basic

/-! Restoring a snapshot. It has to name exactly the regions there are, and its bounds have to cover
its container. -/
namespace Mosaic.Layout

variable {W : Type}

/-- Why the snapshot does not belong to the layout, if it does not. -/
def mismatch? (l : Layout W) (s : Snapshot) : Option SnapshotError :=
  if s.version ≠ Snapshot.supportedVersion then
    some (.unsupportedVersion s.version Snapshot.supportedVersion)
  else match (s.items.map (·.id)).find? (!l.store.contains ·) with
    | some id => some (.unknownRegion id)
    | none => match l.store.ids.find? fun id => (s.item? id).isNone with
      | some id => some (.missingRegion id)
      | none => (s.anchor.filter (!l.store.contains ·)).map .unknownRegion

/-- The region with the geometry that the snapshot has for it. -/
def restoreRegion (s : Snapshot) (r : Region W) : Region W :=
  match s.item? r.id with
  | none => r
  | some i => { r.place i.bounds with minSize := i.minSize, maxSize := i.maxSize }

def withSnapshot (l : Layout W) (s : Snapshot) : Layout W :=
  { l with
    store := { l.store with regions := l.store.regions.map (restoreRegion s) }
    bounds := s.container
    anchor := s.anchor }

/-- Puts back the geometry of a snapshot and answers the regions whose bounds changed. -/
def restore (l : Layout W) (s : Snapshot) :
    Checked (Outcome W (Except LayoutError (List RegionId))) :=
  match l.mismatch? s with
  | some e => .ok { value := .error (.snapshot e), layout := l }
  | none => do
    let report ← Cover.check s.container (s.items.map fun i => { id := i.id, bounds := i.bounds })
    if report.HasErrors then
      return { value := .error (.snapshot (.doesNotTile report.issues.length)), layout := l }
    else
      let restored := l.withSnapshot s
      let changed := restored.store.changedSince l.store.bounds
      return {
        value := .ok changed
        layout := restored
        journal := [{ note := .restored s.fingerprint changed.length }] }

end Mosaic.Layout
