import Mosaic.Region.Basic

/-! Captures of a layout's geometry, without its widgets. -/
namespace Mosaic

structure Snapshot.Item where
  id : RegionId
  bounds : Rect
  minSize : Option Size := none
  maxSize : Option Size := none
deriving DecidableEq

structure Snapshot where
  version : Nat := 1
  container : Rect
  anchor : Option RegionId := none
  items : List Snapshot.Item
deriving DecidableEq

namespace Snapshot

/-- The version that can be restored. -/
def supportedVersion : Nat := 1

def lastVersion : Nat := 65535

/-- The first item for a region. -/
def item? (s : Snapshot) (id : RegionId) : Option Item := s.items.find? (·.id = id)

end Snapshot

inductive SnapshotError
  | unsupportedVersion (found supported : Nat)
  | unknownRegion (id : RegionId)
  | missingRegion (id : RegionId)
  | doesNotTile (issues : Nat)
deriving DecidableEq

def SnapshotError.message : SnapshotError → String
  | .unsupportedVersion found supported =>
    "unsupported snapshot schema version " ++ toString found ++ " (supported: " ++
      toString supported ++ ")"
  | .unknownRegion id => "snapshot references unknown region " ++ toString id.number
  | .missingRegion id => "snapshot is missing region " ++ toString id.number
  | .doesNotTile issues =>
    "snapshot bounds do not tile the container (" ++ toString issues ++ " invariant issue(s))"

def Snapshot.checkVersion (s : Snapshot) : Except SnapshotError Unit :=
  if s.version = supportedVersion then .ok ()
  else .error (.unsupportedVersion s.version supportedVersion)

end Mosaic
