import Mosaic.Settings
import Mosaic.Snapshot.Basic

/-! Why an operation on a layout is refused. -/
namespace Mosaic

inductive LayoutError
  /-- There was no memory for the new bounds. Layouts here always have it, so no operation answers
  this. -/
  | outOfMemory (regions : Nat)
  | settings (error : SettingsError)
  | snapshot (error : SnapshotError)
  | patchLength (expected actual : Nat)
  | rejectedPatch (issues : Nat)
deriving DecidableEq

namespace LayoutError

def message : LayoutError → String
  | .outOfMemory regions =>
    "failed to allocate commit buffer for " ++ toString regions ++ " region(s)"
  | .settings e => e.message
  | .snapshot e => e.message
  | .patchLength expected actual =>
    "patch has " ++ toString actual ++ " region(s), container has " ++ toString expected
  | .rejectedPatch issues =>
    "patch does not tile the container (" ++ toString issues ++ " invariant issue(s))"

/-- The message of the error behind this one. -/
def cause? : LayoutError → Option String
  | .settings e => some e.message
  | .snapshot e => some e.message
  | .outOfMemory _ | .patchLength _ _ | .rejectedPatch _ => none

end LayoutError

end Mosaic
