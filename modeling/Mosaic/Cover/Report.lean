import Mosaic.Region.Basic

/-! What a check of a layout reports. -/
namespace Mosaic

inductive Severity | error | warning deriving DecidableEq

inductive IssueKind | coverMismatch | overlap | outOfBounds | belowMinimum | aboveMaximum
deriving DecidableEq

def IssueKind.describe : IssueKind → String
  | .coverMismatch => "CoverMismatch"
  | .overlap => "Overlap"
  | .outOfBounds => "OutOfBounds"
  | .belowMinimum => "BelowMinimum"
  | .aboveMaximum => "AboveMaximum"

structure Issue where
  kind : IssueKind
  severity : Severity
  region : Option RegionId := none
  related : Option RegionId := none
  message : String
deriving DecidableEq

structure Report where
  issues : List Issue := []
  /-- The container has no room for all minimums. -/
  tooSmall : Bool := false
deriving DecidableEq

namespace Report

def IsClean (r : Report) : Prop := r.issues = []

instance (r : Report) : Decidable r.IsClean := inferInstanceAs (Decidable (_ = _))

def HasErrors (r : Report) : Prop := ∃ i ∈ r.issues, i.severity = .error

instance (r : Report) : Decidable r.HasErrors := inferInstanceAs (Decidable (∃ i ∈ _, _))

def withKind (r : Report) (kind : IssueKind) : List Issue := r.issues.filter (·.kind = kind)

end Report

end Mosaic
