import Mosaic.Cover.Report
import Mosaic.Format.Snapshot

/-! The documents of reports. -/
namespace Mosaic

open Json

variable (lib : Library)

namespace Severity

def all : List Severity := [.error, .warning]

def name : Severity → String
  | .error => "error"
  | .warning => "warning"

def toJson (s : Severity) : Value := .ofString s.name

def ofJson? : Value → Option Severity := lib.choice? all name .direct

end Severity

namespace IssueKind

def all : List IssueKind := [.coverMismatch, .overlap, .outOfBounds, .belowMinimum, .aboveMaximum]

def name : IssueKind → String
  | .coverMismatch => "cover_mismatch"
  | .overlap => "overlap"
  | .outOfBounds => "out_of_bounds"
  | .belowMinimum => "below_minimum"
  | .aboveMaximum => "above_maximum"

def toJson (k : IssueKind) : Value := .ofString k.name

def ofJson? : Value → Option IssueKind := lib.choice? all name .direct

end IssueKind

namespace Issue

def toJson (i : Issue) : Value :=
  .fields [
    ("code", i.kind.toJson),
    ("severity", i.severity.toJson),
    ("region", .ofOption RegionId.toJson i.region),
    ("related_region", .ofOption RegionId.toJson i.related),
    ("message", .ofString i.message)]

def ofJson? (v : Value) : Option Issue := do
  let declared :=
    [.required "code", .required "severity", .optional "region", .optional "related_region",
      .required "message"]
  match ← lib.fields? declared v with
  | [some kind, some severity, region, related, some message] =>
    return {
      kind := ← IssueKind.ofJson? lib kind
      severity := ← Severity.ofJson? lib severity
      region := ← region.mapM (RegionId.ofJson? lib)
      related := ← related.mapM (RegionId.ofJson? lib)
      message := ← lib.string? message }
  | _ => none

end Issue

namespace Report

def toJson (r : Report) : Value :=
  .fields [("issues", .list (r.issues.map Issue.toJson)), ("container_too_small", .bool r.tooSmall)]

def ofJson? (v : Value) : Option Report := do
  match ← lib.fields? [.required "issues", .required "container_too_small"] v with
  | [some issues, some tooSmall] =>
    return ⟨← lib.list? (Issue.ofJson? lib) issues, ← lib.bool? tooSmall⟩
  | _ => none

end Report

end Mosaic
