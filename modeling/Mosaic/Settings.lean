import Mosaic.Plane.Axis
import Mosaic.Pointer.Event

/-! The settings of a layout. With a size range no region is moved below its minimum; without one
regions may collapse and the anchor's edges are not dragged. -/
namespace Mosaic

inductive SettingsError
  | negativeTolerance (value : Int)
  | negativeMinimum (axis : Axis) (value : Int)
  | malformed (reason : String)
deriving DecidableEq

def SettingsError.message : SettingsError → String
  | .negativeTolerance value => "grab tolerance must be non-negative, got " ++ toString value
  | .negativeMinimum axis value =>
    "minimum " ++ axis.extentName ++ " must be non-negative, got " ++ toString value
  | .malformed reason => "invalid tile configuration: " ++ reason

/-- The minimums of regions that have none of their own. -/
structure SizeRange where
  minWidth : Int := 4
  minHeight : Int := 4
deriving DecidableEq

def SizeRange.min (r : SizeRange) : Size := ⟨r.minWidth, r.minHeight⟩

structure Settings where
  /-- How far from an edge the pointer may be to grab it. -/
  grabTolerance : Int := 4
  sizeRange : Option SizeRange := none
  /-- A drag that is broken off is undone. -/
  restoreOnCancel : Bool := false
  dragButton : Button := .left
deriving DecidableEq

namespace Settings

/-- The first value that is out of range. -/
def fault? (s : Settings) : Option SettingsError :=
  if s.grabTolerance < 0 then some (.negativeTolerance s.grabTolerance)
  else match s.sizeRange with
    | none => none
    | some range =>
      if range.minWidth < 0 then some (.negativeMinimum .x range.minWidth)
      else if range.minHeight < 0 then some (.negativeMinimum .y range.minHeight)
      else none

def validate (s : Settings) : Except SettingsError Settings :=
  match s.fault? with
  | some e => .error e
  | none => .ok s

end Settings

end Mosaic
