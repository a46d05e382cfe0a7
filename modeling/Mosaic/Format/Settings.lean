import Mosaic.Json.Library
import Mosaic.Settings

/-! The documents of settings. Any field can be left out and then has its default value. -/
namespace Mosaic

open Json

variable (lib : Library)

namespace Button

def all : List Button := [.left, .right, .middle]

def name : Button → String
  | .left => "left"
  | .right => "right"
  | .middle => "middle"

def toJson (b : Button) : Value := .ofString b.name

def ofJson? : Value → Option Button := lib.choice? all name .direct

end Button

namespace SizeRange

def toJson (r : SizeRange) : Value :=
  .fields [("default_min_width", .ofInt r.minWidth), ("default_min_height", .ofInt r.minHeight)]

def ofJson? (v : Value) : Option SizeRange := do
  match ← lib.fields? [.defaulted "default_min_width", .defaulted "default_min_height"] v with
  | [w, h] => return ⟨← w.elim (some 4) lib.coord?, ← h.elim (some 4) lib.coord?⟩
  | _ => none

end SizeRange

namespace Settings

def toJson (s : Settings) : Value :=
  .fields [
    ("grab_tolerance", .ofInt s.grabTolerance),
    ("size_range", .ofOption SizeRange.toJson s.sizeRange),
    ("restore_on_cancel", .bool s.restoreOnCancel),
    ("drag_button", s.dragButton.toJson)]

def ofJson? (v : Value) : Option Settings := do
  let declared :=
    [.defaulted "grab_tolerance", .omittable "size_range", .defaulted "restore_on_cancel",
      .defaulted "drag_button"]
  match ← lib.fields? declared v with
  | [tolerance, range, restore, button] =>
    return {
      grabTolerance := ← tolerance.elim (some 4) lib.coord?
      sizeRange := ← range.mapM (SizeRange.ofJson? lib)
      restoreOnCancel := ← restore.elim (some false) lib.bool?
      dragButton := ← button.elim (some .left) (Button.ofJson? lib) }
  | _ => none

/-- The settings as an indented text. They are written whether they are valid or not. -/
def render (s : Settings) : Except SettingsError String := (lib.pretty s.toJson).mapError .malformed

def parse (text : String) : Except SettingsError Settings :=
  match (lib.parse? text).bind (ofJson? lib) with
  | some s => s.validate
  | none => .error (.malformed (lib.reason "settings" text))

end Settings

end Mosaic
