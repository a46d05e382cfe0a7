import Mosaic.Format.Gesture
import Mosaic.Host

/-! The documents of calls to the host. -/
namespace Mosaic

open Json

variable (lib : Library)

namespace Notice

def all : List Notice := [.dragged, .changed]

def name : Notice → String
  | .dragged => "dragged"
  | .changed => "changed"

def toJson (n : Notice) : Value := .ofString n.name

def ofJson? : Source → Value → Option Notice := lib.choice? all name

end Notice

namespace HostCall

def toJson : HostCall → Value
  | .setBounds region bounds =>
    .ofVariant "call" "set_bounds" [("region", region.toJson), ("bounds", bounds.toJson)]
  | .setCursor cursor => .ofVariant "call" "set_cursor" [("cursor", cursor.toJson)]
  | .notify notice => .ofVariant "call" "callback" [("reason", notice.toJson)]

def ofJson? (v : Value) : Option HostCall := do
  let (name, body) ← lib.variant? "call" Value.maxDepth v
  match name with
  | "set_bounds" =>
    match ← lib.fields? [.required "region", .required "bounds"] body with
    | [some region, some bounds] =>
      return .setBounds (← RegionId.ofJson? lib region) (← Rect.ofJson? lib bounds)
    | _ => none
  | "set_cursor" =>
    match ← lib.fields? [.required "cursor"] body with
    | [some cursor] => return .setCursor (← Cursor.ofJson? lib .kept cursor)
    | _ => none
  | "callback" =>
    match ← lib.fields? [.required "reason"] body with
    | [some notice] => return .notify (← Notice.ofJson? lib .kept notice)
    | _ => none
  | _ => none

end HostCall

end Mosaic
