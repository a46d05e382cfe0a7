import Mosaic.Edge.Grasp
import Mosaic.Json.Library

/-! The documents of axes, points, rectangles, grips and cursors. -/
namespace Mosaic

open Json

variable (lib : Library)

namespace Axis

def name : Axis → String
  | .x => "x"
  | .y => "y"

def toJson (a : Axis) : Value := .ofString a.name

def ofJson? : Value → Option Axis := lib.choice? all name .direct

end Axis

namespace Point

def toJson (p : Point) : Value := .fields [("x", .ofInt p.x), ("y", .ofInt p.y)]

def ofJson? (v : Value) : Option Point := do
  match ← lib.fields? [.required "x", .required "y"] v with
  | [some x, some y] => return ⟨← lib.coord? x, ← lib.coord? y⟩
  | _ => none

end Point

namespace Size

def toJson (s : Size) : Value := .fields [("width", .ofInt s.width), ("height", .ofInt s.height)]

def ofJson? (v : Value) : Option Size := do
  match ← lib.fields? [.required "width", .required "height"] v with
  | [some w, some h] => return ⟨← lib.coord? w, ← lib.coord? h⟩
  | _ => none

end Size

namespace Rect

def toJson (r : Rect) : Value :=
  .fields [
    ("x", .ofInt r.x), ("y", .ofInt r.y), ("width", .ofInt r.width), ("height", .ofInt r.height)]

/-- Negative extents are read as they stand. -/
def ofJson? (v : Value) : Option Rect := do
  let declared := [.required "x", .required "y", .required "width", .required "height"]
  match ← lib.fields? declared v with
  | [some x, some y, some w, some h] =>
    return ⟨← lib.coord? x, ← lib.coord? y, ← lib.coord? w, ← lib.coord? h⟩
  | _ => none

end Rect

namespace Grip

def toJson (g : Grip) : Value := .fields [("x", .ofOption .ofInt g.x), ("y", .ofOption .ofInt g.y)]

def ofJson? (v : Value) : Option Grip := do
  match ← lib.fields? [.optional "x", .optional "y"] v with
  | [x, y] => return ⟨← x.mapM lib.coord?, ← y.mapM lib.coord?⟩
  | _ => .none

end Grip

namespace GripKind

def all : List GripKind := [.none, .horizontal, .vertical, .corner]

def name : GripKind → String
  | .none => "none"
  | .horizontal => "horizontal"
  | .vertical => "vertical"
  | .corner => "corner"

def toJson (k : GripKind) : Value := .ofString k.name

def ofJson? : Source → Value → Option GripKind := lib.choice? all name

end GripKind

namespace Cursor

def all : List Cursor := [.default, .resizeH, .resizeV, .move]

def name : Cursor → String
  | .default => "default"
  | .resizeH => "resize_h"
  | .resizeV => "resize_v"
  | .move => "move"

def toJson (c : Cursor) : Value := .ofString c.name

def ofJson? : Source → Value → Option Cursor := lib.choice? all name

end Cursor

namespace Grasp

def toJson (g : Grasp) : Value :=
  .fields [("old", g.grip.toJson), ("offset", g.offset.toJson), ("cursor", g.kind.toJson)]

def ofJson? (source : Source) (v : Value) : Option Grasp := do
  match ← lib.fields? [.required "old", .required "offset", .required "cursor"] v with
  | [some grip, some offset, some kind] =>
    return ⟨← Grip.ofJson? lib grip, ← Point.ofJson? lib offset, ← GripKind.ofJson? lib source kind⟩
  | _ => none

end Grasp

end Mosaic
