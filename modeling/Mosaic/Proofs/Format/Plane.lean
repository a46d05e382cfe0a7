import Mosaic.Format.Plane
import Mosaic.Proofs.Json.Library
import Mosaic.Proofs.Plane.Span

/-! Points, sizes, rectangles and grips are read back from what is written for them, as long as their numbers are
coordinates. As parts of variants they take up some levels of nesting. -/
namespace Mosaic

open Json

variable {lib : Library} (hlib : lib.Lawful) {room : Nat}

namespace Point

structure Fits (p : Point) : Prop where
  x : Coord.Fits p.x
  y : Coord.Fits p.y

include hlib in
theorem ofJson?_toJson {p : Point} (h : p.Fits) : ofJson? lib p.toJson = some p := by
  simp [ofJson?, toJson, hlib.fields?_fields, List.lookup_cons, hlib.coord?_ofInt h.x, hlib.coord?_ofInt h.y]

theorem plain_toJson {p : Point} (h : p.Fits) : p.toJson.Plain (room + 1) :=
  .fields (by simp) (by simp [Value.plain_coord h.x, Value.plain_coord h.y])

end Point

namespace Size

structure Fits (s : Size) : Prop where
  width : Coord.Fits s.width
  height : Coord.Fits s.height

theorem isNull_toJson (s : Size) : s.toJson.isNull = false := rfl

include hlib in
theorem ofJson?_toJson {s : Size} (h : s.Fits) : ofJson? lib s.toJson = some s := by
  simp [ofJson?, toJson, hlib.fields?_fields, List.lookup_cons, hlib.coord?_ofInt h.width,
    hlib.coord?_ofInt h.height]

theorem plain_toJson {s : Size} (h : s.Fits) : s.toJson.Plain (room + 1) :=
  .fields (by simp) (by simp [Value.plain_coord h.width, Value.plain_coord h.height])

end Size

namespace Rect

include hlib in
theorem ofJson?_toJson {r : Rect} (h : r.Fits) : ofJson? lib r.toJson = some r := by
  obtain ⟨hx, hy, hwidth, hheight⟩ := h
  simp [ofJson?, toJson, hlib.fields?_fields, List.lookup_cons, hlib.coord?_ofInt hx, hlib.coord?_ofInt hy,
    hlib.coord?_ofInt hwidth, hlib.coord?_ofInt hheight]

theorem plain_toJson {r : Rect} (h : r.Fits) : r.toJson.Plain (room + 1) := by
  obtain ⟨hx, hy, hwidth, hheight⟩ := h
  exact .fields (by simp) (by simp [Value.plain_coord hx, Value.plain_coord hy, Value.plain_coord hwidth,
    Value.plain_coord hheight])

end Rect

namespace Grip

/-- The lines that are held are at coordinates. -/
structure Fits (g : Grip) : Prop where
  x : ∀ line ∈ g.x, Coord.Fits line
  y : ∀ line ∈ g.y, Coord.Fits line

theorem isNull_toJson (g : Grip) : g.toJson.isNull = false := rfl

include hlib in
theorem ofJson?_toJson {g : Grip} (h : g.Fits) : ofJson? lib g.toJson = some g := by
  have hx : (g.x.map Value.ofInt).mapM lib.coord? = some g.x :=
    mapM_map fun line hline => hlib.coord?_ofInt (h.x line hline)
  have hy : (g.y.map Value.ofInt).mapM lib.coord? = some g.y :=
    mapM_map fun line hline => hlib.coord?_ofInt (h.y line hline)
  simp [ofJson?, toJson, hlib.fields?_fields, List.lookup_cons, Field.take?_optional Value.isNull_ofInt,
    hx, hy]

theorem plain_toJson {g : Grip} (h : g.Fits) : g.toJson.Plain (room + 1) := by
  have hx : (Value.ofOption .ofInt g.x).Plain room :=
    Value.plain_ofOption fun line hline => Value.plain_coord (h.x line hline)
  have hy : (Value.ofOption .ofInt g.y).Plain room :=
    Value.plain_ofOption fun line hline => Value.plain_coord (h.y line hline)
  exact .fields (by simp) (by simp [hx, hy])

end Grip

namespace GripKind

include hlib in
theorem ofJson?_toJson (k : GripKind) (source : Source) : ofJson? lib source k.toJson = some k :=
  hlib.choice?_ofString (by decide) (by cases k <;> decide) source

end GripKind

namespace Cursor

include hlib in
theorem ofJson?_toJson (c : Cursor) (source : Source) : ofJson? lib source c.toJson = some c :=
  hlib.choice?_ofString (by decide) (by cases c <;> decide) source

end Cursor

namespace Grasp

structure Fits (g : Grasp) : Prop where
  grip : g.grip.Fits
  offset : g.offset.Fits

include hlib in
theorem ofJson?_toJson {g : Grasp} (h : g.Fits) (source : Source) : ofJson? lib source g.toJson = some g := by
  simp [ofJson?, toJson, hlib.fields?_fields, List.lookup_cons, Grip.ofJson?_toJson hlib h.grip,
    Point.ofJson?_toJson hlib h.offset, GripKind.ofJson?_toJson hlib]

theorem plain_toJson {g : Grasp} (h : g.Fits) : g.toJson.Plain (room + 2) :=
  .fields (by simp) (by simp [Grip.plain_toJson h.grip, Point.plain_toJson h.offset, GripKind.toJson,
    Value.Plain.string])

end Grasp

end Mosaic
