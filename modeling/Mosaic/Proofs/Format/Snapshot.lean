import Mosaic.Format.Snapshot
import Mosaic.Proofs.Format.Plane
import Mosaic.Proofs.Json.Standard

/-! A snapshot is read back from what is written for it, as long as its numbers are in the ranges of their types. Sizes
that are left out are found to be missing. -/
namespace Mosaic

open Json

variable {lib : Library} (hlib : lib.Lawful) {room : Nat}

namespace RegionId

theorem isNull_toJson (id : RegionId) : id.toJson.isNull = false := rfl

include hlib in
theorem ofJson?_toJson {id : RegionId} (h : id.number ≤ last) : ofJson? lib id.toJson = some id := by
  rw [ofJson?, toJson, hlib.natUpTo?_ofInt h (by decide)]
  rfl

theorem plain_toJson {id : RegionId} (h : id.number ≤ last) : id.toJson.Plain room := Value.plain_ofNat h

end RegionId

namespace Snapshot

structure Item.Fits (i : Item) : Prop where
  id : i.id.number ≤ RegionId.last
  bounds : i.bounds.Fits
  minSize : ∀ s ∈ i.minSize, s.Fits
  maxSize : ∀ s ∈ i.maxSize, s.Fits

include hlib in
theorem Item.fields?_toJson (i : Item) :
    lib.fields? [.required "id", .required "bounds", .omittable "min_size", .omittable "max_size"] i.toJson =
      some [some i.id.toJson, some i.bounds.toJson, i.minSize.map Size.toJson, i.maxSize.map Size.toJson] := by
  obtain ⟨id, bounds, minSize, maxSize⟩ := i
  cases minSize <;> cases maxSize <;>
    simp [toJson, hlib.fields?_fields, List.lookup_cons, Field.take?, Size.isNull_toJson]

include hlib in
theorem Item.ofJson?_toJson {i : Item} (h : i.Fits) : ofJson? lib i.toJson = some i := by
  have hmin : (i.minSize.map Size.toJson).mapM (Size.ofJson? lib) = some i.minSize :=
    mapM_map fun s hs => Size.ofJson?_toJson hlib (h.minSize s hs)
  have hmax : (i.maxSize.map Size.toJson).mapM (Size.ofJson? lib) = some i.maxSize :=
    mapM_map fun s hs => Size.ofJson?_toJson hlib (h.maxSize s hs)
  simp [ofJson?, Item.fields?_toJson hlib, RegionId.ofJson?_toJson hlib h.id, Rect.ofJson?_toJson hlib h.bounds, hmin,
    hmax]

theorem Item.plain_toJson {i : Item} (h : i.Fits) : i.toJson.Plain (room + 2) := by
  refine .fields ?_ fun e he => ?_
  · obtain ⟨id, bounds, minSize, maxSize⟩ := i
    cases minSize <;> cases maxSize <;> simp
  · simp only [List.mem_append, List.mem_map, Option.mem_toList, List.mem_cons, List.not_mem_nil, or_false] at he
    obtain ((rfl | rfl) | ⟨s, hs, rfl⟩) | ⟨s, hs, rfl⟩ := he
    · exact RegionId.plain_toJson h.id
    · exact Rect.plain_toJson h.bounds
    · exact Size.plain_toJson (h.minSize s hs)
    · exact Size.plain_toJson (h.maxSize s hs)

/-- The numbers of a snapshot are in the ranges of their types. Nothing is said about which regions it names, or how
often. -/
structure Fits (s : Snapshot) : Prop where
  version : s.version ≤ lastVersion
  container : s.container.Fits
  anchor : ∀ id ∈ s.anchor, id.number ≤ RegionId.last
  items : ∀ i ∈ s.items, i.Fits

include hlib in
theorem ofJson?_toJson {s : Snapshot} (h : s.Fits) : ofJson? lib s.toJson = some s := by
  have hanchor : (s.anchor.map RegionId.toJson).mapM (RegionId.ofJson? lib) = some s.anchor :=
    mapM_map fun id hid => RegionId.ofJson?_toJson hlib (h.anchor id hid)
  have hitems : lib.list? (Item.ofJson? lib) (.list (s.items.map Item.toJson)) = some s.items :=
    hlib.list?_map fun i hi => Item.ofJson?_toJson hlib (h.items i hi)
  simp [ofJson?, toJson, hlib.fields?_fields, List.lookup_cons, hlib.natUpTo?_ofInt h.version (by decide),
    Rect.ofJson?_toJson hlib h.container, Field.take?_omittable RegionId.isNull_toJson, hanchor, hitems]

theorem plain_toJson {s : Snapshot} (h : s.Fits) : s.toJson.Plain (room + 4) := by
  have hanchor : (Value.ofOption RegionId.toJson s.anchor).Plain (room + 3) :=
    Value.plain_ofOption fun id hid => RegionId.plain_toJson (h.anchor id hid)
  have hitems : (Value.list (s.items.map Item.toJson)).Plain (room + 3) :=
    .list (List.forall_mem_map.2 fun i hi => Item.plain_toJson (h.items i hi))
  exact .fields (by simp) (by simp [Rect.plain_toJson h.container, hanchor, hitems,
    Value.plain_ofNat (Nat.le_trans h.version (by decide))])

/-- Whatever library is used, as long as it keeps the laws, a text is written for every snapshot, and the snapshot is
read back from it. -/
theorem parse_render (hlib : lib.Lawful) {s : Snapshot} (h : s.Fits) :
    ∃ text, s.render lib = .ok text ∧ parse lib text = .ok s := by
  obtain ⟨text, hwritten, hread⟩ := hlib.exists_compact (plain_toJson h) (ofJson?_toJson hlib h)
  exact ⟨text, by rw [render, hwritten]; rfl, by rw [parse, hread]⟩

/-- Numbers at the ends of their ranges and a region that is named twice, once without sizes. -/
theorem parse_render_ends :
    let s : Snapshot := {
      version := 65535
      container := ⟨-2147483648, 2147483647, -1, 0⟩
      anchor := some ⟨18446744073709551615⟩
      items := [⟨⟨0⟩, ⟨0, 0, 2147483647, -2147483648⟩, none, some ⟨-5, 7⟩⟩,
        ⟨⟨18446744073709551615⟩, .zero, some ⟨0, 0⟩, some ⟨2147483647, -2147483648⟩⟩, ⟨⟨0⟩, .zero, none, none⟩] }
    Library.standard.Lawful ∧ s.Fits ∧ ∃ text, s.render .standard = .ok text ∧ parse .standard text = .ok s := by
  intro s
  have hfits : s.Fits := by
    refine ⟨by decide, by decide, by decide, fun i hi => ?_⟩
    simp only [s, List.mem_cons, List.not_mem_nil, or_false] at hi
    obtain rfl | rfl | rfl := hi
    · exact ⟨by decide, by decide, nofun, fun _ hs => Option.mem_some.1 hs ▸ ⟨by decide, by decide⟩⟩
    · exact ⟨by decide, by decide, fun _ hs => Option.mem_some.1 hs ▸ ⟨by decide, by decide⟩,
        fun _ hs => Option.mem_some.1 hs ▸ ⟨by decide, by decide⟩⟩
    · exact ⟨by decide, by decide, nofun, nofun⟩
  exact ⟨Library.standard_lawful, hfits, parse_render Library.standard_lawful hfits⟩

end Snapshot

end Mosaic
