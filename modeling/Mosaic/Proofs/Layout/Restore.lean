import Mosaic.Proofs.Cover.Clean
import Mosaic.Proofs.Layout.Geometry

/-! What a restored snapshot leaves. The check looks at all items, while a region takes on the first item
with its identifier, so the check speaks about the regions only where no identifier is repeated. -/
namespace Mosaic.Layout

variable {W : Type} {l : Layout W} {s : Snapshot} {o : Outcome W (Except LayoutError (List RegionId))}
  {changed : List RegionId}

def itemBounds (s : Snapshot) (id : RegionId) : Rect := ((s.item? id).map (·.bounds)).getD .zero

theorem bounds_withSnapshot (h : ∀ id ∈ l.store.ids, ∃ i, s.item? id = some i) :
    (l.withSnapshot s).store.bounds = l.store.ids.map (itemBounds s) := by
  simp only [withSnapshot, RegionStore.bounds, RegionStore.ids, List.map_map]
  refine List.map_congr_left fun r hr => ?_
  obtain ⟨i, hi⟩ := h r.id (List.mem_map_of_mem hr)
  simp only [Function.comp, restoreRegion, itemBounds, hi, Option.map_some, Option.getD_some,
    Region.bounds_place]

theorem bounds_withSnapshot_perm (hl : l.store.ids.Nodup) (hs : (s.items.map (·.id)).Nodup)
    (h : l.mismatch? s = none) :
    (s.items.map (·.bounds)).Perm (l.withSnapshot s).store.bounds := by
  obtain ⟨-, hlive, hnamed, -⟩ := mismatch?_eq_none_iff.1 h
  have hids : (s.items.map (·.id)).Perm l.store.ids := by
    refine (List.perm_ext_iff_of_nodup hs hl).2 fun id => ⟨fun hid => ?_, fun hid => ?_⟩
    · obtain ⟨i, hi, rfl⟩ := List.mem_map.1 hid
      exact hlive i hi
    · obtain ⟨i, hi⟩ := hnamed id hid
      have hname := List.find?_some hi
      exact List.mem_map.2 ⟨i, List.mem_of_find?_eq_some hi, of_decide_eq_true hname⟩
  have hitems : s.items.map (·.bounds) = (s.items.map (·.id)).map (itemBounds s) := by
    rw [List.map_map]
    refine List.map_congr_left fun i hi => ?_
    simp only [Function.comp, itemBounds, Snapshot.item?, find?_of_nodup hs hi, Option.map_some, Option.getD_some]
  rw [hitems, bounds_withSnapshot hnamed]
  exact hids.map _

theorem rects_placements (l : Layout W) : Cover.rects l.placements = l.store.bounds := by
  simp only [Cover.rects, placements, RegionStore.bounds, List.map_map]
  rfl

theorem report_of_fills (hne : l.store.regions ≠ []) (hsharp : ∀ r ∈ l.store.bounds, r.Sharp)
    (h : Rect.Fills l.bounds l.store.bounds) : ∃ report, l.report = .ok report ∧ report.ClearsCover := by
  rw [← rects_placements] at hsharp h
  have hplaced : l.placements ≠ [] := fun hnil => hne (List.map_eq_nil_iff.1 hnil)
  obtain ⟨report, hreport⟩ := Cover.exists_check l.bounds hplaced hsharp
    (h.hull.spanned hsharp) (h.area ▸ Area.fits_area h.hull.sharp.fits h.hull.sharp.proper)
  exact ⟨report, hreport, (Cover.clearsCover_iff_fills hplaced hsharp hreport).2 h⟩

/-- The items that an accepted check has seen fill the container. -/
theorem fills_of_check {report : Report} (hne : s.items ≠ []) (hsharp : ∀ i ∈ s.items, i.bounds.Sharp)
    (hcheck : Cover.check s.container (s.items.map fun i => { id := i.id, bounds := i.bounds }) = .ok report)
    (hclear : ¬ report.HasErrors) : Rect.Fills s.container (s.items.map (·.bounds)) := by
  have hrects : Cover.rects (s.items.map fun i => { id := i.id, bounds := i.bounds }) =
      s.items.map (·.bounds) := by
    rw [Cover.rects, List.map_map]
    rfl
  rw [← hrects]
  refine (Cover.hasErrors_iff_fills (fun hnil => hne (List.map_eq_nil_iff.1 hnil)) ?_ ?_ hcheck).1 hclear
  · rw [hrects]
    exact List.forall_mem_map.2 hsharp
  · -- The check is told no minimums.
    intro p hp min hmin
    obtain ⟨i, -, rfl⟩ := List.mem_map.1 hp
    cases hmin

/-- A snapshot without repeated identifiers that is accepted leaves regions that cover the container
exactly, and the report on them has nothing to say about where they lie. -/
theorem restore_tile (hl : l.store.ids.Nodup) (hne : l.store.regions ≠ [])
    (hs : (s.items.map (·.id)).Nodup) (hsharp : ∀ i ∈ s.items, i.bounds.Sharp)
    (h : l.restore s = .ok o) (hvalue : o.value = .ok changed) :
    o.layout.bounds.Tile o.layout.store.bounds ∧
      ∃ report, o.layout.report = .ok report ∧ report.ClearsCover := by
  obtain ⟨hmismatch, hlayout, -, report, hcheck, hclear⟩ := restore_accepts h hvalue
  have hperm := bounds_withSnapshot_perm hl hs hmismatch
  have hregions : (l.withSnapshot s).store.regions ≠ [] := fun hnil => hne (List.map_eq_nil_iff.1 hnil)
  have hitems : s.items ≠ [] := by
    intro hnil
    rw [hnil] at hperm
    exact hregions (List.map_eq_nil_iff.1 (List.nil_perm.1 hperm))
  have hfills : Rect.Fills (l.withSnapshot s).bounds (l.withSnapshot s).store.bounds :=
    (fills_of_check hitems hsharp hcheck hclear).perm hperm
  have hedges : ∀ r ∈ (l.withSnapshot s).store.bounds, r.Sharp := fun r hr =>
    List.forall_mem_map.2 hsharp r (hperm.mem_iff.2 hr)
  rw [hlayout]
  exact ⟨hfills.tile hedges, report_of_fills hregions hedges hfills⟩

def pair : Layout Unit where
  bounds := ⟨0, 0, 100, 100⟩
  store := {
    regions := [{ id := ⟨1⟩, widget := (), bounds := ⟨0, 0, 50, 100⟩ },
      { id := ⟨2⟩, widget := (), bounds := ⟨50, 0, 50, 100⟩ }]
    next := 3 }

/-- The columns in another container, and in the reverse order. -/
def swapped : Snapshot where
  container := ⟨5, 5, 80, 90⟩
  items := [{ id := ⟨2⟩, bounds := ⟨5, 5, 20, 90⟩ }, { id := ⟨1⟩, bounds := ⟨25, 5, 60, 90⟩ }]

theorem restore_tile_swapped : ∃ o, pair.restore swapped = .ok o ∧ o.value = .ok [⟨1⟩, ⟨2⟩] ∧
    o.layout.store.bounds = [⟨25, 5, 60, 90⟩, ⟨5, 5, 20, 90⟩] ∧
      o.layout.bounds.Tile o.layout.store.bounds := by
  obtain ⟨o, h, hvalue, hbounds⟩ : ∃ o, pair.restore swapped = .ok o ∧ o.value = .ok [⟨1⟩, ⟨2⟩] ∧
    o.layout.store.bounds = [⟨25, 5, 60, 90⟩, ⟨5, 5, 20, 90⟩] := ⟨_, rfl, rfl, by decide⟩
  exact ⟨o, h, hvalue, hbounds, (restore_tile (by decide) (by decide) (by decide) (by decide) h hvalue).1⟩

/-- The items cover the container, but the first region is named twice, and the second item for it
stands where the other region would have to be. -/
def repeated : Snapshot where
  container := ⟨0, 0, 100, 100⟩
  items := [{ id := ⟨1⟩, bounds := ⟨0, 0, 50, 100⟩ }, { id := ⟨1⟩, bounds := ⟨50, 0, 50, 100⟩ },
    { id := ⟨2⟩, bounds := .zero }]

/-- A snapshot that repeats an identifier is accepted and leaves half of the container uncovered. -/
theorem not_tile_of_repeated : pair.bounds.Tile pair.store.bounds ∧ ∃ o changed,
    pair.restore repeated = .ok o ∧ o.value = .ok changed ∧ ¬ o.layout.bounds.Tile o.layout.store.bounds ∧
      ∃ report, o.layout.report = .ok report ∧ report.HasErrors := by
  have htile : pair.bounds.Tile pair.store.bounds :=
    Rect.tile_beside .x (by decide) ⟨⟨rfl, rfl⟩, ⟨rfl, rfl⟩⟩ rfl rfl rfl
  refine ⟨htile, _, _, rfl, rfl, fun ht => ?_, _, rfl, ?_⟩
  · exact absurd (ht.2 ⟨50, 0⟩ (by decide)) (by decide)
  · decide

end Mosaic.Layout
