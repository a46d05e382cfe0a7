import Mosaic.Json.Standard
import Mosaic.Proofs.Cover.Answer
import Mosaic.Proofs.Format.Range
import Mosaic.Proofs.Layout.Refused

/-! When restoring a snapshot is answered at all. A snapshot that names other regions is refused before its items
are measured. Where it names those that are there, its items are measured before any of them is known to lie in the
container, and items too far apart, or too large together, are more than can be measured. -/
namespace Mosaic

/-- The items can be joined, and the areas of the first of them, however many, are not too much. -/
structure Snapshot.Measurable (s : Snapshot) : Prop where
  joinable : Rect.Joinable (s.items.map (·.bounds))
  areas : ∀ ps, ps <+: s.items.map (·.bounds) → Area.Fits (ps.map (·.area)).sum

namespace Layout

variable {W : Type} {l : Layout W} {s : Snapshot}

theorem rects_snapshot_placements (s : Snapshot) : Cover.rects s.placements = s.items.map (·.bounds) := by
  rw [Cover.rects, Snapshot.placements, List.map_map]
  rfl

theorem exists_check_items_iff (hfits : ∀ i ∈ s.items, i.bounds.Fits) :
    (∃ report, Cover.check s.container s.placements = .ok report) ↔ s.Measurable := by
  have hrects : ∀ r ∈ Cover.rects s.placements, r.Fits := by
    rw [rects_snapshot_placements]
    exact List.forall_mem_map.2 hfits
  rw [Cover.exists_check_iff hrects, rects_snapshot_placements]
  exact ⟨fun ⟨hjoinable, hareas⟩ => ⟨hjoinable, hareas⟩, fun h => ⟨h.joinable, h.areas⟩⟩

/-- Restoring a snapshot that some library read from a text is answered, whether it is restored or refused, exactly where it
does not belong to the layout or can be measured. -/
theorem exists_restore_iff {lib : Json.Library} {text : String} (h : Snapshot.parse lib text = .ok s) :
    (∃ answer, l.restore s = .ok answer) ↔ (s.Belongs l → s.Measurable) := by
  rw [restore_answers_iff, exists_check_items_iff (Snapshot.fits_of_parse h)]

/-- The second column starts too far past the first one. -/
def farApart : Snapshot where
  container := ⟨0, 0, 100, 100⟩
  items := [{ id := ⟨1⟩, bounds := ⟨-2000000000, 0, 50, 100⟩ }, { id := ⟨2⟩, bounds := ⟨1000000000, 0, 50, 100⟩ }]

set_option maxRecDepth 4000 in
theorem parse_farApart : Snapshot.parse .standard
    "[1,[0,0,100,100],null,[[1,[-2000000000,0,50,100]],[2,[1000000000,0,50,100]]]]" = .ok farApart := by
  rfl

theorem exists_restore_iff_farApart : Snapshot.parse .standard
      "[1,[0,0,100,100],null,[[1,[-2000000000,0,50,100]],[2,[1000000000,0,50,100]]]]" = .ok farApart ∧
    farApart.Belongs pair ∧ ¬ farApart.Measurable := by
  refine ⟨parse_farApart, belongs_iff.2 rfl, fun hmeasurable => ?_⟩
  obtain ⟨answer, hanswer⟩ := (exists_restore_iff (l := pair) parse_farApart).2 fun _ => hmeasurable
  have herror : pair.restore farApart = .error .sub := rfl
  rw [herror] at hanswer
  cases hanswer

/-- Two of three items of the largest area there is are not too much, three are. -/
def immense : Snapshot where
  container := ⟨0, 0, 2147483647, 2147483647⟩
  items := [{ id := ⟨1⟩, bounds := ⟨0, 0, 2147483647, 2147483647⟩ },
    { id := ⟨2⟩, bounds := ⟨0, 0, 2147483647, 2147483647⟩ }, { id := ⟨1⟩, bounds := ⟨0, 0, 2147483647, 2147483647⟩ }]

/-- There is no answer to snapshots of a layout's own regions where their distance, or all their areas together,
cannot be told, though the layout has valid settings and its regions cover its container. -/
theorem not_exists_restore : pair.settings.validate = .ok pair.settings ∧ pair.bounds.Tile pair.store.bounds ∧
    (∃ s, Snapshot.parse .standard "[1,[0,0,100,100],null,[[1,[-2000000000,0,50,100]],[2,[1000000000,0,50,100]]]]" = .ok s ∧
      pair.restore s = .error .sub) ∧
    pair.restore immense = .error .add :=
  ⟨rfl, Rect.tile_beside .x (by decide) ⟨⟨rfl, rfl⟩, ⟨rfl, rfl⟩⟩ rfl rfl rfl, ⟨farApart, parse_farApart, rfl⟩, rfl⟩

end Layout

end Mosaic
