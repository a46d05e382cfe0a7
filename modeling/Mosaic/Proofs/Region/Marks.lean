import Mosaic.Proofs.Region.Store

/-! Marks of regions. Whatever gives regions their bounds marks those whose bounds become different, leaves the marks
that are there, and sets no others; only new regions are marked from the start. -/
namespace Mosaic

variable {W : Type} {r r' : Region W} {s s' : RegionStore W}

/-- The region is marked as it was before, or because its bounds have become different. -/
structure Region.Marked (r r' : Region W) : Prop where
  id : r'.id = r.id
  dirty : r'.dirty = true ↔ r.dirty = true ∨ r'.bounds ≠ r.bounds

theorem Region.Marked.of_eq (hid : r'.id = r.id) (hbounds : r'.bounds = r.bounds) (hdirty : r'.dirty = r.dirty) :
    r.Marked r' :=
  ⟨hid, by simp [hbounds, hdirty]⟩

theorem Region.marked_place (r : Region W) (bounds : Rect) : r.Marked (r.place bounds) := by
  unfold place
  split
  · exact .of_eq rfl rfl rfl
  · next hne => exact ⟨rfl, by simp [Ne.symm hne]⟩

namespace RegionStore

/-- Each region was there and is marked as its bounds demand, or it is new and marked. -/
def Marks (s s' : RegionStore W) : Prop :=
  ∀ r' ∈ s'.regions, r'.id ∉ s.ids ∧ r'.dirty = true ∨ ∃ r ∈ s.regions, r.Marked r'

theorem Marks.map {f : Region W → Region W} (hf : ∀ r : Region W, r.Marked (f r)) (h : s'.regions = s.regions.map f) :
    s.Marks s' := by
  intro r' hr'
  rw [h] at hr'
  obtain ⟨r, hr, rfl⟩ := List.mem_map.1 hr'
  exact .inr ⟨r, hr, hf r⟩

theorem Marks.of_map_eq (h : s'.regions.map (fun r => (r.id, r.bounds, r.dirty)) =
    s.regions.map fun r => (r.id, r.bounds, r.dirty)) : s.Marks s' := by
  intro r' hr'
  have hmem : (r'.id, r'.bounds, r'.dirty) ∈ s.regions.map fun r => (r.id, r.bounds, r.dirty) :=
    h ▸ List.mem_map_of_mem hr'
  obtain ⟨r, hr, heq⟩ := List.mem_map.1 hmem
  simp only [Prod.mk.injEq] at heq
  exact .inr ⟨r, hr, .of_eq heq.1.symm heq.2.1.symm heq.2.2.symm⟩

theorem Marks.refl (s : RegionStore W) : s.Marks s := .of_map_eq rfl

theorem marks_place (s : RegionStore W) (bs : List Rect) : s.Marks (s.place bs) := by
  suffices h : ∀ (rs : List (Region W)) bs, ∀ r' ∈ placeAll rs bs, ∃ r ∈ rs, r.Marked r' from
    fun r' hr' => .inr (h s.regions bs r' hr')
  intro rs bs
  induction rs generalizing bs with
  | nil =>
    intro r' hr'
    cases bs <;> cases hr'
  | cons r rs ih =>
    cases bs with
    | nil => exact fun r' hr' => ⟨r', hr', .of_eq rfl rfl rfl⟩
    | cons b bs =>
      intro r' hr'
      rcases List.mem_cons.1 hr' with rfl | hr'
      · exact ⟨r, List.mem_cons_self, r.marked_place b⟩
      · obtain ⟨r₀, hr₀, hmarked⟩ := ih bs r' hr'
        exact ⟨r₀, List.mem_cons_of_mem r hr₀, hmarked⟩

theorem marks_erase (s : RegionStore W) (id : RegionId) : s.Marks (s.erase id) :=
  fun r' hr' => .inr ⟨r', List.eraseP_subset hr', .of_eq rfl rfl rfl⟩

theorem marks_insert (hs : s.Sound) (widget : W) (bounds : Rect) : s.Marks (s.insert widget bounds).2 := by
  intro r' hr'
  rcases List.mem_append.1 hr' with hr' | hr'
  · exact .inr ⟨r', hr', .of_eq rfl rfl rfl⟩
  · obtain rfl := List.mem_singleton.1 hr'
    exact .inl ⟨fun hid => Nat.lt_irrefl _ (hs.below _ hid), rfl⟩

theorem dirtyIds_sublist (s : RegionStore W) : s.dirtyIds.Sublist s.ids := List.filter_sublist.map _

theorem mem_dirtyIds_iff (hnodup : s.ids.Nodup) (hr : r ∈ s.regions) : r.id ∈ s.dirtyIds ↔ r.dirty = true := by
  simp only [dirtyIds, List.mem_map, List.mem_filter]
  refine ⟨fun ⟨other, ⟨hother, hdirty⟩, hid⟩ => ?_, fun hdirty => ⟨r, ⟨hr, hdirty⟩, rfl⟩⟩
  have hfound := find?_of_nodup hnodup hother
  rw [hid, find?_of_nodup hnodup hr] at hfound
  rwa [Option.some.inj hfound]

theorem dirtyIds_clean (s : RegionStore W) : s.clean.dirtyIds = [] := by
  simp [dirtyIds, clean]

/-- A region is marked if it was, if it is new, or if its bounds have become different. -/
theorem Marks.mem_dirtyIds_iff {id : RegionId} (h : s.Marks s') (hs : s.ids.Nodup) (hs' : s'.ids.Nodup)
    (hlive : id ∈ s'.ids) :
    id ∈ s'.dirtyIds ↔ id ∈ s.dirtyIds ∨ id ∉ s.ids ∨ s'.boundsOf? id ≠ s.boundsOf? id := by
  obtain ⟨r', hr', rfl⟩ := List.mem_map.1 hlive
  rw [RegionStore.mem_dirtyIds_iff hs' hr']
  rcases h r' hr' with ⟨hnew, hdirty⟩ | ⟨r, hr, hid, hdirty⟩
  · exact iff_of_true hdirty (.inr (.inl hnew))
  · have hold : r.id ∈ s.ids := List.mem_map_of_mem hr
    rw [boundsOf?_of_mem hs' hr', hid, boundsOf?_of_mem hs hr, RegionStore.mem_dirtyIds_iff hs hr, hdirty]
    simp [hold]

end RegionStore

end Mosaic
