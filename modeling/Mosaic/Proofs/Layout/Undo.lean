import Mosaic.Proofs.Layout.Regions
import Mosaic.Proofs.Layout.Staged

/-! Going back to a snapshot. Whatever is done to a layout, as long as the same regions are in it a
snapshot of an exact cover is accepted, and then the layout has the geometry it had. -/
namespace Mosaic.Layout

variable {W : Type} {l l' : Layout W} {ops : List (Operation W)}

theorem boundsOf?_eq (l : Layout W) (id : RegionId) :
    l.store.boundsOf? id = (l.snapshot.item? id).map (·.bounds) := by
  rw [RegionStore.boundsOf?, RegionStore.get?, Snapshot.item?, snapshot, List.find?_map, Option.map_map]
  rfl

section

variable (hnodup : l.store.ids.Nodup) (hanchor : ∀ id, l.anchor = some id → id ∈ l.store.ids)
  (hcontainer : l.bounds.Solid) (hsharp : ∀ r ∈ l.store.bounds, r.Sharp)
  (ht : l.bounds.Tile l.store.bounds)
include hnodup hanchor hcontainer hsharp ht

/-- A snapshot of an exact cover is accepted wherever the same regions are. -/
theorem exists_restore (hids : l'.store.ids = l.store.ids) :
    ∃ back changed, l'.restore l.snapshot = .ok back ∧ back.value = .ok changed := by
  have hfits : l'.mismatch? l.snapshot = none := by
    have hnamed : ∀ i ∈ l.snapshot.items, l.snapshot.item? i.id = some i := fun i hi =>
      find?_of_nodup (l.snapshot_ids ▸ hnodup) hi
    rw [mismatch?_eq_none_iff, hids]
    refine ⟨rfl, fun i hi => ?_, fun id hid => ?_, hanchor⟩
    · rw [← snapshot_ids]
      exact List.mem_map_of_mem hi
    · rw [← snapshot_ids] at hid
      obtain ⟨i, hi, rfl⟩ := List.mem_map.1 hid
      exact ⟨i, hnamed i hi⟩
  let placements : List Placement := l.snapshot.items.map fun i => { id := i.id, bounds := i.bounds }
  have hplaced : placements.map (·.bounds) = l.store.bounds := by
    rw [List.map_map]
    exact l.snapshot_bounds
  have hmin : ∀ p ∈ placements, p.min = none := List.forall_mem_map.2 fun _ _ => rfl
  obtain ⟨report, hcheck, hclear⟩ := Cover.check_of_tile_unlimited hcontainer ht hsharp hplaced hmin
  let changed := (l'.withSnapshot l.snapshot).store.changedSince l'.store.bounds
  refine ⟨{
    value := .ok changed
    layout := l'.withSnapshot l.snapshot
    journal := [{ note := .restored l.snapshot.fingerprint changed.length }] }, changed, ?_, rfl⟩
  rw [restore, hfits]
  change (Cover.check l.bounds placements >>= _) = _
  rw [hcheck]
  exact if_neg hclear

/-- Whatever is done to an exact cover without adding or removing regions, its snapshot is accepted
afterwards. The answer names the regions whose bounds were no longer those of the snapshot, and the
layout has the geometry of the snapshot again. -/
theorem restore_run (hops : ∀ op ∈ ops, op.KeepsRegions) {o : Outcome W Unit} (h : l.run ops = .ok o) :
    ∃ back, o.layout.restore l.snapshot = .ok back ∧
      back.value = .ok (o.layout.store.ids.filter fun id =>
        o.layout.store.boundsOf? id ≠ (l.snapshot.item? id).map (·.bounds)) ∧
      back.layout.snapshot = l.snapshot := by
  have hids := (SameRegions.run hops h).ids
  obtain ⟨back, changed, hback, hvalue⟩ := exists_restore hnodup hanchor hcontainer hsharp ht hids
  obtain ⟨-, hlayout, hchanged⟩ := restore_eq_ok hback hvalue
  have hsnapshot : back.layout.snapshot = l.snapshot := by
    rw [hlayout]
    exact snapshot_withSnapshot rfl (l.snapshot_ids.trans hids.symm) (hids ▸ hnodup)
  refine ⟨back, hback, ?_, hsnapshot⟩
  rw [hvalue, hchanged, RegionStore.changedSince_eq (SameRegions.restore hback).ids (hids ▸ hnodup)]
  refine congrArg Except.ok (List.filter_congr fun id _ => ?_)
  rw [boundsOf?_eq back.layout, hsnapshot]
  exact decide_eq_decide.2 ne_comm

end

/-- All of what a snapshot holds is changed. -/
def reworking : List (Operation Unit) :=
  [.move (.vertical 10) ⟨28, 0⟩, .clearAnchor, .setMinSize ⟨2⟩ ⟨3, 3⟩, .setMaxSize ⟨1⟩ ⟨9, 9⟩,
    .disableSizeRange, .resize ⟨5, 5, 40, 8⟩, .takeDirty]

theorem restore_run_folded : ∃ o back, folded.run reworking = .ok o ∧
    o.layout.store.bounds = [⟨5, 5, 24, 8⟩, ⟨29, 5, 0, 8⟩, ⟨29, 5, 16, 8⟩] ∧
      o.layout.restore folded.snapshot = .ok back ∧ back.value = .ok [⟨1⟩, ⟨2⟩, ⟨4⟩] ∧
      back.layout.snapshot = folded.snapshot := by
  obtain ⟨o, h, hbounds⟩ : ∃ o, folded.run reworking = .ok o ∧
    o.layout.store.bounds = [⟨5, 5, 24, 8⟩, ⟨29, 5, 0, 8⟩, ⟨29, 5, 16, 8⟩] := ⟨_, rfl, by decide⟩
  obtain ⟨back, hback, hchanged, hsnapshot⟩ := restore_run (by decide) (by decide) (by decide) (by decide)
    Scene.foldedColumn_tile (by simp [reworking, Operation.KeepsRegions]) h
  refine ⟨o, back, h, hbounds, hback, ?_, hsnapshot⟩
  obtain rfl : o = _ := (Except.ok.inj h).symm
  rw [hchanged]
  decide

/-- Covers can be gone back to, where starts are what is asked of them besides. -/
def Returns (Start : Layout Unit → Prop) : Prop :=
  ∀ (l : Layout Unit) (ops : List (Operation Unit)) (o : Outcome Unit Unit), Covering l →
    (∀ id, l.anchor = some id → id ∈ l.store.ids) → Start l → (∀ op ∈ ops, op.KeepsRegions) →
    l.run ops = .ok o → ∃ back changed, o.layout.restore l.snapshot = .ok back ∧ back.value = .ok changed

/-- A layout with far edges that are cut off is not accepted by the check again, neither where the
container's is, nor where a region's is, also where the areas add up. -/
theorem not_returns : ¬ Returns (fun l => (l.store.bounds.map (·.area)).sum = l.bounds.area) ∧
    ¬ Returns (fun l => ∀ r ∈ l.store.bounds, r.Sharp) ∧ ¬ Returns (fun l => l.bounds.Solid) := by
  have hops : ∀ op ∈ [Operation.drag (.vertical 60) ⟨70, 0⟩], op.KeepsRegions (W := Unit) := by
    simp [Operation.KeepsRegions]
  refine ⟨fun h => ?_, fun h => ?_, fun h => ?_⟩
  · obtain ⟨back, changed, hback, hvalue⟩ := h (endColumns {} 2147483647 2147483597) [.drag (.vertical 60) ⟨70, 0⟩] _
      (endColumns_covering {} (by decide) (by decide)) (by decide) (by decide) hops rfl
    cases hback
    cases hvalue
  · obtain ⟨back, changed, hback, hvalue⟩ := h (endColumns {} 2147483647 2147483587) [.drag (.vertical 60) ⟨70, 0⟩] _
      (endColumns_covering {} (by decide) (by decide)) (by decide) (by decide) hops rfl
    cases hback
    cases hvalue
  · obtain ⟨back, changed, hback, hvalue⟩ := h (endColumns {} 2147483637 2147483647) [.drag (.vertical 60) ⟨70, 0⟩] _
      (endColumns_covering {} (by decide) (by decide)) (by decide) (by decide) hops rfl
    cases hback
    cases hvalue

end Mosaic.Layout
