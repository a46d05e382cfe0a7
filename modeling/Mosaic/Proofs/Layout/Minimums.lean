import Mathlib.Data.List.Induction
import Mosaic.Proofs.Cascade.Feasible
import Mosaic.Proofs.Layout.Regions

/-! Where minimums come from. Those of the settings are looked at when the settings are taken, and those that are set
for a region are cut off at zero, but those that a snapshot has are taken as they are. So a negative one can only have
come with a snapshot, and all that works with minimums gets it, except for the cascades, where it counts as zero. -/
namespace Mosaic

/-- No extent is negative. -/
def Size.IsProper (s : Size) : Prop := 0 ≤ s.width ∧ 0 ≤ s.height

instance (s : Size) : Decidable s.IsProper := inferInstanceAs (Decidable (_ ∧ _))

theorem Size.isProper_clamped (s : Size) : s.clamped.IsProper := ⟨Int.le_max_right .., Int.le_max_right ..⟩

theorem Settings.validate_proper {s valid : Settings} (h : s.validate = .ok valid) {range : SizeRange}
    (hrange : valid.sizeRange = some range) : range.min.IsProper := by
  unfold validate at h
  split at h
  · cases h
  · next hfault =>
    cases h
    simp only [fault?, hrange] at hfault
    split at hfault
    · cases hfault
    · split at hfault
      · cases hfault
      · split at hfault
        · cases hfault
        · next hwidth hheight => exact ⟨Int.not_lt.1 hwidth, Int.not_lt.1 hheight⟩

/-- The minimums that the snapshot has for regions are among those that `G` has for them. -/
def Snapshot.MinsFrom (G : RegionId → Size → Prop) (s : Snapshot) : Prop :=
  ∀ id i size, s.item? id = some i → i.minSize = some size → G id size

namespace Layout

variable {W : Type} {l l' : Layout W} {G G' : RegionId → Size → Prop}

/-- The minimums of regions are among those that `G` has for them, also where a drag can be undone to, and those of
the settings are not negative. -/
structure MinsFrom (G : RegionId → Size → Prop) (l : Layout W) : Prop where
  regions : ∀ r ∈ l.store.regions, ∀ size, r.minSize = some size → G r.id size
  pressed : ∀ s, l.gesture.pressed = some s → s.MinsFrom G
  range : ∀ range, l.settings.sizeRange = some range → range.min.IsProper

theorem minsFrom_create {bounds : Rect} {settings : Settings} (h : create bounds settings = .ok l) :
    l.MinsFrom G := by
  unfold create at h
  cases hvalid : settings.validate with
  | error e =>
    rw [hvalid] at h
    cases h
  | ok valid =>
    rw [hvalid] at h
    cases h
    refine ⟨fun r hr => ?_, fun s hs => ?_, fun _ => Settings.validate_proper hvalid⟩
    · cases hr
    · cases hs

namespace MinsFrom

theorem mono (hl : l.MinsFrom G) (hG : ∀ id size, G id size → G' id size) : l.MinsFrom G' :=
  ⟨fun r hr size hsize => hG _ _ (hl.regions r hr size hsize),
    fun s hs id i size hi hsize => hG _ _ (hl.pressed s hs id i size hi hsize), hl.range⟩

theorem gesture (hl : l.MinsFrom G) (g : Gesture) (hg : ∀ s, g.pressed = some s → s.MinsFrom G) :
    MinsFrom G { l with gesture := g } :=
  ⟨hl.regions, hg, hl.range⟩

theorem rearranged (hl : l.MinsFrom G) (h : Rearranged l l') : l'.MinsFrom G := by
  refine ⟨fun r hr size hsize => ?_, ?_, ?_⟩
  · have hsame := h.regions (fun r => (r.id, r.minSize)) fun r bounds => by
      obtain ⟨dirty, hplaced⟩ := r.place_eq bounds
      rw [hplaced]
    have hmem : (r.id, r.minSize) ∈ l.store.regions.map fun r => (r.id, r.minSize) :=
      hsame ▸ List.mem_map_of_mem hr
    obtain ⟨old, hold, heq⟩ := List.mem_map.1 hmem
    obtain ⟨hid, hmin⟩ := Prod.mk.inj heq
    exact hid ▸ hl.regions old hold size (hmin.trans hsize)
  · rw [h.gesture]
    exact hl.pressed
  · rw [h.settings]
    exact hl.range

theorem snapshot (hl : l.MinsFrom G) : l.snapshot.MinsFrom G := by
  intro id i size hi hsize
  obtain ⟨r, hr, rfl⟩ := List.mem_map.1 (List.mem_of_find?_eq_some hi)
  obtain rfl : r.id = id := of_decide_eq_true (List.find?_some hi :)
  exact hl.regions r hr size hsize

theorem modify (hl : l.MinsFrom G) (id : RegionId) {f : Region W → Region W} (hid : ∀ r, (f r).id = r.id)
    (hmin : ∀ r size, (f r).minSize = some size → r.minSize = some size ∨ G r.id size) :
    MinsFrom G { l with store := l.store.modify id f } := by
  refine ⟨fun r hr size hsize => ?_, hl.pressed, hl.range⟩
  rcases RegionStore.mem_modify hr with hold | ⟨old, hold, rfl⟩
  · exact hl.regions r hold size hsize
  · rw [hid]
    exact (hmin old size hsize).elim (hl.regions old hold size) fun hnew => hnew

theorem setMinSize (hl : l.MinsFrom G) (hG : ∀ id size, size.IsProper → G id size) (id : RegionId) (size : Size) :
    (l.setMinSize id size).MinsFrom G := by
  refine hl.modify id (fun _ => rfl) fun r other hother => .inr ?_
  cases hother
  exact hG _ _ size.isProper_clamped

theorem syncMinSizes (hl : l.MinsFrom G) (hG : ∀ id size, size.IsProper → G id size) (preferred : W → Option Size) :
    (l.syncMinSizes preferred).MinsFrom G :=
  syncMinSizes_induction hl (fun _ id size hkept => hkept.setMinSize hG id size) preferred

theorem addRegion (hl : l.MinsFrom G) {widget : W} {bounds : Rect} {added : RegionId × Layout W}
    (h : l.addRegion widget bounds = .ok added) : added.2.MinsFrom G := by
  obtain ⟨box, hadded⟩ := exists_addRegion h
  rw [hadded]
  refine ⟨fun r hr size hsize => ?_, hl.pressed, hl.range⟩
  rcases List.mem_append.1 hr with hr | hr
  · exact hl.regions r hr size hsize
  · obtain rfl := List.mem_singleton.1 hr
    cases hsize

theorem abandonDrag (hl : l.MinsFrom G) : l.abandonDrag.layout.MinsFrom G := by
  unfold Layout.abandonDrag
  split
  · exact hl
  · exact hl.gesture _ fun _ hs => by cases hs

theorem removeRegion (hl : l.MinsFrom G) (id : RegionId) : (l.removeRegion id).layout.MinsFrom G := by
  unfold Layout.removeRegion
  split
  · exact hl
  · have herased : MinsFrom G { l with
        store := l.store.erase id, anchor := if l.anchor = some id then none else l.anchor } :=
      ⟨fun r hr => hl.regions r (List.mem_of_mem_eraseP hr), hl.pressed, hl.range⟩
    exact herased.abandonDrag

theorem enableSizeRange (hl : l.MinsFrom G) (minWidth minHeight : Int) :
    (l.enableSizeRange minWidth minHeight).layout.MinsFrom G := by
  rcases l.enableSizeRange_cases minWidth minHeight with ⟨e, heq⟩ | ⟨settings, hvalid, heq⟩
  · rw [heq]
    exact hl
  · rw [heq]
    exact ⟨hl.regions, hl.pressed, fun _ => Settings.validate_proper hvalid⟩

theorem takeDirty (hl : l.MinsFrom G) : l.takeDirty.2.MinsFrom G := by
  refine ⟨fun r hr size hsize => ?_, hl.pressed, hl.range⟩
  obtain ⟨old, hold, rfl⟩ := List.mem_map.1 hr
  exact hl.regions old hold size hsize

theorem restore (hl : l.MinsFrom G) {s : Snapshot} {o : Outcome W (Except LayoutError (List RegionId))}
    (h : l.restore s = .ok o) (hs : ∀ changed, o.value = .ok changed → s.MinsFrom G) : o.layout.MinsFrom G := by
  rcases restore_cases h with ⟨e, rfl⟩ | ⟨rfl, -⟩
  · exact hl
  replace hs := hs _ rfl
  refine ⟨fun r hr size hsize => ?_, hl.pressed, hl.range⟩
  obtain ⟨old, hold, rfl⟩ := List.mem_map.1 hr
  unfold restoreRegion at hsize ⊢
  split at hsize
  · next hnone =>
    exact hl.regions old hold size hsize
  · next i hi =>
    obtain ⟨dirty, hplaced⟩ := old.place_eq i.bounds
    rw [hplaced]
    exact hs old.id i size hi hsize

theorem showCursor (hl : l.MinsFrom G) (cursor : Cursor) : (l.showCursor cursor).layout.MinsFrom G := by
  rw [showCursor_eq]
  exact hl.gesture _ hl.pressed

theorem react (hl : l.MinsFrom G) {event : PointerEvent} {o : Reaction W} (h : Reacts l event o) :
    o.layout.MinsFrom G := by
  cases h with
  | ignored consumed reason => exact hl
  | hovered grasp hidle => exact hl.showCursor _
  | left hidle => exact hl.showCursor _
  | armed grasp hidle =>
    -- The start of the drag is kept with the minimums that the regions have.
    have harmed : (l.arm grasp event.position).MinsFrom G := by
      refine hl.gesture _ fun s hs => ?_
      simp only at hs
      split at hs
      · cases hs
        exact hl.snapshot
      · cases hs
    exact harmed.showCursor _
  | dragged grasp origin requested limits moved hphase hmoved =>
    have hkept := hl.rearranged (drag_rearranged hmoved)
    exact hkept.gesture _ hkept.pressed
  | released grasp hphase => exact hl.gesture _ fun _ hs => by cases hs
  | committed grasp requested moved hphase hmoved =>
    exact (hl.rearranged (move_rearranged hmoved)).gesture _ fun _ hs => by cases hs

theorem handlePointer (hl : l.MinsFrom G) {event : PointerEvent} {o : Outcome W Bool}
    (h : l.handlePointer event = .ok o) : o.layout.MinsFrom G := by
  obtain ⟨reaction, hreact, rfl⟩ := handlePointer_eq_ok h
  have hkept := hl.react hreact
  exact hkept.gesture _ hkept.pressed

theorem rewind (hl : l.MinsFrom G) {o : Outcome W Bool} (h : Rewinds l o) : o.layout.MinsFrom G := by
  have hcleared : MinsFrom G { l with gesture := { l.gesture with pressed := none } } :=
    hl.gesture _ fun _ hs => by cases hs
  cases h with
  | unkept hnone => exact hl
  | restored start back changed hstart hback => exact hcleared.restore hback fun _ _ => hl.pressed start hstart
  | refused start e hstart hrefused => exact hcleared

theorem cancel (hl : l.MinsFrom G) {reason : CancelReason} {o : Outcome W Bool} (h : Cancels l reason o) :
    o.layout.MinsFrom G := by
  cases h with
  | nothing hidle => exact hl.gesture _ hl.pressed
  | canceled grasp back hphase hback =>
    have hidle : MinsFrom G { l with gesture := { l.gesture with phase := .idle } } := hl.gesture _ hl.pressed
    have hkept := (hidle.rewind hback).showCursor .default
    exact hkept.gesture _ hkept.pressed

theorem handleResize (hl : l.MinsFrom G) {target : Rect} {o : Outcome W Bool} (h : l.handleResize target = .ok o) :
    o.layout.MinsFrom G := by
  obtain ⟨first, second, hfirst, hsecond, rfl⟩ := handleResize_eq_ok h
  rcases breakOff_eq_ok hfirst with hcanceled | ⟨-, rfl⟩
  · exact (hl.cancel hcanceled).rearranged (resize_rearranged hsecond)
  · exact hl.rearranged (resize_rearranged hsecond)

theorem handle (hl : l.MinsFrom G) {event : Event} {o : Outcome W Bool} (h : l.handle event = .ok o) :
    o.layout.MinsFrom G := by
  unfold Layout.handle at h
  split at h
  · exact hl.handlePointer h
  · exact hl.handleResize h
  · cases h
    exact hl
  · exact hl.cancel (cancel_eq_ok h)
  · exact hl.cancel (cancel_eq_ok h)

/-- An operation brings in no minimum that `G` does not have, if `G` has all that are not negative and those of the
snapshot that the operation restores. -/
theorem perform (hl : l.MinsFrom G) (hG : ∀ id size, size.IsProper → G id size) {op : Operation W}
    (hop : ∀ s back changed, op = .restore s → l.restore s = .ok back → back.value = .ok changed → s.MinsFrom G)
    {o : Outcome W Unit} (h : l.perform op = .ok o) : o.layout.MinsFrom G := by
  cases op with
  | addRegion widget bounds =>
    obtain ⟨added, hadded, rfl⟩ := Checked.map_eq_ok.1 h
    exact hl.addRegion hadded
  | removeRegion id =>
    cases h
    exact hl.removeRegion id
  | setWidget id widget =>
    cases h
    exact hl.modify id (fun _ => rfl) fun _ _ => .inl
  | setAnchor id =>
    cases h
    obtain ⟨anchor, hanchor⟩ := l.exists_setAnchor id
    rw [hanchor]
    exact ⟨hl.regions, hl.pressed, hl.range⟩
  | clearAnchor =>
    cases h
    exact ⟨hl.regions, hl.pressed, hl.range⟩
  | enableSizeRange minWidth minHeight =>
    cases h
    exact hl.enableSizeRange minWidth minHeight
  | disableSizeRange =>
    cases h
    exact ⟨hl.regions, hl.pressed, fun _ hrange => by cases hrange⟩
  | setMinSize id size =>
    cases h
    exact hl.setMinSize hG id size
  | setMaxSize id size =>
    cases h
    exact hl.modify id (fun _ => rfl) fun _ _ => .inl
  | syncMinSizes preferred =>
    cases h
    exact hl.syncMinSizes hG preferred
  | takeDirty =>
    cases h
    exact hl.takeDirty
  | applyPatch patch =>
    obtain ⟨applied, happlied, rfl⟩ := Checked.map_eq_ok.1 h
    exact hl.rearranged (applyPatch_rearranged happlied)
  | drag held goal =>
    obtain ⟨moved, hmoved, rfl⟩ := Checked.map_eq_ok.1 h
    exact hl.rearranged (drag_rearranged hmoved)
  | move held goal =>
    obtain ⟨moved, hmoved, rfl⟩ := Checked.map_eq_ok.1 h
    exact hl.rearranged (move_rearranged hmoved)
  | resize target =>
    obtain ⟨resized, hresized, rfl⟩ := Checked.map_eq_ok.1 h
    exact hl.rearranged (resize_rearranged hresized)
  | restore s =>
    obtain ⟨back, hback, rfl⟩ := Checked.map_eq_ok.1 h
    exact hl.restore hback fun changed => hop s back changed rfl hback
  | handlePointer event =>
    obtain ⟨handled, hhandled, rfl⟩ := Checked.map_eq_ok.1 h
    exact hl.handlePointer hhandled
  | handle event =>
    obtain ⟨handled, hhandled, rfl⟩ := Checked.map_eq_ok.1 h
    exact hl.handle hhandled
  | cancelDrag =>
    obtain ⟨canceled, hcanceled, rfl⟩ := Checked.map_eq_ok.1 h
    exact hl.cancel (cancel_eq_ok hcanceled)

end MinsFrom

/-- A snapshot that was restored on the way had this minimum for the region. -/
def Brought (start : Layout W) (ops : List (Operation W)) (id : RegionId) (size : Size) : Prop :=
  ∃ done s mid back changed i, done ++ [.restore s] <+: ops ∧ start.run done = .ok mid ∧
    mid.layout.restore s = .ok back ∧ back.value = .ok changed ∧ s.item? id = some i ∧ i.minSize = some size

theorem Brought.append {start : Layout W} {ops : List (Operation W)} {id : RegionId} {size : Size}
    (h : Brought start ops id size) (more : List (Operation W)) : Brought start (ops ++ more) id size := by
  obtain ⟨done, s, mid, back, changed, i, hprefix, h⟩ := h
  exact ⟨done, s, mid, back, changed, i, hprefix.trans (List.prefix_append ops more), h⟩

/-- What is not brought in by a snapshot is not negative. -/
theorem minsFrom_run {bounds : Rect} {settings : Settings} {start : Layout W} {ops : List (Operation W)}
    {o : Outcome W Unit} (hcreate : create bounds settings = .ok start) (h : start.run ops = .ok o) :
    o.layout.MinsFrom fun id size => size.IsProper ∨ Brought start ops id size := by
  induction ops using List.reverseRecOn generalizing o with
  | nil =>
    cases h
    exact minsFrom_create hcreate
  | append_singleton ops op ih =>
    obtain ⟨mid, rest, hmid, hrest, rfl⟩ := run_append h
    obtain ⟨last, none, hlast, hnone, rfl⟩ := run_cons_eq_ok.1 hrest
    cases hnone
    have hmins := (ih hmid).mono fun id size hsize => hsize.imp_right (Brought.append · [op])
    have hkept : last.layout.MinsFrom fun id size => size.IsProper ∨ Brought start (ops ++ [op]) id size := by
      refine hmins.perform (fun id size => .inl) (fun s back changed hop hback hvalue id i size hi hsize => .inr ?_) hlast
      exact ⟨ops, s, mid, back, changed, i, hop ▸ List.prefix_refl _, hmid, hback, hvalue, hi, hsize⟩
    exact hkept

/-- The minimums in force are those of the regions, or that of the settings, or nothing. -/
theorem MinsFrom.mins (hl : l.MinsFrom G) : ∀ size ∈ l.mins, size.IsProper ∨ ∃ id, G id size := by
  intro size hsize
  unfold Layout.mins at hsize
  split at hsize
  · next range hrange =>
    obtain ⟨r, hr, rfl⟩ := List.mem_map.1 hsize
    cases hmin : r.minSize with
    | none => exact .inl (hl.range range hrange)
    | some size => exact .inr ⟨r.id, hl.regions r hr size hmin⟩
  · obtain ⟨r, -, rfl⟩ := List.mem_map.1 hsize
    exact .inl ⟨Int.le_refl 0, Int.le_refl 0⟩

theorem MinsFrom.placements (hl : l.MinsFrom G) :
    ∀ p ∈ l.placements, ∀ size, p.min = some size → size.IsProper ∨ G p.id size := by
  intro p hp size hsize
  obtain ⟨r, hr, rfl⟩ := List.mem_map.1 hp
  obtain ⟨range, hrange, rfl⟩ := Option.map_eq_some_iff.1 hsize
  cases hmin : r.minSize with
  | none => exact .inl (hl.range range hrange)
  | some size => exact .inr (hl.regions r hr size hmin)

/-- Whatever was done to a layout since its creation, a minimum that is negative was brought in by a snapshot, be it one
that a region has of its own, one that is in force, or one that the check is told. The cascades never see one. -/
theorem minimums_run {bounds : Rect} {settings : Settings} {start : Layout W} {ops : List (Operation W)}
    {o : Outcome W Unit} (hcreate : create bounds settings = .ok start) (h : start.run ops = .ok o) :
    (∀ r ∈ o.layout.store.regions, ∀ size, r.minSize = some size → size.IsProper ∨ Brought start ops r.id size) ∧
    (∀ size ∈ o.layout.mins, size.IsProper ∨ ∃ id, Brought start ops id size) ∧
    (∀ p ∈ o.layout.placements, ∀ size, p.min = some size → size.IsProper ∨ Brought start ops p.id size) ∧
    ∀ limits position axis, 0 ≤ (o.layout.scene limits).minAlong position axis := by
  have hmins := minsFrom_run hcreate h
  refine ⟨hmins.regions, fun size hsize => ?_, fun p hp size hsize => ?_,
    fun limits => (o.layout.scene limits).minAlong_nonneg⟩
  · rcases hmins.mins size hsize with hproper | ⟨id, hproper | hbrought⟩
    · exact .inl hproper
    · exact .inl hproper
    · exact .inr ⟨id, hbrought⟩
  · rcases hmins.placements p hp size hsize with hproper | hkept
    · exact .inl hproper
    · exact hkept

/-- Two columns, of which the first has a negative minimum. -/
def inverted : Snapshot where
  container := ⟨0, 0, 100, 100⟩
  items := [{ id := ⟨1⟩, bounds := ⟨0, 0, 50, 100⟩, minSize := some ⟨-5, -5⟩ },
    { id := ⟨2⟩, bounds := ⟨50, 0, 50, 100⟩ }]

/-- The columns are added and get minimums of their own, before a snapshot of them is restored. -/
def invert : List (Operation Unit) :=
  [.addRegion () ⟨0, 0, 50, 100⟩, .addRegion () ⟨50, 0, 50, 100⟩, .enableSizeRange 4 4,
    .setMinSize ⟨1⟩ ⟨-9, 20⟩, .restore inverted]

theorem minimums_run_invert : ∃ start before after, create ⟨0, 0, 100, 100⟩ {} = .ok start ∧
    start.run (invert.take 4) = .ok before ∧ before.layout.mins = [⟨0, 20⟩, ⟨4, 4⟩] ∧
      start.run invert = .ok after ∧ after.layout.mins = [⟨-5, -5⟩, ⟨4, 4⟩] ∧
        ∃ id, Brought start invert id ⟨-5, -5⟩ := by
  obtain ⟨start, before, after, hcreate, hbefore, hproper, hafter, hmins⟩ : ∃ (start : Layout Unit)
      (before after : Outcome Unit Unit), create ⟨0, 0, 100, 100⟩ {} = .ok start ∧
        start.run (invert.take 4) = .ok before ∧ before.layout.mins = [⟨0, 20⟩, ⟨4, 4⟩] ∧
          start.run invert = .ok after ∧ after.layout.mins = [⟨-5, -5⟩, ⟨4, 4⟩] :=
    ⟨_, _, _, rfl, rfl, rfl, rfl, rfl⟩
  have hbrought := (minimums_run hcreate hafter).2.1 ⟨-5, -5⟩ (hmins ▸ List.mem_cons_self)
  exact ⟨start, before, after, hcreate, hbefore, hproper, hafter, hmins, hbrought.resolve_left (by decide)⟩

/-- A snapshot brings in negative minimums, both for regions and for all that has to keep to them. -/
theorem not_minimums_proper : ¬ ∀ (bounds : Rect) (settings : Settings) (start : Layout Unit)
    (ops : List (Operation Unit)) (o : Outcome Unit Unit), create bounds settings = .ok start → start.run ops = .ok o →
      (∀ r ∈ o.layout.store.regions, ∀ size, r.minSize = some size → size.IsProper) ∧
        ∀ size ∈ o.layout.mins, size.IsProper := by
  intro h
  have hproper := (h ⟨0, 0, 100, 100⟩ {} _ invert _ rfl rfl).2 ⟨-5, -5⟩ (by decide)
  exact absurd hproper (by decide)

end Layout

end Mosaic
