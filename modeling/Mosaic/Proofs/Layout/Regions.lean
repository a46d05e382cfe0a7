import Mosaic.Layout.Operation
import Mosaic.Proofs.Layout.Geometry
import Mosaic.Proofs.Layout.React

/-! The regions of a layout only change where regions are added or removed: all else that can be done to
it leaves the same identifiers, in the same order. So identifiers stay apart, and the anchor is one of
the regions, in every layout that is built up from an empty one. -/
namespace Mosaic

namespace Operation

variable {W : Type}

def KeepsRegions : Operation W → Prop
  | .addRegion _ _ | .removeRegion _ => False
  | _ => True

def isAddition : Operation W → Bool
  | .addRegion _ _ => true
  | _ => false

end Operation

namespace Layout

variable {W : Type} {l l' l'' : Layout W} {ops : List (Operation W)}

theorem create_eq_ok {bounds : Rect} {settings : Settings} (h : create bounds settings = .ok l) :
    ∃ valid, l = { settings := valid, bounds } := by
  unfold create at h
  cases hvalid : settings.validate with
  | error e =>
    rw [hvalid] at h
    cases h
  | ok valid =>
    rw [hvalid] at h
    cases h
    exact ⟨valid, rfl⟩

theorem exists_setAnchor (l : Layout W) (id : RegionId) : ∃ anchor, l.setAnchor id = { l with anchor } := by
  unfold setAnchor
  split
  · exact ⟨some id, rfl⟩
  · exact ⟨l.anchor, rfl⟩

theorem enableSizeRange_cases (l : Layout W) (minWidth minHeight : Int) :
    (∃ e, l.enableSizeRange minWidth minHeight = { value := .error e, layout := l }) ∨
      ∃ settings, Settings.validate { l.settings with sizeRange := some ⟨minWidth, minHeight⟩ } = .ok settings ∧
        l.enableSizeRange minWidth minHeight = { value := .ok (), layout := { l with settings } } := by
  unfold enableSizeRange
  split
  · next settings hvalid => exact .inr ⟨settings, hvalid, rfl⟩
  · next e _ => exact .inl ⟨e, rfl⟩

theorem perform_enableSizeRange {minWidth minHeight : Int} {o : Outcome W Unit}
    (h : l.perform (.enableSizeRange minWidth minHeight) = .ok o) :
    ∃ settings, o = { l with settings }.changedTo := by
  cases h
  rcases l.enableSizeRange_cases minWidth minHeight with ⟨e, heq⟩ | ⟨settings, -, heq⟩
  · exact ⟨l.settings, congrArg Outcome.silent heq⟩
  · exact ⟨settings, congrArg Outcome.silent heq⟩

theorem run_cons_eq_ok {op : Operation W} {o : Outcome W Unit} : l.run (op :: ops) = .ok o ↔
    ∃ first last, l.perform op = .ok first ∧ first.layout.run ops = .ok last ∧ o = last.after first := by
  rw [run_cons, Checked.bind_eq_ok]
  simp only [Checked.map_eq_ok, ← exists_and_left, eq_comm (a := o)]

/-- What each step of a run keeps, the run keeps. -/
theorem run_induction {P : Layout W → Prop} (start : P l)
    (step : ∀ k op o, op ∈ ops → P k → k.perform op = .ok o → P o.layout) {o : Outcome W Unit}
    (h : l.run ops = .ok o) : P o.layout := by
  induction ops generalizing l o with
  | nil =>
    cases h
    exact start
  | cons op ops ih =>
    obtain ⟨first, last, hfirst, hlast, rfl⟩ := run_cons_eq_ok.1 h
    have hkept : P last.layout := ih (step l op first List.mem_cons_self start hfirst)
      (fun k other o hother => step k other o (List.mem_cons_of_mem op hother)) hlast
    exact hkept

theorem run_append {ops' : List (Operation W)} {o : Outcome W Unit} (h : l.run (ops ++ ops') = .ok o) :
    ∃ mid last, l.run ops = .ok mid ∧ mid.layout.run ops' = .ok last ∧ o = last.after mid := by
  induction ops generalizing l o with
  | nil => exact ⟨l.changedTo, o, rfl, h, rfl⟩
  | cons op ops ih =>
    obtain ⟨first, rest, hfirst, hrest, rfl⟩ := run_cons_eq_ok.1 h
    obtain ⟨mid, last, hmid, hlast, rfl⟩ := ih hrest
    refine ⟨mid.after first, last, ?_, hlast, ?_⟩
    · exact run_cons_eq_ok.2 ⟨first, mid, hfirst, hmid, rfl⟩
    · simp [Outcome.after, List.append_assoc]

theorem syncMinSizes_induction {P : Layout W → Prop} (start : P l)
    (step : ∀ k id size, P k → P (k.setMinSize id size)) (preferred : W → Option Size) :
    P (l.syncMinSizes preferred) := by
  unfold syncMinSizes
  generalize l.store.regions.filterMap _ = hints
  induction hints generalizing l with
  | nil => exact start
  | cons hint hints ih => exact ih (step l hint.1 hint.2 start)

/-- The same regions are there, and a new anchor is one of them. -/
structure SameRegions (l l' : Layout W) : Prop where
  ids : l'.store.ids = l.store.ids
  next : l'.store.next = l.store.next
  anchor : ∀ id, l'.anchor = some id → l.anchor = some id ∨ id ∈ l.store.ids

namespace SameRegions

theorem refl (l : Layout W) : SameRegions l l := ⟨rfl, rfl, fun _ h => .inl h⟩

theorem trans (h : SameRegions l l') (h' : SameRegions l' l'') : SameRegions l l'' := by
  refine ⟨h'.ids.trans h.ids, h'.next.trans h.next, fun id hid => ?_⟩
  rcases h'.anchor id hid with hid | hid
  · exact h.anchor id hid
  · exact .inr (h.ids ▸ hid)

theorem gesture (h : SameRegions l l') (gesture : Gesture) : SameRegions l { l' with gesture } :=
  ⟨h.ids, h.next, h.anchor⟩

theorem modify (l : Layout W) (id : RegionId) {f : Region W → Region W} (hf : ∀ r, (f r).id = r.id) :
    SameRegions l { l with store := l.store.modify id f } :=
  ⟨RegionStore.ids_modify hf, rfl, fun _ h => .inl h⟩

theorem of_rearranged (h : Rearranged l l') : SameRegions l l' :=
  ⟨h.ids, h.next, fun _ hid => .inl (h.anchor ▸ hid)⟩

theorem showCursor (l : Layout W) (cursor : Cursor) : SameRegions l (l.showCursor cursor).layout := by
  rw [showCursor_eq]
  exact (refl l).gesture _

theorem syncMinSizes (l : Layout W) (preferred : W → Option Size) :
    SameRegions l (l.syncMinSizes preferred) :=
  syncMinSizes_induction (refl l) (fun k id _ hkept => hkept.trans (modify k id fun _ => rfl)) preferred

theorem restore {s : Snapshot} {o : Outcome W (Except LayoutError (List RegionId))} (h : l.restore s = .ok o) :
    SameRegions l o.layout := by
  rcases restore_cases h with ⟨e, rfl⟩ | ⟨rfl, hmismatch, -⟩
  · exact refl l
  · exact ⟨l.ids_withSnapshot s, rfl, fun id hid => .inr ((mismatch?_eq_none_iff.1 hmismatch).2.2.2 id hid)⟩

theorem react {event : PointerEvent} {o : Reaction W} (h : Reacts l event o) : SameRegions l o.layout := by
  cases h with
  | ignored consumed reason => exact refl l
  | hovered grasp hidle => exact showCursor l _
  | left hidle => exact showCursor l _
  | armed grasp hidle => exact ((refl l).gesture _).trans (showCursor (l.arm grasp event.position) _)
  | dragged grasp origin requested limits moved hphase hmoved =>
    exact (of_rearranged (drag_rearranged hmoved)).gesture _
  | released grasp hphase => exact (refl l).gesture _
  | committed grasp requested moved hphase hmoved =>
    exact (of_rearranged (move_rearranged hmoved)).gesture _

theorem handlePointer {event : PointerEvent} {o : Outcome W Bool} (h : l.handlePointer event = .ok o) :
    SameRegions l o.layout := by
  obtain ⟨reaction, hreact, rfl⟩ := handlePointer_eq_ok h
  exact (react hreact).gesture _

theorem rewind {o : Outcome W Bool} (h : Rewinds l o) : SameRegions l o.layout := by
  cases h with
  | unkept hnone => exact refl l
  | restored start back changed hstart hback => exact ((refl l).gesture _).trans (restore hback)
  | refused start e hstart hrefused => exact (refl l).gesture _

theorem cancel {reason : CancelReason} {o : Outcome W Bool} (h : Cancels l reason o) :
    SameRegions l o.layout := by
  cases h with
  | nothing hidle => exact (refl l).gesture _
  | canceled grasp back hphase hback =>
    exact (((refl l).gesture _).trans ((rewind hback).trans (showCursor back.layout _))).gesture _

theorem handleResize {target : Rect} {o : Outcome W Bool} (h : l.handleResize target = .ok o) :
    SameRegions l o.layout := by
  obtain ⟨first, second, hfirst, hsecond, rfl⟩ := handleResize_eq_ok h
  have hresized := of_rearranged (resize_rearranged hsecond)
  rcases breakOff_eq_ok hfirst with hcanceled | ⟨-, rfl⟩
  · exact (cancel hcanceled).trans hresized
  · exact hresized

theorem handle {event : Event} {o : Outcome W Bool} (h : l.handle event = .ok o) : SameRegions l o.layout := by
  unfold Layout.handle at h
  split at h
  · exact handlePointer h
  · exact handleResize h
  · cases h
    exact refl l
  · exact cancel (cancel_eq_ok h)
  · exact cancel (cancel_eq_ok h)

theorem perform {op : Operation W} (hop : op.KeepsRegions) {o : Outcome W Unit}
    (h : l.perform op = .ok o) : SameRegions l o.layout := by
  cases op with
  | addRegion widget bounds => exact hop.elim
  | removeRegion id => exact hop.elim
  | setWidget id widget =>
    cases h
    exact modify l id fun _ => rfl
  | setAnchor id =>
    cases h
    change SameRegions l (l.setAnchor id)
    unfold Layout.setAnchor
    split
    · next hlive =>
      refine ⟨rfl, rfl, fun other hother => .inr ?_⟩
      cases hother
      exact RegionStore.contains_iff.1 hlive
    · exact refl l
  | clearAnchor =>
    cases h
    exact ⟨rfl, rfl, fun _ hid => by cases hid⟩
  | enableSizeRange minWidth minHeight =>
    obtain ⟨settings, rfl⟩ := perform_enableSizeRange h
    exact ⟨rfl, rfl, fun _ hid => .inl hid⟩
  | disableSizeRange =>
    cases h
    exact ⟨rfl, rfl, fun _ hid => .inl hid⟩
  | setMinSize id size =>
    cases h
    exact modify l id fun _ => rfl
  | setMaxSize id size =>
    cases h
    exact modify l id fun _ => rfl
  | syncMinSizes preferred =>
    cases h
    exact syncMinSizes l preferred
  | takeDirty =>
    cases h
    exact ⟨l.store.ids_clean, rfl, fun _ hid => .inl hid⟩
  | applyPatch patch =>
    obtain ⟨applied, happlied, rfl⟩ := Checked.map_eq_ok.1 h
    exact of_rearranged (applyPatch_rearranged happlied)
  | drag held goal =>
    obtain ⟨moved, hmoved, rfl⟩ := Checked.map_eq_ok.1 h
    exact of_rearranged (drag_rearranged hmoved)
  | move held goal =>
    obtain ⟨moved, hmoved, rfl⟩ := Checked.map_eq_ok.1 h
    exact of_rearranged (move_rearranged hmoved)
  | resize target =>
    obtain ⟨resized, hresized, rfl⟩ := Checked.map_eq_ok.1 h
    exact of_rearranged (resize_rearranged hresized)
  | restore s =>
    obtain ⟨back, hback, rfl⟩ := Checked.map_eq_ok.1 h
    exact restore hback
  | handlePointer event =>
    obtain ⟨handled, hhandled, rfl⟩ := Checked.map_eq_ok.1 h
    exact handlePointer hhandled
  | handle event =>
    obtain ⟨handled, hhandled, rfl⟩ := Checked.map_eq_ok.1 h
    exact handle hhandled
  | cancelDrag =>
    obtain ⟨canceled, hcanceled, rfl⟩ := Checked.map_eq_ok.1 h
    exact cancel (cancel_eq_ok hcanceled)

/-- Whatever is done, the same regions are there in the same order. -/
theorem run (hops : ∀ op ∈ ops, op.KeepsRegions) {o : Outcome W Unit} (h : l.run ops = .ok o) :
    SameRegions l o.layout :=
  run_induction (refl l) (fun _ op _ hop hkept hstep => hkept.trans (perform (hops op hop) hstep)) h

end SameRegions

theorem addRegion_answers {widget : W} {bounds : Rect} {added : RegionId × Layout W}
    (h : l.addRegion widget bounds = .ok added) : ∃ box, added =
      (⟨l.store.next⟩, { l with store := (l.store.insert widget bounds).2, bounds := box }) := by
  simp only [addRegion] at h
  split at h
  · obtain ⟨hull, -, h⟩ := Checked.bind_eq_ok.1 h
    cases Checked.pure_eq_ok.1 h
    exact ⟨_, rfl⟩
  · cases Checked.pure_eq_ok.1 h
    exact ⟨_, rfl⟩

theorem exists_addRegion {widget : W} {bounds : Rect} {added : RegionId × Layout W}
    (h : l.addRegion widget bounds = .ok added) : ∃ box,
      added.2 = { l with store := (l.store.insert widget bounds).2, bounds := box } := by
  obtain ⟨box, rfl⟩ := addRegion_answers h
  exact ⟨box, rfl⟩

theorem exists_abandonDrag (l : Layout W) : ∃ gesture, l.abandonDrag.layout = { l with gesture } := by
  unfold abandonDrag
  split
  · exact ⟨l.gesture, rfl⟩
  · exact ⟨_, rfl⟩

theorem exists_removeRegion (l : Layout W) (id : RegionId) : (l.removeRegion id).layout = l ∨
    ∃ gesture, (l.removeRegion id).layout = { l with
      store := l.store.erase id, anchor := if l.anchor = some id then none else l.anchor, gesture } := by
  unfold removeRegion
  split
  · exact .inl rfl
  · exact .inr (exists_abandonDrag _)

theorem store_removeRegion (l : Layout W) (id : RegionId) :
    (l.removeRegion id).layout.store = l.store.erase id := by
  unfold removeRegion
  split
  · next hnone =>
    refine (RegionStore.erase_of_notMem fun hlive => ?_).symm
    rw [← RegionStore.contains_iff, RegionStore.contains, hnone] at hlive
    cases hlive
  · next r hr =>
    obtain ⟨gesture, hgesture⟩ := exists_abandonDrag
      { l with store := l.store.erase id, anchor := if l.anchor = some id then none else l.anchor }
    exact congrArg Layout.store hgesture

/-- Identifiers are told apart and will be, and the anchor is one of the regions. -/
structure Formed (l : Layout W) : Prop where
  store : l.store.Sound
  anchor : ∀ id, l.anchor = some id → id ∈ l.store.ids

theorem formed_create {bounds : Rect} {settings : Settings} (h : create bounds settings = .ok l) : l.Formed := by
  obtain ⟨valid, rfl⟩ := create_eq_ok h
  exact ⟨⟨.nil, fun _ hid => by cases hid⟩, fun _ hid => by cases hid⟩

namespace Formed

theorem same (hl : l.Formed) (h : SameRegions l l') : l'.Formed := by
  obtain ⟨⟨hnodup, hbelow⟩, hanchor⟩ := hl
  refine ⟨⟨h.ids ▸ hnodup, ?_⟩, fun id hid => ?_⟩
  · rw [h.ids, h.next]
    exact hbelow
  · rw [h.ids]
    exact (h.anchor id hid).elim (hanchor id) fun hlive => hlive

theorem addRegion (hl : l.Formed) (hnext : l.store.next < RegionId.last) {widget : W} {bounds : Rect}
    {added : RegionId × Layout W} (h : l.addRegion widget bounds = .ok added) : added.2.Formed := by
  obtain ⟨box, hadded⟩ := exists_addRegion h
  rw [hadded]
  refine ⟨hl.store.insert hnext widget bounds, fun id hid => ?_⟩
  rw [RegionStore.ids_insert]
  exact List.mem_append_left _ (hl.anchor id hid)

theorem removeRegion (hl : l.Formed) (id : RegionId) : (l.removeRegion id).layout.Formed := by
  rcases l.exists_removeRegion id with hsame | ⟨gesture, herased⟩
  · exact hsame.symm ▸ hl
  · rw [herased]
    refine ⟨hl.store.erase id, fun other hother => ?_⟩
    simp only at hother
    split at hother
    · cases hother
    · next hne => exact RegionStore.mem_ids_erase (hl.anchor other hother) fun hsame => hne (hsame ▸ hother)

end Formed

/-- Once there are no new identifiers left, there never are again. -/
theorem last_le_perform {op : Operation W} {o : Outcome W Unit} (h : l.perform op = .ok o)
    (hlast : RegionId.last ≤ l.store.next) : RegionId.last ≤ o.layout.store.next := by
  cases op with
  | addRegion widget bounds =>
    obtain ⟨added, hadded, rfl⟩ := Checked.map_eq_ok.1 h
    obtain ⟨box, hadded⟩ := exists_addRegion hadded
    change RegionId.last ≤ added.2.store.next
    rw [hadded]
    exact Nat.le_min.2 ⟨Nat.le_succ_of_le hlast, Nat.le_refl _⟩
  | removeRegion id =>
    cases h
    change RegionId.last ≤ (l.removeRegion id).layout.store.next
    rcases l.exists_removeRegion id with hsame | ⟨gesture, herased⟩
    · rwa [hsame]
    · rwa [herased]
  | _ =>
    rw [(SameRegions.perform (by trivial) h).next]
    exact hlast

theorem formed_perform (hl : l.Formed) {op : Operation W} {o : Outcome W Unit} (h : l.perform op = .ok o)
    (hnext : op.isAddition = true → l.store.next < RegionId.last) : o.layout.Formed := by
  cases op with
  | addRegion widget bounds =>
    obtain ⟨added, hadded, rfl⟩ := Checked.map_eq_ok.1 h
    exact hl.addRegion (hnext rfl) hadded
  | removeRegion id =>
    cases h
    exact hl.removeRegion id
  | _ => exact hl.same (SameRegions.perform (by trivial) h)

end Layout

end Mosaic
