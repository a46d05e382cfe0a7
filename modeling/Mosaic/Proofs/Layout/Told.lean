import Mathlib.Logic.Function.Basic
import Mosaic.Proofs.Layout.Regions
import Mosaic.Proofs.Layout.Staged

/-! What a host is told. The calls of pointer events, resizes and broken off drags keep a host that
carries them out, one after the other, at what the layout has, and none of them is idle. -/
namespace Mosaic

/-- An event of the pointer or of the host, or the end of a drag that the host asks for. -/
def Operation.IsEvent {W : Type} : Operation W → Prop
  | .handlePointer _ | .handle _ | .cancelDrag => True
  | _ => False

theorem Operation.IsEvent.keepsRegions {W : Type} {op : Operation W} (h : op.IsEvent) : op.KeepsRegions := by
  cases op with
  | addRegion widget bounds => exact h
  | removeRegion id => exact h
  | _ => trivial

/-- What a host shows: the bounds of regions, and a cursor. -/
structure Screen where
  bounds : RegionId → Option Rect
  cursor : Cursor

namespace Screen

def after (s : Screen) : HostCall → Screen
  | .setBounds region bounds => { s with bounds := Function.update s.bounds region (some bounds) }
  | .setCursor cursor => { s with cursor }
  | .notify _ => s

def replay (s : Screen) (calls : List HostCall) : Screen := calls.foldl after s

/-- What the call asks for is not shown yet. -/
def Lacks (s : Screen) : HostCall → Prop
  | .setBounds region bounds => s.bounds region ≠ some bounds
  | .setCursor cursor => s.cursor ≠ cursor
  | .notify _ => True

/-- The calls lead from one screen to another, and each asks for something that is not shown yet. -/
inductive Told : Screen → List HostCall → Screen → Prop
  | nil (s : Screen) : Told s [] s
  | cons {s s' : Screen} {call : HostCall} {calls : List HostCall} (h : s.Lacks call)
      (hrest : Told (s.after call) calls s') : Told s (call :: calls) s'

namespace Told

variable {s s' s'' : Screen} {call : HostCall} {calls calls' : List HostCall}

theorem append (h : Told s calls s') (h' : Told s' calls' s'') : Told s (calls ++ calls') s'' := by
  induction h with
  | nil s => exact h'
  | cons hlacks hrest ih => exact .cons hlacks (ih h')

theorem replay_eq (h : Told s calls s') : s.replay calls = s' := by
  induction h with
  | nil s => rfl
  | cons hlacks hrest ih => exact ih

/-- Just before a call, what it asks for is not shown. -/
theorem lacks {before rest : List HostCall} (h : Told s (before ++ call :: rest) s') :
    (s.replay before).Lacks call := by
  induction before generalizing s with
  | nil =>
    cases h with
    | cons hlacks hrest => exact hlacks
  | cons first before ih =>
    cases h with
    | cons hlacks hrest => exact ih hrest

theorem cursors (h : Told s calls s') :
    (s.cursor :: calls.filterMap HostCall.cursor?).IsChain (· ≠ ·) := by
  induction h with
  | nil s => exact .singleton _
  | @cons s s' call calls hlacks hrest ih =>
    cases call with
    | setBounds region bounds => exact ih
    | setCursor cursor => exact .cons_cons hlacks ih
    | notify notice => exact ih

end Told

end Screen

namespace Layout

open Screen (Told)

variable {W : Type} {l l' : Layout W} {ops : List (Operation W)}

/-- The screen that goes with a layout. -/
def screen (l : Layout W) : Screen := ⟨l.store.boundsOf?, l.gesture.cursor⟩

/-- Calls for the regions whose bounds are not shown yet lead to a screen that differs in these regions
only. -/
theorem told_boundsCalls {ids : List RegionId} {shown shown' : RegionId → Option Rect} {cursor : Cursor}
    (hnodup : ids.Nodup) (hlive : ∀ id ∈ ids, id ∈ l.store.ids)
    (hlacks : ∀ id ∈ ids, shown id ≠ l.store.boundsOf? id)
    (hnew : ∀ id ∈ ids, shown' id = l.store.boundsOf? id) (hold : ∀ id, id ∉ ids → shown' id = shown id) :
    Told ⟨shown, cursor⟩ (l.boundsCalls ids) ⟨shown', cursor⟩ := by
  induction ids generalizing shown with
  | nil =>
    obtain rfl : shown' = shown := funext fun id => hold id List.not_mem_nil
    exact .nil _
  | cons id ids ih =>
    obtain ⟨hfresh, hnodup⟩ := List.nodup_cons.1 hnodup
    obtain ⟨bounds, hbounds⟩ :=
      Option.isSome_iff_exists.1 (RegionStore.isSome_boundsOf?.2 (hlive id List.mem_cons_self))
    have hcalls : l.boundsCalls (id :: ids) = .setBounds id bounds :: l.boundsCalls ids := by
      obtain ⟨r, hr, rfl⟩ := Option.map_eq_some_iff.1 hbounds
      rw [boundsCalls, List.filterMap_cons, hr]
      rfl
    have hkept : ∀ other, other ≠ id → Function.update shown id (some bounds) other = shown other :=
      fun other hne => Function.update_of_ne hne _ _
    rw [hcalls]
    refine .cons ?_ (ih hnodup (fun other hother => hlive other (List.mem_cons_of_mem _ hother)) ?_
      (fun other hother => hnew other (List.mem_cons_of_mem _ hother)) fun other hother => ?_)
    · change shown id ≠ some bounds
      rw [← hbounds]
      exact hlacks id List.mem_cons_self
    · intro other hother
      rw [hkept other (ne_of_mem_of_not_mem hother hfresh)]
      exact hlacks other (List.mem_cons_of_mem _ hother)
    · by_cases hsame : other = id
      · rw [hsame, Function.update_self, ← hbounds]
        exact hnew id List.mem_cons_self
      · rw [hkept other hsame]
        exact hold other (List.not_mem_cons_of_ne_of_not_mem hsame hother)

theorem told_changeCalls (hids : l'.store.ids = l.store.ids) (hnodup : l.store.ids.Nodup) (cursor : Cursor) :
    Told ⟨l.store.boundsOf?, cursor⟩ (l'.changeCalls l) ⟨l'.store.boundsOf?, cursor⟩ := by
  have hchanged : ∀ id, id ∈ l'.store.changedSince l.store.bounds ↔
      id ∈ l.store.ids ∧ l'.store.boundsOf? id ≠ l.store.boundsOf? id := by
    intro id
    rw [RegionStore.changedSince_eq hids hnodup, List.mem_filter, decide_eq_true_iff]
  have hgone : ∀ k : Layout W, ∀ id, id ∉ k.store.ids → k.store.boundsOf? id = none := fun k id hid =>
    Option.not_isSome_iff_eq_none.1 (mt RegionStore.isSome_boundsOf?.1 hid)
  unfold changeCalls
  refine told_boundsCalls ?_ (fun id hid => hids ▸ ((hchanged id).1 hid).1)
    (fun id hid => ((hchanged id).1 hid).2.symm) (fun _ _ => rfl) fun id hsame => ?_
  · rw [RegionStore.changedSince_eq hids hnodup]
    exact hnodup.filter _
  · rw [hchanged, not_and_not_right] at hsame
    by_cases hid : id ∈ l.store.ids
    · exact hsame hid
    -- For a region that is not there nothing is shown, before and after.
    · rw [hgone l id hid, hgone l' id (hids ▸ hid)]

theorem told_showCursor (l : Layout W) (cursor : Cursor) :
    Told l.screen (l.showCursor cursor).calls (l.showCursor cursor).layout.screen := by
  unfold showCursor
  split
  · exact .nil _
  · next hne => exact .cons hne (.nil _)

theorem told_rearranged (hr : Rearranged l l') (hnodup : l.store.ids.Nodup) (notice : Notice) :
    Told l.screen (l'.changeCalls l ++ [.notify notice]) l'.screen := by
  have htold := told_changeCalls hr.ids hnodup l.gesture.cursor
  rw [screen, screen, hr.gesture]
  exact htold.append (.cons trivial (.nil _))

theorem told_react (hnodup : l.store.ids.Nodup) {event : PointerEvent} {o : Reaction W}
    (h : Reacts l event o) : Told l.screen o.calls o.layout.screen := by
  cases h with
  | ignored consumed reason => exact .nil _
  | hovered grasp hidle => exact told_showCursor l _
  | left hidle => exact told_showCursor l _
  | armed grasp hidle => exact told_showCursor (l.arm grasp event.position) _
  | dragged grasp origin requested limits moved hphase hmoved =>
    exact told_rearranged (drag_rearranged hmoved) hnodup .dragged
  | released grasp hphase => exact .nil _
  | committed grasp requested moved hphase hmoved =>
    exact told_rearranged (move_rearranged hmoved) hnodup .changed

theorem told_handlePointer (hnodup : l.store.ids.Nodup) {event : PointerEvent} {o : Outcome W Bool}
    (h : l.handlePointer event = .ok o) : Told l.screen o.calls o.layout.screen := by
  obtain ⟨reaction, hreact, rfl⟩ := handlePointer_eq_ok h
  exact told_react hnodup hreact

theorem told_rewind {o : Outcome W Bool} (h : Rewinds l o) (hnodup : l.store.ids.Nodup) :
    Told l.screen o.calls o.layout.screen := by
  cases h with
  | unkept hnone => exact .nil _
  | restored start back changed hstart hback hchanged =>
    have hids := (SameRegions.restore hback).ids
    have htold := told_changeCalls hids hnodup l.gesture.cursor
    rw [changeCalls, ← (restore_eq_ok hback hchanged).2.2] at htold
    have hcursor : back.layout.gesture.cursor = l.gesture.cursor := by rw [gesture_restore hback]
    rw [screen, screen, hcursor]
    exact htold
  | refused start e hstart hrefused => exact .nil _

theorem told_cancel (hnodup : l.store.ids.Nodup) {reason : CancelReason} {o : Outcome W Bool}
    (h : Cancels l reason o) : Told l.screen o.calls o.layout.screen := by
  cases h with
  | nothing hidle => exact .nil _
  | canceled grasp back hphase hback =>
    have htold := told_rewind hback hnodup
    exact htold.append (told_showCursor back.layout .default)

theorem told_handleResize (hnodup : l.store.ids.Nodup) {target : Rect} {o : Outcome W Bool}
    (h : l.handleResize target = .ok o) : Told l.screen o.calls o.layout.screen := by
  obtain ⟨first, second, hfirst, hsecond, rfl⟩ := handleResize_eq_ok h
  have hbroken : Told l.screen first.calls first.layout.screen ∧ first.layout.store.ids = l.store.ids := by
    rcases breakOff_eq_ok hfirst with hcanceled | ⟨-, rfl⟩
    · exact ⟨told_cancel hnodup hcanceled, (SameRegions.cancel hcanceled).ids⟩
    · exact ⟨.nil _, rfl⟩
  have hr := resize_rearranged hsecond
  have htold := told_changeCalls hr.ids (hbroken.2 ▸ hnodup) first.layout.gesture.cursor
  refine hbroken.1.append ?_
  rw [screen, screen, hr.gesture]
  exact htold

theorem told_handle (hnodup : l.store.ids.Nodup) {event : Event} {o : Outcome W Bool}
    (h : l.handle event = .ok o) : Told l.screen o.calls o.layout.screen := by
  unfold handle at h
  split at h
  · exact told_handlePointer hnodup h
  · exact told_handleResize hnodup h
  · cases h
    exact .nil _
  · exact told_cancel hnodup (cancel_eq_ok h)
  · exact told_cancel hnodup (cancel_eq_ok h)

theorem told_perform (hnodup : l.store.ids.Nodup) {op : Operation W} (hop : op.IsEvent) {o : Outcome W Unit}
    (h : l.perform op = .ok o) : Told l.screen o.calls o.layout.screen := by
  cases op with
  | handlePointer event =>
    obtain ⟨handled, hhandled, rfl⟩ := Checked.map_eq_ok.1 h
    exact told_handlePointer hnodup hhandled
  | handle event =>
    obtain ⟨handled, hhandled, rfl⟩ := Checked.map_eq_ok.1 h
    exact told_handle hnodup hhandled
  | cancelDrag =>
    obtain ⟨canceled, hcanceled, rfl⟩ := Checked.map_eq_ok.1 h
    exact told_cancel hnodup (cancel_eq_ok hcanceled)
  | _ => exact hop.elim

theorem told_run (hnodup : l.store.ids.Nodup) (hops : ∀ op ∈ ops, op.IsEvent) {o : Outcome W Unit}
    (h : l.run ops = .ok o) : Told l.screen o.calls o.layout.screen := by
  induction ops generalizing l o with
  | nil =>
    cases h
    exact .nil _
  | cons op ops ih =>
    obtain ⟨first, last, hfirst, hlast, rfl⟩ := run_cons_eq_ok.1 h
    have hop := hops op List.mem_cons_self
    have hids := (SameRegions.perform hop.keepsRegions hfirst).ids
    exact (told_perform hnodup hop hfirst).append
      (ih (hids ▸ hnodup) (fun op hop => hops op (List.mem_cons_of_mem _ hop)) hlast)

/-- A host that carries out the calls of events shows after each event what the layout has, is never
asked for bounds that it shows already, and never for a cursor twice in a row. -/
theorem replay_run (hnodup : l.store.ids.Nodup) (hops : ∀ op ∈ ops, op.IsEvent) {o : Outcome W Unit}
    (h : l.run ops = .ok o) :
    (∀ done, done <+: ops → ∃ mid, l.run done = .ok mid ∧ mid.calls <+: o.calls ∧
      (l.screen.replay mid.calls).bounds = mid.layout.store.boundsOf?) ∧
    (∀ before region bounds rest, o.calls = before ++ .setBounds region bounds :: rest →
      (l.screen.replay before).bounds region ≠ some bounds) ∧
    (l.gesture.cursor :: o.calls.filterMap HostCall.cursor?).IsChain (· ≠ ·) := by
  have htold := told_run hnodup hops h
  refine ⟨?_, fun before region bounds rest hcalls => ?_, htold.cursors⟩
  · rintro done ⟨rest, rfl⟩
    obtain ⟨mid, last, hmid, -, rfl⟩ := run_append h
    have hdone := told_run hnodup (fun op hop => hops op (List.mem_append_left _ hop)) hmid
    exact ⟨mid, hmid, List.prefix_append _ _, by rw [hdone.replay_eq]; rfl⟩
  · rw [hcalls] at htold
    exact htold.lacks

/-- The line between the columns is announced, pressed and dragged, until the container is resized. -/
def interrupted : List (Operation Unit) :=
  [.handlePointer { motion := .moved, position := ⟨11, 5⟩ },
    .handlePointer { motion := .down .left, position := ⟨11, 5⟩ },
    .handlePointer { motion := .drag .left, position := ⟨22, 5⟩ }, .handle (.resize ⟨0, 0, 40, 10⟩)]

theorem replay_run_folded : ∃ o, folded.run interrupted = .ok o ∧
    o.layout.store.bounds = [⟨0, 0, 20, 10⟩, ⟨20, 0, 0, 10⟩, ⟨20, 0, 20, 10⟩] ∧
      (folded.screen.replay o.calls).bounds = o.layout.store.boundsOf? ∧
      (Cursor.default :: o.calls.filterMap HostCall.cursor?).IsChain (· ≠ ·) := by
  obtain ⟨o, h, hbounds⟩ : ∃ o, folded.run interrupted = .ok o ∧
    o.layout.store.bounds = [⟨0, 0, 20, 10⟩, ⟨20, 0, 0, 10⟩, ⟨20, 0, 20, 10⟩] := ⟨_, rfl, by decide⟩
  obtain ⟨hshown, -, hcursors⟩ := replay_run (by decide) (by simp [interrupted, Operation.IsEvent]) h
  obtain ⟨mid, hmid, -, hreplay⟩ := hshown interrupted (List.prefix_refl _)
  obtain rfl := Except.ok.inj (h.symm.trans hmid)
  exact ⟨o, h, hbounds, hreplay, hcursors⟩

end Layout

end Mosaic
