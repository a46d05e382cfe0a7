import Mathlib.Logic.Relation
import Mosaic.Proofs.Layout.Alike

/-! Drags that are broken off where a break undoes them. The geometry at the press is kept through the
whole gesture, so an exact cover is had again when it ends, and a resize finds the cover it would have
found before the press. -/
namespace Mosaic.Layout

open Checked

variable {W : Type} {l held held' : Layout W} {event : PointerEvent} {reason : CancelReason}

/-- A drag goes on that began at the geometry of the layout `l`. -/
structure Holds (l held : Layout W) : Prop where
  settings : held.settings = l.settings
  ids : held.store.ids = l.store.ids
  pressed : held.gesture.pressed = some l.snapshot
  active : held.gesture.phase.isActive = true

/-- One more pointer event, after which there still is a drag. -/
def Steers (held held' : Layout W) : Prop :=
  ∃ event o, held.handlePointer event = .ok o ∧ o.layout = held' ∧ held'.gesture.phase.isActive = true

/-- Losing the focus, losing the pointer and the call for it break a drag off alike. -/
theorem perform_eq_cancel (l : Layout W) {op : Operation W}
    (hop : op ∈ [Operation.handle (.focus false), .handle .captureLost, .cancelDrag]) :
    ∃ reason, l.perform op = do return (← l.cancel reason).silent := by
  simp only [List.mem_cons, List.not_mem_nil, or_false] at hop
  rcases hop with rfl | rfl | rfl
  · exact ⟨.focusLost, rfl⟩
  · exact ⟨.captureLost, rfl⟩
  · exact ⟨.requested, rfl⟩

theorem Holds.press (hidle : l.gesture.phase = .idle) (hstrict : l.settings.restoreOnCancel = true)
    {o : Outcome W Bool} (h : l.handlePointer event = .ok o)
    (hactive : o.layout.gesture.phase.isActive = true) : Holds l o.layout := by
  obtain ⟨reaction, hreact, rfl⟩ := handlePointer_eq_ok h
  obtain ⟨grasp, -, -, cursor, hlayout⟩ := hreact.press hidle hactive
  have hholds : Holds l reaction.layout := by
    rw [hlayout]
    exact ⟨rfl, rfl, if_pos hstrict, rfl⟩
  exact ⟨hholds.settings, hholds.ids, hholds.pressed, hactive⟩

theorem Holds.steer (hl : Holds l held) (h : Steers held held') : Holds l held' := by
  obtain ⟨event, o, h, rfl, hactive⟩ := h
  obtain ⟨reaction, hreact, rfl⟩ := handlePointer_eq_ok h
  have hholds : Holds l reaction.layout := by
    rcases hreact.steer hl.active hactive with hlayout | ⟨grasp, limits, requested, moved, origin, -, hmoved, hlayout⟩
    · exact hlayout ▸ hl
    · have hr := drag_rearranged hmoved
      rw [hlayout]
      exact ⟨hr.settings.trans hl.settings, hr.ids.trans hl.ids, hr.gesture ▸ hl.pressed, rfl⟩
  exact ⟨hholds.settings, hholds.ids, hholds.pressed, hactive⟩

theorem Holds.steers (hl : Holds l held) (h : Relation.ReflTransGen Steers held held') : Holds l held' := by
  induction h with
  | refl => exact hl
  | tail _ hstep ih => exact ih.steer hstep

/-- What a break leaves when the drag has been undone. -/
structure Undone (l : Layout W) (reason : CancelReason) (o : Outcome W Bool) : Prop where
  alike : Alike l o.layout
  phase : o.layout.gesture.phase = .idle
  restored : ∃ step target, o.layout.gesture.last = some step ∧ step.after = .idle ∧
    step.effect = .canceled (some target) reason true

section

variable (hnodup : l.store.ids.Nodup) (hanchor : ∀ id, l.anchor = some id → id ∈ l.store.ids)
  (hcontainer : l.bounds.Solid) (hsharp : ∀ r ∈ l.store.bounds, r.Sharp)
  (ht : l.bounds.Tile l.store.bounds)
include hnodup hanchor hcontainer hsharp ht

/-- Breaking off the drag goes back to the geometry at the press. -/
theorem Holds.cancel (hl : Holds l held) (reason : CancelReason) :
    ∃ o, held.cancel reason = .ok o ∧ Undone l reason o := by
  obtain ⟨grasp, hgrasp⟩ := Phase.isActive_iff.1 hl.active
  let cleared : Layout W := { held with gesture := { held.gesture with phase := .idle, pressed := none } }
  have hids : cleared.store.ids = l.store.ids := hl.ids
  obtain ⟨back, changed, hback, hchanged⟩ := exists_restore hnodup hanchor hcontainer hsharp ht hids
  have hrewind : rewind { held with gesture := { held.gesture with phase := .idle } } =
      .ok { back with value := true, calls := back.layout.boundsCalls changed } := by
    simp only [rewind, hl.pressed]
    change (cleared.restore l.snapshot >>= _) = _
    simp only [hback, bind, Except.bind, hchanged]
    rfl
  let canceled : Outcome W Bool := recordStep held.gesture.phase (.canceled (some grasp.grip) reason true) {
    value := true
    layout := (back.layout.showCursor .default).layout
    journal := back.journal
    calls := back.layout.boundsCalls changed ++ (back.layout.showCursor .default).calls }
  have hcancel : held.cancel reason = .ok canceled := by
    simp only [Layout.cancel, hgrasp, hrewind]
    rfl
  have hlayout : canceled.layout.snapshot = (cleared.withSnapshot l.snapshot).snapshot ∧
      canceled.layout.settings = held.settings ∧ canceled.layout.gesture.phase = .idle := by
    simp only [canceled, showCursor_eq, (restore_eq_ok hback hchanged).2.1]
    exact ⟨rfl, rfl, rfl⟩
  refine ⟨canceled, hcancel, ⟨hlayout.2.1.trans hl.settings, hlayout.1.trans ?_⟩, hlayout.2.2, ?_⟩
  · exact snapshot_withSnapshot rfl (l.snapshot_ids.trans hl.ids.symm) (hl.ids ▸ hnodup)
  · exact ⟨_, grasp.grip, rfl, hlayout.2.2, rfl⟩

/-- A resize breaks the drag off before it looks at the geometry. -/
theorem Holds.handleResize (hl : Holds l held) (hidle : l.gesture.phase = .idle) (target : Rect) :
    Agree (fun o o' => o.layout.snapshot = o'.layout.snapshot) (held.handleResize target)
      (l.handleResize target) := by
  obtain ⟨first, hfirst, hundone⟩ := Holds.cancel hnodup hanchor hcontainer hsharp ht hl .containerResized
  have hheld : held.breakOff = .ok first := (if_pos hl.active).trans hfirst
  have hstart : l.breakOff = .ok { value := false, layout := l } := by
    rw [breakOff, hidle]
    rfl
  rw [handleResize_eq, handleResize_eq, hheld, hstart]
  exact (hundone.alike.symm.resize target).bind fun o o' _ _ ho => .ok ho.layout.snapshot.symm

/-- Where a break undoes drags, an exact cover is had again after every drag that is broken off, and a
resize during a drag leaves what it would have left before the press. -/
theorem break_of_steers (hstrict : l.settings.restoreOnCancel = true) (hidle : l.gesture.phase = .idle)
    {pressed : Outcome W Bool} (hpress : l.handlePointer event = .ok pressed)
    (harmed : pressed.layout.gesture.phase.isActive = true)
    (hsteers : Relation.ReflTransGen Steers pressed.layout held) :
    (∀ op ∈ [Operation.handle (.focus false), .handle .captureLost, .cancelDrag],
      ∃ o, held.perform op = .ok o ∧ o.layout.snapshot = l.snapshot ∧ o.layout.gesture.phase = .idle ∧
        ∃ step target reason, o.layout.gesture.last = some step ∧ step.after = .idle ∧
          step.effect = .canceled (some target) reason true) ∧
    ∀ target, Agree (fun o o' => o.layout.snapshot = o'.layout.snapshot)
      (held.handle (.resize target)) (l.handle (.resize target)) := by
  have hl : Holds l held := (Holds.press hidle hstrict hpress harmed).steers hsteers
  refine ⟨fun op hop => ?_, Holds.handleResize hnodup hanchor hcontainer hsharp ht hl hidle⟩
  obtain ⟨reason, hperform⟩ := held.perform_eq_cancel hop
  obtain ⟨o, ho, hundone⟩ := Holds.cancel hnodup hanchor hcontainer hsharp ht hl reason
  obtain ⟨step, target, hlast⟩ := hundone.restored
  rw [hperform, ho]
  exact ⟨o.silent, rfl, hundone.alike.snapshot, hundone.phase, step, target, reason, hlast⟩

end

/-- The left button goes down, or is held down, at a place. -/
def pressAt (x : Int) : PointerEvent := { motion := .down .left, position := ⟨x, 5⟩ }

def dragAt (x : Int) : PointerEvent := { motion := .drag .left, position := ⟨x, 5⟩ }

theorem break_of_steers_folded : ∃ pressed held, folded.handlePointer (pressAt 11) = .ok pressed ∧
    Relation.ReflTransGen Steers pressed.layout held ∧
      held.store.bounds = [⟨0, 0, 16, 10⟩, ⟨16, 0, 0, 10⟩, ⟨16, 0, 14, 10⟩] ∧
      (∃ o, held.perform .cancelDrag = .ok o ∧ o.layout.snapshot = folded.snapshot) ∧
      Agree (fun o o' => o.layout.snapshot = o'.layout.snapshot)
        (held.handle (.resize ⟨0, 0, 40, 10⟩)) (folded.handle (.resize ⟨0, 0, 40, 10⟩)) := by
  obtain ⟨pressed, hpress, harmed, held, hsteers, hbounds⟩ : ∃ pressed,
      folded.handlePointer (pressAt 11) = .ok pressed ∧ pressed.layout.gesture.phase.isActive = true ∧
      ∃ held, Relation.ReflTransGen Steers pressed.layout held ∧
        held.store.bounds = [⟨0, 0, 16, 10⟩, ⟨16, 0, 0, 10⟩, ⟨16, 0, 14, 10⟩] :=
    ⟨_, rfl, rfl, _, (Relation.ReflTransGen.single ⟨dragAt 22, _, rfl, rfl, rfl⟩).tail
      ⟨dragAt 17, _, rfl, rfl, rfl⟩, by decide⟩
  obtain ⟨hbreaks, hresizes⟩ := break_of_steers (by decide) (by decide) (by decide) (by decide)
    Scene.foldedColumn_tile rfl rfl hpress harmed hsteers
  obtain ⟨o, ho, hsnapshot, -⟩ := hbreaks .cancelDrag (by simp)
  exact ⟨pressed, held, hpress, hsteers, hbounds, ⟨o, ho, hsnapshot⟩, hresizes _⟩

/-- Drags of covers can be undone, where starts are what is asked of them besides. -/
def Undoes (Start : Layout Unit → Prop) : Prop :=
  ∀ (l held : Layout Unit) (event : PointerEvent) (pressed : Outcome Unit Bool), Covering l →
    (∀ id, l.anchor = some id → id ∈ l.store.ids) → Start l → l.settings.restoreOnCancel = true →
    l.gesture.phase = .idle → l.handlePointer event = .ok pressed →
    pressed.layout.gesture.phase.isActive = true → Relation.ReflTransGen Steers pressed.layout held →
    ∃ o, held.perform .cancelDrag = .ok o ∧ o.layout.snapshot = l.snapshot

/-- A drag is not undone where a far edge is cut off, neither the container's nor a region's, also where
the areas add up. -/
theorem not_undoes : ¬ Undoes (fun l => (l.store.bounds.map (·.area)).sum = l.bounds.area) ∧
    ¬ Undoes (fun l => ∀ r ∈ l.store.bounds, r.Sharp) ∧ ¬ Undoes (fun l => l.bounds.Solid) := by
  refine ⟨fun h => ?_, fun h => ?_, fun h => ?_⟩
  · obtain ⟨o, ho, hsnapshot⟩ := h (endColumns { restoreOnCancel := true } 2147483647 2147483597) _
      (pressAt 60) _ (endColumns_covering _ (by decide) (by decide)) (by decide) (by decide) rfl rfl rfl rfl
      (.single ⟨dragAt 70, _, rfl, rfl, rfl⟩)
    cases ho
    exact absurd hsnapshot (by decide)
  · obtain ⟨o, ho, hsnapshot⟩ := h (endColumns { restoreOnCancel := true } 2147483647 2147483587) _
      (pressAt 60) _ (endColumns_covering _ (by decide) (by decide)) (by decide) (by decide) rfl rfl rfl rfl
      (.single ⟨dragAt 70, _, rfl, rfl, rfl⟩)
    cases ho
    exact absurd hsnapshot (by decide)
  · obtain ⟨o, ho, hsnapshot⟩ := h (endColumns { restoreOnCancel := true } 2147483637 2147483647) _
      (pressAt 60) _ (endColumns_covering _ (by decide) (by decide)) (by decide) (by decide) rfl rfl rfl rfl
      (.single ⟨dragAt 70, _, rfl, rfl, rfl⟩)
    cases ho
    exact absurd hsnapshot (by decide)

end Mosaic.Layout
