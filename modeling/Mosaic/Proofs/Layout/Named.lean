import Mosaic.Proofs.Layout.Classic
import Mosaic.Proofs.Layout.Held
import Mosaic.Proofs.Layout.Linked

/-! The lines that recorded steps of a drag name. A step that ends a drag names the lines that were held when it began.
A step that goes on with a drag names them where they have come, as what is held has been moved by then. -/
namespace Mosaic

namespace Layout

variable {W α : Type} {l before after : Layout W} {held achieved : Grip} {grasp : Grasp} {event : PointerEvent}
  {reason : CancelReason}

/-- Held lines have been moved, and what was achieved tells where they have gone: a move has answered it and left the
regions as they are. Where all bounds are coordinates and no extent is negative, the edges have gone there. -/
structure Leads (before : Layout W) (held achieved : Grip) (after : Layout W) : Prop where
  answered : ∃ goal o, (before.drag held goal = .ok o ∨ before.move held goal = .ok o) ∧ o.value = achieved ∧
    after.store = o.layout.store
  edges : before.Sane → ∀ axis, ∃ m, Rect.MovedWith axis m before.store.bounds after.store.bounds ∧
    achieved.along axis = (held.along axis).map m

theorem Leads.of_drag {goal : Point} {o : Outcome W Grip} (h : before.drag held goal = .ok o)
    (hstore : after.store = o.layout.store) : Leads before held o.value after := by
  refine ⟨⟨goal, o, .inl h, rfl, hstore⟩, fun hs axis => ?_⟩
  rw [hstore]
  exact hs.drag h axis

theorem Leads.of_move {goal : Point} {o : Outcome W Grip} (h : before.move held goal = .ok o)
    (hstore : after.store = o.layout.store) : Leads before held o.value after := by
  refine ⟨⟨goal, o, .inr h, rfl, hstore⟩, fun hs axis => ?_⟩
  rw [hstore]
  exact hs.move h axis

end Layout

/-- What the effect of a step names, if lines were held when it began. -/
def Effect.Names {W : Type} (before after : Layout W) (grasp : Grasp) : Effect → Prop
  | .dragged target _ achieved => target = achieved ∧
      after.gesture.phase.grasp? = some { grasp with grip := achieved } ∧ before.Leads grasp.grip achieved after
  | .committed target achieved => target = grasp.grip ∧ before.Leads grasp.grip achieved after
  | .released target => target = grasp.grip
  | .canceled target _ _ => target = some grasp.grip
  | _ => True

namespace Layout

variable {W α : Type} {l before after : Layout W} {held achieved : Grip} {grasp : Grasp} {event : PointerEvent}
  {reason : CancelReason}

/-- All that is recorded on the way from one layout to another starts in the phase of the first one, and names the lines
that were held in it. -/
def Attests (before : Layout W) (ts : List Transition) (after : Layout W) : Prop :=
  ∀ t ∈ ts, t.before = before.gesture.phase ∧
    ∀ grasp, t.before.grasp? = some grasp → t.effect.Names before after grasp

namespace Attests

theorem nothing (before after : Layout W) : Attests before [] after := by
  intro t ht
  cases ht

theorem recordStep {o : Outcome W α} {effect : Effect} (htransitions : o.transitions = [])
    (h : ∀ grasp, before.gesture.phase.grasp? = some grasp → effect.Names before after grasp) :
    Attests before (Layout.recordStep before.gesture.phase effect o).transitions after := by
  rw [transitions_recordStep htransitions]
  intro t ht
  obtain rfl := List.mem_singleton.1 ht
  exact ⟨rfl, h⟩

theorem handlePointer {o : Outcome W Bool} (h : l.handlePointer event = .ok o) : Attests l o.transitions o.layout := by
  obtain ⟨reaction, hreact, rfl⟩ := handlePointer_eq_ok h
  refine recordStep (o := { reaction with value := reaction.value.1 }) (transitions_react hreact) fun grasp hgrasp => ?_
  cases hreact with
  | ignored consumed reason => trivial
  | hovered kind hidle => trivial
  | left hidle => trivial
  | armed first hidle => trivial
  | dragged grasp' origin requested limits moved hphase hmoved =>
    obtain rfl := Option.some.inj (hphase.symm.trans hgrasp)
    exact ⟨rfl, rfl, .of_drag hmoved rfl⟩
  | released grasp' hphase =>
    obtain rfl := Option.some.inj (hphase.symm.trans hgrasp)
    rfl
  | committed grasp' requested moved hphase hmoved =>
    obtain rfl := Option.some.inj (hphase.symm.trans hgrasp)
    exact ⟨rfl, .of_move hmoved rfl⟩

/-- Breaking off names the lines that were held, whatever is done to the layout afterward. -/
theorem cancel {o : Outcome W Bool} (h : Cancels l reason o) (after : Layout W) : Attests l o.transitions after := by
  cases h with
  | nothing hidle => exact recordStep rfl fun _ _ => trivial
  | canceled grasp back hphase hback =>
    refine recordStep (transitions_rewind (o := back) hback) fun grasp' hgrasp => ?_
    obtain rfl := Option.some.inj (hphase.symm.trans hgrasp)
    rfl

theorem handleResize {target : Rect} {o : Outcome W Bool} (h : l.handleResize target = .ok o) :
    Attests l o.transitions o.layout := by
  obtain ⟨first, second, hfirst, hsecond, rfl⟩ := handleResize_eq_ok h
  have htransitions : Entry.transitions (first.journal ++ second.journal) = first.transitions := by
    rw [Entry.transitions_append, show Entry.transitions second.journal = [] from transitions_resize hsecond,
      List.append_nil]
    rfl
  change Attests l (Entry.transitions (first.journal ++ second.journal)) _
  rw [htransitions]
  rcases breakOff_eq_ok hfirst with hcanceled | ⟨-, rfl⟩
  · exact cancel hcanceled _
  · exact nothing l _

theorem handle {event : Event} {o : Outcome W Bool} (h : l.handle event = .ok o) :
    Attests l o.transitions o.layout := by
  unfold Layout.handle at h
  split at h
  · exact handlePointer h
  · exact handleResize h
  · cases h
    exact nothing l l
  · exact cancel (cancel_eq_ok h) _
  · exact cancel (cancel_eq_ok h) _

theorem abandonDrag (h : l.gesture.phase = before.gesture.phase) (after : Layout W) :
    Attests before l.abandonDrag.transitions after := by
  unfold Layout.abandonDrag
  split
  · exact nothing before after
  · next grasp hgrasp =>
    intro t ht
    obtain rfl := List.mem_singleton.1 ht
    refine ⟨h, fun grasp' hgrasp' => ?_⟩
    obtain rfl := Option.some.inj (hgrasp.symm.trans hgrasp')
    rfl

theorem removeRegion (l : Layout W) (id : RegionId) (after : Layout W) :
    Attests l (l.removeRegion id).transitions after := by
  unfold Layout.removeRegion
  split
  · exact nothing l after
  · have hsame : Layout.gesture { l with
        store := l.store.erase id, anchor := if l.anchor = some id then none else l.anchor } = l.gesture := rfl
    exact abandonDrag (congrArg Gesture.phase hsame) after

theorem perform {op : Operation W} {o : Outcome W Unit} (h : l.perform op = .ok o) :
    Attests l o.transitions o.layout := by
  by_cases hop : op.IsStep
  · rcases hop with hop | ⟨id, rfl⟩
    · cases op with
      | handlePointer event =>
        obtain ⟨handled, hhandled, rfl⟩ := Checked.map_eq_ok.1 h
        exact handlePointer hhandled
      | handle event =>
        obtain ⟨handled, hhandled, rfl⟩ := Checked.map_eq_ok.1 h
        exact handle hhandled
      | cancelDrag =>
        obtain ⟨canceled, hcanceled, rfl⟩ := Checked.map_eq_ok.1 h
        exact cancel (cancel_eq_ok hcanceled) _
      | _ => exact hop.elim
    · cases h
      exact removeRegion l id _
  · obtain ⟨-, hnone⟩ := Records.perform_untouched hop h
    rw [hnone]
    exact nothing l o.layout

end Attests

/-- Whatever is done to a layout, every step that is recorded was taken by one of the operations, and starts in the phase
in which that found the layout. If lines were held then, the end of the drag names these, whether it is released,
committed or canceled, and a drag that goes on names the lines it holds from then on. What was achieved tells where the
held ones have gone. -/
theorem names_run {ops : List (Operation W)} {o : Outcome W Unit} (h : l.run ops = .ok o) :
    ∀ t ∈ o.transitions, ∃ done op mid step, done ++ [op] <+: ops ∧ l.run done = .ok mid ∧
      mid.layout.perform op = .ok step ∧ t ∈ step.transitions ∧ t.before = mid.layout.gesture.phase ∧
        ∀ grasp, t.before.grasp? = some grasp → t.effect.Names mid.layout step.layout grasp := by
  intro t ht
  induction ops generalizing l o with
  | nil =>
    cases h
    cases ht
  | cons op ops ih =>
    obtain ⟨first, last, hfirst, hlast, rfl⟩ := run_cons_eq_ok.1 h
    rw [Outcome.transitions_after] at ht
    rcases List.mem_append.1 ht with ht | ht
    · obtain ⟨hbefore, hnames⟩ := Attests.perform hfirst t ht
      exact ⟨[], op, l.changedTo, first, ⟨ops, rfl⟩, rfl, hfirst, ht, hbefore, hnames⟩
    · obtain ⟨done, op', mid, step, ⟨rest, hrest⟩, hmid, hstep, hnames⟩ := ih hlast ht
      exact ⟨op :: done, op', mid.after first, step, ⟨rest, congrArg (op :: ·) hrest⟩,
        run_cons_eq_ok.2 ⟨first, mid, hfirst, hmid, rfl⟩, hstep, hnames⟩

/-- The line between the columns is dragged by ten pixels, with a step on the way. -/
def pulled : List (Operation Unit) :=
  [.handlePointer (pressAt 10), .handlePointer (dragAt 15), .handlePointer (dragAt 20),
    .handlePointer { motion := .up .left, position := ⟨20, 5⟩ }]

/-- The step in the middle names where it has taken the line. -/
theorem names_run_pulled : ∃ o, columns.run pulled = .ok o ∧ o.transitions.map (·.effect) =
    [.armed (.vertical 10) ⟨10, 5⟩, .dragged (.vertical 15) ⟨15, 5⟩ (.vertical 15),
      .dragged (.vertical 20) ⟨20, 5⟩ (.vertical 20), .committed (.vertical 20) (.vertical 20)] ∧
    ∀ t ∈ o.transitions, ∃ done op mid step, done ++ [op] <+: pulled ∧ columns.run done = .ok mid ∧
      mid.layout.perform op = .ok step ∧ t ∈ step.transitions ∧ t.before = mid.layout.gesture.phase ∧
        ∀ grasp, t.before.grasp? = some grasp → t.effect.Names mid.layout step.layout grasp := by
  obtain ⟨o, h, heffects⟩ : ∃ o, columns.run pulled = .ok o ∧ o.transitions.map (·.effect) =
      [.armed (.vertical 10) ⟨10, 5⟩, .dragged (.vertical 15) ⟨15, 5⟩ (.vertical 15),
        .dragged (.vertical 20) ⟨20, 5⟩ (.vertical 20), .committed (.vertical 20) (.vertical 20)] :=
    ⟨_, rfl, by decide⟩
  exact ⟨o, h, heffects, names_run h⟩

/-- A step that goes on with a drag does not name the lines that were held when it began. -/
theorem not_names_held : ¬ ∀ (l : Layout Unit) (ops : List (Operation Unit)) (o : Outcome Unit Unit),
    (∀ op ∈ ops, op.IsStep) → l.run ops = .ok o → ∀ t ∈ o.transitions, ∀ grasp, t.before.grasp? = some grasp →
      ∀ target requested achieved, t.effect = .dragged target requested achieved → target = grasp.grip := by
  intro h
  obtain ⟨o, press, step, grasp, hrun, htransitions, hgrasp, hgrip, heffect⟩ :
      ∃ (o : Outcome Unit Unit) (press step : Transition) (grasp : Grasp), columns.run (pulled.take 2) = .ok o ∧
        o.transitions = [press, step] ∧ step.before.grasp? = some grasp ∧ grasp.grip = .vertical 10 ∧
          step.effect = .dragged (.vertical 15) ⟨15, 5⟩ (.vertical 15) :=
    ⟨_, _, _, _, rfl, rfl, rfl, by decide, by decide⟩
  have hsteps : ∀ op ∈ pulled.take 2, op.IsStep := by simp [pulled, Operation.IsStep, Operation.IsEvent]
  have hheld := h columns _ o hsteps hrun step (by simp [htransitions]) grasp hgrasp _ _ _ heffect
  rw [hgrip] at hheld
  exact absurd hheld (by decide)

end Layout

end Mosaic
