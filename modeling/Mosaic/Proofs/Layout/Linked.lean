import Mosaic.Proofs.Layout.Break
import Mosaic.Proofs.Layout.Lifecycle

/-! The log of the steps of drags. Whatever is done to a layout, its steps are numbered without a gap, each
starts in the phase in which the one before it ended, and the present phase is the one that the last of them
led to. -/
namespace Mosaic

/-- The log goes on from the phase `p` after `n` steps and ends in the phase `q`. -/
inductive Transition.Linked : Nat → Phase → List Transition → Phase → Prop
  | nil (n : Nat) (p : Phase) : Linked n p [] p
  | cons {n : Nat} {p q : Phase} {t : Transition} {rest : List Transition} (hnumber : t.number = n + 1)
      (hbefore : t.before = p) (hrest : Linked (n + 1) t.after rest q) : Linked n p (t :: rest) q

namespace Transition.Linked

variable {n : Nat} {p q r : Phase} {log rest : List Transition}

theorem append (h : Linked n p log q) (h' : Linked (n + log.length) q rest r) : Linked n p (log ++ rest) r := by
  induction h with
  | nil n p => exact h'
  | @cons n p q t log hnumber hbefore hrest ih =>
    refine .cons hnumber hbefore (ih ?_)
    rw [Nat.add_right_comm]
    exact h'

theorem numbers (h : Linked n p log q) : log.map (·.number) = List.range' (n + 1) log.length := by
  induction h with
  | nil n p => rfl
  | cons hnumber hbefore hrest ih => rw [List.map_cons, hnumber, ih, List.length_cons, List.range'_succ]

theorem head (h : Linked n p log q) : ∀ t ∈ log.head?, t.before = p := by
  cases h with
  | nil => simp
  | cons hnumber hbefore hrest => simpa using hbefore

theorem isChain (h : Linked n p log q) : log.IsChain fun s t => t.before = s.after := by
  induction h with
  | nil n p => exact .nil
  | cons hnumber hbefore hrest ih => exact List.isChain_cons.2 ⟨hrest.head, ih⟩

theorem last (h : Linked n p log q) : q = log.getLast?.elim p (·.after) := by
  induction h with
  | nil n p => rfl
  | @cons n p q t rest hnumber hbefore hrest ih =>
    rw [List.getLast?_cons, ih]
    cases rest.getLast? with
    | none => rfl
    | some s => rfl

end Transition.Linked

theorem Outcome.transitions_after {W α β : Type} (o : Outcome W α) (before : Outcome W β) :
    (o.after before).transitions = before.transitions ++ o.transitions := List.filterMap_append

namespace Layout

open Transition (Linked)

variable {W α β : Type} {l : Layout W} {g : Gesture}

/-- What an operation does to a gesture it records, as one step with the next number, or it does nothing to
it. -/
inductive Records (g : Gesture) (o : Outcome W α) : Prop
  | nothing (hgesture : o.layout.gesture.phase = g.phase) (hcount : o.layout.gesture.count = g.count)
      (hlast : o.layout.gesture.last = g.last) (htransitions : o.transitions = [])
  | step (t : Transition) (hnumber : t.number = g.nextNumber) (hbefore : t.before = g.phase)
      (hafter : t.after = o.layout.gesture.phase) (hcount : o.layout.gesture.count = t.number)
      (hlast : o.layout.gesture.last = some t) (htransitions : o.transitions = [t])

namespace Records

theorem untouched {o : Outcome W α} (hgesture : o.layout.gesture = g) (htransitions : o.transitions = []) :
    Records g o :=
  .nothing (by rw [hgesture]) (by rw [hgesture]) (by rw [hgesture]) htransitions

theorem followed {first : Outcome W β} {o : Outcome W α} (h : Records g first)
    (hgesture : o.layout.gesture = first.layout.gesture) (htransitions : o.transitions = first.transitions) :
    Records g o := by
  cases h with
  | nothing hphase hcount hlast hnone =>
    exact .nothing (by rw [hgesture, hphase]) (by rw [hgesture, hcount]) (by rw [hgesture, hlast])
      (htransitions.trans hnone)
  | step t hnumber hbefore hafter hcount hlast hone =>
    exact .step t hnumber hbefore (by rw [hgesture, hafter]) (by rw [hgesture, hcount])
      (by rw [hgesture, hlast]) (htransitions.trans hone)

theorem recordStep {o : Outcome W α} (hcount : o.layout.gesture.count = g.count) (htransitions : o.transitions = [])
    (effect : Effect) : Records g (Layout.recordStep g.phase effect o) := by
  refine .step _ ?_ rfl rfl rfl rfl (transitions_recordStep htransitions g.phase effect)
  exact congrArg (fun n => min (n + 1) Transition.lastNumber) hcount

theorem count_react {event : PointerEvent} {o : Reaction W} (h : Reacts l event o) :
    o.layout.gesture.count = l.gesture.count := by
  cases h with
  | ignored consumed reason => rfl
  | hovered grasp hidle => rw [showCursor_eq]
  | left hidle => rw [unhover, showCursor_eq]
  | armed grasp hidle =>
    rw [showCursor_eq]
    rfl
  | dragged grasp origin requested limits moved hphase hmoved =>
    change moved.layout.gesture.count = _
    rw [(drag_rearranged hmoved).gesture]
  | released grasp hphase => rfl
  | committed grasp requested moved hphase hmoved =>
    change moved.layout.gesture.count = _
    rw [(move_rearranged hmoved).gesture]

theorem count_rewind {o : Outcome W Bool} (h : Rewinds l o) : o.layout.gesture.count = l.gesture.count := by
  cases h with
  | unkept hnone => rfl
  | restored start back changed hstart hback => rw [gesture_restore hback]
  | refused start e hstart hrefused => rfl

theorem handlePointer {event : PointerEvent} {o : Outcome W Bool} (h : l.handlePointer event = .ok o) :
    Records l.gesture o := by
  obtain ⟨reaction, hreact, rfl⟩ := handlePointer_eq_ok h
  exact recordStep (o := { reaction with value := reaction.value.1 }) (count_react hreact)
    (transitions_react hreact) _

theorem cancel {reason : CancelReason} {o : Outcome W Bool} (h : Cancels l reason o) : Records l.gesture o := by
  cases h with
  | nothing hidle => exact recordStep (o := { value := false, layout := l }) rfl rfl _
  | canceled grasp back hphase hback =>
    have hcount : (back.layout.showCursor .default).layout.gesture.count = l.gesture.count := by
      simpa only [showCursor_eq] using count_rewind hback
    exact recordStep (o := Outcome.mk true _ back.journal _) hcount (transitions_rewind (o := back) hback) _

theorem handleResize {target : Rect} {o : Outcome W Bool} (h : l.handleResize target = .ok o) :
    Records l.gesture o := by
  obtain ⟨first, second, hfirst, hsecond, rfl⟩ := handleResize_eq_ok h
  have hbroken : Records l.gesture first := by
    rcases breakOff_eq_ok hfirst with hcanceled | ⟨-, rfl⟩
    · exact cancel hcanceled
    · exact untouched rfl rfl
  refine hbroken.followed (resize_rearranged hsecond).gesture (Entry.transitions_append.trans ?_)
  rw [show Entry.transitions second.journal = [] from transitions_resize hsecond, List.append_nil]
  rfl

theorem handle {event : Event} {o : Outcome W Bool} (h : l.handle event = .ok o) : Records l.gesture o := by
  unfold Layout.handle at h
  split at h
  · exact handlePointer h
  · exact handleResize h
  · cases h
    exact untouched rfl rfl
  · exact cancel (cancel_eq_ok h)
  · exact cancel (cancel_eq_ok h)

theorem abandonDrag (l : Layout W) : Records l.gesture l.abandonDrag := by
  unfold Layout.abandonDrag
  split
  · exact untouched rfl rfl
  · exact .step _ rfl rfl rfl rfl rfl rfl

theorem removeRegion (l : Layout W) (id : RegionId) : Records l.gesture (l.removeRegion id) := by
  unfold Layout.removeRegion
  split
  · exact untouched rfl rfl
  · exact (abandonDrag { l with
      store := l.store.erase id, anchor := if l.anchor = some id then none else l.anchor }).followed rfl rfl

theorem perform_untouched {op : Operation W} (hop : ¬ op.IsStep) {o : Outcome W Unit}
    (h : l.perform op = .ok o) : o.layout.gesture = l.gesture ∧ o.transitions = [] := by
  cases op with
  | addRegion widget bounds =>
    obtain ⟨added, hadded, rfl⟩ := Checked.map_eq_ok.1 h
    obtain ⟨box, hbox⟩ := exists_addRegion hadded
    rw [hbox]
    exact ⟨rfl, rfl⟩
  | removeRegion id => exact absurd (.inr ⟨id, rfl⟩) hop
  | setAnchor id =>
    obtain ⟨anchor, hanchor⟩ := l.exists_setAnchor id
    cases h
    rw [hanchor]
    exact ⟨rfl, rfl⟩
  | enableSizeRange minWidth minHeight =>
    obtain ⟨settings, rfl⟩ := perform_enableSizeRange h
    exact ⟨rfl, rfl⟩
  | syncMinSizes preferred =>
    obtain ⟨store, hstore⟩ := l.exists_syncMinSizes preferred
    cases h
    rw [hstore]
    exact ⟨rfl, rfl⟩
  | applyPatch patch =>
    obtain ⟨applied, happlied, rfl⟩ := Checked.map_eq_ok.1 h
    exact ⟨(applyPatch_rearranged happlied).gesture, transitions_applyPatch happlied⟩
  | drag held goal =>
    obtain ⟨moved, hmoved, rfl⟩ := Checked.map_eq_ok.1 h
    exact ⟨(drag_rearranged hmoved).gesture, transitions_drag hmoved⟩
  | move held goal =>
    obtain ⟨moved, hmoved, rfl⟩ := Checked.map_eq_ok.1 h
    exact ⟨(move_rearranged hmoved).gesture, transitions_move hmoved⟩
  | resize target =>
    obtain ⟨resized, hresized, rfl⟩ := Checked.map_eq_ok.1 h
    exact ⟨(resize_rearranged hresized).gesture, transitions_resize hresized⟩
  | restore s =>
    obtain ⟨back, hback, rfl⟩ := Checked.map_eq_ok.1 h
    exact ⟨gesture_restore hback, transitions_restore hback⟩
  | handlePointer event => exact absurd (.inl trivial) hop
  | handle event => exact absurd (.inl trivial) hop
  | cancelDrag => exact absurd (.inl trivial) hop
  | _ =>
    cases h
    exact ⟨rfl, rfl⟩

theorem perform {op : Operation W} {o : Outcome W Unit} (h : l.perform op = .ok o) : Records l.gesture o := by
  by_cases hop : op.IsStep
  · rcases hop with hop | ⟨id, rfl⟩
    · cases op with
      | handlePointer event =>
        obtain ⟨handled, hhandled, rfl⟩ := Checked.map_eq_ok.1 h
        exact (handlePointer hhandled).followed rfl rfl
      | handle event =>
        obtain ⟨handled, hhandled, rfl⟩ := Checked.map_eq_ok.1 h
        exact (handle hhandled).followed rfl rfl
      | cancelDrag =>
        obtain ⟨canceled, hcanceled, rfl⟩ := Checked.map_eq_ok.1 h
        exact (cancel (cancel_eq_ok hcanceled)).followed rfl rfl
      | _ => exact hop.elim
    · cases h
      exact (removeRegion l id).followed rfl rfl
  · obtain ⟨hgesture, htransitions⟩ := perform_untouched hop h
    exact untouched hgesture htransitions

/-- What is recorded links up, as long as there are numbers. -/
theorem linked {o : Outcome W α} (h : Records g o)
    (hnumbers : g.count + o.transitions.length ≤ Transition.lastNumber) :
    Linked g.count g.phase o.transitions o.layout.gesture.phase ∧
      o.layout.gesture.count = g.count + o.transitions.length ∧
        o.layout.gesture.last = o.transitions.getLast?.or g.last := by
  cases h with
  | nothing hphase hcount hlast hnone =>
    rw [hnone, hphase]
    exact ⟨.nil _ _, hcount, hlast⟩
  | step t hnumber hbefore hafter hcount hlast hone =>
    rw [hone] at hnumbers ⊢
    have hnext : t.number = g.count + 1 := hnumber.trans (Nat.min_eq_left hnumbers)
    exact ⟨.cons hnext hbefore (hafter ▸ .nil _ _), hcount.trans hnext, hlast⟩

theorem linked_run {ops : List (Operation W)} {o : Outcome W Unit} (h : l.run ops = .ok o)
    (hnumbers : l.gesture.count + o.transitions.length ≤ Transition.lastNumber) :
    Linked l.gesture.count l.gesture.phase o.transitions o.layout.gesture.phase ∧
      o.layout.gesture.last = o.transitions.getLast?.or l.gesture.last := by
  induction ops generalizing l o with
  | nil =>
    cases h
    exact ⟨.nil _ _, rfl⟩
  | cons op ops ih =>
    obtain ⟨first, rest, hfirst, hrest, rfl⟩ := run_cons_eq_ok.1 h
    rw [Outcome.transitions_after] at hnumbers ⊢
    rw [List.length_append, ← Nat.add_assoc] at hnumbers
    obtain ⟨hlinked, hcount, hlast⟩ := (perform hfirst).linked (Nat.le_of_add_right_le hnumbers)
    obtain ⟨hlinkedRest, hlastRest⟩ := ih hrest (hcount ▸ hnumbers)
    refine ⟨hlinked.append (hcount ▸ hlinkedRest), ?_⟩
    change rest.layout.gesture.last = _
    rw [hlastRest, hlast, List.getLast?_append, Option.or_assoc]

end Records

/-- The log is a chain without gaps. From the creation of a layout on, whatever is done to it, the recorded
steps are numbered from one on, the first starts without a drag, each starts where the one before it ended,
and the layout is left in the phase that the last of them led to. -/
theorem chain_run {bounds : Rect} {settings : Settings} {start : Layout W}
    (hstart : create bounds settings = .ok start) {ops : List (Operation W)} {o : Outcome W Unit}
    (h : start.run ops = .ok o) (hnumbers : o.transitions.length ≤ Transition.lastNumber) :
    o.transitions.map (·.number) = List.range' 1 o.transitions.length ∧
      (∀ t ∈ o.transitions.head?, t.before = .idle) ∧
      (o.transitions.IsChain fun s t => t.before = s.after) ∧
      o.layout.gesture.phase = o.transitions.getLast?.elim .idle (·.after) ∧
      o.layout.gesture.last = o.transitions.getLast? := by
  obtain ⟨valid, rfl⟩ := create_eq_ok hstart
  obtain ⟨hlinked, hlast⟩ := Records.linked_run h (by rw [Nat.zero_add]; exact hnumbers)
  exact ⟨hlinked.numbers, hlinked.head, hlinked.isChain, hlinked.last, hlast.trans Option.or_none⟩

/-- Two columns whose line is dragged until the container is resized, then pressed when a column is removed. -/
def broken : List (Operation Unit) :=
  [.addRegion () ⟨0, 0, 50, 100⟩, .addRegion () ⟨50, 0, 50, 100⟩, .handlePointer (pressAt 50),
    .handlePointer (dragAt 60), .handle (.resize ⟨0, 0, 200, 100⟩), .cancelDrag, .handlePointer (pressAt 50),
    .removeRegion ⟨2⟩]

theorem chain_run_broken : ∃ start o, create ⟨0, 0, 100, 100⟩ { restoreOnCancel := true } = .ok start ∧
    start.run broken = .ok o ∧ o.transitions.map (·.number) = [1, 2, 3, 4, 5, 6] ∧
      (o.transitions.IsChain fun s t => t.before = s.after) ∧ o.layout.gesture.phase = .idle := by
  obtain ⟨start, o, hstart, h, hlength, hidle⟩ : ∃ (start : Layout Unit) (o : Outcome Unit Unit),
      create ⟨0, 0, 100, 100⟩ { restoreOnCancel := true } = .ok start ∧ start.run broken = .ok o ∧
        o.transitions.length = 6 ∧ o.transitions.getLast?.elim .idle (·.after) = .idle :=
    ⟨_, _, rfl, rfl, rfl, rfl⟩
  obtain ⟨hnumbers, -, hchain, hphase, -⟩ := chain_run hstart h (by rw [hlength]; decide)
  refine ⟨start, o, hstart, h, ?_, hchain, hphase.trans hidle⟩
  rw [hnumbers, hlength]
  rfl

end Layout

end Mosaic
