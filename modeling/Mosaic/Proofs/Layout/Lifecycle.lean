import Mosaic.Proofs.Layout.Recorded

/-! The life of a drag, over runs of events in any order. Each step leads to a stage that may follow the one
before it, and the host is notified of exactly those steps that move lines or end a drag with a change. -/
namespace Mosaic

/-- How far a drag has come. -/
inductive Stage | idle | armed | dragging deriving DecidableEq

/-- The stages that a step can lead to. -/
def Stage.next : Stage → List Stage
  | .idle => [.idle, .armed]
  | .armed => [.armed, .dragging, .idle]
  | .dragging => [.dragging, .idle]

theorem Stage.mem_next_self (s : Stage) : s ∈ s.next := by cases s <;> decide

theorem Stage.idle_mem_next (s : Stage) : .idle ∈ s.next := by cases s <;> decide

def Phase.stage : Phase → Stage
  | .idle => .idle
  | .armed .. => .armed
  | .dragging .. => .dragging

theorem Phase.dragging_mem_next {p : Phase} {grasp : Grasp} (h : p.grasp? = some grasp) :
    .dragging ∈ p.stage.next := by
  cases p with
  | idle => cases h
  | armed => simp [Phase.stage, Stage.next]
  | dragging => simp [Phase.stage, Stage.next]

/-- What the host is notified of when a step has the effect. -/
def Effect.notice? : Effect → Option Notice
  | .dragged .. => some .dragged
  | .committed .. => some .changed
  | _ => none

/-- An event, the end of a drag that the host asks for, or the removal of a region. -/
def Operation.IsStep {W : Type} (op : Operation W) : Prop := op.IsEvent ∨ ∃ id, op = .removeRegion id

namespace Layout

variable {W α : Type} {l l' : Layout W} {event : PointerEvent}

/-- A step of the life of a drag: it records one transition or none, and the host is notified as the effect
of the transition tells. -/
structure Lives (l : Layout W) (o : Outcome W α) : Prop where
  stage : o.layout.gesture.phase.stage ∈ l.gesture.phase.stage.next
  recorded : o.transitions = [] ∨ ∃ t, o.transitions = [t] ∧ o.layout.gesture.last = some t
  ends : ∀ t ∈ o.transitions, t.before = l.gesture.phase ∧ t.after = o.layout.gesture.phase
  notices : o.notices = o.transitions.filterMap (·.effect.notice?)
  dragged : .dragged ∈ o.notices → o.layout.gesture.phase.stage = .dragging
  changed : .changed ∈ o.notices → l.gesture.phase.stage = .dragging ∧ o.layout.gesture.phase = .idle
  /-- Only a step that the host is notified of makes a drag go on. -/
  still : o.notices = [] → o.layout.gesture.phase.stage = .dragging → l.gesture.phase.stage = .dragging

namespace Lives

theorem quiet {o : Outcome W α} (hphase : o.layout.gesture.phase = l.gesture.phase)
    (htransitions : o.transitions = []) (hnotices : o.notices = []) : Lives l o where
  stage := hphase ▸ Stage.mem_next_self _
  recorded := .inl htransitions
  ends := by simp [htransitions]
  notices := by simp [hnotices, htransitions]
  dragged := by simp [hnotices]
  changed := by simp [hnotices]
  still := fun _ h => hphase ▸ h

theorem recordStep {o : Outcome W α} {effect : Effect}
    (hstage : o.layout.gesture.phase.stage ∈ l.gesture.phase.stage.next) (htransitions : o.transitions = [])
    (hnotices : o.notices = effect.notice?.toList)
    (hdragged : .dragged ∈ o.notices → o.layout.gesture.phase.stage = .dragging)
    (hchanged : .changed ∈ o.notices → l.gesture.phase.stage = .dragging ∧ o.layout.gesture.phase = .idle)
    (hstill : o.notices = [] → o.layout.gesture.phase.stage = .dragging → l.gesture.phase.stage = .dragging) :
    Lives l (Layout.recordStep l.gesture.phase effect o) := by
  have hrecorded := transitions_recordStep htransitions l.gesture.phase effect
  refine ⟨hstage, .inr ⟨_, hrecorded, rfl⟩, ?_, ?_, hdragged, hchanged, hstill⟩
  · rw [hrecorded]
    exact fun t ht => List.mem_singleton.1 ht ▸ ⟨rfl, rfl⟩
  · rw [hrecorded]
    refine (show _ = o.notices from rfl).trans (hnotices.trans ?_)
    cases effect <;> rfl

theorem recordQuiet {o : Outcome W α} {effect : Effect} (heffect : effect.notice? = none)
    (hstage : o.layout.gesture.phase.stage ∈ l.gesture.phase.stage.next)
    (hstill : o.layout.gesture.phase.stage = .dragging → l.gesture.phase.stage = .dragging)
    (htransitions : o.transitions = []) (hnotices : o.notices = []) :
    Lives l (Layout.recordStep l.gesture.phase effect o) := by
  refine recordStep hstage htransitions (by rw [hnotices, heffect]; rfl) ?_ ?_ fun _ => hstill
  · simp [hnotices]
  · simp [hnotices]

end Lives

theorem phase_showCursor (l : Layout W) (cursor : Cursor) :
    (l.showCursor cursor).layout.gesture.phase = l.gesture.phase := by
  rw [showCursor_eq]

namespace Lives

theorem react {o : Reaction W} (h : Reacts l event o) :
    Lives l (Layout.recordStep l.gesture.phase o.value.2 { o with value := o.value.1 }) := by
  have htransitions := transitions_react h
  cases h with
  | ignored consumed reason => exact recordQuiet rfl (Stage.mem_next_self _) id htransitions rfl
  | hovered grasp hidle =>
    have hphase := phase_showCursor l grasp.kind.cursor
    exact recordQuiet rfl (hphase ▸ Stage.mem_next_self _) (fun h => hphase ▸ h) htransitions
      (notices_showCursor l _)
  | left hidle =>
    have hphase := phase_showCursor l .default
    exact recordQuiet rfl (hphase ▸ Stage.mem_next_self _) (fun h => hphase ▸ h) htransitions
      (notices_showCursor l _)
  | armed grasp hidle =>
    have hphase := phase_showCursor (l.arm grasp event.position) grasp.kind.cursor
    refine recordQuiet rfl ?_ (fun h => ?_) htransitions (notices_showCursor _ _)
    · rw [hidle]
      exact hphase ▸ List.mem_cons_of_mem _ (List.mem_singleton_self _)
    · rw [hphase] at h
      cases h
  | dragged grasp origin requested limits moved hphase hmoved =>
    have hnotices := notices_changeCalls moved.layout l .dragged
    refine recordStep (Phase.dragging_mem_next hphase) htransitions hnotices (fun _ => rfl) (fun h => ?_)
      fun h => ?_
    · rw [Outcome.notices, hnotices] at h
      simp at h
    · rw [Outcome.notices, hnotices] at h
      cases h
  | released grasp hphase => exact recordQuiet rfl (Stage.idle_mem_next _) (fun h => by cases h) htransitions rfl
  | committed grasp requested moved hphase hmoved origin current limits hdragging =>
    have hnotices := notices_changeCalls moved.layout l .changed
    refine recordStep (Stage.idle_mem_next _) htransitions hnotices (fun h => ?_)
      (fun _ => ⟨by rw [hdragging]; rfl, rfl⟩) fun h => ?_
    · rw [Outcome.notices, hnotices] at h
      simp at h
    · rw [Outcome.notices, hnotices] at h
      cases h

theorem handlePointer {o : Outcome W Bool} (h : l.handlePointer event = .ok o) : Lives l o := by
  obtain ⟨reaction, hreact, rfl⟩ := handlePointer_eq_ok h
  exact react hreact

theorem cancel {reason : CancelReason} {o : Outcome W Bool} (h : Cancels l reason o) : Lives l o := by
  cases h with
  | nothing hidle => exact recordQuiet rfl (Stage.mem_next_self _) id rfl rfl
  | canceled grasp back hphase hback =>
    have hidle : (back.layout.showCursor .default).layout.gesture.phase = .idle := by
      rw [phase_showCursor]
      cases hback with
      | unkept hnone => rfl
      | restored start restored changed hstart hrestored => rw [gesture_restore hrestored]
      | refused start e hstart hrefused => rfl
    refine recordQuiet rfl ?_ (fun h => ?_) (transitions_rewind (o := back) hback) ?_
    · exact hidle ▸ Stage.idle_mem_next _
    · rw [hidle] at h
      cases h
    · refine List.filterMap_append.trans ?_
      rw [show back.calls.filterMap HostCall.notice? = [] from notices_rewind hback]
      exact notices_showCursor _ _

theorem followed {first : Outcome W Bool} {o : Outcome W α} (h : Lives l first)
    (hgesture : o.layout.gesture = first.layout.gesture)
    (htransitions : o.transitions = first.transitions) (hnotices : o.notices = first.notices) : Lives l o := by
  obtain ⟨hstage, hrecorded, hends, htold, hdragged, hchanged, hstill⟩ := h
  constructor
  all_goals
    simp only [hgesture, htransitions, hnotices]
    assumption

theorem handleResize {target : Rect} {o : Outcome W Bool} (h : l.handleResize target = .ok o) : Lives l o := by
  obtain ⟨first, second, hfirst, hsecond, rfl⟩ := handleResize_eq_ok h
  have hbroken : Lives l first := by
    rcases breakOff_eq_ok hfirst with hcanceled | ⟨-, rfl⟩
    · exact cancel hcanceled
    · exact quiet rfl rfl rfl
  refine hbroken.followed (resize_rearranged hsecond).gesture ?_ ?_
  · refine Entry.transitions_append.trans ?_
    rw [show Entry.transitions second.journal = [] from transitions_resize hsecond, List.append_nil]
    rfl
  · refine List.filterMap_append.trans ?_
    rw [changeCalls, notices_boundsCalls, List.append_nil]
    rfl

theorem handle {event : Event} {o : Outcome W Bool} (h : l.handle event = .ok o) : Lives l o := by
  unfold Layout.handle at h
  split at h
  · exact handlePointer h
  · exact handleResize h
  · cases h
    exact quiet rfl rfl rfl
  · exact cancel (cancel_eq_ok h)
  · exact cancel (cancel_eq_ok h)

theorem abandonDrag (l : Layout W) : Lives l l.abandonDrag := by
  unfold Layout.abandonDrag
  split
  · exact quiet rfl rfl rfl
  · let idle : Layout W := { l with gesture := { l.gesture with phase := .idle, pressed := none } }
    exact recordQuiet (o := { value := (), layout := idle }) rfl (Stage.idle_mem_next _) (fun h => by cases h)
      rfl rfl

theorem removeRegion (l : Layout W) (id : RegionId) : Lives l (l.removeRegion id) := by
  unfold Layout.removeRegion
  split
  · exact quiet rfl rfl rfl
  · obtain ⟨hstage, hrecorded, hends, htold, hdragged, hchanged, hstill⟩ := abandonDrag { l with
      store := l.store.erase id, anchor := if l.anchor = some id then none else l.anchor }
    exact ⟨hstage, hrecorded, hends, htold, hdragged, hchanged, hstill⟩

theorem perform {op : Operation W} (hop : op.IsStep) {o : Outcome W Unit} (h : l.perform op = .ok o) :
    Lives l o := by
  rcases hop with hop | ⟨id, rfl⟩
  · cases op with
    | handlePointer event =>
      obtain ⟨handled, hhandled, rfl⟩ := Checked.map_eq_ok.1 h
      exact (handlePointer hhandled).followed rfl rfl rfl
    | handle event =>
      obtain ⟨handled, hhandled, rfl⟩ := Checked.map_eq_ok.1 h
      exact (handle hhandled).followed rfl rfl rfl
    | cancelDrag =>
      obtain ⟨canceled, hcanceled, rfl⟩ := Checked.map_eq_ok.1 h
      exact (cancel (cancel_eq_ok hcanceled)).followed rfl rfl rfl
    | _ => exact hop.elim
  · cases h
    obtain ⟨hstage, hrecorded, hends, htold, hdragged, hchanged, hstill⟩ := removeRegion l id
    exact ⟨hstage, hrecorded, hends, htold, hdragged, hchanged, hstill⟩

end Lives

/-- A pointer event that neither moves lines nor ends a drag with a change only touches the gesture. -/
theorem handlePointer_quiet {o : Outcome W Bool} (h : l.handlePointer event = .ok o) : ∃ t,
    o.transitions = [t] ∧ (t.effect.notice? = none → ∃ gesture, o.layout = { l with gesture }) := by
  obtain ⟨reaction, hreact, rfl⟩ := handlePointer_eq_ok h
  refine ⟨_, transitions_recordStep (transitions_react hreact) _ _, fun hnone => ?_⟩
  cases hreact with
  | ignored consumed reason => exact ⟨_, rfl⟩
  | hovered grasp hidle =>
    rw [showCursor_eq]
    exact ⟨_, rfl⟩
  | left hidle =>
    rw [unhover, showCursor_eq]
    exact ⟨_, rfl⟩
  | armed grasp hidle =>
    rw [showCursor_eq]
    exact ⟨_, rfl⟩
  | dragged grasp origin requested limits moved hphase hmoved => cases hnone
  | released grasp hphase => exact ⟨_, rfl⟩
  | committed grasp requested moved hphase hmoved => cases hnone

theorem perform_quiet {op : Operation W} (hop : op = .handlePointer event ∨ op = .handle (.pointer event))
    {o : Outcome W Unit} (h : l.perform op = .ok o) : ∃ t,
    o.transitions = [t] ∧ (t.effect.notice? = none → ∃ gesture, o.layout = { l with gesture }) := by
  rcases hop with rfl | rfl
  · obtain ⟨handled, hhandled, rfl⟩ := Checked.map_eq_ok.1 h
    exact handlePointer_quiet hhandled
  · obtain ⟨handled, hhandled, rfl⟩ := Checked.map_eq_ok.1 h
    exact handlePointer_quiet hhandled

end Layout

/-- A change is only told of while lines are being moved, and after it they have to be moved anew. Whether
they are being moved at the beginning is left to `moving`. -/
def Notice.Paced (moving : Prop) : List Notice → Prop
  | [] => True
  | .dragged :: rest => Paced True rest
  | .changed :: rest => moving ∧ Paced False rest

namespace Notice.Paced

variable {moving moving' : Prop} {notices before rest : List Notice}

theorem mono (h : Paced moving notices) (hmoving : moving → moving') : Paced moving' notices := by
  match notices, h with
  | [], _ => trivial
  | .dragged :: _, h => exact h
  | .changed :: _, h => exact ⟨hmoving h.1, h.2⟩

theorem of_changed (h : Paced moving (before ++ .changed :: rest)) :
    (moving ∨ .dragged ∈ before) ∧ Paced False rest := by
  induction before generalizing moving with
  | nil => exact ⟨.inl h.1, h.2⟩
  | cons notice before ih =>
    cases notice with
    | dragged => exact ⟨.inr List.mem_cons_self, (ih h).2⟩
    | changed => exact ⟨.inl h.1, (ih h.2).2⟩

end Notice.Paced

namespace Layout

open Notice (Paced)

variable {W : Type} {l : Layout W} {ops : List (Operation W)}

theorem Lives.paced {α : Type} {o : Outcome W α} (h : Lives l o) {rest : List Notice}
    (hrest : Paced (o.layout.gesture.phase.stage = .dragging) rest) :
    Paced (l.gesture.phase.stage = .dragging) (o.notices ++ rest) := by
  obtain ⟨notice?, hnotices⟩ : ∃ notice? : Option Notice, o.notices = notice?.toList := by
    rcases h.recorded with hnone | ⟨t, ht, -⟩
    · exact ⟨none, by rw [h.notices, hnone]; rfl⟩
    · exact ⟨t.effect.notice?, by rw [h.notices, ht, List.filterMap_cons]; cases t.effect.notice? <;> rfl⟩
  cases notice? with
  | none =>
    rw [hnotices]
    exact hrest.mono (h.still hnotices)
  | some notice =>
    have hmem : notice ∈ o.notices := by rw [hnotices]; exact List.mem_singleton_self notice
    rw [hnotices]
    cases notice with
    | dragged => exact hrest.mono fun _ => trivial
    | changed =>
      obtain ⟨hdragging, hidle⟩ := h.changed hmem
      exact ⟨hdragging, hrest.mono fun hstage => by rw [hidle] at hstage; cases hstage⟩

theorem paced_run (hops : ∀ op ∈ ops, op.IsStep) {o : Outcome W Unit} (h : l.run ops = .ok o) :
    Paced (l.gesture.phase.stage = .dragging) o.notices := by
  induction ops generalizing l o with
  | nil =>
    cases h
    trivial
  | cons op ops ih =>
    obtain ⟨first, last, hfirst, hlast, rfl⟩ := run_cons_eq_ok.1 h
    rw [Outcome.notices_after]
    exact (Lives.perform (hops op List.mem_cons_self) hfirst).paced
      (ih (fun op hop => hops op (List.mem_cons_of_mem _ hop)) hlast)

/-- Whatever events come in whatever order, a drag is armed, goes on and ends. Each step records at most one
transition, the host is notified exactly of transitions that move lines and of those that end such a drag with
a change, and between two changes lines are moved. A pointer event that does neither only touches the gesture. -/
theorem lives_run (hops : ∀ op ∈ ops, op.IsStep) {o : Outcome W Unit} (h : l.run ops = .ok o) :
    (∀ done op, done ++ [op] <+: ops → ∃ mid step, l.run done = .ok mid ∧
      mid.layout.perform op = .ok step ∧ Lives mid.layout step ∧
      ∀ event, op = .handlePointer event ∨ op = .handle (.pointer event) → ∃ t, step.transitions = [t] ∧
        (t.effect.notice? = none → ∃ gesture, step.layout = { mid.layout with gesture })) ∧
    ∀ before between rest,
      o.calls = before ++ .notify .changed :: between ++ .notify .changed :: rest → .notify .dragged ∈ between := by
  refine ⟨fun done op hprefix => ?_, fun before between rest hcalls => ?_⟩
  · obtain ⟨rest, rfl⟩ := hprefix
    obtain ⟨upto, last, hupto, -, -⟩ := run_append h
    obtain ⟨mid, last, hmid, hstep, -⟩ := run_append hupto
    obtain ⟨step, hstep, -⟩ := Checked.bind_eq_ok.1 hstep
    have hop := hops op (by simp)
    exact ⟨mid, step, hmid, hstep, Lives.perform hop hstep, fun event hevent => perform_quiet hevent hstep⟩
  · have hpaced := paced_run hops h
    rw [Outcome.notices, hcalls] at hpaced
    simp only [List.filterMap_append, List.filterMap_cons, HostCall.notice?] at hpaced
    rw [List.append_assoc, List.cons_append] at hpaced
    rcases hpaced.of_changed.2.of_changed.1 with hno | hdragged
    · exact hno.elim
    · obtain ⟨call, hcall, hnotice⟩ := List.mem_filterMap.1 hdragged
      cases call with
      | notify notice =>
        cases hnotice
        exact hcall
      | _ => cases hnotice

/-- The line between the columns is dragged by ten pixels, and after the empty region is gone back by five. -/
def draggedTwice : List (Operation Unit) :=
  [.handlePointer { motion := .down .left, position := ⟨10, 5⟩ },
    .handlePointer { motion := .drag .left, position := ⟨20, 5⟩ },
    .handlePointer { motion := .up .left, position := ⟨20, 5⟩ }, .removeRegion ⟨2⟩,
    .handle (.pointer { motion := .down .left, position := ⟨20, 5⟩ }),
    .handle (.pointer { motion := .drag .left, position := ⟨15, 5⟩ }),
    .handle (.pointer { motion := .up .left, position := ⟨15, 5⟩ })]

theorem lives_run_folded : ∃ o before between, folded.run draggedTwice = .ok o ∧
    o.calls = before ++ .notify .changed :: between ++ [.notify .changed] ∧ .notify .dragged ∈ between ∧
      o.layout.store.bounds = [⟨0, 0, 15, 10⟩, ⟨15, 0, 15, 10⟩] := by
  let narrowed : List HostCall := [.setBounds ⟨1⟩ ⟨0, 0, 15, 10⟩, .setBounds ⟨4⟩ ⟨15, 0, 15, 10⟩, .notify .dragged]
  obtain ⟨o, h, hcalls, hbounds⟩ : ∃ o, folded.run draggedTwice = .ok o ∧
      o.calls = o.calls.take 5 ++ .notify .changed :: narrowed ++ [.notify .changed] ∧
        o.layout.store.bounds = [⟨0, 0, 15, 10⟩, ⟨15, 0, 15, 10⟩] := ⟨_, rfl, by decide, by decide⟩
  have hsteps : ∀ op ∈ draggedTwice, op.IsStep := by simp [draggedTwice, Operation.IsStep, Operation.IsEvent]
  exact ⟨o, _, narrowed, h, hcalls, (lives_run hsteps h).2 _ narrowed [] hcalls, hbounds⟩

end Layout

end Mosaic
