import Mosaic.Proofs.Layout.Told

/-! What is recorded of drags, and what the host is notified of. Moves, resizes and restored snapshots record
no step of a drag and notify of nothing. Pointer events and broken off drags do so themselves. -/
namespace Mosaic

namespace Entry

/-- The step of a drag that the entry records, if it records one. -/
def transition? (e : Entry) : Option Transition :=
  match e.note with
  | .stepped transition => some transition
  | _ => none

def transitions (entries : List Entry) : List Transition := entries.filterMap transition?

variable {entries entries' : List Entry}

theorem transitions_append :
    transitions (entries ++ entries') = transitions entries ++ transitions entries' := List.filterMap_append

theorem transitions_under (task : Task) (entries : List Entry) :
    transitions (under task entries) = transitions entries := by
  simp only [under, transitions, List.filterMap_cons, List.filterMap_map]
  rfl

theorem transitions_ofHops (hops : List Hop) : transitions (ofHops hops) = [] := by
  simp [transitions, ofHops, transition?]

theorem transitions_ofReport (report : Report) : transitions (ofReport report) = [] := by
  unfold ofReport
  split
  · rfl
  · simp [transitions, transition?]

end Entry

namespace Outcome

variable {W α β : Type}

def transitions (o : Outcome W α) : List Transition := Entry.transitions o.journal

/-- What the host was notified of. -/
def notices (o : Outcome W α) : List Notice := o.calls.filterMap HostCall.notice?

theorem notices_after (o : Outcome W α) (before : Outcome W β) :
    (o.after before).notices = before.notices ++ o.notices := List.filterMap_append

end Outcome

namespace Layout

open Entry

variable {W : Type} {l : Layout W} {held : Grip} {goal : Point} {limits target : Rect}

theorem transitions_commitWithin {o : Outcome W Grip} (h : l.commitWithin held goal limits = .ok o) :
    o.transitions = [] := by
  obtain ⟨planned, hplanned, h⟩ := Checked.bind_eq_ok.1 h
  obtain ⟨⟨plan, trace⟩, -, hp⟩ := Checked.bind_eq_ok.1 hplanned
  cases Checked.pure_eq_ok.1 hp
  cases Checked.pure_eq_ok.1 h
  exact transitions_ofHops _

theorem transitions_commitLinesWithin {o : Outcome W Grip}
    (h : l.commitLinesWithin held goal limits = .ok o) : o.transitions = [] := by
  obtain ⟨⟨plan, trace⟩, -, h⟩ := Checked.bind_eq_ok.1 h
  cases Checked.pure_eq_ok.1 h
  exact transitions_ofHops _

theorem transitions_revalidate {findings : List Entry} (h : l.revalidate = .ok findings) :
    Entry.transitions findings = [] := by
  obtain ⟨report, -, h⟩ := Checked.bind_eq_ok.1 h
  cases Checked.pure_eq_ok.1 h
  exact transitions_ofReport report

theorem transitions_drag {o : Outcome W Grip} (h : l.drag held goal = .ok o) : o.transitions = [] := by
  obtain ⟨moved, hmoved, h⟩ := Checked.bind_eq_ok.1 h
  cases Checked.pure_eq_ok.1 h
  exact (transitions_under _ _).trans (transitions_commitWithin hmoved)

theorem transitions_move {o : Outcome W Grip} (h : l.move held goal = .ok o) : o.transitions = [] := by
  obtain ⟨moved, hmoved, h⟩ := Checked.bind_eq_ok.1 h
  obtain ⟨findings, hfindings, h⟩ : ∃ findings, Entry.transitions findings = [] ∧
      ({ moved with journal := moved.journal ++ findings } : Outcome W Grip).under (.move held goal) = o := by
    split at h
    · obtain ⟨findings, hfindings, h⟩ := Checked.bind_eq_ok.1 h
      exact ⟨findings, transitions_revalidate hfindings, Checked.pure_eq_ok.1 h⟩
    · exact ⟨[], rfl, Checked.pure_eq_ok.1 h⟩
  rw [← h]
  refine (transitions_under _ _).trans ?_
  rw [transitions_append, hfindings, List.append_nil]
  exact transitions_commitWithin hmoved

theorem transitions_commitAim {aim : Aim} {o : Outcome W Unit} (h : l.commitAim aim limits = .ok o) :
    o.transitions = [] := by
  unfold commitAim at h
  split at h
  · cases h
    rfl
  · obtain ⟨moved, hmoved, h⟩ := Checked.bind_eq_ok.1 h
    cases Checked.pure_eq_ok.1 h
    exact transitions_commitWithin hmoved

theorem transitions_commitCorner {box : Rect} {growth : Size} {aim : Aim} {o : Outcome W Size}
    (h : l.commitCorner box growth aim limits = .ok o) : o.transitions = [] := by
  unfold commitCorner at h
  split at h
  · cases h
    rfl
  · obtain ⟨moved, hmoved, h⟩ := Checked.bind_eq_ok.1 h
    have hjournal : o.journal = moved.journal := by
      cases hx : moved.value.x <;> cases hy : moved.value.y <;> simp only [hx, hy] at h
      all_goals
        repeat obtain ⟨_, -, h⟩ := Checked.bind_eq_ok.1 h
        cases Checked.pure_eq_ok.1 h
        rfl
    rw [Outcome.transitions, hjournal]
    exact transitions_commitLinesWithin hmoved

theorem transitions_follow {o : Outcome W Rect} (h : l.follow target = .ok o) : o.transitions = [] := by
  cases follow_eq_ok h with
  | bare _ _ hjournal => exact congrArg Entry.transitions hjournal
  | boxed shifted box limits width height trace trace' inward corner outward first third second _ _ _ _ _ _
      hfirst _ hsecond _ hthird _ _ _ hjournal =>
    have hfirst : Entry.transitions first.journal = [] := transitions_commitAim hfirst
    have hsecond : Entry.transitions second.journal = [] := transitions_commitCorner hsecond
    have hthird : Entry.transitions third.journal = [] := transitions_commitAim hthird
    rw [Outcome.transitions, hjournal]
    simp only [transitions_append, transitions_ofHops, hfirst, hsecond, hthird, List.append_nil]

theorem transitions_resize {o : Outcome W Rect} (h : l.resize target = .ok o) : o.transitions = [] := by
  cases resize_eq_ok h with
  | same _ _ _ hjournal => exact congrArg Entry.transitions hjournal
  | bare _ _ _ hjournal => exact congrArg Entry.transitions hjournal
  | followed followed findings _ hfollow _ _ hfindings hjournal =>
    have hfollowed : Entry.transitions followed.journal = [] := transitions_follow hfollow
    rw [Outcome.transitions, hjournal, transitions_under, transitions_append, transitions_append, hfollowed,
      transitions_revalidate hfindings]
    rfl
  | stretched _ _ _ hjournal => exact congrArg Entry.transitions hjournal

theorem transitions_showCursor (l : Layout W) (cursor : Cursor) : (l.showCursor cursor).transitions = [] := by
  rw [showCursor_eq]
  rfl

theorem transitions_restore {s : Snapshot} {o : Outcome W (Except LayoutError (List RegionId))}
    (h : l.restore s = .ok o) : o.transitions = [] := by
  rcases restore_cases h with ⟨e, rfl⟩ | ⟨rfl, -⟩
  · rfl
  · rfl

theorem transitions_applyPatch {patch : Patch} {o : Outcome W (Except LayoutError (List RegionId))}
    (h : l.applyPatch patch = .ok o) : o.transitions = [] := by
  rcases applyPatch_cases h with ⟨e, rfl⟩ | rfl
  · rfl
  · rfl

theorem transitions_react {event : PointerEvent} {o : Reaction W} (h : Reacts l event o) :
    o.transitions = [] := by
  cases h with
  | ignored consumed reason => rfl
  | hovered grasp hidle => exact transitions_showCursor l grasp.kind.cursor
  | left hidle => exact transitions_showCursor l .default
  | armed grasp hidle => exact transitions_showCursor (l.arm grasp event.position) grasp.kind.cursor
  | dragged grasp origin requested limits moved hphase hmoved => exact transitions_drag (o := moved) hmoved
  | released grasp hphase => rfl
  | committed grasp requested moved hphase hmoved => exact transitions_move (o := moved) hmoved

theorem transitions_recordStep {α : Type} {o : Outcome W α} (h : o.transitions = []) (before : Phase)
    (effect : Effect) :
    (recordStep before effect o).transitions = [o.layout.gesture.transition before effect] := by
  refine transitions_append.trans ?_
  rw [show Entry.transitions o.journal = [] from h]
  rfl

theorem transitions_rewind {o : Outcome W Bool} (h : Rewinds l o) : o.transitions = [] := by
  cases h with
  | unkept hnone => rfl
  | restored start back changed hstart hback => exact transitions_restore hback
  | refused start e hstart hrefused => rfl

theorem notices_boundsCalls (l : Layout W) (ids : List RegionId) :
    (l.boundsCalls ids).filterMap HostCall.notice? = [] := by
  refine List.filterMap_eq_nil_iff.2 fun call hcall => ?_
  obtain ⟨id, -, hid⟩ := List.mem_filterMap.1 hcall
  obtain ⟨r, -, rfl⟩ := Option.map_eq_some_iff.1 hid
  rfl

/-- The notice that follows on the new bounds is the only one. -/
theorem notices_changeCalls (l before : Layout W) (notice : Notice) :
    (l.changeCalls before ++ [HostCall.notify notice]).filterMap HostCall.notice? = [notice] := by
  rw [List.filterMap_append, changeCalls, notices_boundsCalls]
  rfl

theorem notices_showCursor (l : Layout W) (cursor : Cursor) : (l.showCursor cursor).notices = [] := by
  unfold showCursor
  split
  · rfl
  · rfl

theorem notices_rewind {o : Outcome W Bool} (h : Rewinds l o) : o.notices = [] := by
  cases h with
  | unkept hnone => rfl
  | restored start back changed hstart hback => exact notices_boundsCalls back.layout changed
  | refused start e hstart hrefused => rfl

end Layout

end Mosaic
