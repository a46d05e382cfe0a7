import Mosaic.Proofs.Layout.Linked

/-! How many steps the events of a run take. The last step has the number of all that there were, as long as there are
numbers. Every event takes one step more, except that the focus which is gained takes none, and new bounds take one only
where there is a drag that they break off. -/
namespace Mosaic

/-- The number of the last step, or zero where there was none. -/
def Gesture.reached (g : Gesture) : Nat := g.last.elim 0 (·.number)

/-- The gesture has taken `n` steps, of which the last is kept. -/
structure Gesture.HasTaken (n : Nat) (g : Gesture) : Prop where
  count : g.count = min n Transition.lastNumber
  reached : g.reached = g.count

namespace Layout

variable {W α : Type} {l : Layout W} {g : Gesture} {n : Nat} {reason : CancelReason}

/-- Whether the event is a step in the life of a drag. -/
def takesStep (l : Layout W) : Event → Bool
  | .pointer _ | .captureLost => true
  | .resize _ => l.gesture.phase.isActive
  | .focus gained => !gained

/-- One step is recorded, which has the next number. -/
def StepsOnce (l : Layout W) (o : Outcome W α) : Prop :=
  ∃ t, o.transitions = [t] ∧ o.layout.gesture.last = some t ∧
    t.number = min (l.gesture.reached + 1) Transition.lastNumber

/-- No step is recorded, and the last one is what it was. -/
def Rests (l : Layout W) (o : Outcome W α) : Prop :=
  o.transitions = [] ∧ o.layout.gesture.last = l.gesture.last

namespace Records

theorem hasTaken {o : Outcome W α} (h : Records g o) (hg : g.HasTaken n) :
    o.layout.gesture.HasTaken (n + o.transitions.length) := by
  obtain ⟨hcounted, hreached⟩ := hg
  cases h with
  | nothing hphase hcount hlast hnone =>
    rw [hnone]
    exact ⟨hcount.trans hcounted, by rw [Gesture.reached, hlast, hcount]; exact hreached⟩
  | step t hnumber hbefore hafter hcount hlast hone =>
    rw [hone]
    refine ⟨hcount.trans (hnumber.trans ?_), by rw [Gesture.reached, hlast, hcount]; rfl⟩
    rw [Gesture.nextNumber, hcounted, List.length_singleton]
    omega

theorem hasTaken_run {ops : List (Operation W)} {o : Outcome W Unit} (h : l.run ops = .ok o)
    (hl : l.gesture.HasTaken n) : o.layout.gesture.HasTaken (n + o.transitions.length) := by
  induction ops generalizing l n o with
  | nil =>
    cases h
    exact hl
  | cons op ops ih =>
    obtain ⟨first, rest, hfirst, hrest, rfl⟩ := run_cons_eq_ok.1 h
    have hlast := ih hrest ((perform hfirst).hasTaken hl)
    rwa [Nat.add_assoc, ← List.length_append, ← Outcome.transitions_after] at hlast

theorem stepsOnce {o : Outcome W α} (h : Records l.gesture o) (hl : l.gesture.HasTaken n)
    (hone : o.transitions.length = 1) : StepsOnce l o := by
  cases h with
  | nothing hphase hcount hlast hnone =>
    rw [hnone] at hone
    cases hone
  | step t hnumber hbefore hafter hcount hlast htransitions =>
    refine ⟨t, htransitions, hlast, ?_⟩
    rw [hl.reached]
    exact hnumber

theorem rests {o : Outcome W α} (h : Records l.gesture o) (hnone : o.transitions.length = 0) : Rests l o := by
  have hempty := List.length_eq_zero_iff.1 hnone
  cases h with
  | nothing hphase hcount hlast htransitions => exact ⟨hempty, hlast⟩
  | step t hnumber hbefore hafter hcount hlast htransitions =>
    rw [htransitions] at hempty
    cases hempty

end Records

theorem length_transitions_handlePointer {event : PointerEvent} {o : Outcome W Bool}
    (h : l.handlePointer event = .ok o) : o.transitions.length = 1 := by
  obtain ⟨t, ht, -⟩ := handlePointer_quiet h
  rw [ht, List.length_singleton]

theorem length_transitions_cancel {o : Outcome W Bool} (h : Cancels l reason o) : o.transitions.length = 1 := by
  cases h with
  | nothing hidle => rfl
  | canceled grasp back hphase hback =>
    have hnone : (Outcome.mk true (back.layout.showCursor .default).layout back.journal
        (back.calls ++ (back.layout.showCursor .default).calls)).transitions = [] :=
      transitions_rewind (o := back) hback
    rw [transitions_recordStep hnone, List.length_singleton]

theorem length_transitions_handleResize {target : Rect} {o : Outcome W Bool} (h : l.handleResize target = .ok o) :
    o.transitions.length = l.gesture.phase.isActive.toNat := by
  obtain ⟨first, second, hfirst, hsecond, rfl⟩ := handleResize_eq_ok h
  have hresized : Entry.transitions second.journal = [] := transitions_resize hsecond
  have hsame : Entry.transitions (first.journal ++ second.journal) = first.transitions := by
    rw [Entry.transitions_append, hresized, List.append_nil]
    rfl
  refine (congrArg List.length hsame).trans ?_
  unfold breakOff at hfirst
  split at hfirst
  · next hactive =>
    rw [length_transitions_cancel (cancel_eq_ok hfirst), hactive]
    rfl
  · next hidle =>
    cases hfirst
    rw [Bool.not_eq_true] at hidle
    rw [hidle]
    rfl

theorem length_transitions_handle {event : Event} {o : Outcome W Bool} (h : l.handle event = .ok o) :
    o.transitions.length = (l.takesStep event).toNat := by
  unfold handle at h
  split at h
  · exact length_transitions_handlePointer h
  · exact length_transitions_handleResize h
  · cases h
    rfl
  · exact length_transitions_cancel (cancel_eq_ok h)
  · exact length_transitions_cancel (cancel_eq_ok h)

/-- Whatever was done to a layout since its creation, the last step has the number of all steps that were recorded,
until the largest number is reached. Every pointer event records one step more, and so does every other event, except
where the focus is gained, or where new bounds find no drag: these record nothing and leave the last step as it is. -/
theorem counted_run {bounds : Rect} {settings : Settings} {start : Layout W}
    (hcreate : create bounds settings = .ok start) {ops : List (Operation W)} {mid : Outcome W Unit}
    (h : start.run ops = .ok mid) :
    mid.layout.gesture.reached = min mid.transitions.length Transition.lastNumber ∧
      (∀ event o, mid.layout.handlePointer event = .ok o → StepsOnce mid.layout o) ∧
      ∀ event o, mid.layout.handle event = .ok o →
        if mid.layout.takesStep event then StepsOnce mid.layout o else Rests mid.layout o := by
  obtain ⟨valid, rfl⟩ := create_eq_ok hcreate
  have htaken := Records.hasTaken_run (n := 0) h ⟨rfl, rfl⟩
  refine ⟨?_, fun event o ho => ?_, fun event o ho => ?_⟩
  · rw [htaken.reached, htaken.count, Nat.zero_add]
  · exact (Records.handlePointer ho).stepsOnce htaken (length_transitions_handlePointer ho)
  · have hlength := length_transitions_handle ho
    split
    · next htakes => exact (Records.handle ho).stepsOnce htaken (by rw [hlength, htakes]; rfl)
    · next hrests =>
      rw [Bool.not_eq_true] at hrests
      exact (Records.handle ho).rests (by rw [hlength, hrests]; rfl)

/-- Two columns whose line is pressed. -/
def held : List (Operation Unit) :=
  [.addRegion () ⟨0, 0, 50, 100⟩, .addRegion () ⟨50, 0, 50, 100⟩, .handlePointer (pressAt 50)]

/-- New bounds are a step while the line is held, and none once it is let go of. -/
theorem counted_run_held : ∃ start mid stepped later rested, create ⟨0, 0, 100, 100⟩ {} = .ok start ∧
    start.run held = .ok mid ∧ mid.layout.handle (.resize ⟨0, 0, 200, 100⟩) = .ok stepped ∧
      StepsOnce mid.layout stepped ∧ start.run (held ++ [.handle (.resize ⟨0, 0, 200, 100⟩)]) = .ok later ∧
        later.layout.gesture.reached = 2 ∧ later.layout.handle (.resize ⟨0, 0, 100, 100⟩) = .ok rested ∧
          Rests later.layout rested := by
  obtain ⟨start, mid, stepped, later, rested, hcreate, hmid, hstepped, hlater, hrested, hlength, htakes, hrests⟩ :
      ∃ (start : Layout Unit) (mid : Outcome Unit Unit) (stepped : Outcome Unit Bool) (later : Outcome Unit Unit)
        (rested : Outcome Unit Bool), create ⟨0, 0, 100, 100⟩ {} = .ok start ∧ start.run held = .ok mid ∧
          mid.layout.handle (.resize ⟨0, 0, 200, 100⟩) = .ok stepped ∧
            start.run (held ++ [.handle (.resize ⟨0, 0, 200, 100⟩)]) = .ok later ∧
              later.layout.handle (.resize ⟨0, 0, 100, 100⟩) = .ok rested ∧ later.transitions.length = 2 ∧
                mid.layout.takesStep (.resize ⟨0, 0, 200, 100⟩) = true ∧
                  later.layout.takesStep (.resize ⟨0, 0, 100, 100⟩) = false :=
    ⟨_, _, _, _, _, rfl, rfl, rfl, rfl, rfl, rfl, rfl, rfl⟩
  have hstep := (counted_run hcreate hmid).2.2 _ _ hstepped
  obtain ⟨hreached, -, hhandled⟩ := counted_run hcreate hlater
  have hrest := hhandled _ _ hrested
  rw [if_pos htakes] at hstep
  rw [hrests] at hrest
  rw [hlength] at hreached
  exact ⟨start, mid, stepped, later, rested, hcreate, hmid, hstepped, hstep, hlater, hreached, hrested, hrest⟩

/-- Not every event is a step, also where it is taken in. -/
theorem not_stepsOnce : ¬ ∀ (bounds : Rect) (settings : Settings) (start : Layout Unit) (ops : List (Operation Unit))
    (mid : Outcome Unit Unit) (event : Event) (o : Outcome Unit Bool), create bounds settings = .ok start →
      start.run ops = .ok mid → mid.layout.handle event = .ok o →
        o.layout.gesture.reached = mid.layout.gesture.reached + 1 := by
  intro h
  have hstep := h ⟨0, 0, 100, 100⟩ {} _ (held.take 2) _ (.resize ⟨0, 0, 200, 100⟩) _ rfl rfl rfl
  exact absurd hstep (by decide)

end Layout

end Mosaic
