import Mosaic.Proofs.Layout.Rewind

/-! Noise during a drag. Motion without a button, leaving, presses and the other buttons leave a drag alone:
they are counted as steps, and nothing else comes of them, so events between which they occur come to the
same. -/
namespace Mosaic

open Checked

/-- What an active drag does not react to: all but motion with the drag button held, and its release. -/
def Motion.IsNoise (dragButton : Button) : Motion → Prop
  | .moved | .leave | .down _ => True
  | .drag button | .up button => button ≠ dragButton

namespace Layout

variable {W : Type} {l l' l'' : Layout W} {event : PointerEvent} {events events' : List PointerEvent}

/-- The layout with other steps behind it. -/
def recount (l : Layout W) (count : Nat) (last : Option Transition) : Layout W :=
  { l with gesture := { l.gesture with count, last } }

/-- The layouts differ at most in the steps behind them. -/
def SameButCount (l l' : Layout W) : Prop := ∃ count last, l' = l.recount count last

namespace SameButCount

theorem refl (l : Layout W) : SameButCount l l := ⟨l.gesture.count, l.gesture.last, rfl⟩

theorem symm (h : SameButCount l l') : SameButCount l' l := by
  obtain ⟨count, last, rfl⟩ := h
  exact ⟨l.gesture.count, l.gesture.last, rfl⟩

theorem trans (h : SameButCount l l') (h' : SameButCount l' l'') : SameButCount l l'' := by
  obtain ⟨count, last, rfl⟩ := h
  obtain ⟨count', last', rfl⟩ := h'
  exact ⟨count', last', rfl⟩

end SameButCount

section recount

variable (count : Nat) (last : Option Transition)

/-- What an operation does to the layout with other steps behind it. -/
def Recounts {α : Type} (o o' : Outcome W α) : Prop := o' = { o with layout := o.layout.recount count last }

theorem Recounts.answer {count : Nat} {last : Option Transition} {α β : Type} {o o' : Outcome W α}
    (h : Recounts count last o o') (value : β) :
    Recounts count last { o with value } { o' with value } := by
  rw [h]
  rfl

theorem showCursor_recount (l : Layout W) (cursor : Cursor) :
    Recounts count last (l.showCursor cursor) ((l.recount count last).showCursor cursor) := by
  rw [Recounts, showCursor_eq, showCursor_eq]
  rfl

theorem hover_recount (l : Layout W) (pointer : Point) :
    Agree (Recounts count last) (l.hover pointer) ((l.recount count last).hover pointer) := by
  exact .bind_self (z := l.locate pointer) fun grasp _ => .ok ((showCursor_recount count last l _).answer _)

theorem press_recount (l : Layout W) (pointer : Point) :
    Agree (Recounts count last) (l.press pointer) ((l.recount count last).press pointer) := by
  refine .bind_self (z := l.locate pointer) fun grasp _ => ?_
  split
  · exact .ok ((showCursor_recount count last (l.arm grasp pointer) grasp.kind.cursor).answer _)
  · exact .ok rfl

theorem commitWithin_recount (l : Layout W) (held : Grip) (goal : Point) (limits : Rect) :
    Agree (Recounts count last) (l.commitWithin held goal limits)
      ((l.recount count last).commitWithin held goal limits) := by
  unfold commitWithin planWithin
  rw [bind_assoc, bind_assoc]
  exact .bind_self fun plan _ => .ok rfl

theorem drag_recount (l : Layout W) (held : Grip) (goal : Point) :
    Agree (Recounts count last) (l.drag held goal) ((l.recount count last).drag held goal) :=
  (commitWithin_recount count last l held goal l.bounds).bind fun o o' _ _ ho => .ok (by rw [ho]; rfl)

theorem move_recount (l : Layout W) (held : Grip) (goal : Point) :
    Agree (Recounts count last) (l.move held goal) ((l.recount count last).move held goal) := by
  have hrange : (l.recount count last).hasSizeRange = l.hasSizeRange := rfl
  refine (commitWithin_recount count last l held goal l.bounds).bind fun o o' _ _ ho => ?_
  rw [ho, hrange]
  split
  · exact .bind_self (z := o.layout.revalidate) fun findings _ => .ok rfl
  · exact .ok rfl

theorem dragTo_recount (l : Layout W) (grasp : Grasp) (origin : Point) (limits : Rect) (pointer : Point) :
    Agree (Recounts count last) (l.dragTo grasp origin limits pointer)
      ((l.recount count last).dragTo grasp origin limits pointer) := by
  refine .bind_self (z := grasp.candidate pointer) fun candidate _ => ?_
  exact (drag_recount count last l grasp.grip _).bind fun o o' _ _ ho => .ok (by rw [ho]; rfl)

theorem drop_recount (l : Layout W) (grasp : Grasp) (limits : Rect) (pointer : Point) :
    Agree (Recounts count last) (l.drop grasp limits pointer)
      ((l.recount count last).drop grasp limits pointer) := by
  refine .bind_self (z := grasp.candidate pointer) fun candidate _ => ?_
  exact (move_recount count last l grasp.grip _).bind fun o o' _ _ ho => .ok (by rw [ho]; rfl)

theorem react_recount (l : Layout W) (event : PointerEvent) :
    Agree (Recounts count last) (l.react event) ((l.recount count last).react event) := by
  have hphase : (l.recount count last).gesture.phase = l.gesture.phase := rfl
  have hbutton : (l.recount count last).settings.dragButton = l.settings.dragButton := rfl
  have hignored : ∀ consumed reason, Agree (Recounts count last) (.ok (l.ignore consumed reason))
      (.ok ((l.recount count last).ignore consumed reason)) := fun _ _ => .ok rfl
  simp only [react, hphase, hbutton]
  cases event.motion with
  | moved =>
    simp only
    split
    · exact hignored _ _
    · exact hover_recount count last l _
  | leave =>
    simp only
    split
    · exact hignored _ _
    · exact .ok ((showCursor_recount count last l .default).answer _)
  | down button =>
    simp only
    split
    · exact hignored _ _
    · split
      · exact hignored _ _
      · exact press_recount count last l _
  | drag button =>
    simp only
    split
    · exact hignored _ _
    · cases l.gesture.phase with
      | idle => exact hignored _ _
      | armed grasp origin limits => exact dragTo_recount count last l grasp origin limits _
      | dragging grasp origin current limits => exact dragTo_recount count last l grasp origin limits _
  | up button =>
    simp only
    split
    · exact hignored _ _
    · cases l.gesture.phase with
      | idle => exact hignored _ _
      | armed grasp origin limits => exact .ok rfl
      | dragging grasp origin current limits => exact drop_recount count last l grasp limits _

end recount

/-- The outcomes have the same calls in the same order, and layouts that differ at most in the steps behind
them. -/
structure SameTold {α : Type} (o o' : Outcome W α) : Prop where
  layout : SameButCount o.layout o'.layout
  calls : o'.calls = o.calls

theorem SameTold.agree_symm {α : Type} {x y : Checked (Outcome W α)} (h : Agree SameTold x y) :
    Agree SameTold y x := h.symm.imp fun _ _ _ _ ho => ⟨ho.layout.symm, ho.calls.symm⟩

theorem SameButCount.handlePointer (h : SameButCount l l') (event : PointerEvent) :
    Agree SameTold (l.handlePointer event) (l'.handlePointer event) := by
  obtain ⟨count, last, rfl⟩ := h
  refine (react_recount count last l event).bind fun o o' _ _ ho => .ok ?_
  rw [ho]
  exact ⟨⟨_, _, rfl⟩, rfl⟩

/-- An active drag ignores noise. -/
theorem react_noise (hactive : l.gesture.phase.isActive = true)
    (hnoise : event.motion.IsNoise l.settings.dragButton) :
    ∃ reason, l.react event = .ok (l.ignore true reason) := by
  simp only [react, hactive, if_true]
  cases hmotion : event.motion with
  | moved => exact ⟨_, rfl⟩
  | leave => exact ⟨_, rfl⟩
  | down button =>
    simp only
    split
    · exact ⟨_, rfl⟩
    · exact ⟨_, rfl⟩
  | drag button =>
    rw [hmotion] at hnoise
    exact ⟨_, if_pos (bne_iff_ne.2 hnoise)⟩
  | up button =>
    rw [hmotion] at hnoise
    exact ⟨_, if_pos (bne_iff_ne.2 hnoise)⟩

/-- Noise in front of other events is only counted. -/
theorem agree_noise (h : SameButCount l l') (hactive : l.gesture.phase.isActive = true)
    (hnoise : event.motion.IsNoise l.settings.dragButton) {ops : List (Operation W)}
    {x : Checked (Outcome W Unit)} (hrest : ∀ next, SameButCount l next → Agree SameTold (next.run ops) x) :
    Agree SameTold (l'.run (.handlePointer event :: ops)) x := by
  obtain ⟨count, last, rfl⟩ := h
  obtain ⟨reason, hreact⟩ : ∃ reason, (l.recount count last).react event =
      .ok ((l.recount count last).ignore true reason) := react_noise hactive hnoise
  let first : Outcome W Bool :=
    recordStep l.gesture.phase (.nothing reason) { value := true, layout := l.recount count last }
  have hfirst : (l.recount count last).perform (.handlePointer event) = .ok first.silent := by
    simp only [perform, handlePointer, hreact]
    rfl
  rw [run_cons, hfirst]
  exact (hrest first.layout ⟨_, _, rfl⟩).map fun o o' _ _ ho => ⟨ho.layout, ho.calls⟩

/-- Two sequences of pointer events that differ only by noise, in one or the other, while a drag is active. -/
inductive Noisy : Layout W → List PointerEvent → List PointerEvent → Prop
  | nil (l : Layout W) : Noisy l [] []
  | left {l : Layout W} {event : PointerEvent} {events events' : List PointerEvent}
      (hactive : l.gesture.phase.isActive = true) (hnoise : event.motion.IsNoise l.settings.dragButton)
      (hrest : Noisy l events events') : Noisy l (event :: events) events'
  | right {l : Layout W} {event : PointerEvent} {events events' : List PointerEvent}
      (hactive : l.gesture.phase.isActive = true) (hnoise : event.motion.IsNoise l.settings.dragButton)
      (hrest : Noisy l events events') : Noisy l events (event :: events')
  | both {l : Layout W} {event : PointerEvent} {events events' : List PointerEvent}
      (hrest : ∀ o, l.handlePointer event = .ok o → Noisy o.layout events events') :
      Noisy l (event :: events) (event :: events')

theorem SameButCount.perform (h : SameButCount l l') (event : PointerEvent) :
    Agree SameTold (l.perform (.handlePointer event)) (l'.perform (.handlePointer event)) :=
  (h.handlePointer event).bind fun _ _ _ _ ho => .ok ⟨ho.layout, ho.calls⟩

theorem SameButCount.run {k k' : Layout W} (h : Noisy l events events') (hk : SameButCount l k)
    (hk' : SameButCount l k') :
    Agree SameTold (k.run (events.map .handlePointer)) (k'.run (events'.map .handlePointer)) := by
  induction h generalizing k k' with
  | nil l => exact .ok ⟨hk.symm.trans hk', rfl⟩
  | left hactive hnoise hrest ih => exact agree_noise hk hactive hnoise fun next hnext => ih hnext hk'
  | right hactive hnoise hrest ih =>
    exact SameTold.agree_symm <| agree_noise hk' hactive hnoise fun next hnext =>
      SameTold.agree_symm (ih hk hnext)
  | @both l event events events' hrest ih =>
    rw [List.map_cons, List.map_cons, run_cons, run_cons]
    refine ((hk.symm.trans hk').perform event).bind fun first first' hfirst _ hsame => ?_
    have hstart := hk.perform event
    rw [hfirst] at hstart
    obtain ⟨o, ho, hstart⟩ := hstart.of_ok
    obtain ⟨handled, hhandled, rfl⟩ := map_eq_ok.1 ho
    refine (ih handled hhandled hstart.layout (hstart.layout.trans hsame.layout)).bind fun o o' _ _ ho => ?_
    have hcalls : first'.calls ++ o'.calls = first.calls ++ o.calls := by rw [hsame.calls, ho.calls]
    exact .ok ⟨ho.layout, hcalls⟩

/-- An active drag ignores noise. Of two sequences of pointer events that differ only by noise while a drag is
active, both overflow or none does. They leave the same layout, but for the steps behind it, and have the same
calls in the same order. -/
theorem agree_run_noisy (h : Noisy l events events') :
    Agree (fun o o' => (∃ count last, o'.layout =
        { o.layout with gesture := { o.layout.gesture with count, last } }) ∧ o'.calls = o.calls)
      (l.run (events.map .handlePointer)) (l.run (events'.map .handlePointer)) :=
  (SameButCount.run h (.refl l) (.refl l)).imp fun _ _ _ _ ho => ⟨ho.layout, ho.calls⟩

/-- A line that is held is dragged and let go. -/
def letGo : List PointerEvent := [dragAt 21, { motion := .up .left, position := ⟨21, 5⟩ }]

/-- The same while the pointer leaves, another button is clicked, and the drag button is pressed again. -/
def letGoNoisily : List PointerEvent :=
  [{ motion := .moved, position := ⟨12, 5⟩ }, dragAt 21, { motion := .leave, position := ⟨21, 11⟩ },
    { motion := .down .right, position := ⟨21, 5⟩ }, { motion := .drag .right, position := ⟨25, 5⟩ },
    { motion := .up .right, position := ⟨21, 5⟩ }, pressAt 21, { motion := .up .left, position := ⟨21, 5⟩ }]

theorem agree_run_noisy_folded : ∃ pressed o o', folded.handlePointer (pressAt 11) = .ok pressed ∧
    pressed.layout.gesture.phase.isActive = true ∧ pressed.layout.run (letGo.map .handlePointer) = .ok o ∧
      pressed.layout.run (letGoNoisily.map .handlePointer) = .ok o' ∧
      o'.layout.store.bounds = [⟨0, 0, 20, 10⟩, ⟨20, 0, 0, 10⟩, ⟨20, 0, 10, 10⟩] ∧
      o'.layout.gesture.phase = .idle ∧ o'.calls = o.calls := by
  obtain ⟨pressed, hpress, hactive, dragged, hdrag, hdragging, hbutton, o, h, hbounds, hidle⟩ :
      ∃ pressed, folded.handlePointer (pressAt 11) = .ok pressed ∧
        pressed.layout.gesture.phase.isActive = true ∧
        ∃ dragged, pressed.layout.handlePointer (dragAt 21) = .ok dragged ∧
          dragged.layout.gesture.phase.isActive = true ∧ dragged.layout.settings.dragButton = .left ∧
        ∃ o : Outcome Unit Unit, pressed.layout.run (letGo.map .handlePointer) = .ok o ∧
          o.layout.store.bounds = [⟨0, 0, 20, 10⟩, ⟨20, 0, 0, 10⟩, ⟨20, 0, 10, 10⟩] ∧
          o.layout.gesture.phase = .idle :=
    ⟨_, rfl, rfl, _, rfl, rfl, rfl, _, rfl, by decide, rfl⟩
  have hother : Button.right ≠ dragged.layout.settings.dragButton := by rw [hbutton]; decide
  have hnoisy : Noisy pressed.layout letGo letGoNoisily := by
    refine .right hactive trivial (.both fun o ho => ?_)
    obtain rfl := Except.ok.inj (hdrag.symm.trans ho)
    exact .right hdragging trivial <| .right hdragging trivial <| .right hdragging hother <|
      .right hdragging hother <| .right hdragging trivial <| .both fun _ _ => .nil _
  have hagree := agree_run_noisy hnoisy
  rw [h] at hagree
  obtain ⟨o', h', ⟨count, last, hlayout⟩, hcalls⟩ := hagree.to_ok
  refine ⟨pressed, o, o', hpress, hactive, h, h', ?_, ?_, hcalls⟩
  · rw [hlayout]
    exact hbounds
  · rw [hlayout]
    exact hidle

end Layout

end Mosaic
