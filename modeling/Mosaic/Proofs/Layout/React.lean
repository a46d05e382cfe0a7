import Mosaic.Layout.Gesture
import Mosaic.Proofs.Layout.Geometry

/-! What pointer events and broken off drags come to, one case for each way they can go. -/
namespace Mosaic

namespace Phase

variable {p : Phase}

/-- What a drag holds, and where its lines may be dragged. -/
def hold? : Phase → Option (Grasp × Rect)
  | .idle => none
  | .armed grasp _ limits | .dragging grasp _ _ limits => some (grasp, limits)

theorem grasp?_of_hold? {grasp : Grasp} {limits : Rect} (h : p.hold? = some (grasp, limits)) :
    p.grasp? = some grasp := by
  cases p with
  | idle => cases h
  | _ =>
    cases h
    rfl

theorem isActive_iff : p.isActive = true ↔ ∃ grasp, p.grasp? = some grasp := Option.isSome_iff_exists

theorem eq_idle_of_not_isActive (h : ¬ p.isActive = true) : p = .idle := by
  cases p with
  | idle => rfl
  | _ => exact absurd rfl h

end Phase

namespace Layout

variable {W : Type} {l : Layout W} {event : PointerEvent} {reason : CancelReason} {target : Rect}

theorem showCursor_eq (l : Layout W) (cursor : Cursor) : l.showCursor cursor = {
    value := ()
    layout := { l with gesture := { l.gesture with cursor } }
    calls := if l.gesture.cursor = cursor then [] else [.setCursor cursor] } := by
  unfold showCursor
  split
  · next h =>
    subst h
    rfl
  · rfl

/-- A drag of the lines under the pointer is armed. -/
def arm (l : Layout W) (grasp : Grasp) (pointer : Point) : Layout W :=
  { l with gesture := { l.gesture with
      phase := .armed grasp pointer l.dragLimits
      pressed := if l.settings.restoreOnCancel then some l.snapshot else none } }

/-- What a pointer event can come to. Only without a drag are lines announced or a drag armed, and only a
drag that has gone on ends with a change. -/
inductive Reacts (l : Layout W) (event : PointerEvent) : Reaction W → Prop
  | ignored (consumed : Bool) (reason : IdleReason) : Reacts l event (l.ignore consumed reason)
  | hovered (grasp : Grasp) (hidle : l.gesture.phase = .idle) : Reacts l event
      { l.showCursor grasp.kind.cursor with value := (decide grasp.IsActive, .hovered grasp.kind) }
  | left (hidle : l.gesture.phase = .idle) : Reacts l event l.unhover
  | armed (grasp : Grasp) (hidle : l.gesture.phase = .idle) (hlocate : l.locate event.position = .ok grasp)
      (hactive : grasp.IsActive) : Reacts l event
      { (l.arm grasp event.position).showCursor grasp.kind.cursor with
        value := (true, .armed grasp.grip event.position) }
  | dragged (grasp : Grasp) (origin requested : Point) (limits : Rect) (moved : Outcome W Grip)
      (hphase : l.gesture.phase.grasp? = some grasp) (h : l.drag grasp.grip requested = .ok moved)
      (hhold : l.gesture.phase.hold? = some (grasp, limits)) : Reacts l event {
        value := (true, .dragged moved.value requested moved.value)
        layout := { moved.layout with gesture := { moved.layout.gesture with
          phase := .dragging { grasp with grip := moved.value } origin event.position limits } }
        journal := moved.journal
        calls := moved.layout.changeCalls l ++ [.notify .dragged] }
  | released (grasp : Grasp) (hphase : l.gesture.phase.grasp? = some grasp) :
      Reacts l event (l.release grasp)
  | committed (grasp : Grasp) (requested : Point) (moved : Outcome W Grip)
      (hphase : l.gesture.phase.grasp? = some grasp) (h : l.move grasp.grip requested = .ok moved)
      (origin current : Point) (limits : Rect)
      (hdragging : l.gesture.phase = .dragging grasp origin current limits) : Reacts l event {
        value := (true, .committed grasp.grip moved.value)
        layout := { moved.layout with gesture := { moved.layout.gesture with
          phase := .idle, pressed := none } }
        journal := moved.journal
        calls := moved.layout.changeCalls l ++ [.notify .changed] }

variable {o : Reaction W}

theorem Reacts.of_hover (hidle : l.gesture.phase = .idle) (h : l.hover event.position = .ok o) :
    Reacts l event o := by
  obtain ⟨grasp, -, h⟩ := Checked.bind_eq_ok.1 h
  cases Checked.pure_eq_ok.1 h
  exact .hovered grasp hidle

theorem Reacts.of_press (hidle : l.gesture.phase = .idle) (h : l.press event.position = .ok o) :
    Reacts l event o := by
  obtain ⟨grasp, hlocate, h⟩ := Checked.bind_eq_ok.1 h
  split at h
  · next hactive =>
    cases Checked.pure_eq_ok.1 h
    exact .armed grasp hidle hlocate hactive
  · cases Checked.pure_eq_ok.1 h
    exact .ignored false .noEdge

theorem Reacts.of_dragTo {grasp : Grasp} {origin : Point} {limits : Rect}
    (hhold : l.gesture.phase.hold? = some (grasp, limits))
    (h : l.dragTo grasp origin limits event.position = .ok o) : Reacts l event o := by
  obtain ⟨candidate, -, h⟩ := Checked.bind_eq_ok.1 h
  obtain ⟨moved, hmoved, h⟩ := Checked.bind_eq_ok.1 h
  cases Checked.pure_eq_ok.1 h
  exact .dragged grasp origin _ limits moved (Phase.grasp?_of_hold? hhold) hmoved hhold

theorem Reacts.of_drop {grasp : Grasp} {origin current : Point} {limits : Rect}
    (hdragging : l.gesture.phase = .dragging grasp origin current limits)
    (h : l.drop grasp limits event.position = .ok o) : Reacts l event o := by
  obtain ⟨candidate, -, h⟩ := Checked.bind_eq_ok.1 h
  obtain ⟨moved, hmoved, h⟩ := Checked.bind_eq_ok.1 h
  cases Checked.pure_eq_ok.1 h
  exact .committed grasp _ moved (by rw [hdragging]; rfl) hmoved origin current limits hdragging

theorem react_eq_ok (h : l.react event = .ok o) : Reacts l event o := by
  simp only [react] at h
  split at h
  · split at h
    · cases h
      exact .ignored ..
    · next hidle => exact .of_hover (Phase.eq_idle_of_not_isActive hidle) h
  · split at h
    · cases h
      exact .ignored ..
    · next hidle =>
      cases h
      exact .left (Phase.eq_idle_of_not_isActive hidle)
  · split at h
    · cases h
      exact .ignored ..
    · split at h
      · cases h
        exact .ignored ..
      · next hidle => exact .of_press (Phase.eq_idle_of_not_isActive hidle) h
  · split at h
    · cases h
      exact .ignored ..
    · split at h
      · cases h
        exact .ignored ..
      · next hphase => exact .of_dragTo (by rw [hphase]; rfl) h
      · next hphase => exact .of_dragTo (by rw [hphase]; rfl) h
  · split at h
    · cases h
      exact .ignored ..
    · split at h
      · cases h
        exact .ignored ..
      · next hphase =>
        cases h
        exact .released _ (by rw [hphase]; rfl)
      · next hdragging => exact .of_drop hdragging h

theorem Reacts.press (h : Reacts l event o) (hidle : l.gesture.phase = .idle)
    (hactive : o.layout.gesture.phase.isActive = true) :
    ∃ grasp, l.locate event.position = .ok grasp ∧ grasp.IsActive ∧
      ∃ cursor, o.layout = { l.arm grasp event.position with
        gesture := { (l.arm grasp event.position).gesture with cursor } } := by
  have hnone : ¬ l.gesture.phase.isActive = true := by simp [hidle, Phase.isActive, Phase.grasp?]
  cases h with
  | ignored consumed reason => exact absurd hactive hnone
  -- Announcing a line does not arm a drag.
  | hovered grasp _ =>
    rw [showCursor_eq] at hactive
    exact absurd hactive hnone
  | left _ =>
    rw [unhover, showCursor_eq] at hactive
    exact absurd hactive hnone
  | armed grasp _ hlocate hgrasp => exact ⟨grasp, hlocate, hgrasp, _, by rw [showCursor_eq]⟩
  -- All else takes a drag that is there already.
  | dragged grasp _ _ _ _ hphase _ => exact absurd (Phase.isActive_iff.2 ⟨grasp, hphase⟩) hnone
  | released grasp hphase => exact absurd (Phase.isActive_iff.2 ⟨grasp, hphase⟩) hnone
  | committed grasp _ _ hphase _ => exact absurd (Phase.isActive_iff.2 ⟨grasp, hphase⟩) hnone

/-- A drag that goes on leaves all as it is, or moves the lines that it holds. No event begins another one. -/
theorem Reacts.steer (h : Reacts l event o) (hbusy : l.gesture.phase.isActive = true)
    (hactive : o.layout.gesture.phase.isActive = true) :
    o.layout = l ∨ ∃ grasp limits requested moved origin, l.gesture.phase.hold? = some (grasp, limits) ∧
      l.drag grasp.grip requested = .ok moved ∧ o.layout = { moved.layout with
        gesture := { moved.layout.gesture with
          phase := .dragging { grasp with grip := moved.value } origin event.position limits } } := by
  have hheld : l.gesture.phase ≠ .idle := fun hidle => by
    rw [hidle] at hbusy
    cases hbusy
  cases h with
  | ignored consumed reason => exact .inl rfl
  | hovered grasp hidle => exact absurd hidle hheld
  | left hidle => exact absurd hidle hheld
  | armed grasp hidle => exact absurd hidle hheld
  | dragged grasp origin requested limits moved hphase hmoved hhold =>
    exact .inr ⟨grasp, limits, requested, moved, origin, hhold, hmoved, rfl⟩
  -- A release ends the drag.
  | released grasp hphase => cases hactive
  | committed grasp requested moved hphase hmoved => cases hactive

theorem handlePointer_eq_ok {o : Outcome W Bool} (h : l.handlePointer event = .ok o) :
    ∃ reaction, Reacts l event reaction ∧
      o = recordStep l.gesture.phase reaction.value.2 { reaction with value := reaction.value.1 } := by
  obtain ⟨reaction, hreact, h⟩ := Checked.bind_eq_ok.1 h
  exact ⟨reaction, react_eq_ok hreact, (Checked.pure_eq_ok.1 h).symm⟩

/-- What undoing a drag can come to. The start that was kept is dropped in any case. -/
inductive Rewinds (l : Layout W) : Outcome W Bool → Prop
  | unkept (h : l.gesture.pressed = none) : Rewinds l { value := false, layout := l }
  | restored (start : Snapshot) (back : Outcome W (Except LayoutError (List RegionId))) (changed : List RegionId)
      (hstart : l.gesture.pressed = some start)
      (h : restore { l with gesture := { l.gesture with pressed := none } } start = .ok back)
      (hchanged : back.value = .ok changed) :
      Rewinds l { back with value := true, calls := back.layout.boundsCalls changed }
  | refused (start : Snapshot) (e : LayoutError) (hstart : l.gesture.pressed = some start)
      (h : restore { l with gesture := { l.gesture with pressed := none } } start = .ok { value := .error e, layout := { l with gesture := { l.gesture with pressed := none } } }) :
      Rewinds l {
        value := false
        layout := { l with gesture := { l.gesture with pressed := none } }
        journal := [{ note := .restoreFailed e }] }

theorem rewind_eq_ok {o : Outcome W Bool} (h : l.rewind = .ok o) : Rewinds l o := by
  unfold rewind at h
  split at h
  · next hnone =>
    cases h
    exact .unkept hnone
  · next start hstart =>
    obtain ⟨answer, hrestore, h⟩ := Checked.bind_eq_ok.1 h
    rcases restore_cases hrestore with ⟨e, rfl⟩ | ⟨rfl, -⟩
    · cases Checked.pure_eq_ok.1 h
      exact .refused start e hstart hrestore
    · cases Checked.pure_eq_ok.1 h
      exact .restored start _ _ hstart hrestore rfl

/-- What breaking off can come to. -/
inductive Cancels (l : Layout W) (reason : CancelReason) : Outcome W Bool → Prop
  | nothing (hidle : l.gesture.phase.grasp? = none) : Cancels l reason
      (recordStep l.gesture.phase (.nothing .notDragging) { value := false, layout := l })
  | canceled (grasp : Grasp) (back : Outcome W Bool) (hphase : l.gesture.phase.grasp? = some grasp)
      (h : Rewinds { l with gesture := { l.gesture with phase := .idle } } back) : Cancels l reason
      (recordStep l.gesture.phase (.canceled (some grasp.grip) reason back.value) {
        value := true
        layout := (back.layout.showCursor .default).layout
        journal := back.journal
        calls := back.calls ++ (back.layout.showCursor .default).calls })

theorem cancel_eq_ok {o : Outcome W Bool} (h : l.cancel reason = .ok o) : Cancels l reason o := by
  simp only [cancel] at h
  split at h
  · next hidle =>
    cases h
    exact .nothing hidle
  · next grasp hphase =>
    obtain ⟨back, hback, h⟩ := Checked.bind_eq_ok.1 h
    cases Checked.pure_eq_ok.1 h
    exact .canceled grasp back hphase (rewind_eq_ok hback)

/-- A drag is broken off before the container is resized. -/
def breakOff (l : Layout W) : Checked (Outcome W Bool) :=
  if l.gesture.phase.isActive then l.cancel .containerResized else .ok { value := false, layout := l }

theorem breakOff_eq_ok {o : Outcome W Bool} (h : l.breakOff = .ok o) :
    Cancels l .containerResized o ∨ (l.gesture.phase = .idle ∧ o = { value := false, layout := l }) := by
  unfold breakOff at h
  split at h
  · exact .inl (cancel_eq_ok h)
  · next hidle =>
    cases h
    exact .inr ⟨Phase.eq_idle_of_not_isActive hidle, rfl⟩

theorem handleResize_eq (l : Layout W) (target : Rect) : l.handleResize target = do
    let first ← l.breakOff
    let second ← first.layout.resize target
    return {
      value := true
      layout := second.layout
      journal := first.journal ++ second.journal
      calls := first.calls ++ second.layout.changeCalls first.layout } := by
  unfold handleResize breakOff
  split
  · rfl
  · rfl

theorem handleResize_eq_ok {o : Outcome W Bool} (h : l.handleResize target = .ok o) :
    ∃ first second, l.breakOff = .ok first ∧ first.layout.resize target = .ok second ∧ o = {
      value := true
      layout := second.layout
      journal := first.journal ++ second.journal
      calls := first.calls ++ second.layout.changeCalls first.layout } := by
  rw [handleResize_eq] at h
  obtain ⟨first, hfirst, h⟩ := Checked.bind_eq_ok.1 h
  obtain ⟨second, hsecond, rfl⟩ := Checked.map_eq_ok.1 h
  exact ⟨first, second, hfirst, hsecond, rfl⟩

end Layout

end Mosaic
