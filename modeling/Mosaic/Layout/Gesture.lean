import Mosaic.Layout.Resize
import Mosaic.Layout.Restore

/-! Pointer gestures on a layout. Every pointer event is one step of the drag's life; the host is
told of changed bounds, of a new cursor, and of drags that go on or end with a change. -/
namespace Mosaic.Layout

variable {W : Type}

/-- Asks for a cursor, unless it is already shown. -/
def showCursor (l : Layout W) (cursor : Cursor) : Outcome W Unit :=
  if l.gesture.cursor = cursor then { value := (), layout := l }
  else {
    value := ()
    layout := { l with gesture := { l.gesture with cursor } }
    calls := [.setCursor cursor] }

def recordStep {α : Type} (before : Phase) (effect : Effect) (o : Outcome W α) : Outcome W α :=
  let g := o.layout.gesture
  { o with
    layout := { o.layout with gesture := g.record before effect }
    journal := o.journal ++ [{ note := .stepped (g.transition before effect) }] }

/-- What a pointer event came to: whether it was consumed, and its effect. -/
abbrev Reaction (W : Type) := Outcome W (Bool × Effect)

def ignore (l : Layout W) (consumed : Bool) (reason : IdleReason) : Reaction W :=
  { value := (consumed, .nothing reason), layout := l }

/-- Without a drag, the cursor announces the lines under the pointer. -/
def hover (l : Layout W) (pointer : Point) : Checked (Reaction W) := do
  let grasp ← l.locate pointer
  let o := l.showCursor grasp.kind.cursor
  return { o with value := (decide grasp.IsActive, .hovered grasp.kind) }

def unhover (l : Layout W) : Reaction W :=
  let o := l.showCursor .default
  { o with value := (false, .left) }

/-- Where lines may be dragged: without a size range only within the anchor, if there is one. -/
def dragLimits (l : Layout W) : Rect :=
  if l.hasSizeRange then l.bounds else l.anchorBounds?.getD l.bounds

/-- A press on an edge arms a drag. -/
def press (l : Layout W) (pointer : Point) : Checked (Reaction W) := do
  let grasp ← l.locate pointer
  if grasp.IsActive then
    let pressed := if l.settings.restoreOnCancel then some l.snapshot else none
    let phase : Phase := .armed grasp pointer l.dragLimits
    let o := showCursor { l with gesture := { l.gesture with phase, pressed } } grasp.kind.cursor
    return { o with value := (true, .armed grasp.grip pointer) }
  else return l.ignore false .noEdge

/-- The calls for all regions whose bounds are no longer those of `before`. -/
def changeCalls (l : Layout W) (before : Layout W) : List HostCall :=
  l.boundsCalls (l.store.changedSince before.store.bounds)

/-- Motion with the button held moves the lines after the pointer. -/
def dragTo (l : Layout W) (grasp : Grasp) (origin : Point) (limits : Rect) (pointer : Point) :
    Checked (Reaction W) := do
  let requested := limits.clampPoint (← grasp.candidate pointer)
  let o ← l.drag grasp.grip requested
  let achieved := o.value
  let phase : Phase := .dragging { grasp with grip := achieved } origin pointer limits
  return {
    value := (true, .dragged achieved requested achieved)
    layout := { o.layout with gesture := { o.layout.gesture with phase } }
    journal := o.journal
    calls := o.layout.changeCalls l ++ [.notify .dragged] }

/-- Release after motion moves the lines for good. -/
def drop (l : Layout W) (grasp : Grasp) (limits : Rect) (pointer : Point) :
    Checked (Reaction W) := do
  let requested := limits.clampPoint (← grasp.candidate pointer)
  let o ← l.move grasp.grip requested
  return {
    value := (true, .committed grasp.grip o.value)
    layout := { o.layout with gesture := { o.layout.gesture with phase := .idle, pressed := none } }
    journal := o.journal
    calls := o.layout.changeCalls l ++ [.notify .changed] }

/-- Release before motion changes nothing. -/
def release (l : Layout W) (grasp : Grasp) : Reaction W := {
  value := (true, .released grasp.grip)
  layout := { l with gesture := { l.gesture with phase := .idle, pressed := none } } }

/-- What an event comes to, by the phase and the motion. An active drag keeps the pointer: motion
without a button, leaving and further presses do not touch it, nor do other buttons. -/
def react (l : Layout W) (event : PointerEvent) : Checked (Reaction W) :=
  let phase := l.gesture.phase
  let foreign (button : Button) : Bool := button != l.settings.dragButton
  match event.motion with
  | .moved =>
    if phase.isActive then .ok (l.ignore true .alreadyDragging) else l.hover event.position
  | .leave =>
    if phase.isActive then .ok (l.ignore true .alreadyDragging) else .ok l.unhover
  | .down button =>
    if foreign button then .ok (l.ignore phase.isActive .wrongButton)
    else if phase.isActive then .ok (l.ignore true .alreadyDragging)
    else l.press event.position
  | .drag button =>
    if foreign button then .ok (l.ignore phase.isActive .wrongButton)
    else match phase with
      | .idle => .ok (l.ignore false .notDragging)
      | .armed grasp origin limits | .dragging grasp origin _ limits =>
        l.dragTo grasp origin limits event.position
  | .up button =>
    if foreign button then .ok (l.ignore phase.isActive .wrongButton)
    else match phase with
      | .idle => .ok (l.ignore false .notDragging)
      | .armed grasp _ _ => .ok (l.release grasp)
      | .dragging grasp _ _ limits => l.drop grasp limits event.position

/-- Takes in a pointer event and answers whether it was consumed. -/
def handlePointer (l : Layout W) (event : PointerEvent) : Checked (Outcome W Bool) := do
  let o ← l.react event
  return recordStep l.gesture.phase o.value.2 { o with value := o.value.1 }

/-- Undoes an active drag, if its start was kept. A start that can no longer be restored is noted
and left alone. -/
def rewind (l : Layout W) : Checked (Outcome W Bool) :=
  match l.gesture.pressed with
  | none => .ok { value := false, layout := l }
  | some start => do
    let cleared := { l with gesture := { l.gesture with pressed := none } }
    let o ← cleared.restore start
    match o.value with
    | .ok changed => return { o with value := true, calls := o.layout.boundsCalls changed }
    | .error e => return { o with value := false, journal := o.journal ++ [{ note := .restoreFailed e }] }

/-- Breaks off an active drag and answers whether there was one. -/
def cancel (l : Layout W) (reason : CancelReason) : Checked (Outcome W Bool) :=
  let before := l.gesture.phase
  match before.grasp? with
  | none => .ok (recordStep before (.nothing .notDragging) { value := false, layout := l })
  | some grasp => do
    let o ← rewind { l with gesture := { l.gesture with phase := .idle } }
    let shown := o.layout.showCursor .default
    return recordStep before (.canceled (some grasp.grip) reason o.value) {
      value := true
      layout := shown.layout
      journal := o.journal
      calls := o.calls ++ shown.calls }

def cancelDrag (l : Layout W) : Checked (Outcome W Bool) := l.cancel .requested

/-- Takes new outer bounds; a drag is broken off first. -/
def handleResize (l : Layout W) (bounds : Rect) : Checked (Outcome W Bool) := do
  let first : Outcome W Bool ←
    if l.gesture.phase.isActive then l.cancel .containerResized
    else pure { value := false, layout := l }
  let second ← first.layout.resize bounds
  return {
    value := true
    layout := second.layout
    journal := first.journal ++ second.journal
    calls := first.calls ++ second.layout.changeCalls first.layout }

def handle (l : Layout W) (event : Event) : Checked (Outcome W Bool) :=
  match event with
  | .pointer e => l.handlePointer e
  | .resize bounds => l.handleResize bounds
  | .focus true => .ok { value := false, layout := l }
  | .focus false => l.cancel .focusLost
  | .captureLost => l.cancel .captureLost

end Mosaic.Layout
