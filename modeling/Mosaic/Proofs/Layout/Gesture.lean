import Mosaic.Proofs.Layout.Geometry
import Mosaic.Proofs.Layout.React
import Mosaic.Proofs.Plane.Span

/-! What the geometry of a layout keeps under moves and resizes it keeps under whole gestures too: a
drag that is broken off can only go back to a geometry that the layout had when the drag began. -/
namespace Mosaic.Layout

variable {W : Type} {R : Rect → Rect → Prop} {G : Settings → Snapshot → Prop} {l l' : Layout W}

/-- Moves, changes of the anchor, and resizes of a container to a target that `R` allows keep the
property of the geometry. -/
structure Lasting (W : Type) (R : Rect → Rect → Prop) (G : Settings → Snapshot → Prop) : Prop where
  drag : ∀ (l : Layout W) held goal o, G l.settings l.snapshot → l.drag held goal = .ok o →
    G l.settings o.layout.snapshot
  move : ∀ (l : Layout W) held goal o, G l.settings l.snapshot → l.move held goal = .ok o →
    G l.settings o.layout.snapshot
  resize : ∀ (l : Layout W) target o, R l.bounds target → G l.settings l.snapshot →
    l.resize target = .ok o → G l.settings o.layout.snapshot ∧ Rearranged l o.layout
  anchor : ∀ settings s anchor, G settings s → G settings { s with anchor }

/-- The geometry has the property, and so has the one that a drag would go back to. -/
structure Sound (G : Settings → Snapshot → Prop) (l : Layout W) : Prop where
  geometry : G l.settings l.snapshot
  store : l.store.Sound
  idle : l.gesture.phase.grasp? = none → l.gesture.pressed = none
  pressed : ∀ s, l.gesture.pressed = some s → G l.settings s ∧ s.items.map (·.id) = l.store.ids

namespace Sound

theorem gesture (h : Sound G l) {g : Gesture} (hidle : g.phase.grasp? = none → g.pressed = none)
    (hpressed : ∀ s, g.pressed = some s → s = l.snapshot ∨ l.gesture.pressed = some s) :
    Sound G { l with gesture := g } := by
  refine ⟨h.geometry, h.store, hidle, fun s hs => ?_⟩
  rcases hpressed s hs with rfl | hs
  · exact ⟨h.geometry, l.snapshot_ids⟩
  · exact h.pressed s hs

theorem released (h : Sound G l) : Sound G { l with gesture := { l.gesture with phase := .idle, pressed := none } } :=
  h.gesture (fun _ => rfl) fun _ hs => by cases hs

theorem rearranged (h : Sound G l) (hr : Rearranged l l') (hg : G l.settings l'.snapshot) : Sound G l' := by
  obtain ⟨hnodup, hbelow⟩ := h.store
  refine ⟨hr.settings ▸ hg, ⟨hr.ids ▸ hnodup, ?_⟩, ?_, ?_⟩
  · rw [hr.ids, hr.next]
    exact hbelow
  · rw [hr.gesture]
    exact h.idle
  · rw [hr.gesture, hr.settings, hr.ids]
    exact h.pressed

theorem setAnchor (hG : Lasting W R G) (h : Sound G l) (anchor : Option RegionId) :
    Sound G { l with anchor } :=
  ⟨hG.anchor l.settings l.snapshot anchor h.geometry, h.store, h.idle, h.pressed⟩

theorem drag (hG : Lasting W R G) (h : Sound G l) {held : Grip} {goal : Point} {o : Outcome W Grip}
    (ho : l.drag held goal = .ok o) : Sound G o.layout ∧ Rearranged l o.layout := by
  have hr := drag_rearranged ho
  exact ⟨h.rearranged hr (hG.drag l held goal o h.geometry ho), hr⟩

theorem move (hG : Lasting W R G) (h : Sound G l) {held : Grip} {goal : Point} {o : Outcome W Grip}
    (ho : l.move held goal = .ok o) : Sound G o.layout := by
  exact h.rearranged (move_rearranged ho) (hG.move l held goal o h.geometry ho)

theorem resize (hG : Lasting W R G) (h : Sound G l) {target : Rect} (ht : R l.bounds target) {o : Outcome W Rect}
    (ho : l.resize target = .ok o) : Sound G o.layout := by
  obtain ⟨hg, hr⟩ := hG.resize l target o ht h.geometry ho
  exact h.rearranged hr hg

theorem showCursor (h : Sound G l) (cursor : Cursor) : Sound G (l.showCursor cursor).layout := by
  unfold Layout.showCursor
  split
  · exact h
  · exact h.gesture h.idle fun s hs => .inr hs

theorem recordStep {α : Type} (before : Phase) (effect : Effect) {o : Outcome W α} (h : Sound G o.layout) :
    Sound G (Layout.recordStep before effect o).layout :=
  h.gesture h.idle fun _ hs => .inr hs

theorem react (hG : Lasting W R G) (h : Sound G l) {event : PointerEvent} {o : Reaction W}
    (ho : Reacts l event o) : Sound G o.layout := by
  cases ho with
  | ignored consumed reason => exact h
  | hovered grasp hidle => exact h.showCursor _
  | left hidle => exact h.showCursor _
  | armed grasp hidle =>
    refine Sound.showCursor (h.gesture (by simp [Phase.grasp?]) fun s hs => ?_) _
    simp only at hs
    split at hs
    · exact .inl (Option.some.inj hs).symm
    · cases hs
  | dragged grasp origin requested limits moved hphase hmoved =>
    exact (h.drag hG hmoved).1.gesture (by simp [Phase.grasp?]) fun s hs => .inr hs
  | released grasp hphase => exact h.released
  | committed grasp requested moved hphase hmoved => exact (h.move hG hmoved).released

theorem handlePointer (hG : Lasting W R G) (h : Sound G l) {event : PointerEvent} {o : Outcome W Bool}
    (ho : l.handlePointer event = .ok o) : Sound G o.layout := by
  obtain ⟨reaction, hreact, rfl⟩ := handlePointer_eq_ok ho
  exact Sound.recordStep _ _ (h.react hG hreact)

theorem withSnapshot (h : Sound G l) {s : Snapshot} (hversion : s.version = Snapshot.supportedVersion)
    (hg : G l.settings s) (hids : s.items.map (·.id) = l.store.ids) : Sound G (l.withSnapshot s) := by
  have hsnapshot := snapshot_withSnapshot hversion hids h.store.nodup
  have hstore := l.ids_withSnapshot s
  refine ⟨hsnapshot.symm ▸ hg, ⟨hstore ▸ h.store.nodup, ?_⟩, h.idle, ?_⟩
  · rw [hstore]
    exact h.store.below
  · rw [hstore]
    exact h.pressed

/-- Going back to the geometry that the drag began with. -/
theorem rewind (h : Sound G l) {o : Outcome W Bool}
    (ho : Rewinds { l with gesture := { l.gesture with phase := .idle } } o) : Sound G o.layout := by
  cases ho with
  | unkept hnone => exact h.gesture (fun _ => hnone) fun s hs => .inr hs
  | restored start back changed hstart hback hchanged =>
    obtain ⟨hversion, hlayout, -⟩ := restore_eq_ok hback hchanged
    obtain ⟨hg, hids⟩ := h.pressed start hstart
    exact hlayout ▸ h.released.withSnapshot hversion hg hids
  | refused start e hstart hrefused => exact h.released

theorem cancel (h : Sound G l) {reason : CancelReason} {o : Outcome W Bool}
    (ho : Cancels l reason o) : Sound G o.layout := by
  cases ho with
  | nothing hidle => exact Sound.recordStep _ _ h
  | canceled grasp back hphase hback => exact Sound.recordStep _ _ (Sound.showCursor (h.rewind hback) _)

theorem breakOff (h : Sound G l) {o : Outcome W Bool} (ho : l.breakOff = .ok o) : Sound G o.layout := by
  rcases breakOff_eq_ok ho with hcanceled | ⟨-, rfl⟩
  · exact h.cancel hcanceled
  · exact h

theorem handleResize (hG : Lasting W R G) (h : Sound G l) {target : Rect}
    (ht : ∀ first, l.breakOff = .ok first → R first.layout.bounds target) {o : Outcome W Bool}
    (ho : l.handleResize target = .ok o) : Sound G o.layout := by
  obtain ⟨first, second, hfirst, hsecond, rfl⟩ := handleResize_eq_ok ho
  exact (h.breakOff hfirst).resize hG (ht first hfirst) hsecond

theorem handle (hG : Lasting W R G) (h : Sound G l) {event : Event}
    (ht : ∀ target, event = .resize target → ∀ first, l.breakOff = .ok first → R first.layout.bounds target)
    {o : Outcome W Bool} (ho : l.handle event = .ok o) : Sound G o.layout := by
  unfold Layout.handle at ho
  split at ho
  · exact h.handlePointer hG ho
  · exact h.handleResize hG (ht _ rfl) ho
  · cases ho
    exact h
  · exact h.cancel (cancel_eq_ok ho)
  · exact h.cancel (cancel_eq_ok ho)

end Sound

end Mosaic.Layout
