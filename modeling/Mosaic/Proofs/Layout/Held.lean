import Mosaic.Proofs.Cascade.Drawn
import Mosaic.Proofs.Edge.Grasp
import Mosaic.Proofs.Layout.Reflow
import Mosaic.Proofs.Layout.Rewind
import Mosaic.Proofs.Layout.Told

/-! What a drag holds while it goes on. The lines that a move is said to have reached are where the edges went,
so as long as a drag lasts there are edges at the lines that it holds, on the axes on which it took hold. -/
namespace Mosaic

namespace Grip

variable {g g' : Grip}

theorem isEmpty_iff : g.IsEmpty ↔ ∀ axis, g.along axis = .none :=
  ⟨fun h => Axis.rec h.1 h.2, fun h => ⟨h .x, h .y⟩⟩

theorem kind_eq_of_axes (h : ∀ axis, (g'.along axis).isSome = (g.along axis).isSome) : g'.kind = g.kind := by
  obtain ⟨x, y⟩ := g
  obtain ⟨x', y'⟩ := g'
  have hx : x'.isSome = x.isSome := h .x
  have hy : y'.isSome = y.isSome := h .y
  cases x <;> cases x' <;> cases y <;> cases y' <;> simp_all [kind]

end Grip

/-- What a drag holds that was armed with `first`: lines on the same axes, with the same offset from the pointer,
and at each of them some rectangle has an edge. -/
structure Grasp.Continues (first grasp : Grasp) (rects : List Rect) : Prop where
  active : grasp.IsActive
  axes : ∀ axis, (grasp.grip.along axis).isSome = (first.grip.along axis).isSome
  kind : grasp.kind = grasp.grip.kind
  offset : grasp.offset = first.offset
  unnamed : ∀ axis, grasp.grip.along axis = none → grasp.offset.along axis = 0
  live : ∀ axis line, grasp.grip.along axis = some line → ∃ r ∈ rects, ∃ side, r.edge axis side = line

namespace Grasp.Continues

variable {first grasp : Grasp} {rects rects' : List Rect} {grip : Grip}

theorem start {container : Rect} {pointer : Point} (h : first.Located rects container pointer)
    (hactive : first.IsActive) : Continues first first rects := by
  refine ⟨hactive, fun _ => rfl, h.kind, rfl, fun axis hnone => ?_, fun axis line hline => ?_⟩
  · rw [h.offset, hnone]
    rfl
  · obtain ⟨-, r, hr, hfar⟩ := h.offered axis line hline
    exact ⟨r, hr, .far, hfar⟩

theorem move (h : Continues first grasp rects)
    (hmoved : ∀ axis, ∃ m, Rect.MovedWith axis m rects rects' ∧ grip.along axis = (grasp.grip.along axis).map m) :
    Continues first { grasp with grip } rects' := by
  have haxes : ∀ axis, (grip.along axis).isSome = (grasp.grip.along axis).isSome := by
    intro axis
    obtain ⟨m, -, hm⟩ := hmoved axis
    rw [hm, Option.isSome_map]
  have hnone : ∀ axis, grip.along axis = none ↔ grasp.grip.along axis = none := by
    intro axis
    rw [← Option.not_isSome_iff_eq_none, haxes, Option.not_isSome_iff_eq_none]
  refine ⟨fun hempty => h.active ?_, fun axis => (haxes axis).trans (h.axes axis), ?_, h.offset,
    fun axis hline => h.unnamed axis ((hnone axis).1 hline), fun axis line hline => ?_⟩
  · exact Grip.isEmpty_iff.2 fun axis => (hnone axis).1 (Grip.isEmpty_iff.1 hempty axis)
  · exact h.kind.trans (Grip.kind_eq_of_axes haxes).symm
  · obtain ⟨m, hedges, hm⟩ := hmoved axis
    obtain ⟨old, hold, rfl⟩ := Option.map_eq_some_iff.1 (hm.symm.trans hline)
    obtain ⟨r, hr, side, rfl⟩ := h.live axis old hold
    obtain ⟨b, hb, hrb⟩ := hedges.exists_mem_zip hr
    exact ⟨b, (List.of_mem_zip hb).2, side, hrb side⟩

end Grasp.Continues

namespace Layout

variable {W : Type} {l start : Layout W} {held : Grip} {goal : Point} {event press : PointerEvent}
  {events during : List PointerEvent} {grasp : Grasp} {limits : Rect}

/-- All bounds are coordinates, and no extent is negative. -/
def Sane (l : Layout W) : Prop := (l.scene l.bounds).Fits

theorem Sane.write (hs : l.Sane) {plan : Plan} {trace : Trace}
    (h : (l.scene l.bounds).planFrom held goal {} = .ok (plan, trace)) : (l.write plan).Sane := by
  obtain ⟨hlength, hfits⟩ := Scene.planFrom_fits hs h
  refine ⟨hs.bounds, fun b hb => hfits b ?_⟩
  rw [← bounds_write hlength]
  exact hb

/-- The edges at held lines go where the lines are said to have come. -/
theorem Sane.commitWithin (hs : l.Sane) {o : Outcome W Grip} (h : l.commitWithin held goal l.bounds = .ok o)
    (axis : Axis) :
    ∃ m, Rect.MovedWith axis m l.store.bounds o.layout.store.bounds ∧ o.value.along axis = (held.along axis).map m := by
  obtain ⟨plan, trace, hplan, hvalue, hlayout⟩ := commitWithin_eq_ok h
  obtain ⟨m, hm, hachieved⟩ := Scene.planFrom_drawn hs hplan axis
  refine ⟨m, ?_, (congrArg (·.along axis) hvalue).trans hachieved⟩
  rw [hlayout, bounds_write (Scene.planFrom_fits hs hplan).1]
  exact hm.edges

theorem Sane.drag (hs : l.Sane) {o : Outcome W Grip} (h : l.drag held goal = .ok o) (axis : Axis) :
    ∃ m, Rect.MovedWith axis m l.store.bounds o.layout.store.bounds ∧ o.value.along axis = (held.along axis).map m := by
  obtain ⟨moved, hmoved, hvalue, hlayout⟩ := drag_commits h
  rw [hvalue, hlayout]
  exact hs.commitWithin hmoved axis

theorem Sane.move (hs : l.Sane) {o : Outcome W Grip} (h : l.move held goal = .ok o) (axis : Axis) :
    ∃ m, Rect.MovedWith axis m l.store.bounds o.layout.store.bounds ∧ o.value.along axis = (held.along axis).map m := by
  obtain ⟨moved, hmoved, hvalue, hlayout⟩ := move_commits h
  rw [hvalue, hlayout]
  exact hs.commitWithin hmoved axis

theorem Sane.react (hs : l.Sane) {o : Reaction W} (h : Reacts l event o) : o.layout.Sane := by
  cases h with
  | ignored consumed reason => exact hs
  | hovered grasp hidle =>
    rw [showCursor_eq]
    exact hs
  | left hidle =>
    rw [unhover, showCursor_eq]
    exact hs
  | armed grasp hidle =>
    rw [showCursor_eq]
    exact hs
  | dragged grasp origin requested limits moved hphase hmoved =>
    obtain ⟨plan, trace, hplan, hlayout⟩ := drag_eq_ok hmoved
    have hmoved : moved.layout.Sane := hlayout ▸ hs.write hplan
    exact hmoved
  | released grasp hphase => exact hs
  | committed grasp requested moved hphase hmoved =>
    obtain ⟨plan, trace, hplan, hlayout⟩ := move_eq_ok hmoved
    have hmoved : moved.layout.Sane := hlayout ▸ hs.write hplan
    exact hmoved

theorem Sane.handlePointer (hs : l.Sane) {o : Outcome W Bool} (h : l.handlePointer event = .ok o) :
    o.layout.Sane := by
  obtain ⟨reaction, hreact, rfl⟩ := handlePointer_eq_ok h
  exact hs.react hreact

theorem run_handlePointer {o : Outcome W Unit} (h : l.run [.handlePointer event] = .ok o) :
    ∃ handled, l.handlePointer event = .ok handled ∧ o.layout = handled.layout := by
  obtain ⟨first, hfirst, h⟩ := Checked.bind_eq_ok.1 h
  obtain ⟨handled, hhandled, rfl⟩ := Checked.map_eq_ok.1 hfirst
  cases h
  exact ⟨handled, hhandled, rfl⟩

theorem Sane.run (hs : l.Sane) {o : Outcome W Unit} (h : l.run (events.map .handlePointer) = .ok o) :
    o.layout.Sane := by
  refine run_induction hs (fun k op o hop hk hstep => ?_) h
  obtain ⟨event, -, rfl⟩ := List.mem_map.1 hop
  obtain ⟨handled, hhandled, rfl⟩ := Checked.map_eq_ok.1 hstep
  exact hk.handlePointer hhandled

/-- The press armed a drag in the layout `start`, and there has been a drag ever since, through more events. -/
inductive Steered (start : Layout W) (press : PointerEvent) : List PointerEvent → Layout W → Prop
  | armed {o : Outcome W Bool} (hidle : start.gesture.phase = .idle) (h : start.handlePointer press = .ok o)
      (hactive : o.layout.gesture.phase.isActive = true) : Steered start press [] o.layout
  | steered {during : List PointerEvent} {held : Layout W} {event : PointerEvent} {o : Outcome W Bool}
      (hheld : Steered start press during held) (h : held.handlePointer event = .ok o)
      (hactive : o.layout.gesture.phase.isActive = true) : Steered start press (during ++ [event]) o.layout

theorem Steered.active (h : Steered start press during l) : l.gesture.phase.isActive = true := by
  cases h with
  | armed hidle h hactive => exact hactive
  | steered hheld h hactive => exact hactive

/-- A drag that is there was armed by a press, and all events since then kept it. -/
theorem exists_press (hidle : l.gesture.phase = .idle) {o : Outcome W Unit}
    (h : l.run (events.map .handlePointer) = .ok o) (hactive : o.layout.gesture.phase.isActive = true) :
    ∃ before press during mid, events = before ++ press :: during ∧
      l.run (before.map .handlePointer) = .ok mid ∧ Steered mid.layout press during o.layout := by
  induction events using List.reverseRecOn generalizing o with
  | nil =>
    cases h
    rw [changedTo, hidle] at hactive
    cases hactive
  | append_singleton events event ih =>
    rw [List.map_append] at h
    obtain ⟨mid, last, hmid, hlast, rfl⟩ := run_append h
    obtain ⟨handled, hhandled, hlayout⟩ := run_handlePointer hlast
    rw [Outcome.after, hlayout] at hactive ⊢
    by_cases hheld : mid.layout.gesture.phase.isActive = true
    · obtain ⟨before, press, during, first, rfl, hfirst, hsteered⟩ := ih hmid hheld
      exact ⟨before, press, during ++ [event], first, by simp, hfirst, hsteered.steered hhandled hactive⟩
    · -- No drag before the last event: that event is the press.
      exact ⟨events, event, [], mid, rfl, hmid, .armed (Phase.eq_idle_of_not_isActive hheld) hhandled hactive⟩

theorem Steered.continues (h : Steered start press during l) (hs : start.Sane) : l.Sane ∧
    ∃ first grasp, start.locate press.position = .ok first ∧
      l.gesture.phase.hold? = some (grasp, start.dragLimits) ∧ first.Continues grasp l.store.bounds := by
  induction h with
  | armed hidle h hactive =>
    refine ⟨hs.handlePointer h, ?_⟩
    obtain ⟨reaction, hreact, rfl⟩ := handlePointer_eq_ok h
    obtain ⟨grasp, hlocate, hgrasp, cursor, hlayout⟩ := hreact.press hidle hactive
    have hheld : reaction.layout.gesture.phase.hold? = some (grasp, start.dragLimits) ∧
        grasp.Continues grasp reaction.layout.store.bounds := by
      rw [hlayout]
      exact ⟨rfl, .start (Grasp.locate_eq_ok hlocate) hgrasp⟩
    exact ⟨grasp, grasp, hlocate, hheld.1, hheld.2⟩
  | steered hheld h hactive ih =>
    obtain ⟨hsane, first, grasp, hlocate, hhold, hcontinues⟩ := ih
    refine ⟨hsane.handlePointer h, ?_⟩
    obtain ⟨reaction, hreact, rfl⟩ := handlePointer_eq_ok h
    obtain ⟨next, hnext⟩ : ∃ next, reaction.layout.gesture.phase.hold? = some (next, start.dragLimits) ∧
        first.Continues next reaction.layout.store.bounds := by
      rcases hreact.steer hheld.active hactive with
        hlayout | ⟨grasp', limits, requested, moved, origin, hhold', hmoved, hlayout⟩
      · rw [hlayout]
        exact ⟨grasp, hhold, hcontinues⟩
      · cases hhold.symm.trans hhold'
        rw [hlayout]
        exact ⟨_, rfl, hcontinues.move (hsane.drag hmoved)⟩
    exact ⟨first, next, hlocate, hnext.1, hnext.2⟩

/-- Whatever pointer events come in, a drag that is there was armed by a press among them. It still has the limits
that were in force at the press, and what it holds goes on from what was under the pointer then: live lines on the
same axes, with the same offset. -/
theorem continues_run (hbounds : l.bounds.Fits) (hregions : ∀ r ∈ l.store.bounds, r.Fits ∧ r.IsProper)
    (hidle : l.gesture.phase = .idle) {o : Outcome W Unit} (h : l.run (events.map .handlePointer) = .ok o)
    (hhold : o.layout.gesture.phase.hold? = some (grasp, limits)) :
    ∃ before press during mid first, events = before ++ press :: during ∧
      l.run (before.map .handlePointer) = .ok mid ∧ Steered mid.layout press during o.layout ∧
      mid.layout.locate press.position = .ok first ∧ limits = mid.layout.dragLimits ∧
      first.Continues grasp o.layout.store.bounds := by
  have hsane : l.Sane := ⟨hbounds, hregions⟩
  have hactive := Phase.isActive_iff.2 ⟨grasp, Phase.grasp?_of_hold? hhold⟩
  obtain ⟨before, press, during, mid, hevents, hmid, hsteered⟩ := exists_press hidle h hactive
  obtain ⟨-, first, held, hlocate, hheld, hcontinues⟩ := hsteered.continues (hsane.run hmid)
  cases hhold.symm.trans hheld
  exact ⟨before, press, during, mid, first, hevents, hmid, hsteered, hlocate, rfl, hcontinues⟩

theorem continues_run_folded : ∃ o grasp limits,
    folded.run ([pressAt 11, dragAt 22, dragAt 17].map .handlePointer) = .ok o ∧
      o.layout.gesture.phase.hold? = some (grasp, limits) ∧ grasp.grip = .vertical 16 ∧ grasp.offset = ⟨1, 0⟩ ∧
        ∃ r ∈ o.layout.store.bounds, ∃ side, r.edge .x side = 16 := by
  obtain ⟨o, grasp, limits, h, hhold, hgrip, hoffset⟩ : ∃ (o : Outcome Unit Unit) (grasp : Grasp) (limits : Rect),
      folded.run ([pressAt 11, dragAt 22, dragAt 17].map .handlePointer) = .ok o ∧
        o.layout.gesture.phase.hold? = some (grasp, limits) ∧ grasp.grip = .vertical 16 ∧
          grasp.offset = ⟨1, 0⟩ := ⟨_, _, _, rfl, rfl, by decide, by decide⟩
  obtain ⟨-, -, -, -, first, -, -, -, -, -, hcontinues⟩ :=
    continues_run (by decide) (by decide) rfl h hhold
  exact ⟨o, grasp, limits, h, hhold, hgrip, hoffset, hcontinues.live .x 16 (by rw [hgrip]; rfl)⟩

end Layout

end Mosaic
