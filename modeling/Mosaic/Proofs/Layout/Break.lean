import Mosaic.Proofs.Layout.Rewind
import Mosaic.Proofs.Layout.Run

/-! A drag that is broken off can go back to the geometry at its start. That is kept through all that is
done meanwhile, so it has the present container only as long as the container is not set anew. -/
namespace Mosaic

/-- Sets the container, and does so without regard to a drag. -/
def Operation.SetsContainer {W : Type} : Operation W → Prop
  | .resize _ | .restore _ => True
  | _ => False

namespace Layout

variable {W : Type} {start l l' : Layout W} {event : PointerEvent} {reason : CancelReason} {target : Rect}

theorem Rewinds.pressed {o : Outcome W Bool} (h : Rewinds l o) : o.layout.gesture.pressed = none := by
  cases h with
  | unkept hnone => exact hnone
  | restored start back changed hstart hback => rw [gesture_restore hback]
  | refused start e hstart hrefused => rfl

theorem Cancels.pressed {o : Outcome W Bool} (h : Cancels l reason o)
    (hidle : l.gesture.phase.grasp? = none → l.gesture.pressed = none) : o.layout.gesture.pressed = none := by
  cases h with
  | nothing hnone => exact hidle hnone
  | canceled grasp back hphase hback =>
    simp only [recordStep, showCursor_eq]
    exact hback.pressed

theorem pressed_handleResize (hidle : l.gesture.phase.grasp? = none → l.gesture.pressed = none)
    {o : Outcome W Bool} (h : l.handleResize target = .ok o) : o.layout.gesture.pressed = none := by
  obtain ⟨first, second, hfirst, hsecond, rfl⟩ := handleResize_eq_ok h
  change second.layout.gesture.pressed = none
  rw [(resize_rearranged hsecond).gesture]
  rcases breakOff_eq_ok hfirst with hcanceled | ⟨hphase, rfl⟩
  · exact hcanceled.pressed hidle
  · exact hidle (by rw [hphase]; rfl)

theorem exists_syncMinSizes (l : Layout W) (preferred : W → Option Size) :
    ∃ store, l.syncMinSizes preferred = { l with store } := by
  refine syncMinSizes_induction (P := fun k => ∃ store, k = { l with store }) ⟨l.store, rfl⟩ ?_ preferred
  rintro k id size ⟨store, rfl⟩
  exact ⟨_, rfl⟩

/-- The start of a drag is kept no longer than the drag lasts. It has the present container, unless it
cannot be gone back to, as there is a region that it does not know. -/
structure Current (l : Layout W) : Prop where
  formed : l.Formed
  idle : l.gesture.phase.grasp? = none → l.gesture.pressed = none
  below : ∀ s, l.gesture.pressed = some s → ∀ i ∈ s.items, i.id.number < l.store.next
  container : ∀ s, l.gesture.pressed = some s → s.container = l.bounds ∨ ∃ id ∈ l.store.ids, s.item? id = none

namespace Current

theorem create {bounds : Rect} {settings : Settings} (h : create bounds settings = .ok l) : l.Current := by
  have hformed := formed_create h
  obtain ⟨valid, rfl⟩ := create_eq_ok h
  exact ⟨hformed, fun _ => rfl, fun _ hs => (by cases hs), fun _ hs => by cases hs⟩

theorem same (h : l.Current) (hsame : SameRegions l l')
    (hidle : l'.gesture.phase.grasp? = none → l'.gesture.pressed = none)
    (hpressed : ∀ s, l'.gesture.pressed = some s →
      (l.gesture.pressed = some s ∨ s = l.snapshot) ∧ l'.bounds = l.bounds) : l'.Current := by
  refine ⟨h.formed.same hsame, hidle, fun s hs i hi => ?_, fun s hs => ?_⟩
  · rw [hsame.next]
    rcases (hpressed s hs).1 with hs | rfl
    · exact h.below s hs i hi
    · exact h.formed.store.below i.id (l.snapshot_ids ▸ List.mem_map_of_mem hi)
  · obtain ⟨hs, hbounds⟩ := hpressed s hs
    rw [hbounds, hsame.ids]
    rcases hs with hs | rfl
    · exact h.container s hs
    · exact .inl rfl

theorem dropped (h : l.Current) (hsame : SameRegions l l') (hnone : l'.gesture.pressed = none) : l'.Current :=
  h.same hsame (fun _ => hnone) fun s hs => by simp [hnone] at hs

theorem rearranged (h : l.Current) (hr : Rearranged l l')
    (hbounds : l.gesture.pressed ≠ none → l'.bounds = l.bounds) : l'.Current := by
  refine h.same (.of_rearranged hr) (hr.gesture ▸ h.idle) fun s hs => ?_
  rw [hr.gesture] at hs
  exact ⟨.inl hs, hbounds (by simp [hs])⟩

/-- A new region is not among those that are known from before. -/
theorem addRegion (h : l.Current) (hnext : l.store.next < RegionId.last) {widget : W} {bounds : Rect}
    {added : RegionId × Layout W} (ho : l.addRegion widget bounds = .ok added) : added.2.Current := by
  have hformed := h.formed.addRegion hnext ho
  obtain ⟨box, hadded⟩ := exists_addRegion ho
  rw [hadded] at hformed ⊢
  refine ⟨hformed, h.idle, fun s hs i hi => ?_, fun s hs => .inr ⟨⟨l.store.next⟩, ?_, ?_⟩⟩
  · exact Nat.lt_of_lt_of_le (h.below s hs i hi) (Nat.le_min.2 ⟨Nat.le_succ _, Nat.le_of_lt hnext⟩)
  · rw [RegionStore.ids_insert]
    exact List.mem_append_right _ (List.mem_singleton.2 rfl)
  · refine List.find?_eq_none.2 fun i hi heq => ?_
    have hlt := h.below s hs i hi
    rw [of_decide_eq_true heq] at hlt
    exact Nat.lt_irrefl _ hlt

theorem removeRegion (h : l.Current) (id : RegionId) : (l.removeRegion id).layout.Current := by
  have hformed := h.formed.removeRegion id
  cases hr : l.store.get? id with
  | none =>
    simp only [Layout.removeRegion, hr]
    exact h
  | some r =>
    obtain ⟨anchor, gesture, hremoved, -, hnone⟩ := removeRegion_eq h.idle hr
    rw [hremoved] at hformed ⊢
    refine ⟨hformed, fun _ => hnone, fun s hs => ?_, fun s hs => ?_⟩
    · simp [hnone] at hs
    · simp [hnone] at hs

theorem react (h : l.Current) {o : Reaction W} (ho : Reacts l event o) : o.layout.Current := by
  have hsame := SameRegions.react ho
  cases ho with
  | ignored consumed reason => exact h
  | hovered grasp hphase =>
    rw [showCursor_eq] at hsame ⊢
    exact h.same hsame h.idle fun s hs => ⟨.inl hs, rfl⟩
  | left hphase =>
    rw [unhover, showCursor_eq] at hsame ⊢
    exact h.same hsame h.idle fun s hs => ⟨.inl hs, rfl⟩
  | armed grasp hphase =>
    rw [showCursor_eq] at hsame ⊢
    refine h.same hsame (by simp [arm, Phase.grasp?]) fun s hs => ⟨.inr ?_, rfl⟩
    simp only [arm] at hs
    split at hs
    · exact (Option.some.inj hs).symm
    · cases hs
  | dragged grasp origin requested limits moved hphase hmoved =>
    have hr := drag_rearranged hmoved
    exact h.same hsame (by simp [Phase.grasp?]) fun s hs => ⟨.inl (hr.gesture ▸ hs), container_drag hmoved⟩
  | released grasp hphase => exact h.dropped hsame rfl
  | committed grasp requested moved hphase hmoved => exact h.dropped hsame rfl

theorem handlePointer (h : l.Current) {o : Outcome W Bool} (ho : l.handlePointer event = .ok o) :
    o.layout.Current := by
  obtain ⟨reaction, hreact, rfl⟩ := handlePointer_eq_ok ho
  have hreaction := h.react hreact
  exact hreaction.same (.gesture (.refl _) _) hreaction.idle fun s hs => ⟨.inl hs, rfl⟩

theorem cancel (h : l.Current) {o : Outcome W Bool} (ho : l.cancel reason = .ok o) : o.layout.Current :=
  h.dropped (.cancel (cancel_eq_ok ho)) ((cancel_eq_ok ho).pressed h.idle)

theorem handle (h : l.Current) {event : Event} {o : Outcome W Bool} (ho : l.handle event = .ok o) :
    o.layout.Current := by
  unfold Layout.handle at ho
  split at ho
  · exact h.handlePointer ho
  · exact h.dropped (.handleResize ho) (pressed_handleResize h.idle ho)
  · cases ho
    exact h
  · exact h.cancel ho
  · exact h.cancel ho

theorem perform (h : l.Current) (hnext : l.store.next < RegionId.last) {op : Operation W}
    {o : Outcome W Unit} (ho : l.perform op = .ok o)
    (hset : op.SetsContainer → l.gesture.pressed ≠ none → o.layout.bounds = l.bounds) : o.layout.Current := by
  cases op with
  | addRegion widget bounds =>
    obtain ⟨added, hadded, rfl⟩ := Checked.map_eq_ok.1 ho
    exact h.addRegion hnext hadded
  | removeRegion id =>
    cases ho
    exact h.removeRegion id
  | enableSizeRange minWidth minHeight =>
    have hsame := SameRegions.perform (by trivial) ho
    obtain ⟨settings, rfl⟩ := perform_enableSizeRange ho
    exact h.same hsame h.idle fun s hs => ⟨.inl hs, rfl⟩
  | syncMinSizes preferred =>
    have hsame := SameRegions.perform (by trivial) ho
    obtain ⟨store, hstore⟩ := l.exists_syncMinSizes preferred
    cases ho
    simp only [changedTo, hstore] at hsame ⊢
    exact h.same hsame h.idle fun s hs => ⟨.inl hs, rfl⟩
  | setAnchor id =>
    have hsame := SameRegions.perform (by trivial) ho
    cases ho
    obtain ⟨anchor, hanchor⟩ := l.exists_setAnchor id
    simp only [changedTo, hanchor] at hsame ⊢
    exact h.same hsame h.idle fun s hs => ⟨.inl hs, rfl⟩
  | applyPatch patch =>
    obtain ⟨applied, happlied, rfl⟩ := Checked.map_eq_ok.1 ho
    exact h.rearranged (applyPatch_rearranged happlied) fun _ => container_applyPatch happlied
  | drag held goal =>
    obtain ⟨moved, hmoved, rfl⟩ := Checked.map_eq_ok.1 ho
    exact h.rearranged (drag_rearranged hmoved) fun _ => container_drag hmoved
  | move held goal =>
    obtain ⟨moved, hmoved, rfl⟩ := Checked.map_eq_ok.1 ho
    exact h.rearranged (move_rearranged hmoved) fun _ => container_move hmoved
  | resize target =>
    obtain ⟨resized, hresized, rfl⟩ := Checked.map_eq_ok.1 ho
    exact h.rearranged (resize_rearranged hresized) (hset trivial)
  | restore s =>
    have hsame := SameRegions.perform (by trivial) ho
    obtain ⟨back, hback, rfl⟩ := Checked.map_eq_ok.1 ho
    have hgesture : back.layout.gesture = l.gesture := gesture_restore hback
    refine h.same hsame (hgesture ▸ h.idle) fun start hstart => ?_
    replace hstart : l.gesture.pressed = some start := hgesture ▸ hstart
    exact ⟨.inl hstart, hset trivial (by simp [hstart])⟩
  | handlePointer event =>
    obtain ⟨handled, hhandled, rfl⟩ := Checked.map_eq_ok.1 ho
    exact h.handlePointer hhandled
  | handle event =>
    obtain ⟨handled, hhandled, rfl⟩ := Checked.map_eq_ok.1 ho
    exact h.handle hhandled
  | cancelDrag =>
    obtain ⟨canceled, hcanceled, rfl⟩ := Checked.map_eq_ok.1 ho
    exact h.cancel hcanceled
  | _ =>
    have hsame := SameRegions.perform (by trivial) ho
    cases ho
    exact h.same hsame h.idle fun s hs => ⟨.inl hs, rfl⟩

end Current

/-- One thing is done. While the start of a drag is kept, the container is not set to other bounds but by
a resize that the host hands on as an event. -/
def Minds (l l' : Layout W) : Prop :=
  ∃ op o, l.perform op = .ok o ∧ o.layout = l' ∧
    (op.SetsContainer → l.gesture.pressed ≠ none → l'.bounds = l.bounds)

theorem Current.run (h : start.Current) (hrun : Relation.ReflTransGen Minds start l)
    (hnext : l.store.next < RegionId.last) : l.Current := by
  induction hrun with
  | refl => exact h
  | tail _ hstep ih =>
    obtain ⟨op, o, ho, rfl, hset⟩ := hstep
    have hleft := Nat.lt_of_not_le fun hle => Nat.not_le_of_lt hnext (last_le_perform ho hle)
    exact (ih hleft).perform hleft ho hset

theorem Current.container_rewind (h : l.Current) {o : Outcome W Bool}
    (ho : Rewinds { l with gesture := { l.gesture with phase := .idle } } o) : o.layout.bounds = l.bounds := by
  cases ho with
  | unkept hnone => rfl
  | restored s back changed hstart hback hchanged =>
    obtain ⟨hmismatch, hlayout, -⟩ := restore_accepts hback hchanged
    obtain ⟨-, -, hnamed, -⟩ := mismatch?_eq_none_iff.1 hmismatch
    refine (congrArg Layout.bounds hlayout).trans ?_
    rcases h.container s hstart with hsame | ⟨id, hid, hnone⟩
    · exact hsame
    -- A start that does not know all regions is refused.
    · obtain ⟨i, hi⟩ := hnamed id hid
      rw [hnone] at hi
      cases hi
  | refused s e hstart hrefused => rfl

theorem Current.container_cancel (h : l.Current) {o : Outcome W Bool} (ho : l.cancel reason = .ok o) :
    o.layout.bounds = l.bounds := by
  cases cancel_eq_ok ho with
  | nothing hnone => rfl
  | canceled grasp back hphase hback =>
    simp only [recordStep, showCursor_eq]
    exact h.container_rewind hback

/-- Breaking off a drag leaves the container, whatever was done before, as long as the container was not
set directly during the drag, and there are identifiers left. -/
theorem container_break {bounds : Rect} {settings : Settings} (hstart : create bounds settings = .ok start)
    (hrun : Relation.ReflTransGen Minds start l) (hnext : l.store.next < RegionId.last) :
    ∀ op ∈ [Operation.handle (.focus false), .handle .captureLost, .cancelDrag], ∀ o,
      l.perform op = .ok o → o.layout.bounds = l.bounds := by
  intro op hop o ho
  obtain ⟨reason, hperform⟩ := l.perform_eq_cancel hop
  rw [hperform] at ho
  obtain ⟨canceled, hcanceled, rfl⟩ := Checked.map_eq_ok.1 ho
  exact ((Current.create hstart).run hrun hnext).container_cancel hcanceled

theorem container_break_columns : ∃ start l : Layout Unit,
    create ⟨0, 0, 100, 100⟩ { restoreOnCancel := true } = .ok start ∧
      Relation.ReflTransGen Minds start l ∧ l.store.next < RegionId.last ∧
      l.store.bounds = [⟨0, 0, 70, 100⟩, ⟨70, 0, 30, 100⟩] ∧
      ∃ o, l.perform .cancelDrag = .ok o ∧ o.layout.bounds = l.bounds := by
  obtain ⟨start, hstart, l, hrun, hnext, hbounds, o, ho⟩ : ∃ start : Layout Unit,
      create ⟨0, 0, 100, 100⟩ { restoreOnCancel := true } = .ok start ∧ ∃ l : Layout Unit,
        Relation.ReflTransGen Minds start l ∧ l.store.next < RegionId.last ∧
        l.store.bounds = [⟨0, 0, 70, 100⟩, ⟨70, 0, 30, 100⟩] ∧ ∃ o, l.perform .cancelDrag = .ok o := by
    refine ⟨_, rfl, _, ((((Relation.ReflTransGen.single ⟨.addRegion () ⟨0, 0, 50, 100⟩, _, rfl, rfl, False.elim⟩).tail
      ⟨.addRegion () ⟨50, 0, 50, 100⟩, _, rfl, rfl, False.elim⟩).tail
      ⟨.handlePointer (pressAt 50), _, rfl, rfl, False.elim⟩).tail
      ⟨.resize ⟨0, 0, 100, 100⟩, _, rfl, rfl, fun _ _ => rfl⟩).tail
      ⟨.handlePointer (dragAt 70), _, rfl, rfl, False.elim⟩, by decide, by decide, _, rfl⟩
  exact ⟨start, l, hstart, hrun, hnext, hbounds, o, ho,
    container_break hstart hrun hnext .cancelDrag (by simp) o ho⟩

/-- A container that is set during a drag is undone with the drag. -/
theorem not_container_break : ¬ ∀ (bounds : Rect) (settings : Settings) (start : Layout Unit)
    (ops : List (Operation Unit)) (ran o : Outcome Unit Unit), create bounds settings = .ok start →
    start.run ops = .ok ran → ran.layout.perform .cancelDrag = .ok o →
      o.layout.bounds = ran.layout.bounds := by
  intro h
  have hsame := h ⟨0, 0, 100, 100⟩ { restoreOnCancel := true } _ [.addRegion () ⟨0, 0, 50, 100⟩,
    .addRegion () ⟨50, 0, 50, 100⟩, .handlePointer (pressAt 50), .resize ⟨0, 0, 200, 100⟩] _ _ rfl rfl rfl
  exact absurd hsame (by decide)

end Layout

end Mosaic
