import Mosaic.Proofs.Layout.Identity
import Mosaic.Proofs.Region.Marks

/-! The regions whose bounds changed since the last call. Some operations write bounds several times, so a region can
change and change back within one of them; it is told all the same. A region that was given no other bounds at any
time is not told, unless it is new. -/
namespace Mosaic.Layout

variable {W : Type} {l l' k : Layout W} {s : Snapshot} {target : Rect} {op : Operation W}
  {ops : List (Operation W)} {ks ks' : List (Layout W)} {id : RegionId}

/-! ### What an operation passes through -/

/-- The layouts that following a target leaves before the last time that bounds are written. -/
def followBetween (l : Layout W) (target : Rect) : Checked (List (Layout W)) := do
  let shifted ← l.shiftTo target
  match ← Rect.boundingBox shifted.store.bounds with
  | none => return []
  | some box =>
    let limits ← box.union (.clamped box.x box.y target.width target.height)
    let scene := shifted.scene limits
    let (width, trace) ← feasibleGrowth scene box ⟨target.width - box.width, target.height - box.height⟩ .x {}
    let (height, _) ← feasibleGrowth scene box ⟨width, target.height - box.height⟩ .y trace
    let inward ← shifted.aimInward box ⟨width, height⟩
    let first ← shifted.commitAim inward limits
    let corner ← Axis.all.foldlM (aimCorner box ⟨width, height⟩) (.start ⟨box.right, box.bottom⟩)
    let second ← first.layout.commitCorner box ⟨width, height⟩ corner limits
    return [shifted, first.layout, second.layout]

/-- A resize writes bounds more than once only where it follows the target. -/
def resizeBetween (l : Layout W) (target : Rect) : Checked (List (Layout W)) :=
  let target := Rect.clamped target.x target.y target.width target.height
  if target ≠ l.bounds ∧ l.store.regions ≠ [] ∧ l.hasSizeRange = true then l.followBetween target else .ok []

/-- The layouts that an operation leaves before the last time that it writes bounds. -/
def between (l : Layout W) : Operation W → Checked (List (Layout W))
  | .resize target => l.resizeBetween target
  | .handle (.resize target) => do
    let first ← l.breakOff
    return first.layout :: (← first.layout.resizeBetween target)
  | _ => .ok []

/-- All layouts that a run passes through, one for each time that bounds are written. -/
def passed (l : Layout W) : List (Operation W) → Checked (List (Layout W))
  | [] => .ok []
  | op :: ops => do
    let before ← l.between op
    let o ← l.perform op
    return before ++ o.layout :: (← o.layout.passed ops)

/-! ### Marks along the way -/

/-- Regions are marked as their bounds demand, each time that bounds are written. -/
inductive Passes : Layout W → List (Layout W) → Layout W → Prop
  | none (l : Layout W) : Passes l [] l
  | pass {l k l' : Layout W} {ks : List (Layout W)} (hmarks : l.store.Marks k.store)
      (hnodup : k.store.ids.Nodup) (hrest : Passes k ks l') : Passes l (k :: ks) l'

namespace Passes

theorem append (h : Passes l ks k) (h' : Passes k ks' l') : Passes l (ks ++ ks') l' := by
  induction h with
  | none l => exact h'
  | pass hmarks hnodup hrest ih => exact .pass hmarks hnodup (ih h')

theorem last (h : Passes l ks l') : l' = l ∨ l' ∈ ks := by
  induction h with
  | none l => exact .inl rfl
  | pass hmarks hnodup hrest ih => exact .inr (ih.elim (fun h => h ▸ List.mem_cons_self) (List.mem_cons_of_mem _))

/-- A region is marked in the end if it was in the beginning, if it is new, or if it had other bounds at any time. -/
theorem mem_dirtyIds_iff (h : Passes l ks l') (hnodup : l.store.ids.Nodup) (hlive : id ∈ l'.store.ids) :
    id ∈ l'.store.dirtyIds ↔ id ∈ l.store.dirtyIds ∨ id ∉ l.store.ids ∨
      ∃ k ∈ ks, k.store.boundsOf? id ≠ l.store.boundsOf? id := by
  induction h with
  | none l => simp [hlive]
  | @pass l k l' ks hmarks hnext hrest ih =>
    rw [ih hnext hlive]
    simp only [List.mem_cons, exists_eq_or_imp]
    by_cases hk : id ∈ k.store.ids
    · rw [hmarks.mem_dirtyIds_iff hnodup hnext hk]
      by_cases hsame : k.store.boundsOf? id = l.store.boundsOf? id
      · simp [hsame, hk, or_assoc]
      · simp [hsame]
    -- A region that was taken out had no bounds then, so it counts as changed if it ever comes back.
    · by_cases hl : id ∈ l.store.ids
      · have hgone : k.store.boundsOf? id ≠ l.store.boundsOf? id := by
          intro hsame
          exact hk (RegionStore.isSome_boundsOf?.1 (hsame ▸ RegionStore.isSome_boundsOf?.2 hl))
        simp [hk, hgone]
      · simp [hk, hl]

end Passes

/-! ### Every way to write bounds -/

theorem Placed.marks (h : Placed l l') : l.store.Marks l'.store := by
  obtain ⟨rects, bounds, rfl⟩ := h
  exact l.store.marks_place rects

theorem marked_restoreRegion (s : Snapshot) (r : Region W) : r.Marked (restoreRegion s r) := by
  unfold restoreRegion
  split
  · exact .of_eq rfl rfl rfl
  · next i _ =>
    -- The sizes that come with the bounds do not matter.
    have hplace := r.marked_place i.bounds
    exact ⟨hplace.id, hplace.dirty⟩

theorem marks_restore {o : Outcome W (Except LayoutError (List RegionId))} (h : l.restore s = .ok o) :
    l.store.Marks o.layout.store := by
  rcases restore_cases h with ⟨e, rfl⟩ | ⟨rfl, -⟩
  · exact .refl _
  · exact .map (marked_restoreRegion s) rfl

theorem marks_showCursor (l : Layout W) (cursor : Cursor) : l.store.Marks (l.showCursor cursor).layout.store := by
  rw [showCursor_eq]
  exact .refl _

theorem marks_react {event : PointerEvent} {o : Reaction W} (h : Reacts l event o) :
    l.store.Marks o.layout.store := by
  cases h with
  | ignored consumed reason => exact .refl _
  | hovered grasp hidle => exact marks_showCursor l _
  | left hidle => exact marks_showCursor l _
  | armed grasp hidle => exact marks_showCursor (l.arm grasp event.position) _
  | dragged grasp origin requested limits moved hphase hmoved => exact (drag_placed hmoved).marks
  | released grasp hphase => exact .refl _
  | committed grasp requested moved hphase hmoved => exact (move_placed hmoved).marks

theorem marks_handlePointer {event : PointerEvent} {o : Outcome W Bool} (h : l.handlePointer event = .ok o) :
    l.store.Marks o.layout.store := by
  obtain ⟨reaction, hreact, rfl⟩ := handlePointer_eq_ok h
  exact marks_react hreact

theorem marks_rewind {o : Outcome W Bool} (h : Rewinds l o) : l.store.Marks o.layout.store := by
  cases h with
  | unkept hnone => exact .refl _
  | restored start back changed hstart hback =>
    have hmarks := marks_restore hback
    exact hmarks
  | refused start e hstart hrefused => exact .refl _

theorem marks_cancel {reason : CancelReason} {o : Outcome W Bool} (h : Cancels l reason o) :
    l.store.Marks o.layout.store := by
  cases h with
  | nothing hidle => exact .refl _
  | canceled grasp back hphase hback =>
    have hstore : (back.layout.showCursor .default).layout.store = back.layout.store := by rw [showCursor_eq]
    have hmarks := marks_rewind hback
    rw [← hstore] at hmarks
    exact hmarks

theorem marks_syncMinSizes (l : Layout W) (preferred : W → Option Size) :
    l.store.Marks (l.syncMinSizes preferred).store := by
  refine .of_map_eq (syncMinSizes_induction (P := fun k =>
    k.store.regions.map (fun r => (r.id, r.bounds, r.dirty)) =
      l.store.regions.map fun r => (r.id, r.bounds, r.dirty)) rfl (fun k id size hkept => ?_) preferred)
  refine Eq.trans ?_ hkept
  exact RegionStore.map_modify fun _ => rfl

theorem passes_follow {o : Outcome W Rect} (hnodup : l.store.ids.Nodup) (h : l.follow target = .ok o) :
    ∃ ks, l.followBetween target = .ok ks ∧ Passes l (ks ++ [o.layout]) o.layout := by
  cases follow_eq_ok h with
  | bare hshift hbox =>
    have hplaced := shiftTo_placed hshift
    refine ⟨[], by simp [followBetween, hshift, hbox, bind, Except.bind]; rfl, ?_⟩
    exact .pass hplaced.marks (hplaced.rearranged.ids ▸ hnodup) (.none _)
  | boxed shifted box limits width height trace trace' inward corner outward first third second hshift hbox hlimits
      hwidth hheight hinward hfirst hcorner hsecond _ hthird _ hlayout =>
    have hplaced := shiftTo_placed hshift
    have hplacedFirst := commitAim_placed hfirst
    have hplacedSecond := commitCorner_placed hsecond
    have hplacedThird := commitAim_placed hthird
    have hshifted : shifted.store.ids.Nodup := hplaced.rearranged.ids ▸ hnodup
    have hgave : first.layout.store.ids.Nodup := hplacedFirst.rearranged.ids ▸ hshifted
    have htook : second.layout.store.ids.Nodup := hplacedSecond.rearranged.ids ▸ hgave
    have hdone : third.layout.store.ids.Nodup := hplacedThird.rearranged.ids ▸ htook
    refine ⟨[shifted, first.layout, second.layout], ?_, ?_⟩
    · simp only [followBetween, hshift, hbox, hlimits, hwidth, hheight, hinward, hfirst, hcorner, hsecond, bind,
        Except.bind]
      rfl
    · rw [hlayout]
      exact .pass hplaced.marks hshifted (.pass hplacedFirst.marks hgave (.pass hplacedSecond.marks htook
        (.pass hplacedThird.marks hdone (.none _))))

theorem passes_resize {o : Outcome W Rect} (hnodup : l.store.ids.Nodup) (h : l.resize target = .ok o) :
    ∃ ks, l.resizeBetween target = .ok ks ∧ Passes l (ks ++ [o.layout]) o.layout := by
  have honce : ¬ (Rect.clamped target.x target.y target.width target.height ≠ l.bounds ∧ l.store.regions ≠ [] ∧
      l.hasSizeRange = true) → Placed l o.layout →
      ∃ ks, l.resizeBetween target = .ok ks ∧ Passes l (ks ++ [o.layout]) o.layout :=
    fun hnot hplaced => ⟨[], if_neg hnot, .pass hplaced.marks (hplaced.rearranged.ids ▸ hnodup) (.none _)⟩
  cases resize_eq_ok h with
  | same hsame hlayout => exact honce (fun hmoves => hmoves.1 hsame) (hlayout ▸ .refl l)
  | bare hempty hlayout => exact honce (fun hmoves => hmoves.2.1 hempty) (hlayout ▸ .rebound l _)
  | followed followed findings hranged hfollow hlayout _ _ _ hmoves hfilled =>
    obtain ⟨ks, hks, hpasses⟩ := passes_follow hnodup hfollow
    exact ⟨ks, (if_pos ⟨hmoves, hfilled, hranged⟩).trans hks, hlayout ▸ hpasses⟩
  | stretched hclassic hstretch =>
    refine honce (fun hmoves => ?_) (stretch_placed hstretch)
    rw [hclassic] at hmoves
    exact Bool.noConfusion hmoves.2.2

theorem passes_handleResize {o : Outcome W Bool} (hnodup : l.store.ids.Nodup)
    (h : l.handleResize target = .ok o) : ∃ first ks, l.breakOff = .ok first ∧
      first.layout.resizeBetween target = .ok ks ∧ Passes l ((first.layout :: ks) ++ [o.layout]) o.layout := by
  obtain ⟨first, second, hfirst, hsecond, rfl⟩ := handleResize_eq_ok h
  have hbroken : l.store.Marks first.layout.store ∧ first.layout.store.ids.Nodup := by
    rcases breakOff_eq_ok hfirst with hcanceled | ⟨-, rfl⟩
    · exact ⟨marks_cancel hcanceled, (SameRegions.cancel hcanceled).ids ▸ hnodup⟩
    · exact ⟨.refl _, hnodup⟩
  obtain ⟨ks, hks, hpasses⟩ := passes_resize hbroken.2 hsecond
  exact ⟨first, ks, hfirst, hks, .pass hbroken.1 hbroken.2 hpasses⟩

/-- Whatever is done, unless it unmarks regions, marks those whose bounds become different on the way. -/
theorem passes_perform {o : Outcome W Unit} (hl : l.store.Sound) (hids : o.layout.store.ids.Nodup)
    (hop : op ≠ .takeDirty) (h : l.perform op = .ok o) :
    ∃ ks, l.between op = .ok ks ∧ Passes l (ks ++ [o.layout]) o.layout := by
  have honce : l.store.Marks o.layout.store → Passes l ([] ++ [o.layout]) o.layout :=
    fun hmarks => .pass hmarks hids (.none _)
  cases op with
  | addRegion widget bounds =>
    obtain ⟨added, hadded, rfl⟩ := Checked.map_eq_ok.1 h
    obtain ⟨box, rfl⟩ := addRegion_answers hadded
    exact ⟨[], rfl, honce (RegionStore.marks_insert hl widget bounds)⟩
  | removeRegion id =>
    cases h
    have hstore : (l.removeRegion id).silent.layout.store = l.store.erase id := l.store_removeRegion id
    exact ⟨[], rfl, honce (hstore ▸ l.store.marks_erase id)⟩
  | setWidget id widget =>
    cases h
    exact ⟨[], rfl, honce (.of_map_eq (RegionStore.map_modify fun _ => rfl))⟩
  | setAnchor id =>
    cases h
    obtain ⟨anchor, hanchor⟩ := l.exists_setAnchor id
    have hmarks : l.store.Marks (l.setAnchor id).store := by
      rw [hanchor]
      exact .refl _
    exact ⟨[], rfl, honce hmarks⟩
  | clearAnchor =>
    cases h
    exact ⟨[], rfl, honce (.refl _)⟩
  | enableSizeRange minWidth minHeight =>
    obtain ⟨settings, rfl⟩ := perform_enableSizeRange h
    exact ⟨[], rfl, honce (.refl _)⟩
  | disableSizeRange =>
    cases h
    exact ⟨[], rfl, honce (.refl _)⟩
  | setMinSize id size =>
    cases h
    exact ⟨[], rfl, honce (.of_map_eq (RegionStore.map_modify fun _ => rfl))⟩
  | setMaxSize id size =>
    cases h
    exact ⟨[], rfl, honce (.of_map_eq (RegionStore.map_modify fun _ => rfl))⟩
  | syncMinSizes preferred =>
    cases h
    exact ⟨[], rfl, honce (marks_syncMinSizes l preferred)⟩
  | takeDirty => exact absurd rfl hop
  | applyPatch patch =>
    obtain ⟨applied, happlied, rfl⟩ := Checked.map_eq_ok.1 h
    exact ⟨[], rfl, honce (applyPatch_placed happlied).marks⟩
  | drag held goal =>
    obtain ⟨moved, hmoved, rfl⟩ := Checked.map_eq_ok.1 h
    exact ⟨[], rfl, honce (drag_placed hmoved).marks⟩
  | move held goal =>
    obtain ⟨moved, hmoved, rfl⟩ := Checked.map_eq_ok.1 h
    exact ⟨[], rfl, honce (move_placed hmoved).marks⟩
  | resize target =>
    obtain ⟨resized, hresized, rfl⟩ := Checked.map_eq_ok.1 h
    exact passes_resize hl.nodup hresized
  | restore s =>
    obtain ⟨back, hback, rfl⟩ := Checked.map_eq_ok.1 h
    exact ⟨[], rfl, honce (marks_restore hback)⟩
  | handlePointer event =>
    obtain ⟨handled, hhandled, rfl⟩ := Checked.map_eq_ok.1 h
    exact ⟨[], rfl, honce (marks_handlePointer hhandled)⟩
  | handle event =>
    obtain ⟨handled, hhandled, rfl⟩ := Checked.map_eq_ok.1 h
    cases event with
    | pointer event => exact ⟨[], rfl, honce (marks_handlePointer hhandled)⟩
    | resize target =>
      obtain ⟨first, ks, hfirst, hks, hpasses⟩ := passes_handleResize hl.nodup hhandled
      refine ⟨first.layout :: ks, ?_, hpasses⟩
      simp only [between, hfirst, hks, bind, Except.bind]
      rfl
    | focus gained =>
      cases gained with
      | true =>
        cases hhandled
        exact ⟨[], rfl, honce (.refl _)⟩
      | false => exact ⟨[], rfl, honce (marks_cancel (cancel_eq_ok hhandled))⟩
    | captureLost => exact ⟨[], rfl, honce (marks_cancel (cancel_eq_ok hhandled))⟩
  | cancelDrag =>
    obtain ⟨canceled, hcanceled, rfl⟩ := Checked.map_eq_ok.1 h
    exact ⟨[], rfl, honce (marks_cancel (cancel_eq_ok hcanceled))⟩

theorem passes_run (hl : l.Numbered) (hroom : l.store.next + Operation.additions ops ≤ RegionId.last)
    (hops : .takeDirty ∉ ops) {o : Outcome W Unit} (h : l.run ops = .ok o) :
    ∃ ks, l.passed ops = .ok ks ∧ Passes l ks o.layout := by
  induction ops generalizing l o with
  | nil =>
    cases h
    exact ⟨[], rfl, .none l⟩
  | cons op ops ih =>
    obtain ⟨first, last, hfirst, hlast, rfl⟩ := run_cons_eq_ok.1 h
    obtain ⟨-, hnumbered, hleft⟩ := hl.first hroom hfirst
    obtain ⟨hop, hops⟩ := not_or.1 (List.mem_cons.not.1 hops)
    obtain ⟨before, hbefore, hpasses⟩ := passes_perform hl.store hnumbered.store.nodup (Ne.symm hop) hfirst
    obtain ⟨rest, hrest, hafter⟩ := ih hnumbered hleft hops hlast
    refine ⟨before ++ first.layout :: rest, ?_, ?_⟩
    · simp only [passed, hbefore, hfirst, hrest, bind, Except.bind]
      rfl
    · rw [List.append_cons]
      exact hpasses.append hafter

/-- What the second of two calls tells after a run: regions that are there, in order and none twice, all that are new,
all whose bounds are others than after the first call, and of the rest exactly those that had other bounds at some
time in between. -/
structure Tells (l : Layout W) (ops : List (Operation W)) (l' : Layout W) : Prop where
  order : l'.takeDirty.1.Sublist l'.store.ids
  nodup : l'.takeDirty.1.Nodup
  changed : ∀ id ∈ l'.store.ids, id ∈ l.issued ops ∨ l'.store.boundsOf? id ≠ l.store.boundsOf? id →
    id ∈ l'.takeDirty.1
  exactly : ∃ ks, l.passed ops = .ok ks ∧ ∀ id, id ∈ l'.takeDirty.1 ↔ id ∈ l'.store.ids ∧
    (id ∈ l.issued ops ∨ ∃ k ∈ ks, k.store.boundsOf? id ≠ l.store.boundsOf? id)

theorem tells_run (hl : l.Numbered) (hclean : l.store.dirtyIds = [])
    (hroom : l.store.next + Operation.additions ops ≤ RegionId.last) (hops : .takeDirty ∉ ops) {o : Outcome W Unit}
    (h : l.run ops = .ok o) : Tells l ops o.layout := by
  have hrun := numbering_run hl hroom h
  obtain ⟨ks, hks, hpasses⟩ := passes_run hl hroom hops h
  have hsub : o.layout.takeDirty.1.Sublist o.layout.store.ids := o.layout.store.dirtyIds_sublist
  have hnew : ∀ id ∈ o.layout.store.ids, id ∉ l.store.ids ↔ id ∈ l.issued ops := by
    refine fun id hid => ⟨(hrun.origin id hid).resolve_left, fun hissued hold => ?_⟩
    exact Nat.not_le_of_lt (hl.store.below id hold) (hrun.later id hissued)
  have htold : ∀ id, id ∈ o.layout.takeDirty.1 ↔ id ∈ o.layout.store.ids ∧
      (id ∈ l.issued ops ∨ ∃ k ∈ ks, k.store.boundsOf? id ≠ l.store.boundsOf? id) := by
    intro id
    refine (and_iff_right_of_imp fun hid => hsub.subset hid).symm.trans (and_congr_right fun hid => ?_)
    rw [← hnew id hid]
    refine (hpasses.mem_dirtyIds_iff hl.store.nodup hid).trans (or_iff_right ?_)
    rw [hclean]
    exact List.not_mem_nil
  refine ⟨hsub, hrun.numbered.store.nodup.sublist hsub, fun id hid hchanged => ?_, ks, hks, htold⟩
  refine (htold id).2 ⟨hid, hchanged.imp_right fun hbounds => ?_⟩
  -- The last layout that is passed is the one that is left.
  rcases hpasses.last with hsame | hmem
  · exact absurd (by rw [hsame]) hbounds
  · exact ⟨o.layout, hmem, hbounds⟩

/-- Whatever is done between two calls, as long as nothing overflows, the counter of identifiers included, the second
one misses no change. -/
theorem takeDirty_run {bounds : Rect} {settings : Settings} {start : Layout W} {before : List (Operation W)}
    {mid o : Outcome W Unit} {told : List RegionId} (hcreate : create bounds settings = .ok start)
    (hbefore : start.run before = .ok mid) (hfirst : mid.layout.takeDirty = (told, l)) (hops : .takeDirty ∉ ops)
    (h : l.run ops = .ok o) (hadd : Operation.additions (before ++ ops) < RegionId.last) : Tells l ops o.layout := by
  obtain rfl : mid.layout.takeDirty.2 = l := congrArg Prod.snd hfirst
  have hcount : Operation.additions (before ++ ops) = Operation.additions before + Operation.additions ops :=
    List.countP_append
  obtain ⟨hstart, hempty⟩ := numbered_create hcreate
  have hone : start.store.next = 1 := by rw [hempty]
  have hmid := numbering_run hstart (by omega) hbefore
  have htake : mid.layout.perform .takeDirty = .ok mid.layout.takeDirty.2.changedTo := rfl
  have hl : mid.layout.takeDirty.2.Numbered := hmid.numbered.step (fun hadds => by cases hadds) htake
  have hnext : mid.layout.takeDirty.2.store.next = start.store.next + Operation.additions before := hmid.next
  exact tells_run hl mid.layout.store.dirtyIds_clean (by omega) hops h

/-- Two columns above a row. -/
def gabled : List (Operation Unit) :=
  [.addRegion () ⟨0, 0, 50, 50⟩, .addRegion () ⟨50, 0, 50, 50⟩, .addRegion () ⟨0, 50, 100, 50⟩]

/-- The columns and the row once all three have been told. -/
def gable : Layout Unit where
  bounds := ⟨0, 0, 100, 100⟩
  store := {
    regions := [{ id := ⟨1⟩, widget := (), bounds := ⟨0, 0, 50, 50⟩, dirty := false },
      { id := ⟨2⟩, widget := (), bounds := ⟨50, 0, 50, 50⟩, dirty := false },
      { id := ⟨3⟩, widget := (), bounds := ⟨0, 50, 100, 50⟩, dirty := false }]
    next := 4 }

/-- The line between the columns is moved there and back. -/
def swaying : List (Operation Unit) := [.drag (.vertical 50) ⟨60, 0⟩, .drag (.vertical 60) ⟨50, 0⟩]

/-- Both columns are told, as they had other bounds in between, though nothing has changed in the end. -/
theorem takeDirty_run_gable : ∃ mid o, create ⟨0, 0, 100, 100⟩ {} = .ok unfilled ∧
    unfilled.run gabled = .ok mid ∧ mid.layout.takeDirty = ([⟨1⟩, ⟨2⟩, ⟨3⟩], gable) ∧ .takeDirty ∉ swaying ∧
    gable.run swaying = .ok o ∧ Operation.additions (gabled ++ swaying) < RegionId.last ∧
    o.layout.store.bounds = gable.store.bounds ∧ o.layout.takeDirty.1 = [⟨1⟩, ⟨2⟩] ∧ Tells gable swaying o.layout := by
  have hcreate : create ⟨0, 0, 100, 100⟩ {} = .ok unfilled := rfl
  obtain ⟨mid, hbefore, hfirst⟩ : ∃ mid, unfilled.run gabled = .ok mid ∧
    mid.layout.takeDirty = ([⟨1⟩, ⟨2⟩, ⟨3⟩], gable) := ⟨_, rfl, rfl⟩
  obtain ⟨o, h, hbounds, htold⟩ : ∃ o, gable.run swaying = .ok o ∧ o.layout.store.bounds = gable.store.bounds ∧
    o.layout.takeDirty.1 = [⟨1⟩, ⟨2⟩] := ⟨_, rfl, by decide, by decide⟩
  have hops : .takeDirty ∉ swaying := by simp [swaying]
  have hadd : Operation.additions (gabled ++ swaying) < RegionId.last := by decide
  exact ⟨mid, o, hcreate, hbefore, hfirst, hops, h, hadd, hbounds, htold,
    takeDirty_run hcreate hbefore hfirst hops h hadd⟩

end Mosaic.Layout
