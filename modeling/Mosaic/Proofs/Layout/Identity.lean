import Mathlib.Data.List.Nodup
import Mosaic.Proofs.Layout.Regions

/-! Identifiers of regions over a run from the creation of a layout. They are handed out in increasing order and
never twice, and one that was handed out names its region until that region is taken out, and nothing afterward. -/
namespace Mosaic

/-- How often regions are added. -/
def Operation.additions {W : Type} (ops : List (Operation W)) : Nat := ops.countP (·.isAddition)

namespace RegionStore

variable {W : Type} {s : RegionStore W} {id : RegionId} {r : Region W}

theorem get?_eq_bind_idxOf? (s : RegionStore W) (id : RegionId) : s.get? id = (s.idxOf? id).bind (s.regions[·]?) :=
  List.find?_eq_bind_findIdx?_getElem?

theorem idxOf?_of_getElem? (hnodup : s.ids.Nodup) {position : Nat} (h : s.regions[position]? = some r) :
    s.idxOf? r.id = some position := by
  obtain ⟨hlt, hget⟩ := List.getElem?_eq_some_iff.1 h
  have hlength : s.ids.length = s.regions.length := List.length_map _
  refine List.findIdx?_eq_some_iff_getElem.2 ⟨hlt, by simp [hget], fun earlier hearlier hsame => ?_⟩
  have hbefore : earlier < s.ids.length := by omega
  have hids : s.ids[earlier] = s.ids[position] := by simpa [ids, hget] using hsame
  exact Nat.ne_of_lt hearlier ((List.Nodup.getElem_inj_iff hnodup).1 hids)

/-- Looking a region up by its identifier, by its position and by both leads to the same. -/
structure Agrees (s : RegionStore W) : Prop where
  names : ∀ id r, s.get? id = some r → r.id = id
  get : ∀ id r, s.get? id = some r ↔ ∃ position, s.idxOf? id = some position ∧ s.regions[position]? = some r
  gone : ∀ id, s.get? id = none ↔ s.idxOf? id = none
  back : ∀ position r, s.regions[position]? = some r → s.idxOf? r.id = some position ∧ s.get? r.id = some r

theorem agrees (hnodup : s.ids.Nodup) : s.Agrees where
  names id r h := by
    have hname := List.find?_some h
    exact of_decide_eq_true hname
  get id r := by rw [get?_eq_bind_idxOf?, Option.bind_eq_some_iff]
  gone id := by
    rw [get?, idxOf?, List.find?_eq_none, List.findIdx?_eq_none_iff]
    simp only [Bool.not_eq_true]
  back position r h := by
    refine ⟨idxOf?_of_getElem? hnodup h, ?_⟩
    rw [get?_eq_bind_idxOf?, idxOf?_of_getElem? hnodup h]
    exact h

end RegionStore

namespace Layout

variable {W : Type} {l l' : Layout W} {op : Operation W} {ops : List (Operation W)} {o : Outcome W Unit}

/-- The identifier that adding a region answers. -/
def handsOut? (l : Layout W) : Operation W → Option RegionId
  | .addRegion widget bounds => (l.addRegion widget bounds).toOption.map (·.1)
  | _ => none

/-- The identifiers that are answered in a run, in order. -/
def issued (l : Layout W) : List (Operation W) → List RegionId
  | [] => []
  | op :: ops => match l.perform op with
    | .ok o => (l.handsOut? op).toList ++ o.layout.issued ops
    | .error _ => []

/-- The regions stand in the order in which their identifiers were handed out. -/
structure Numbered (l : Layout W) : Prop extends Formed l where
  increasing : l.store.ids.Pairwise (·.number < ·.number)

/-- What one step does to the identifiers: it hands out the next one or takes one away, if anything. -/
structure Renumbers (l : Layout W) (op : Operation W) (l' : Layout W) : Prop where
  next : l'.store.next = l.store.next + if op.isAddition then 1 else 0
  ids : l'.store.ids.Sublist (l.store.ids ++ (l.handsOut? op).toList)
  live : ∀ id, id ∈ l'.store.ids ↔ id ∈ l.store.ids ∧ op ≠ .removeRegion id ∨ l.handsOut? op = some id

theorem numbered_create {bounds : Rect} {settings : Settings} (h : create bounds settings = .ok l) :
    l.Numbered ∧ l.store = {} := by
  have hformed := formed_create h
  obtain ⟨valid, rfl⟩ := create_eq_ok h
  exact ⟨⟨hformed, .nil⟩, rfl⟩

theorem handsOut?_addRegion {widget : W} {bounds : Rect} {added : RegionId × Layout W}
    (h : l.addRegion widget bounds = .ok added) :
    l.handsOut? (.addRegion widget bounds) = some ⟨l.store.next⟩ := by
  obtain ⟨box, rfl⟩ := addRegion_answers h
  rw [handsOut?, h]
  rfl

theorem handsOut?_eq_some {id : RegionId} (h : l.handsOut? op = some id) :
    id = ⟨l.store.next⟩ ∧ op.isAddition = true := by
  cases op with
  | addRegion widget bounds =>
    cases hadd : l.addRegion widget bounds with
    | error e =>
      rw [handsOut?, hadd] at h
      cases h
    | ok added =>
      rw [handsOut?_addRegion hadd] at h
      exact ⟨(Option.some.inj h).symm, rfl⟩
  | _ => cases h

theorem SameRegions.renumbers (h : SameRegions l l') (hop : op.KeepsRegions) : Renumbers l op l' := by
  obtain ⟨hkept, hnone, hremoves⟩ : op.isAddition = false ∧ l.handsOut? op = none ∧
      ∀ id, op ≠ .removeRegion id := by
    cases op with
    | addRegion widget bounds => exact hop.elim
    | removeRegion id => exact hop.elim
    | _ => exact ⟨rfl, rfl, nofun⟩
  refine ⟨?_, ?_, fun id => ?_⟩
  · simp [h.next, hkept]
  · simp [h.ids, hnone]
  · simp [h.ids, hnone, hremoves]

theorem renumbers_perform (hnodup : l.store.ids.Nodup) (hnext : op.isAddition = true → l.store.next < RegionId.last)
    (h : l.perform op = .ok o) : Renumbers l op o.layout := by
  cases op with
  | addRegion widget bounds =>
    obtain ⟨added, hadded, rfl⟩ := Checked.map_eq_ok.1 h
    have hout := handsOut?_addRegion hadded
    obtain ⟨box, rfl⟩ := addRegion_answers hadded
    refine ⟨Nat.min_eq_left (hnext rfl), ?_, fun id => ?_⟩
    · rw [hout]
      exact RegionStore.ids_insert l.store widget bounds ▸ .refl _
    · change id ∈ (l.store.insert widget bounds).2.ids ↔ _
      simp [RegionStore.ids_insert, hout, eq_comm]
  | removeRegion id =>
    cases h
    have hstore : (l.removeRegion id).silent.layout.store = l.store.erase id := l.store_removeRegion id
    refine ⟨by rw [hstore]; rfl, ?_, fun other => ?_⟩
    · rw [hstore, RegionStore.ids_erase]
      exact List.erase_sublist.trans (List.sublist_append_left _ _)
    · rw [hstore, RegionStore.ids_erase, hnodup.mem_erase_iff]
      simp [handsOut?, and_comm, eq_comm]
  | _ => exact (SameRegions.perform (by trivial) h).renumbers trivial

theorem Numbered.step (hl : l.Numbered) (hnext : op.isAddition = true → l.store.next < RegionId.last)
    (h : l.perform op = .ok o) : o.layout.Numbered := by
  refine ⟨formed_perform hl.toFormed h hnext, .sublist (renumbers_perform hl.store.nodup hnext h).ids ?_⟩
  refine List.pairwise_append.2 ⟨hl.increasing, by cases l.handsOut? op <;> simp, fun id hid other hother => ?_⟩
  rw [(handsOut?_eq_some (Option.mem_toList.1 hother)).1]
  exact hl.store.below id hid

theorem additions_cons (op : Operation W) (ops : List (Operation W)) :
    Operation.additions (op :: ops) = Operation.additions ops + if op.isAddition then 1 else 0 := List.countP_cons ..

/-- Where there are identifiers for a whole run, there are for its first step, and for the rest after it. -/
theorem Numbered.first (hl : l.Numbered) (hroom : l.store.next + Operation.additions (op :: ops) ≤ RegionId.last)
    (h : l.perform op = .ok o) : Renumbers l op o.layout ∧ o.layout.Numbered ∧
      o.layout.store.next + Operation.additions ops ≤ RegionId.last := by
  rw [additions_cons] at hroom
  have hnext : op.isAddition = true → l.store.next < RegionId.last := by
    intro hadds
    rw [if_pos hadds] at hroom
    omega
  have hstep := renumbers_perform hl.store.nodup hnext h
  exact ⟨hstep, hl.step hnext h, by rw [hstep.next]; omega⟩

/-- What a run does to the identifiers. -/
structure Numbering (l : Layout W) (ops : List (Operation W)) (l' : Layout W) : Prop where
  numbered : l'.Numbered
  next : l'.store.next = l.store.next + Operation.additions ops
  issued : (l.issued ops).Pairwise (·.number < ·.number)
  later : ∀ id ∈ l.issued ops, l.store.next ≤ id.number
  origin : ∀ id ∈ l'.store.ids, id ∈ l.store.ids ∨ id ∈ l.issued ops
  resolves : ∀ id, id.number < l.store.next → (id ∈ l'.store.ids ↔ id ∈ l.store.ids ∧ .removeRegion id ∉ ops)

theorem numbering_run (hl : l.Numbered) (hroom : l.store.next + Operation.additions ops ≤ RegionId.last)
    (h : l.run ops = .ok o) : Numbering l ops o.layout := by
  induction ops generalizing l o with
  | nil =>
    cases h
    exact ⟨hl, rfl, .nil, nofun, fun id hid => .inl hid, fun id _ => by simp [changedTo]⟩
  | cons op ops ih =>
    obtain ⟨first, last, hfirst, hlast, rfl⟩ := run_cons_eq_ok.1 h
    obtain ⟨hstep, hnumbered, hleft⟩ := hl.first hroom hfirst
    have hrest := ih hnumbered hleft hlast
    have hissued : l.issued (op :: ops) = (l.handsOut? op).toList ++ first.layout.issued ops := by
      rw [issued, hfirst]
    have hhead : ∀ id ∈ (l.handsOut? op).toList, id.number = l.store.next ∧ id.number < first.layout.store.next := by
      intro id hid
      obtain ⟨rfl, hadds⟩ := handsOut?_eq_some (Option.mem_toList.1 hid)
      exact ⟨rfl, by rw [hstep.next, if_pos hadds]; exact Nat.lt_succ_self _⟩
    have hlater : l.store.next ≤ first.layout.store.next := by
      rw [hstep.next]
      exact Nat.le_add_right _ _
    refine ⟨hrest.numbered, ?_, ?_, fun id hid => ?_, fun id hid => ?_, fun id hid => ?_⟩
    · rw [show (last.after first).layout = last.layout from rfl, hrest.next, hstep.next, additions_cons]
      omega
    · rw [hissued]
      refine List.pairwise_append.2 ⟨by cases l.handsOut? op <;> simp, hrest.issued, fun id hid other hother => ?_⟩
      exact Nat.lt_of_lt_of_le (hhead id hid).2 (hrest.later other hother)
    · rw [hissued] at hid
      rcases List.mem_append.1 hid with hid | hid
      · exact Nat.le_of_eq (hhead id hid).1.symm
      · exact Nat.le_trans hlater (hrest.later id hid)
    · rw [hissued, List.mem_append]
      rcases hrest.origin id hid with hid | hid
      · rcases (hstep.live id).1 hid with ⟨hid, -⟩ | hid
        · exact .inl hid
        · exact .inr (.inl (Option.mem_toList.2 hid))
      · exact .inr (.inr hid)
    · -- An identifier that was handed out before is not handed out again.
      have hold : l.handsOut? op ≠ some id := by
        intro hout
        exact Nat.ne_of_lt hid (hhead id (Option.mem_toList.2 hout)).1
      have hkept : id ∈ first.layout.store.ids ↔ id ∈ l.store.ids ∧ op ≠ .removeRegion id := by
        rw [hstep.live, or_iff_left hold]
      rw [show (last.after first).layout = last.layout from rfl, hrest.resolves id (Nat.lt_of_lt_of_le hid hlater),
        hkept, and_assoc, List.mem_cons, not_or, ne_eq, eq_comm]

/-- As long as fewer regions are added than there are identifiers, the regions stand in the order of their
identifiers, which are smaller than the next one; whatever adding answers is larger than all that it answered before
and names a region until that is removed, and never again. No region has any other identifier, and an anchor is one
of the regions. -/
theorem identity_run {bounds : Rect} {settings : Settings} {start : Layout W}
    (hcreate : create bounds settings = .ok start) (h : start.run ops = .ok o)
    (hadd : Operation.additions ops < RegionId.last) :
    (o.layout.store.ids.Pairwise (·.number < ·.number) ∧
      (∀ id ∈ o.layout.store.ids, id.number < o.layout.store.next) ∧
      ∀ op id, o.layout.handsOut? op = some id → id = ⟨o.layout.store.next⟩) ∧
    (start.issued ops).Pairwise (·.number < ·.number) ∧
    (∀ before op after mid id, ops = before ++ op :: after → start.run before = .ok mid →
      mid.layout.handsOut? op = some id → ((o.layout.region? id).isSome = true ↔ .removeRegion id ∉ after)) ∧
    (∀ id ∈ o.layout.store.ids, id ∈ start.issued ops) ∧
    o.layout.store.Agrees ∧
    ∀ id, o.layout.anchor = some id → id ∈ o.layout.store.ids := by
  obtain ⟨hstart, hempty⟩ := numbered_create hcreate
  have hone : start.store.next = 1 := by rw [hempty]
  have hnone : ∀ id, id ∉ start.store.ids := by
    rw [hempty]
    exact fun id => List.not_mem_nil
  have hrun := numbering_run hstart (by omega) h
  refine ⟨⟨hrun.numbered.increasing, hrun.numbered.store.below, fun op id hout => (handsOut?_eq_some hout).1⟩,
    hrun.issued, ?_, fun id hid => (hrun.origin id hid).resolve_left (hnone id),
    RegionStore.agrees hrun.numbered.store.nodup, hrun.numbered.anchor⟩
  rintro before op after mid id rfl hbefore hout
  obtain ⟨upto, last, hupto, hlast, rfl⟩ := run_append h
  obtain rfl := Except.ok.inj (hbefore.symm.trans hupto)
  obtain ⟨first, rest, hfirst, hrest, rfl⟩ := run_cons_eq_ok.1 hlast
  have hcount : Operation.additions (before ++ op :: after) =
      Operation.additions before + Operation.additions (op :: after) := List.countP_append
  have hmid := numbering_run hstart (by omega) hbefore
  have hnext := hmid.next
  have hroom : mid.layout.store.next + Operation.additions (op :: after) ≤ RegionId.last := by omega
  obtain ⟨hstep, hfirstNumbered, hleft⟩ := hmid.numbered.first hroom hfirst
  have hlive : id ∈ first.layout.store.ids := (hstep.live id).2 (.inr hout)
  have hresolves := (numbering_run hfirstNumbered hleft hrest).resolves id (hfirstNumbered.store.below id hlive)
  exact RegionStore.contains_iff.trans (hresolves.trans (and_iff_right hlive))

/-- A container without regions. -/
def unfilled : Layout Unit where
  bounds := ⟨0, 0, 100, 100⟩

/-- Two columns are added, and the first one is replaced. -/
def replacing : List (Operation Unit) :=
  [.addRegion () ⟨0, 0, 50, 100⟩, .addRegion () ⟨50, 0, 50, 100⟩, .setAnchor ⟨1⟩, .removeRegion ⟨1⟩,
    .addRegion () ⟨0, 0, 50, 100⟩]

theorem identity_run_replacing : ∃ o, create ⟨0, 0, 100, 100⟩ {} = .ok unfilled ∧
    unfilled.run replacing = .ok o ∧ Operation.additions replacing < RegionId.last ∧
      unfilled.issued replacing = [⟨1⟩, ⟨2⟩, ⟨3⟩] ∧ o.layout.store.ids = [⟨2⟩, ⟨3⟩] ∧
        (unfilled.issued replacing).Pairwise (·.number < ·.number) ∧
          ((o.layout.region? ⟨1⟩).isSome = true ↔ .removeRegion ⟨1⟩ ∉ replacing.drop 1) := by
  have hcreate : create ⟨0, 0, 100, 100⟩ {} = .ok unfilled := rfl
  obtain ⟨o, h, hids⟩ : ∃ o, unfilled.run replacing = .ok o ∧ o.layout.store.ids = [⟨2⟩, ⟨3⟩] := ⟨_, rfl, rfl⟩
  have hadd : Operation.additions replacing < RegionId.last := by decide
  obtain ⟨-, hissued, hresolves, -⟩ := identity_run hcreate h hadd
  exact ⟨o, hcreate, h, hadd, rfl, hids, hissued, hresolves [] _ _ unfilled.changedTo ⟨1⟩ rfl rfl rfl⟩

end Layout

end Mosaic
