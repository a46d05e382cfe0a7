import Mosaic.Region.Store

/-! What the operations on the regions keep: placing them only changes bounds, and identifiers stay
apart as long as there are new ones. -/
namespace Mosaic

variable {W : Type}

theorem find?_of_nodup {α β : Type} [DecidableEq β] {key : α → β} {as : List α} (h : (as.map key).Nodup)
    {a : α} (ha : a ∈ as) : as.find? (key · = key a) = some a := by
  induction as with
  | nil => cases ha
  | cons b as ih =>
    rw [List.map_cons, List.nodup_cons] at h
    rw [List.find?_cons]
    rcases List.mem_cons.1 ha with rfl | ha
    · simp
    · have hne : key b ≠ key a := fun heq => h.1 (List.mem_map.2 ⟨a, ha, heq.symm⟩)
      simp only [hne, decide_false]
      exact ih h.2 ha

theorem Region.bounds_place (r : Region W) (bounds : Rect) : (r.place bounds).bounds = bounds := by
  unfold place
  split
  · assumption
  · rfl

theorem Region.place_eq (r : Region W) (bounds : Rect) :
    ∃ dirty, r.place bounds = { r with bounds, dirty } := by
  unfold place
  split
  · next h =>
    subst h
    exact ⟨r.dirty, rfl⟩
  · exact ⟨true, rfl⟩

theorem Region.place_place {r : Region W} {b c : Rect} (h : r.bounds = c → b = c) :
    (r.place b).place c = r.place c := by
  by_cases hstays : r.bounds = c
  · rw [h hstays, show r.place c = r from if_pos hstays, show r.place c = r from if_pos hstays]
  · by_cases hfirst : r.bounds = b
    · rw [show r.place b = r from if_pos hfirst]
    · rw [show r.place b = { r with bounds := b, dirty := true } from if_neg hfirst,
        show r.place c = { r with bounds := c, dirty := true } from if_neg hstays]
      by_cases hsecond : b = c
      · subst hsecond
        exact if_pos rfl
      · exact if_neg hsecond

namespace RegionStore

variable {s s' : RegionStore W} {id : RegionId} {r : Region W}

theorem map_placeAll {α : Type} {f : Region W → α} (hf : ∀ r bounds, f (r.place bounds) = f r)
    (rs : List (Region W)) (bs : List Rect) : (placeAll rs bs).map f = rs.map f := by
  induction rs generalizing bs with
  | nil => cases bs <;> rfl
  | cons r rs ih =>
    cases bs with
    | nil => rfl
    | cons b bs => simp only [placeAll, List.map_cons, hf, ih]

theorem place_nil (s : RegionStore W) : s.place [] = s := by
  obtain ⟨rs, next⟩ := s
  cases rs <;> rfl

theorem placeAll_eq_self {rs : List (Region W)} {bs : List Rect}
    (h : (placeAll rs bs).map (·.bounds) = rs.map (·.bounds)) : placeAll rs bs = rs := by
  induction rs generalizing bs with
  | nil => cases bs <;> rfl
  | cons r rs ih =>
    cases bs with
    | nil => rfl
    | cons b bs =>
      rw [placeAll, List.map_cons, List.map_cons, Region.bounds_place] at h
      obtain ⟨hfirst, hrest⟩ := List.cons.inj h
      rw [placeAll, ih hrest, Region.place, if_pos hfirst.symm]

/-- Regions that are placed where they are stay as they are, marks included. -/
theorem place_eq_self {bs : List Rect} (h : (s.place bs).bounds = s.bounds) : s.place bs = s :=
  congrArg (RegionStore.mk · s.next) (placeAll_eq_self h)

theorem map_place {α : Type} {f : Region W → α} (hf : ∀ r bounds, f (r.place bounds) = f r)
    (s : RegionStore W) (bs : List Rect) : (s.place bs).regions.map f = s.regions.map f :=
  map_placeAll hf s.regions bs

theorem bounds_place (h : bs.length = s.regions.length) : (s.place bs).bounds = bs := by
  obtain ⟨rs, next⟩ := s
  change (placeAll rs bs).map (·.bounds) = bs
  replace h : bs.length = rs.length := h
  induction rs generalizing bs with
  | nil => rw [List.length_eq_zero_iff.1 h]; rfl
  | cons r rs ih =>
    cases bs with
    | nil => cases h
    | cons b bs =>
      simp only [placeAll, List.map_cons, Region.bounds_place]
      rw [ih (Nat.succ.inj h)]

theorem placeAll_placeAll {rs : List (Region W)} {bs cs : List Rect} (hbs : bs.length = rs.length)
    (h : ∀ (i : Nat) (r : Region W) (b : Rect), rs[i]? = some r → bs[i]? = some b → cs[i]? = some r.bounds →
      b = r.bounds) (hcs : cs.length = rs.length) : placeAll (placeAll rs bs) cs = placeAll rs cs := by
  induction rs generalizing bs cs with
  | nil =>
    rw [List.length_eq_zero_iff.1 hbs]
    rfl
  | cons r rs ih =>
    obtain _ | ⟨b, bs⟩ := bs
    · cases hbs
    obtain _ | ⟨c, cs⟩ := cs
    · cases hcs
    have hfirst : (r.place b).place c = r.place c :=
      Region.place_place fun hstays => (h 0 r b rfl rfl (congrArg some hstays.symm)).trans hstays
    have hrest := ih (Nat.succ.inj hbs) (fun i => h (i + 1)) (Nat.succ.inj hcs)
    simp only [placeAll, hfirst, hrest]

/-- Regions may be placed in two steps, as long as those that are to stay are left in place by the first one. -/
theorem place_place {bs cs : List Rect} (hbs : bs.length = s.regions.length) (hcs : cs.length = s.regions.length)
    (h : ∀ (i : Nat) (r b : Rect), s.bounds[i]? = some r → bs[i]? = some b → cs[i]? = some r → b = r) :
    (s.place bs).place cs = s.place cs := by
  refine congrArg (RegionStore.mk · s.next) (placeAll_placeAll hbs (fun i r b hr hb hc => ?_) hcs)
  exact h i r.bounds b (by rw [bounds, List.getElem?_map, hr, Option.map_some]) hb hc

theorem bounds_place_map (f : Rect → Rect) : (s.place (s.bounds.map f)).bounds = s.bounds.map f := by
  apply bounds_place
  rw [List.length_map, bounds, List.length_map]

theorem contains_iff : s.contains id = true ↔ id ∈ s.ids := by
  simp [contains, get?, ids, List.find?_isSome]

def boundsOf? (s : RegionStore W) (id : RegionId) : Option Rect := (s.get? id).map (·.bounds)

theorem boundsOf?_of_mem (hnodup : s.ids.Nodup) (hr : r ∈ s.regions) :
    s.boundsOf? r.id = some r.bounds := by
  rw [boundsOf?, get?, find?_of_nodup hnodup hr, Option.map_some]

theorem isSome_boundsOf? : (s.boundsOf? id).isSome = true ↔ id ∈ s.ids := by
  rw [boundsOf?, Option.isSome_map, ← contains_iff, contains]

private theorem filterMap_changed {rs rs' : List (Region W)} {f f' : RegionId → Option Rect}
    (hids : rs'.map (·.id) = rs.map (·.id)) (hf : ∀ r ∈ rs, f r.id = some r.bounds)
    (hf' : ∀ r ∈ rs', f' r.id = some r.bounds) :
    ((rs'.zip (rs.map (·.bounds))).filterMap fun (r, b) => if r.bounds = b then none else some r.id) =
      (rs.map (·.id)).filter fun id => f' id ≠ f id := by
  induction rs generalizing rs' with
  | nil =>
    rw [List.map_eq_nil_iff.1 hids]
    rfl
  | cons r rs ih =>
    cases rs' with
    | nil => cases hids
    | cons r' rs' =>
      obtain ⟨hid, hids⟩ := List.cons.inj hids
      replace hid : r'.id = r.id := hid
      have hrest := ih hids (fun s hs => hf s (List.mem_cons_of_mem _ hs))
        fun s hs => hf' s (List.mem_cons_of_mem _ hs)
      have hold := hf r List.mem_cons_self
      have hnew := hf' r' List.mem_cons_self
      rw [hid] at hnew
      simp only [List.map_cons, List.zip_cons_cons, List.filterMap_cons, List.filter_cons, hrest, hold,
        hnew, hid]
      by_cases heq : r'.bounds = r.bounds <;> simp [heq]

/-- The changed regions, in order, are those whose bounds have become different. -/
theorem changedSince_eq (hids : s'.ids = s.ids) (hnodup : s.ids.Nodup) :
    s'.changedSince s.bounds = s.ids.filter fun id => s'.boundsOf? id ≠ s.boundsOf? id :=
  filterMap_changed hids (fun _ => boundsOf?_of_mem hnodup) fun _ => boundsOf?_of_mem (hids ▸ hnodup)

theorem map_modify {α : Type} {f : Region W → Region W} {g : Region W → α} (h : ∀ r, g (f r) = g r) :
    (s.modify id f).regions.map g = s.regions.map g := by
  refine List.ext_getElem? fun i => ?_
  simp only [modify, List.getElem?_map, List.getElem?_modify, Option.map_eq_map, Option.map_map]
  refine Option.map_congr fun r _ => ?_
  simp only [Function.comp]
  split
  · exact h r
  · rfl

theorem mem_modify {f : Region W → Region W} (h : r ∈ (s.modify id f).regions) :
    r ∈ s.regions ∨ ∃ old ∈ s.regions, r = f old := by
  obtain ⟨i, hi⟩ := List.mem_iff_getElem?.1 h
  rw [modify, List.getElem?_modify] at hi
  obtain ⟨old, hold, rfl⟩ := Option.map_eq_some_iff.1 hi
  split
  · exact .inr ⟨old, List.mem_of_getElem? hold, rfl⟩
  · exact .inl (List.mem_of_getElem? hold)

theorem ids_modify {f : Region W → Region W} (hf : ∀ r, (f r).id = r.id) : (s.modify id f).ids = s.ids :=
  map_modify hf

theorem ids_clean (s : RegionStore W) : s.clean.ids = s.ids := by
  simp [clean, ids]

theorem ids_insert (s : RegionStore W) (widget : W) (bounds : Rect) :
    (s.insert widget bounds).2.ids = s.ids ++ [⟨s.next⟩] := by
  simp [RegionStore.insert, ids]

/-- Identifiers are told apart, and none is about to be handed out again. -/
structure Sound (s : RegionStore W) : Prop where
  nodup : s.ids.Nodup
  below : ∀ id ∈ s.ids, id.number < s.next

theorem Sound.insert (h : s.Sound) (hnext : s.next < RegionId.last) (widget : W) (bounds : Rect) :
    (s.insert widget bounds).2.Sound := by
  have hmin : (s.insert widget bounds).2.next = s.next + 1 := Nat.min_eq_left hnext
  constructor
  · rw [ids_insert, List.nodup_append]
    refine ⟨h.nodup, by simp, fun id hid other hother heq => ?_⟩
    obtain rfl := List.mem_singleton.1 hother
    have hlt := h.below id hid
    rw [heq] at hlt
    exact Nat.lt_irrefl _ hlt
  · intro id hid
    rw [ids_insert] at hid
    rw [hmin]
    rcases List.mem_append.1 hid with hid | hid
    · exact Nat.lt_succ_of_lt (h.below id hid)
    · obtain rfl := List.mem_singleton.1 hid
      exact Nat.lt_succ_self _

theorem ids_erase (s : RegionStore W) (id : RegionId) : (s.erase id).ids = s.ids.erase id := by
  rw [List.erase_eq_eraseP', ids, ids, List.eraseP_map]
  rfl

theorem Sound.erase (h : s.Sound) (id : RegionId) : (s.erase id).Sound := by
  have hsub : (s.erase id).ids.Sublist s.ids := s.ids_erase id ▸ List.erase_sublist
  exact ⟨h.nodup.sublist hsub, fun other hother => h.below other (hsub.subset hother)⟩

theorem mem_ids_erase {other : RegionId} (h : other ∈ s.ids) (hne : other ≠ id) : other ∈ (s.erase id).ids := by
  rw [ids_erase]
  exact (List.mem_erase_of_ne hne).2 h

theorem erase_of_notMem (h : id ∉ s.ids) : s.erase id = s := by
  have hsame : s.regions.eraseP (·.id = id) = s.regions :=
    List.eraseP_of_forall_not fun r hr hid => h (of_decide_eq_true hid ▸ List.mem_map_of_mem hr)
  rw [erase, hsame]

theorem perm_erase (h : s.get? id = some r) : s.regions.Perm (r :: (s.erase id).regions) := by
  obtain ⟨rs, next⟩ := s
  replace h : rs.find? (·.id = id) = some r := h
  change rs.Perm (r :: rs.eraseP (·.id = id))
  induction rs with
  | nil => cases h
  | cons a rs ih =>
    rw [List.find?_cons] at h
    by_cases ha : a.id = id
    · simp only [ha, decide_true, Option.some.injEq] at h
      subst h
      simp [ha]
    · simp only [ha, decide_false] at h
      rw [List.eraseP_cons_of_neg (by simpa using ha)]
      exact ((ih h).cons a).trans (.swap r a _)

end RegionStore

end Mosaic
