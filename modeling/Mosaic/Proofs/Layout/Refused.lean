import Mosaic.Proofs.Layout.Regions
import Mosaic.Proofs.Layout.Restore

/-! What is refused, and that it changes nothing. Snapshots and patches are looked at as a whole before anything
is written, and of several reasons against a snapshot the first is named. -/
namespace Mosaic

variable {W : Type}

/-- The items as the check sees them, without any limits on their sizes. -/
def Snapshot.placements (s : Snapshot) : List Placement := s.items.map fun i => { id := i.id, bounds := i.bounds }

def Patch.placements (patch : Patch) (l : Layout W) : List Placement :=
  (l.store.regions.zip patch.rects).map fun (r, bounds) => { id := r.id, bounds }

/-- The snapshot names exactly the regions there are. It may name one of them twice. -/
structure Snapshot.Belongs (s : Snapshot) (l : Layout W) : Prop where
  version : s.version = supportedVersion
  known : ∀ i ∈ s.items, i.id ∈ l.store.ids
  named : ∀ id ∈ l.store.ids, id ∈ s.items.map (·.id)
  anchor : ∀ id, s.anchor = some id → id ∈ l.store.ids

def Operation.IsRefused (l : Layout W) : Operation W → Prop
  | .restore s => ∃ o e, l.restore s = .ok o ∧ o.value = .error e
  | .applyPatch patch => ∃ o e, l.applyPatch patch = .ok o ∧ o.value = .error e
  | .enableSizeRange minWidth minHeight => ∃ e, (l.enableSizeRange minWidth minHeight).value = .error e
  | _ => False

/-- The whole layout is as it was, no entry is made and no host is called. -/
structure Outcome.Leaves {α : Type} (o : Outcome W α) (l : Layout W) : Prop where
  layout : o.layout = l
  journal : o.journal = []
  calls : o.calls = []

namespace Layout

variable {l : Layout W} {s : Snapshot} {e : SnapshotError}

/-- The first reason against a snapshot, in the order in which they are looked at. -/
inductive Refuses (l : Layout W) (s : Snapshot) : SnapshotError → Prop
  | version (hversion : s.version ≠ Snapshot.supportedVersion) :
      Refuses l s (.unsupportedVersion s.version Snapshot.supportedVersion)
  | unknown (hversion : s.version = Snapshot.supportedVersion) (before rest : List Snapshot.Item)
      (i : Snapshot.Item) (hitems : s.items = before ++ i :: rest) (hbefore : ∀ j ∈ before, j.id ∈ l.store.ids)
      (hunknown : i.id ∉ l.store.ids) : Refuses l s (.unknownRegion i.id)
  | missing (hversion : s.version = Snapshot.supportedVersion) (hknown : ∀ i ∈ s.items, i.id ∈ l.store.ids)
      (before rest : List RegionId) (id : RegionId) (hids : l.store.ids = before ++ id :: rest)
      (hbefore : ∀ other ∈ before, other ∈ s.items.map (·.id)) (hmissing : id ∉ s.items.map (·.id)) :
      Refuses l s (.missingRegion id)
  | anchor (hversion : s.version = Snapshot.supportedVersion) (hknown : ∀ i ∈ s.items, i.id ∈ l.store.ids)
      (hnamed : ∀ id ∈ l.store.ids, id ∈ s.items.map (·.id)) (id : RegionId) (hanchor : s.anchor = some id)
      (hunknown : id ∉ l.store.ids) : Refuses l s (.unknownRegion id)
  | cover (hbelongs : s.Belongs l) (report : Report) (hcheck : Cover.check s.container s.placements = .ok report)
      (herrors : report.HasErrors) : Refuses l s (.doesNotTile report.issues.length)

theorem isNone_item?_iff {id : RegionId} : (s.item? id).isNone = true ↔ id ∉ s.items.map (·.id) := by
  simp [Snapshot.item?, List.find?_eq_none]

theorem belongs_iff : s.Belongs l ↔ l.mismatch? s = none := by
  have hnamed : ∀ id, (∃ i, s.item? id = some i) ↔ id ∈ s.items.map (·.id) := by
    intro id
    rw [← Option.ne_none_iff_exists', ne_eq, ← Option.isNone_iff_eq_none, isNone_item?_iff, Classical.not_not]
  rw [mismatch?_eq_none_iff]
  simp only [hnamed]
  exact ⟨fun h => ⟨h.version, h.known, h.named, h.anchor⟩, fun ⟨hv, hk, hn, ha⟩ => ⟨hv, hk, hn, ha⟩⟩

theorem find?_unknown {id : RegionId} : (s.items.map (·.id)).find? (!l.store.contains ·) = some id ↔
    ∃ before i rest, s.items = before ++ i :: rest ∧ (∀ j ∈ before, j.id ∈ l.store.ids) ∧
      i.id ∉ l.store.ids ∧ i.id = id := by
  rw [List.find?_map, Option.map_eq_some_iff]
  simp only [List.find?_eq_some_iff_append, Function.comp, Bool.not_not, Bool.not_eq_true', Bool.eq_false_iff,
    ne_eq, RegionStore.contains_iff]
  constructor
  · rintro ⟨i, ⟨hunknown, before, rest, hitems, hbefore⟩, hid⟩
    exact ⟨before, i, rest, hitems, hbefore, hunknown, hid⟩
  · rintro ⟨before, i, rest, hitems, hbefore, hunknown, hid⟩
    exact ⟨i, ⟨hunknown, before, rest, hitems, hbefore⟩, hid⟩

theorem find?_unknown_eq_none : (s.items.map (·.id)).find? (!l.store.contains ·) = none ↔
    ∀ i ∈ s.items, i.id ∈ l.store.ids := by
  simp [List.find?_eq_none, RegionStore.contains_iff]

theorem find?_missing {id : RegionId} : (l.store.ids.find? fun id => (s.item? id).isNone) = some id ↔
    id ∉ s.items.map (·.id) ∧ ∃ before rest, l.store.ids = before ++ id :: rest ∧
      ∀ other ∈ before, other ∈ s.items.map (·.id) := by
  simp only [List.find?_eq_some_iff_append, Bool.not_eq_true', Bool.eq_false_iff, ne_eq, isNone_item?_iff,
    Classical.not_not]

theorem find?_missing_eq_none : (l.store.ids.find? fun id => (s.item? id).isNone) = none ↔
    ∀ id ∈ l.store.ids, id ∈ s.items.map (·.id) := by
  simp only [List.find?_eq_none, isNone_item?_iff, Classical.not_not]

theorem refuses_of_mismatch? (h : l.mismatch? s = some e) : Refuses l s e := by
  unfold mismatch? at h
  split at h
  · next hversion =>
    cases h
    exact .version hversion
  · next hversion =>
    replace hversion := Classical.not_not.1 hversion
    split at h
    · next id hfind =>
      cases h
      obtain ⟨before, i, rest, hitems, hbefore, hunknown, rfl⟩ := find?_unknown.1 hfind
      exact .unknown hversion before rest i hitems hbefore hunknown
    · next hfind =>
      have hknown := find?_unknown_eq_none.1 hfind
      split at h
      · next id hfind =>
        cases h
        obtain ⟨hmissing, before, rest, hids, hbefore⟩ := find?_missing.1 hfind
        exact .missing hversion hknown before rest id hids hbefore hmissing
      · next hfind =>
        have hnamed := find?_missing_eq_none.1 hfind
        obtain ⟨id, hanchor, rfl⟩ := Option.map_eq_some_iff.1 h
        obtain ⟨hanchor, hunknown⟩ := Option.filter_eq_some_iff.1 hanchor
        refine .anchor hversion hknown hnamed id hanchor fun hlive => ?_
        rw [RegionStore.contains_iff.2 hlive] at hunknown
        cases hunknown

private theorem not_exists_ok {ε α : Type} (e : ε) : ¬ ∃ a : α, (.error e : Except ε α) = .ok a := by
  rintro ⟨a, h⟩
  cases h

/-- A snapshot is restored as it says, or refused for the first reason against it. -/
theorem refuses_iff {o : Outcome W (Except LayoutError (List RegionId))} (h : l.restore s = .ok o)
    {e : LayoutError} : o.value = .error e ↔ ∃ why, e = .snapshot why ∧ Refuses l s why := by
  have hrefused : ∀ why, l.mismatch? s = some why → o.value = .error (.snapshot why) := by
    intro why hwhy
    rw [restore, hwhy] at h
    cases h
    rfl
  constructor
  · intro hvalue
    unfold restore at h
    split at h
    · next why hwhy =>
      cases h
      cases hvalue
      exact ⟨why, rfl, refuses_of_mismatch? hwhy⟩
    · next hbelongs =>
      obtain ⟨report, hcheck, h⟩ := Checked.bind_eq_ok.1 h
      split at h
      · next herrors =>
        cases h
        cases hvalue
        exact ⟨_, rfl, .cover (belongs_iff.2 hbelongs) report hcheck herrors⟩
      · cases h
        cases hvalue
  · rintro ⟨why, rfl, hwhy⟩
    cases hwhy with
    | version hversion => exact hrefused _ (by rw [mismatch?, if_pos hversion])
    | unknown hversion before rest i hitems hbefore hunknown =>
      refine hrefused _ ?_
      rw [mismatch?, if_neg (not_not_intro hversion),
        find?_unknown.2 ⟨before, i, rest, hitems, hbefore, hunknown, rfl⟩]
    | missing hversion hknown before rest id hids hbefore hmissing =>
      refine hrefused _ ?_
      rw [mismatch?, if_neg (not_not_intro hversion), find?_unknown_eq_none.2 hknown,
        find?_missing.2 ⟨hmissing, before, rest, hids, hbefore⟩]
    | anchor hversion hknown hnamed id hanchor hunknown =>
      refine hrefused _ ?_
      have hstray : l.store.contains id = false :=
        Bool.eq_false_iff.2 fun hlive => hunknown (RegionStore.contains_iff.1 hlive)
      rw [mismatch?, if_neg (not_not_intro hversion), find?_unknown_eq_none.2 hknown,
        find?_missing_eq_none.2 hnamed, hanchor]
      simp [hstray]
    | cover hbelongs report hcheck herrors =>
      rw [restore, belongs_iff.1 hbelongs] at h
      change (Cover.check s.container s.placements >>= _) = _ at h
      rw [hcheck] at h
      change (if report.HasErrors then _ else _) = _ at h
      rw [if_pos herrors] at h
      cases h
      rfl

/-- Only the check can be without an answer, and only snapshots that belong to the layout come to it. -/
theorem restore_answers_iff : (∃ o, l.restore s = .ok o) ↔
    (s.Belongs l → ∃ report, Cover.check s.container s.placements = .ok report) := by
  cases hmismatch : l.mismatch? s with
  | some e =>
    refine iff_of_true ⟨_, by rw [restore, hmismatch]⟩ fun hbelongs => ?_
    rw [belongs_iff.1 hbelongs] at hmismatch
    cases hmismatch
  | none =>
    rw [restore, hmismatch]
    change (∃ o, (Cover.check s.container s.placements >>= _) = .ok o) ↔ _
    constructor
    · rintro ⟨o, ho⟩ -
      obtain ⟨report, hreport, -⟩ := Checked.bind_eq_ok.1 ho
      exact ⟨report, hreport⟩
    · intro hreport
      obtain ⟨report, hreport⟩ := hreport (belongs_iff.2 hmismatch)
      rw [hreport]
      by_cases herrors : report.HasErrors
      · exact ⟨_, if_pos herrors⟩
      · exact ⟨_, if_neg herrors⟩

theorem restored_iff {o : Outcome W (Except LayoutError (List RegionId))} (h : l.restore s = .ok o) :
    (∃ changed, o.value = .ok changed) ↔
      s.Belongs l ∧ ∃ report, Cover.check s.container s.placements = .ok report ∧ ¬ report.HasErrors := by
  constructor
  · rintro ⟨changed, hvalue⟩
    obtain ⟨hbelongs, -, -, hcheck⟩ := restore_accepts h hvalue
    exact ⟨belongs_iff.2 hbelongs, hcheck⟩
  · rintro ⟨hbelongs, report, hcheck, hclear⟩
    -- Of the reasons against the snapshot none is left.
    cases hvalue : o.value with
    | ok changed => exact ⟨changed, rfl⟩
    | error e =>
      obtain ⟨why, -, hwhy⟩ := (refuses_iff h).1 hvalue
      cases hwhy with
      | version hversion => exact absurd hbelongs.version hversion
      | unknown _ before rest i hitems _ hunknown =>
        have hi : i ∈ s.items := hitems ▸ List.mem_append_right _ List.mem_cons_self
        exact absurd (hbelongs.known i hi) hunknown
      | missing _ _ before rest id hids _ hmissing =>
        have hid : id ∈ l.store.ids := hids ▸ List.mem_append_right _ List.mem_cons_self
        exact absurd (hbelongs.named id hid) hmissing
      | anchor _ _ _ id hanchor hunknown => exact absurd (hbelongs.anchor id hanchor) hunknown
      | cover _ found hfound herrors =>
        obtain rfl := Except.ok.inj (hcheck.symm.trans hfound)
        exact absurd herrors hclear

theorem applied_iff {patch : Patch} {o : Outcome W (Except LayoutError (List RegionId))}
    (h : l.applyPatch patch = .ok o) : (∃ changed, o.value = .ok changed) ↔ patch.rects.length = l.store.size ∧
      ∃ report, Cover.check l.bounds (patch.placements l) = .ok report ∧ ¬ report.HasErrors := by
  unfold applyPatch at h
  split at h
  · next hlength =>
    cases h
    exact iff_of_false (not_exists_ok _) fun hfull => hlength hfull.1
  · next hlength =>
    replace hlength := Classical.not_not.1 hlength
    obtain ⟨report, hcheck, h⟩ := Checked.bind_eq_ok.1 h
    have honly : ∀ found, Cover.check l.bounds (patch.placements l) = .ok found → found = report :=
      fun found hfound => Except.ok.inj (hfound.symm.trans hcheck)
    split at h
    · next herrors =>
      cases h
      refine iff_of_false (not_exists_ok _) fun ⟨_, found, hfound, hclear⟩ => hclear ?_
      rwa [honly found hfound]
    · next hclear =>
      cases h
      exact iff_of_true ⟨_, rfl⟩ ⟨hlength, report, hcheck, hclear⟩

theorem applyPatch_answers_iff {patch : Patch} : (∃ o, l.applyPatch patch = .ok o) ↔
    (patch.rects.length = l.store.size → ∃ report, Cover.check l.bounds (patch.placements l) = .ok report) := by
  unfold applyPatch
  split
  · next hlength => exact iff_of_true ⟨_, rfl⟩ fun hfull => absurd hfull hlength
  · next hlength =>
    change (∃ o, (Cover.check l.bounds (patch.placements l) >>= _) = .ok o) ↔ _
    constructor
    · rintro ⟨o, ho⟩ -
      obtain ⟨report, hreport, -⟩ := Checked.bind_eq_ok.1 ho
      exact ⟨report, hreport⟩
    · intro hreport
      obtain ⟨report, hreport⟩ := hreport (Classical.not_not.1 hlength)
      rw [hreport]
      by_cases herrors : report.HasErrors
      · exact ⟨_, if_pos herrors⟩
      · exact ⟨_, if_neg herrors⟩

theorem enabled_iff {minWidth minHeight : Int} : (l.enableSizeRange minWidth minHeight).value = .ok () ↔
    0 ≤ l.settings.grabTolerance ∧ 0 ≤ minWidth ∧ 0 ≤ minHeight := by
  unfold enableSizeRange
  simp only [Settings.validate, Settings.fault?]
  by_cases htolerance : l.settings.grabTolerance < 0
  · simp only [if_pos htolerance]
    exact iff_of_false (fun h => by cases h) (by omega)
  by_cases hwidth : minWidth < 0
  · simp only [if_neg htolerance, if_pos hwidth]
    exact iff_of_false (fun h => by cases h) (by omega)
  by_cases hheight : minHeight < 0
  · simp only [if_neg htolerance, if_neg hwidth, if_pos hheight]
    exact iff_of_false (fun h => by cases h) (by omega)
  simp only [if_neg htolerance, if_neg hwidth, if_neg hheight]
  exact iff_of_true trivial (by omega)

theorem restore_leaves {o : Outcome W (Except LayoutError (List RegionId))} {e : LayoutError}
    (h : l.restore s = .ok o) (hvalue : o.value = .error e) : o.Leaves l := by
  rcases restore_cases h with ⟨_, rfl⟩ | ⟨rfl, -⟩
  · exact ⟨rfl, rfl, rfl⟩
  · cases hvalue

theorem applyPatch_leaves {patch : Patch} {o : Outcome W (Except LayoutError (List RegionId))} {e : LayoutError}
    (h : l.applyPatch patch = .ok o) (hvalue : o.value = .error e) : o.Leaves l := by
  rcases applyPatch_cases h with ⟨_, rfl⟩ | rfl
  · exact ⟨rfl, rfl, rfl⟩
  · cases hvalue

theorem enableSizeRange_leaves {minWidth minHeight : Int} {e : SettingsError}
    (hvalue : (l.enableSizeRange minWidth minHeight).value = .error e) :
    (l.enableSizeRange minWidth minHeight).Leaves l := by
  rcases l.enableSizeRange_cases minWidth minHeight with ⟨_, heq⟩ | ⟨_, -, heq⟩
  · rw [heq]
    exact ⟨rfl, rfl, rfl⟩
  · rw [heq] at hvalue
    cases hvalue

theorem silent_eq_of_leaves {α : Type} {o : Outcome W α} (h : o.Leaves l) : o.silent = l.changedTo := by
  obtain ⟨rfl, hjournal, hcalls⟩ := h
  rw [Outcome.silent, hjournal, hcalls]
  rfl

/-- What is refused leaves the whole layout as it is, makes no entries and calls no host. -/
theorem perform_refused {op : Operation W} (h : op.IsRefused l) : l.perform op = .ok l.changedTo := by
  cases op with
  | restore s =>
    obtain ⟨o, e, h, hvalue⟩ := h
    exact Checked.map_eq_ok.2 ⟨o, h, silent_eq_of_leaves (restore_leaves h hvalue)⟩
  | applyPatch patch =>
    obtain ⟨o, e, h, hvalue⟩ := h
    exact Checked.map_eq_ok.2 ⟨o, h, silent_eq_of_leaves (applyPatch_leaves h hvalue)⟩
  | enableSizeRange minWidth minHeight =>
    obtain ⟨e, hvalue⟩ := h
    exact congrArg Except.ok (silent_eq_of_leaves (enableSizeRange_leaves hvalue))
  | _ => exact h.elim

/-- When nothing overflows, and only the check can, a snapshot is restored if it belongs to the layout and its items
cover its container, and is refused for the first reason against it otherwise; a patch is taken if it has one
rectangle for each region and covers the container, and a size range if nothing about the settings is negative. The
layout that comes with an error is the old one. -/
theorem accepts_exactly (l : Layout W) :
    (∀ s, ((∃ o, l.restore s = .ok o) ↔
        (s.Belongs l → ∃ report, Cover.check s.container s.placements = .ok report)) ∧
      ∀ o, l.restore s = .ok o →
        ((∃ changed, o.value = .ok changed) ↔
          s.Belongs l ∧ ∃ report, Cover.check s.container s.placements = .ok report ∧ ¬ report.HasErrors) ∧
        ∀ e, (o.value = .error e ↔ ∃ why, e = .snapshot why ∧ Refuses l s why) ∧
          (o.value = .error e → o.Leaves l)) ∧
    (∀ patch, ((∃ o, l.applyPatch patch = .ok o) ↔
        (patch.rects.length = l.store.size → ∃ report, Cover.check l.bounds (patch.placements l) = .ok report)) ∧
      ∀ o, l.applyPatch patch = .ok o →
        ((∃ changed, o.value = .ok changed) ↔ patch.rects.length = l.store.size ∧
          ∃ report, Cover.check l.bounds (patch.placements l) = .ok report ∧ ¬ report.HasErrors) ∧
        ∀ e, o.value = .error e → o.Leaves l) ∧
    (∀ minWidth minHeight,
      ((l.enableSizeRange minWidth minHeight).value = .ok () ↔
        0 ≤ l.settings.grabTolerance ∧ 0 ≤ minWidth ∧ 0 ≤ minHeight) ∧
      ∀ e, (l.enableSizeRange minWidth minHeight).value = .error e →
        (l.enableSizeRange minWidth minHeight).Leaves l) ∧
    ∀ op, op.IsRefused l → l.perform op = .ok l.changedTo :=
  ⟨fun _ => ⟨restore_answers_iff, fun _ h => ⟨restored_iff h, fun _ => ⟨refuses_iff h, restore_leaves h⟩⟩⟩,
    fun _ => ⟨applyPatch_answers_iff, fun _ h => ⟨applied_iff h, fun _ => applyPatch_leaves h⟩⟩,
    fun _ _ => ⟨enabled_iff, fun _ => enableSizeRange_leaves⟩, fun _ => perform_refused⟩

/-- Regions seven and nine are not there, and the columns do not cover the container. -/
def stray : Snapshot where
  container := ⟨0, 0, 100, 100⟩
  anchor := some ⟨9⟩
  items := [{ id := ⟨2⟩, bounds := ⟨50, 0, 20, 100⟩ }, { id := ⟨7⟩, bounds := .zero },
    { id := ⟨9⟩, bounds := .zero }]

theorem accepts_exactly_stray :
    (∃ o, pair.restore stray = .ok o ∧ o.value = .error (.snapshot (.unknownRegion ⟨7⟩)) ∧
      (∃ why, LayoutError.snapshot (.unknownRegion ⟨7⟩) = .snapshot why ∧ Refuses pair stray why) ∧
      o.Leaves pair) ∧
    (∃ o, pair.restore swapped = .ok o ∧ (∃ changed, o.value = .ok changed) ∧ swapped.Belongs pair) ∧
    (∃ o, pair.applyPatch ⟨[⟨0, 0, 20, 100⟩, ⟨20, 0, 80, 100⟩]⟩ = .ok o ∧ (∃ changed, o.value = .ok changed) ∧
      ∃ report, Cover.check pair.bounds (Patch.placements ⟨[⟨0, 0, 20, 100⟩, ⟨20, 0, 80, 100⟩]⟩ pair) = .ok report ∧
        ¬ report.HasErrors) ∧
    (∃ o, pair.applyPatch ⟨[⟨0, 0, 100, 100⟩]⟩ = .ok o ∧ o.Leaves pair) ∧
    ((pair.enableSizeRange 4 (-1)).value ≠ .ok () ∧ (pair.enableSizeRange 4 (-1)).Leaves pair) ∧
    pair.perform (.restore stray) = .ok pair.changedTo := by
  obtain ⟨hrestore, hpatch, henable, hunchanged⟩ := accepts_exactly pair
  have hstray := ((hrestore stray).2 _ rfl).2 (.snapshot (.unknownRegion ⟨7⟩))
  refine ⟨⟨_, rfl, rfl, hstray.1.1 rfl, hstray.2 rfl⟩,
    ⟨_, rfl, ⟨_, rfl⟩, (((hrestore swapped).2 _ rfl).1.1 ⟨_, rfl⟩).1⟩,
    ⟨_, rfl, ⟨_, rfl⟩, (((hpatch _).2 _ rfl).1.1 ⟨_, rfl⟩).2⟩,
    ⟨_, rfl, ((hpatch ⟨[⟨0, 0, 100, 100⟩]⟩).2 _ rfl).2 _ rfl⟩,
    ⟨?_, (henable 4 (-1)).2 _ rfl⟩, hunchanged _ ⟨_, _, rfl, rfl⟩⟩
  rw [ne_eq, (henable 4 (-1)).1]
  decide

end Layout

end Mosaic
