import Mosaic.Proofs.Cover.Clean
import Mosaic.Proofs.Layout.Roomy
import Mosaic.Proofs.Layout.Run

/-! With a size range every run keeps the cover exact, leaves every region its minimum and never gives
a check anything to report as an error. -/
namespace Mosaic

theorem Rect.room_map {α : Type} {items : List α} {f : α → Size} {g : α → Rect} :
    (∀ (i : Nat) (r : Rect), (items.map g)[i]? = some r →
      ∃ min, (items.map f)[i]? = some min ∧ HasRoom min r) ↔ ∀ a ∈ items, HasRoom (f a) (g a) := by
  constructor
  · intro h a ha
    obtain ⟨i, hi⟩ := List.getElem?_of_mem ha
    obtain ⟨min, hmin, hroom⟩ := h i (g a) (by rw [List.getElem?_map, hi]; rfl)
    rw [List.getElem?_map, hi] at hmin
    exact Option.some.inj hmin ▸ hroom
  · intro h i r hr
    rw [List.getElem?_map] at hr
    obtain ⟨a, ha, rfl⟩ := Option.map_eq_some_iff.1 hr
    exact ⟨f a, by rw [List.getElem?_map, ha]; rfl, h a (List.mem_of_getElem? ha)⟩

namespace Layout

variable {W : Type} {range : SizeRange} {l l' : Layout W}

/-- With a size range, the regions cover a container and have their minimums. -/
structure Ranged (range : SizeRange) (settings : Settings) (s : Snapshot) : Prop where
  sizeRange : settings.sizeRange = some range
  default : ∀ axis, 0 < range.min.along axis
  roomy : s.container.Roomy (s.items.map fun i => i.minSize.getD range.min) (s.items.map (·.bounds))

theorem mins_eq (h : l.settings.sizeRange = some range) :
    l.mins = l.snapshot.items.map fun i => i.minSize.getD range.min := by
  simp [mins, h, snapshot]

theorem ranged_iff : Ranged range l.settings l.snapshot ↔
    l.settings.sizeRange = some range ∧ (∀ axis, 0 < range.min.along axis) ∧ l.Roomy l.bounds := by
  constructor
  · rintro ⟨hrange, hdefault, hroomy⟩
    rw [snapshot_bounds, ← mins_eq hrange] at hroomy
    exact ⟨hrange, hdefault, hroomy⟩
  · rintro ⟨hrange, hdefault, hroomy⟩
    refine ⟨hrange, hdefault, ?_⟩
    rwa [snapshot_bounds, ← mins_eq hrange]

theorem Ranged.rearranged (h : Ranged range l.settings l.snapshot) (hr : Rearranged l l')
    (hroomy : l'.Roomy l'.bounds) : Ranged range l.settings l'.snapshot := by
  obtain ⟨hrange, hdefault, -⟩ := ranged_iff.1 h
  rw [← hr.settings] at hrange ⊢
  exact ranged_iff.2 ⟨hrange, hdefault, hroomy⟩

theorem Ranged.resize {target : Rect} {o : Outcome W Rect} (ht : HasPlace l.bounds target)
    (h : Ranged range l.settings l.snapshot) (ho : l.resize target = .ok o) :
    Ranged range l.settings o.layout.snapshot ∧ Rearranged l o.layout := by
  obtain ⟨hrange, -, hroomy⟩ := ranged_iff.1 h
  have hranged : l.hasSizeRange = true := by rw [hasSizeRange, hrange]; rfl
  have hr := resize_rearranged ho
  exact ⟨h.rearranged hr (hroomy.resize hranged ht ho), hr⟩

theorem ranged_lasting : Lasting W HasPlace (Ranged range) where
  drag _ _ _ _ h ho := h.rearranged (drag_rearranged ho) ((ranged_iff.1 h).2.2.drag ho)
  move _ _ _ _ h ho := h.rearranged (move_rearranged ho) ((ranged_iff.1 h).2.2.move ho)
  resize _ _ _ ht h ho := h.resize ht ho
  anchor _ _ _ h := ⟨h.sizeRange, h.default, h.roomy⟩

def HasDefault (range : SizeRange) (_ : Settings) (r : Rect) : Prop :=
  ∀ axis, range.min.along axis ≤ r.extent axis

/-- What a part of a region has to be to become a region of its own. -/
def IsPart (range : SizeRange) (settings : Settings) (r : Rect) : Prop :=
  r.Solid ∧ HasDefault range settings r

theorem ranged_splitting : Splitting (IsPart range) (Ranged range) where
  container settings s h := h.roomy.outer.not_isEmpty
  split settings s s' i rest idA idB a b h hperm hcontainer hitems hcover ha hb := by
    have hbounds : s'.items.map (·.bounds) = rest.map (·.bounds) ++ [a, b] := by simp [hitems]
    have hroom := Rect.room_map.1 h.roomy.room
    have hold : ∀ j ∈ rest, j ∈ s.items := fun j hj => hperm.mem_iff.2 (List.mem_cons_of_mem _ hj)
    refine ⟨h.sizeRange, h.default, hcontainer ▸ h.roomy.outer, ?_, ?_, Rect.room_map.2 ?_⟩
    · rw [hbounds, hcontainer]
      exact (h.roomy.tile.perm (hperm.map (·.bounds))).split hcover
    · rw [hbounds]
      intro r hr
      rcases List.mem_append.1 hr with hr | hr
      · obtain ⟨j, hj, rfl⟩ := List.mem_map.1 hr
        exact h.roomy.solid _ (List.mem_map_of_mem (hold j hj))
      · rcases List.mem_cons.1 hr with rfl | hr
        · exact ha.2.1
        · obtain rfl := List.mem_singleton.1 hr
          exact hb.2.1
    · rw [hitems]
      intro j hj
      rcases List.mem_append.1 hj with hj | hj
      · exact hroom j (hold j hj)
      · rcases List.mem_cons.1 hj with rfl | hj
        · exact fun axis => ⟨h.default axis, ha.2.2 axis⟩
        · obtain rfl := List.mem_singleton.1 hj
          exact fun axis => ⟨h.default axis, hb.2.2 axis⟩

theorem Ranged.room (h : Ranged range l.settings l.snapshot) {r : Region W} (hr : r ∈ l.store.regions) :
    Rect.HasRoom (r.minSize.getD range.min) r.bounds :=
  Rect.room_map.1 h.roomy.room ⟨r.id, r.bounds, r.minSize, r.maxSize⟩ (List.mem_map_of_mem hr)

theorem Ranged.report (h : Ranged range l.settings l.snapshot) :
    ∃ report, l.report = .ok report ∧ ¬ report.HasErrors := by
  obtain ⟨hrange, -, hroomy⟩ := ranged_iff.1 h
  have hplaced : l.placements.map (·.bounds) = l.store.bounds := by
    simp [placements, RegionStore.bounds]
  apply Cover.check_of_tile hroomy.outer
  · rw [hplaced]
    exact hroomy.tile
  · intro p hp
    apply (hroomy.solid p.bounds _).sharp
    rw [← hplaced]
    exact List.mem_map_of_mem hp
  · intro p hp min hmin
    obtain ⟨r, hr, rfl⟩ := List.mem_map.1 hp
    simp only [hrange, Option.map_some, Option.some.injEq] at hmin
    subst hmin
    exact ⟨(h.room hr .x).2, (h.room hr .y).2⟩

/-- With a size range, a run keeps the exact cover and every region its minimum, and a check finds no
errors. -/
theorem ranged_run (hrange : l.settings.sizeRange = some range)
    (hdefault : 1 ≤ range.minWidth ∧ 1 ≤ range.minHeight)
    (hexplicit : ∀ r ∈ l.store.regions, ∀ min, r.minSize = some min → 1 ≤ min.width ∧ 1 ≤ min.height)
    (hpressed : l.gesture.pressed = none) (hstore : l.store.Sound) (hcontainer : l.bounds.Solid)
    (hsolid : ∀ r ∈ l.store.bounds, r.Solid) (ht : l.bounds.Tile l.store.bounds)
    (hroom : ∀ r ∈ l.store.regions, (r.minSize.getD range.min).width ≤ r.bounds.width ∧
      (r.minSize.getD range.min).height ≤ r.bounds.height)
    (hrun : Relation.ReflTransGen (Turn HasPlace (IsPart range)) l l') :
    l'.settings.sizeRange = some range ∧ l'.bounds.Tile l'.store.bounds ∧
      (∀ r ∈ l'.store.regions, (r.minSize.getD range.min).width ≤ r.bounds.width ∧
        (r.minSize.getD range.min).height ≤ r.bounds.height) ∧
      ∃ report, l'.report = .ok report ∧ ¬ report.HasErrors := by
  have hmins : ∀ i ∈ l.snapshot.items, Rect.HasRoom (i.minSize.getD range.min) i.bounds := by
    intro i hi
    obtain ⟨r, hr, rfl⟩ := List.mem_map.1 hi
    obtain ⟨hwidth, hheight⟩ := hroom r hr
    have hpos : 1 ≤ (r.minSize.getD range.min).width ∧ 1 ≤ (r.minSize.getD range.min).height := by
      cases hmin : r.minSize with
      | none => exact hdefault
      | some min => exact hexplicit r hr min hmin
    exact Axis.rec ⟨hpos.1, hwidth⟩ ⟨hpos.2, hheight⟩
  have hranged : Ranged range l.settings l.snapshot := by
    refine ⟨hrange, Axis.rec hdefault.1 hdefault.2, hcontainer, ?_, ?_, Rect.room_map.2 hmins⟩
    · rwa [snapshot_bounds]
    · rwa [snapshot_bounds]
  have hstart : Sound (Ranged range) l := by
    refine ⟨hranged, hstore, fun _ => hpressed, fun s hs => ?_⟩
    rw [hpressed] at hs
    cases hs
  have hend := (hstart.run ranged_lasting ranged_splitting hrun).geometry
  obtain ⟨hrange', -, hroomy⟩ := ranged_iff.1 hend
  refine ⟨hrange', hroomy.tile, fun r hr => ?_, hend.report⟩
  exact ⟨(hend.room hr .x).2, (hend.room hr .y).2⟩

/-- Two columns, the second of which has a minimum of its own. -/
def rangedColumns : Layout Unit where
  settings := { sizeRange := some ⟨4, 4⟩ }
  bounds := ⟨0, 0, 30, 10⟩
  store := ⟨[{ id := ⟨1⟩, widget := (), bounds := ⟨0, 0, 10, 10⟩ },
    { id := ⟨2⟩, widget := (), bounds := ⟨10, 0, 20, 10⟩, minSize := some ⟨6, 4⟩ }], 3⟩

theorem rangedColumns_tile : rangedColumns.bounds.Tile rangedColumns.store.bounds :=
  Rect.tile_beside .x (by decide) ⟨⟨rfl, rfl⟩, ⟨rfl, rfl⟩⟩ rfl rfl rfl

theorem ranged_run_columns : ∃ l',
    Relation.ReflTransGen (Turn HasPlace (IsPart ⟨4, 4⟩)) rangedColumns l' ∧ l'.bounds = ⟨5, 0, 10, 4⟩ ∧
      l'.bounds.Tile l'.store.bounds ∧ ∃ report, l'.report = .ok report ∧ ¬ report.HasErrors := by
  have hplace : HasPlace ⟨0, 0, 30, 10⟩ ⟨5, 0, 2, 2⟩ := ⟨by decide, Axis.rec (by decide) (by decide)⟩
  have hdrag : Turn HasPlace (IsPart ⟨4, 4⟩) rangedColumns _ :=
    .interact rangedColumns (.drag (.vertical 10) ⟨28, 0⟩) _ trivial rfl
  have hrun := (Relation.ReflTransGen.single hdrag).tail (.interact _ (.resize ⟨5, 0, 2, 2⟩) _ hplace rfl)
  have hexplicit : ∀ r ∈ rangedColumns.store.regions, ∀ min, r.minSize = some min →
      1 ≤ min.width ∧ 1 ≤ min.height := by
    intro r hr min hmin
    rcases List.mem_cons.1 hr with rfl | hr
    · cases hmin
    · obtain rfl := List.mem_singleton.1 hr
      cases hmin
      decide
  obtain ⟨-, htile, -, hreport⟩ := ranged_run rfl (by decide) hexplicit rfl ⟨by decide, by decide⟩
    (by decide) (by decide) rangedColumns_tile (by decide) hrun
  exact ⟨_, hrun, rfl, htile, hreport⟩

/-- Runs keep the exact cover and the checks without errors, where starts, targets and parts of regions
are what is asked of them besides. -/
def Keeps (Start : Layout Unit → Prop) (R : Rect → Rect → Prop)
    (Part : SizeRange → Settings → Rect → Prop) : Prop :=
  ∀ (range : SizeRange) (l l' : Layout Unit), l.settings.sizeRange = some range →
    1 ≤ range.minWidth ∧ 1 ≤ range.minHeight →
    (∀ r ∈ l.store.regions, ∀ min, r.minSize = some min → 1 ≤ min.width ∧ 1 ≤ min.height) →
    l.gesture.phase = .idle → l.gesture.pressed = none → l.store.Sound → l.bounds.Fits →
    0 < l.bounds.width ∧ 0 < l.bounds.height → (∀ r ∈ l.store.bounds, r.Fits) →
    l.bounds.Tile l.store.bounds →
    (∀ r ∈ l.store.regions, (r.minSize.getD range.min).width ≤ r.bounds.width ∧
      (r.minSize.getD range.min).height ≤ r.bounds.height) →
    Start l → Relation.ReflTransGen (Turn R (Part range)) l l' →
    l'.bounds.Tile l'.store.bounds ∧ ∃ report, l'.report = .ok report ∧ ¬ report.HasErrors

/-- Regions with a common minimum, numbered from one. -/
def laid (container : Rect) (rects : List Rect) : Layout Unit where
  settings := { sizeRange := some ⟨4, 4⟩ }
  bounds := container
  store := ⟨rects.zipIdx.map fun p => { id := ⟨p.2 + 1⟩, widget := (), bounds := p.1 }, rects.length + 1⟩

theorem bounds_laid (container : Rect) (rects : List Rect) : (laid container rects).store.bounds = rects := by
  simp [laid, RegionStore.bounds, Function.comp_def]

theorem laid_sound (container : Rect) (rects : List Rect) : (laid container rects).store.Sound := by
  have hids : (laid container rects).store.ids =
      (List.range' 0 rects.length).map fun i => (⟨i + 1⟩ : RegionId) := by
    rw [← List.zipIdx_map_snd, List.map_map]
    simp [laid, RegionStore.ids, Function.comp_def]
  constructor
  · rw [hids]
    apply (List.nodup_range' _).map
    intro i j h
    simpa using h
  · intro id hid
    rw [hids] at hid
    obtain ⟨i, hi, rfl⟩ := List.mem_map.1 hid
    exact Nat.succ_lt_succ (by simpa using hi)

variable {Start : Layout Unit → Prop} {R : Rect → Rect → Prop} {Part : SizeRange → Settings → Rect → Prop}
  {container : Rect} {rects : List Rect}

theorem Keeps.turn (h : Keeps Start R Part) (hlaid : container.Fits ∧ (0 < container.width ∧
      0 < container.height) ∧ ∀ r ∈ rects, r.Fits ∧ 4 ≤ r.width ∧ 4 ≤ r.height)
    (htile : container.Tile rects) (hstart : Start (laid container rects)) {l' : Layout Unit}
    (ht : Turn R (Part ⟨4, 4⟩) (laid container rects) l') :
    l'.bounds.Tile l'.store.bounds ∧ ∃ report, l'.report = .ok report ∧ ¬ report.HasErrors := by
  obtain ⟨hfits, harea, hrects⟩ := hlaid
  have hbounds := bounds_laid container rects
  have hnone : ∀ r ∈ (laid container rects).store.regions, r.minSize = none := by
    intro r hr
    obtain ⟨p, -, rfl⟩ := List.mem_map.1 hr
    rfl
  refine h ⟨4, 4⟩ (laid container rects) l' rfl (by decide) ?_ rfl rfl (laid_sound container rects) hfits
    harea ?_ ?_ ?_ hstart (.single ht)
  · intro r hr min hsize
    rw [hnone r hr] at hsize
    cases hsize
  · rw [hbounds]
    exact fun r hr => (hrects r hr).1
  · rw [hbounds]
    exact htile
  · intro r hr
    rw [hnone r hr]
    exact (hrects r.bounds (hbounds ▸ List.mem_map_of_mem hr)).2

/-- A container that would be moved past the last coordinate comes apart from the regions. -/
theorem not_keeps_targets : ¬ Keeps (fun l => l.bounds.Solid ∧ ∀ r ∈ l.store.bounds, r.Solid)
    (fun _ target => target.Fits) IsPart := by
  intro h
  have htile : Rect.Tile ⟨0, 0, 300, 300⟩ [⟨0, 0, 300, 300⟩] := Rect.tile_self (by decide)
  have hresize : Turn (fun _ target => target.Fits) (IsPart ⟨4, 4⟩)
      (laid ⟨0, 0, 300, 300⟩ [⟨0, 0, 300, 300⟩]) _ :=
    .interact _ (.resize ⟨2147483352, 0, 290, 300⟩) _ (show Rect.Fits ⟨2147483352, 0, 290, 300⟩ by decide) rfl
  have hafter := (h.turn (by decide) htile (by decide) hresize).1
  exact absurd (hafter.2 ⟨2147483640, 0⟩ (by decide)) (by decide)

/-- The bounding box of the regions is found without the part of a container that is cut off. -/
theorem not_keeps_container : ¬ Keeps (fun l => ∀ r ∈ l.store.bounds, r.Fits) HasPlace IsPart := by
  intro h
  have htile : Rect.Tile ⟨10, 0, 2147483647, 10⟩ [⟨10, 0, 50, 10⟩, ⟨60, 0, 2147483597, 10⟩] :=
    Rect.tile_beside .x (by decide) ⟨⟨rfl, rfl⟩, ⟨rfl, rfl⟩⟩ rfl rfl rfl
  have htaken : Turn HasPlace (IsPart ⟨4, 4⟩)
      (laid ⟨10, 0, 2147483647, 10⟩ [⟨10, 0, 50, 10⟩, ⟨60, 0, 2147483597, 10⟩]) _ :=
    .interact _ .takeDirty _ trivial rfl
  obtain ⟨-, report, hreport, hclean⟩ := h.turn (by decide) htile (by decide) htaken
  cases hreport
  exact hclean (by decide)

/-- The areas of regions are added up with the parts that are cut off. -/
theorem not_keeps_regions : ¬ Keeps (fun l => l.bounds.Solid) HasPlace IsPart := by
  intro h
  have htile : Rect.Tile ⟨10, 0, 2147483637, 10⟩ [⟨10, 0, 50, 10⟩, ⟨60, 0, 2147483647, 10⟩] :=
    Rect.tile_beside .x (by decide) ⟨⟨rfl, rfl⟩, ⟨rfl, rfl⟩⟩ rfl rfl rfl
  have htaken : Turn HasPlace (IsPart ⟨4, 4⟩)
      (laid ⟨10, 0, 2147483637, 10⟩ [⟨10, 0, 50, 10⟩, ⟨60, 0, 2147483647, 10⟩]) _ :=
    .interact _ .takeDirty _ trivial rfl
  obtain ⟨-, report, hreport, hclean⟩ := h.turn (by decide) htile (by decide) htaken
  cases hreport
  exact hclean (by decide)

theorem not_keeps_parts : ¬ Keeps (fun l => l.bounds.Solid ∧ ∀ r ∈ l.store.bounds, r.Solid) HasPlace
    HasDefault := by
  intro h
  have htile : Rect.Tile ⟨10, 0, 2147483637, 10⟩ [⟨10, 0, 50, 10⟩, ⟨60, 0, 2147483587, 10⟩] :=
    Rect.tile_beside .x (by decide) ⟨⟨rfl, rfl⟩, ⟨rfl, rfl⟩⟩ rfl rfl rfl
  have hcover : Rect.Tile ⟨60, 0, 2147483587, 10⟩ [⟨60, 0, 20, 10⟩, ⟨80, 0, 2147483647, 10⟩] :=
    Rect.tile_beside .x (by decide) ⟨⟨rfl, rfl⟩, ⟨rfl, rfl⟩⟩ rfl rfl rfl
  have hfirst : HasDefault ⟨4, 4⟩ {} ⟨60, 0, 20, 10⟩ := Axis.rec (by decide) (by decide)
  have hsecond : HasDefault ⟨4, 4⟩ {} ⟨80, 0, 2147483647, 10⟩ := Axis.rec (by decide) (by decide)
  have hsplit : Turn HasPlace (HasDefault ⟨4, 4⟩)
      (laid ⟨10, 0, 2147483637, 10⟩ [⟨10, 0, 50, 10⟩, ⟨60, 0, 2147483587, 10⟩]) _ :=
    .split _ ⟨2⟩ _ () () _ _ _ rfl hcover ⟨by decide, hfirst⟩ ⟨by decide, hsecond⟩ (by decide) rfl
  obtain ⟨-, report, hreport, hclean⟩ := h.turn (by decide) htile (by decide) hsplit
  cases hreport
  exact hclean (by decide)

/-- None of the far edges may be cut off: not those of a container that is moved, of the container at
the start, of its regions and of the parts of a region. -/
theorem not_keeps :
    ¬ Keeps (fun l => l.bounds.Solid ∧ ∀ r ∈ l.store.bounds, r.Solid) (fun _ target => target.Fits)
      IsPart ∧
    ¬ Keeps (fun l => ∀ r ∈ l.store.bounds, r.Fits) HasPlace IsPart ∧
    ¬ Keeps (fun l => l.bounds.Solid) HasPlace IsPart ∧
    ¬ Keeps (fun l => l.bounds.Solid ∧ ∀ r ∈ l.store.bounds, r.Solid) HasPlace HasDefault :=
  ⟨not_keeps_targets, not_keeps_container, not_keeps_regions, not_keeps_parts⟩

end Layout

end Mosaic
