import Mosaic.Proofs.Cascade.Cover
import Mosaic.Proofs.Layout.Run
import Mosaic.Proofs.Layout.Stretch

/-! Without a size range every run keeps the exact cover: drags move whole lines inside the
container, resizes stretch it, and regions may become empty but never leave their line. -/
namespace Mosaic.Layout

variable {W : Type} {l l' : Layout W}

/-- Without a size range, the regions cover a container that has an area. -/
structure Classic (settings : Settings) (s : Snapshot) : Prop where
  sizeRange : settings.sizeRange = none
  container : s.container.Solid
  fits : ∀ r ∈ s.items.map (·.bounds), r.Fits
  tile : s.container.Tile (s.items.map (·.bounds))

theorem classic_iff : Classic l.settings l.snapshot ↔ l.settings.sizeRange = none ∧ l.bounds.Solid ∧
    (∀ r ∈ l.store.bounds, r.Fits) ∧ l.bounds.Tile l.store.bounds := by
  constructor
  · rintro ⟨hrange, hsolid, hfits, htile⟩
    rw [snapshot_bounds] at hfits htile
    exact ⟨hrange, hsolid, hfits, htile⟩
  · rintro ⟨hrange, hsolid, hfits, htile⟩
    refine ⟨hrange, hsolid, ?_, ?_⟩
    · rwa [snapshot_bounds]
    · rwa [snapshot_bounds]

theorem Classic.write {held : Grip} {goal : Point} {plan : Plan} {trace : Trace}
    (h : Classic l.settings l.snapshot)
    (hplan : (l.scene l.bounds).planFrom held goal {} = .ok (plan, trace)) :
    Classic l.settings (l.write plan).snapshot := by
  obtain ⟨hrange, hsolid, hfits, htile⟩ := classic_iff.1 h
  have hs : (l.scene l.bounds).Fits := ⟨hsolid.fits, fun r hr => ⟨hfits r hr, (htile.1 r hr).1⟩⟩
  obtain ⟨hlength, hfits', htile'⟩ := Scene.planFrom_tile hs hsolid.isProper htile hplan
  have hplaced : (l.write plan).store.bounds = plan.patch.rects := by
    refine RegionStore.bounds_place (hlength.trans ?_)
    exact List.length_map _
  refine (classic_iff (l := l.write plan)).2 ⟨hrange, hsolid, ?_, ?_⟩
  · rwa [hplaced]
  · rwa [hplaced]

theorem Classic.resize {target : Rect} {o : Outcome W Rect} (ht : target.Fits)
    (h : Classic l.settings l.snapshot) (ho : l.resize target = .ok o) :
    Classic l.settings o.layout.snapshot ∧ Rearranged l o.layout := by
  obtain ⟨hrange, hsolid, hfits, htile⟩ := classic_iff.1 h
  have hr := resize_rearranged ho
  rw [← hr.settings] at hrange ⊢
  rcases resize_of_classic (by rw [hasSizeRange, ← hr.settings, hrange]; rfl) hsolid htile ho with
    ⟨-, hsame⟩ | hstretch
  · rw [hsame]
    exact ⟨classic_iff.2 ⟨hsame ▸ hrange, hsolid, hfits, htile⟩, .refl l⟩
  · obtain ⟨hsolid', hsharp', htile', -⟩ := stretch_wide hstretch hsolid ht hfits htile
    exact ⟨classic_iff.2 ⟨hrange, hsolid', fun r hr => (hsharp' r hr).fits, htile'⟩, hr⟩

theorem classic_lasting : Lasting W (fun _ target => target.Fits) Classic where
  drag l held goal o h ho := by
    obtain ⟨plan, trace, hplan, hlayout⟩ := drag_eq_ok ho
    exact hlayout ▸ h.write hplan
  move l held goal o h ho := by
    obtain ⟨plan, trace, hplan, hlayout⟩ := move_eq_ok ho
    exact hlayout ▸ h.write hplan
  resize l target o ht h ho := h.resize ht ho
  anchor settings s anchor h := ⟨h.sizeRange, h.container, h.fits, h.tile⟩

theorem classic_splitting : Splitting (fun _ _ => True) Classic where
  container settings s h := h.container.not_isEmpty
  split settings s s' i rest idA idB a b h hperm hcontainer hitems hcover ha hb := by
    have hbounds : s'.items.map (·.bounds) = rest.map (·.bounds) ++ [a, b] := by simp [hitems]
    have hperm := hperm.map (·.bounds)
    refine ⟨h.sizeRange, hcontainer ▸ h.container, fun r hr => ?_, ?_⟩
    · rw [hbounds] at hr
      rcases List.mem_append.1 hr with hr | hr
      · exact h.fits r (hperm.mem_iff.2 (List.mem_cons_of_mem _ hr))
      · rcases List.mem_cons.1 hr with rfl | hr
        · exact ha.1
        · obtain rfl := List.mem_singleton.1 hr
          exact hb.1
    · rw [hbounds, hcontainer]
      exact (h.tile.perm hperm).split hcover

/-- Without a size range, a run keeps the container's area and its exact cover. -/
theorem classic_run (hrange : l.settings.sizeRange = none)
    (hpressed : l.gesture.pressed = none) (hstore : l.store.Sound) (hcontainer : l.bounds.Solid)
    (hfits : ∀ r ∈ l.store.bounds, r.Fits) (ht : l.bounds.Tile l.store.bounds)
    (hrun : Relation.ReflTransGen (Turn (fun _ target => target.Fits) fun _ _ => True) l l') :
    0 < l'.bounds.width ∧ 0 < l'.bounds.height ∧ l'.bounds.Tile l'.store.bounds := by
  have hstart : Sound Classic l := by
    refine ⟨classic_iff.2 ⟨hrange, hcontainer, hfits, ht⟩, hstore, fun _ => hpressed, fun s hs => ?_⟩
    rw [hpressed] at hs
    cases hs
  obtain ⟨-, hsolid, -, htile⟩ := classic_iff.1 (hstart.run classic_lasting classic_splitting hrun).geometry
  exact ⟨hsolid.extent .x, hsolid.extent .y, htile⟩

def columns : Layout Unit where
  bounds := ⟨0, 0, 30, 10⟩
  store := ⟨[{ id := ⟨1⟩, widget := (), bounds := ⟨0, 0, 10, 10⟩ },
    { id := ⟨2⟩, widget := (), bounds := ⟨10, 0, 20, 10⟩ }], 3⟩

theorem columns_tile : columns.bounds.Tile columns.store.bounds :=
  Rect.tile_beside .x (by decide) ⟨⟨rfl, rfl⟩, ⟨rfl, rfl⟩⟩ rfl rfl rfl

theorem classic_run_columns : ∃ l',
    Relation.ReflTransGen (Turn (fun _ target => target.Fits) fun _ _ => True) columns l' ∧
      l'.bounds = ⟨5, 0, 12, 1⟩ ∧ l'.store.ids = [⟨2⟩, ⟨3⟩, ⟨4⟩] ∧ l'.bounds.Tile l'.store.bounds := by
  have hcover : Rect.Tile ⟨0, 0, 10, 10⟩ [⟨0, 0, 10, 4⟩, ⟨0, 4, 10, 6⟩] :=
    Rect.tile_beside .y (by decide) ⟨⟨rfl, rfl⟩, ⟨rfl, rfl⟩⟩ rfl rfl rfl
  have hsplit : Turn (fun _ target => target.Fits) (fun _ _ => True) columns _ :=
    .split columns ⟨1⟩ _ () () ⟨0, 0, 10, 4⟩ ⟨0, 4, 10, 6⟩ _ rfl hcover ⟨by decide, trivial⟩
      ⟨by decide, trivial⟩ (by decide) rfl
  have hrun := (Relation.ReflTransGen.single hsplit).tail
    (.interact _ (.resize ⟨5, 0, 12, -7⟩) _ (show Rect.Fits ⟨5, 0, 12, -7⟩ by decide) rfl)
  exact ⟨_, hrun, rfl, rfl, (classic_run rfl rfl ⟨by decide, by decide⟩ (by decide) (by decide)
    columns_tile hrun).2.2⟩

/-- Two columns in a container whose far edge is cut off at the largest coordinate. -/
def cutColumns : Layout Unit where
  bounds := ⟨10, 0, 2147483647, 10⟩
  store := ⟨[{ id := ⟨1⟩, widget := (), bounds := ⟨10, 0, 50, 10⟩ },
    { id := ⟨2⟩, widget := (), bounds := ⟨60, 0, 2147483597, 10⟩ }], 3⟩

theorem cutColumns_tile : cutColumns.bounds.Tile cutColumns.store.bounds :=
  Rect.tile_beside .x (by decide) ⟨⟨rfl, rfl⟩, ⟨rfl, rfl⟩⟩ rfl rfl rfl

/-- An area alone is not enough: when the far edge is cut off, a resize tears the regions off it. -/
theorem not_tile_of_cut_off : ¬ ∀ l l' : Layout Unit, l.settings.sizeRange = none →
    l.gesture.phase = .idle → l.gesture.pressed = none → l.store.Sound → l.bounds.Fits →
    0 < l.bounds.width → 0 < l.bounds.height → (∀ r ∈ l.store.bounds, r.Fits) →
    l.bounds.Tile l.store.bounds →
    Relation.ReflTransGen (Turn (fun _ target => target.Fits) fun _ _ => True) l l' →
    l'.bounds.Tile l'.store.bounds := by
  intro h
  have hresize : Turn (fun _ target => target.Fits) (fun _ _ => True) cutColumns _ := .interact cutColumns
    (.resize ⟨5, 0, 2147483637, 10⟩) _ (show Rect.Fits ⟨5, 0, 2147483637, 10⟩ by decide) rfl
  have htile := h cutColumns _ rfl rfl rfl ⟨by decide, by decide⟩ (by decide) (by decide) (by decide)
    (by decide) cutColumns_tile (.single hresize)
  exact absurd (htile.2 ⟨2147483640, 0⟩ (by decide)) (by decide)

end Mosaic.Layout
