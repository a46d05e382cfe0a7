import Mosaic.Proofs.Layout.Undo

/-! Layouts with equal settings and equal geometry. A resize looks at nothing else, so it does the same to
both: neither the marks of changed regions nor a gesture that is going on make a difference. -/
namespace Mosaic

open Checked

namespace Layout

variable {W : Type} {l l' : Layout W} {limits target : Rect}

/-- The settings and all that a snapshot holds are equal. -/
structure Alike (l l' : Layout W) : Prop where
  settings : l'.settings = l.settings
  snapshot : l'.snapshot = l.snapshot

/-- Outcomes with equal answers that leave layouts alike. -/
structure AlikeOutcome {α : Type} (o o' : Outcome W α) : Prop where
  layout : Alike o.layout o'.layout
  value : o'.value = o.value

theorem mins_eq_items (l : Layout W) : l.mins = l.snapshot.items.map fun i =>
    l.settings.sizeRange.elim .zero fun range => i.minSize.getD range.min := by
  unfold mins
  cases l.settings.sizeRange with
  | none => simp [snapshot, Function.comp_def]
  | some range => simp [snapshot, Function.comp_def]

theorem placements_eq_items (l : Layout W) : l.placements = l.snapshot.items.map fun i => {
    id := i.id, bounds := i.bounds
    min := l.settings.sizeRange.map fun range => i.minSize.getD range.min
    max := i.maxSize } := by
  simp [placements, snapshot]

namespace Alike

theorem symm (h : Alike l l') : Alike l' l := ⟨h.settings.symm, h.snapshot.symm⟩

theorem bounds (h : Alike l l') : l'.bounds = l.bounds := congrArg Snapshot.container h.snapshot

theorem anchor (h : Alike l l') : l'.anchor = l.anchor := congrArg Snapshot.anchor h.snapshot

theorem items (h : Alike l l') : l'.snapshot.items = l.snapshot.items := congrArg Snapshot.items h.snapshot

theorem storeBounds (h : Alike l l') : l'.store.bounds = l.store.bounds := by
  rw [← snapshot_bounds, h.items, snapshot_bounds]

theorem ids (h : Alike l l') : l'.store.ids = l.store.ids := by
  rw [← snapshot_ids, h.items, snapshot_ids]

theorem mins (h : Alike l l') : l'.mins = l.mins := by
  rw [mins_eq_items, h.items, h.settings, ← mins_eq_items]

theorem report (h : Alike l l') : l'.report = l.report := by
  rw [Layout.report, placements_eq_items, h.items, h.settings, h.bounds, ← placements_eq_items, Layout.report]

theorem scene (h : Alike l l') (limits : Rect) : l'.scene limits = l.scene limits := by
  simp only [Layout.scene, h.storeBounds, h.mins]

theorem anchorPosition? (h : Alike l l') : l'.anchorPosition? = l.anchorPosition? := by
  rw [anchorPosition?_eq, h.anchor, h.ids, ← anchorPosition?_eq]

theorem anchorBounds? (h : Alike l l') : l'.anchorBounds? = l.anchorBounds? := by
  rw [anchorBounds?_eq, h.anchorPosition?, h.storeBounds, ← anchorBounds?_eq]

private theorem items_placeAll {item : Region W → Snapshot.Item}
    (hitem : item = fun r => ⟨r.id, r.bounds, r.minSize, r.maxSize⟩) {rs rs' : List (Region W)}
    (bs : List Rect) (h : rs'.map item = rs.map item) :
    (RegionStore.placeAll rs' bs).map item = (RegionStore.placeAll rs bs).map item := by
  induction rs generalizing rs' bs with
  | nil =>
    rw [List.map_eq_nil_iff.1 h]
  | cons r rs ih =>
    cases rs' with
    | nil => cases h
    | cons r' rs' =>
      cases bs with
      | nil => exact h
      | cons b bs =>
        obtain ⟨hr, hrs⟩ := List.cons.inj h
        have hrest := ih bs hrs
        obtain ⟨dirty, hplace⟩ := r.place_eq b
        obtain ⟨dirty', hplace'⟩ := r'.place_eq b
        simp only [RegionStore.placeAll, List.map_cons, hrest]
        subst hitem
        simp only [Snapshot.Item.mk.injEq] at hr
        simp [hplace, hplace', hr]

theorem place (h : Alike l l') (rects : List Rect) :
    Alike { l with store := l.store.place rects } { l' with store := l'.store.place rects } := by
  have hitems := items_placeAll rfl rects h.items
  refine ⟨h.settings, ?_⟩
  simp only [Layout.snapshot, h.bounds, h.anchor, RegionStore.place, hitems]

theorem inside (h : Alike l l') (bounds : Rect) : Alike { l with bounds } { l' with bounds } :=
  ⟨h.settings, congrArg (fun s : Snapshot => { s with container := bounds }) h.snapshot⟩

theorem write (h : Alike l l') (plan : Plan) : Alike (l.write plan) (l'.write plan) := h.place plan.patch.rects

theorem shiftTo (h : Alike l l') (target : Rect) : Agree Alike (l.shiftTo target) (l'.shiftTo target) := by
  unfold Layout.shiftTo
  rw [h.bounds, h.storeBounds]
  refine .bind_self fun dx _ => .bind_self fun dy _ => ?_
  split
  · exact .ok h
  · exact .ok ((h.place _).inside _)

theorem stretch (h : Alike l l') (target : Rect) : Agree Alike (l.stretch target) (l'.stretch target) := by
  unfold Layout.stretch
  rw [h.bounds, h.storeBounds, h.anchorBounds?]
  exact .bind_self fun x _ => .bind_self fun y _ => .bind_self fun rects _ =>
    .ok ((h.place rects).inside target)

theorem commitWithin (h : Alike l l') (held : Grip) (goal : Point) (limits : Rect) :
    Agree AlikeOutcome (l.commitWithin held goal limits) (l'.commitWithin held goal limits) := by
  unfold Layout.commitWithin Layout.planWithin
  rw [h.scene, bind_assoc, bind_assoc]
  exact .bind_self fun plan _ => .ok ⟨h.write plan.1, rfl⟩

theorem commitLinesWithin (h : Alike l l') (held : Grip) (goal : Point) (limits : Rect) :
    Agree AlikeOutcome (l.commitLinesWithin held goal limits) (l'.commitLinesWithin held goal limits) := by
  unfold Layout.commitLinesWithin
  rw [h.scene]
  exact .bind_self fun plan _ => .ok ⟨h.write plan.1, rfl⟩

theorem commitAim (h : Alike l l') (aim : Aim) (limits : Rect) :
    Agree AlikeOutcome (l.commitAim aim limits) (l'.commitAim aim limits) := by
  unfold Layout.commitAim
  split
  · exact .ok ⟨h, rfl⟩
  · exact (h.commitWithin aim.held aim.goal limits).bind fun o o' _ _ ho => .ok ⟨ho.layout, rfl⟩

theorem commitCorner (h : Alike l l') (box : Rect) (growth : Size) (aim : Aim) (limits : Rect) :
    Agree AlikeOutcome (l.commitCorner box growth aim limits) (l'.commitCorner box growth aim limits) := by
  unfold Layout.commitCorner
  split
  · exact .ok ⟨h, rfl⟩
  · refine (h.commitLinesWithin aim.held aim.goal limits).bind fun o o' _ _ ho => ?_
    rw [ho.value]
    extract_lets onward onward'
    have honward : ∀ width, Agree AlikeOutcome (onward width) (onward' width) := by
      intro width
      simp only [onward, onward']
      cases o.value.y with
      | none => exact .ok ⟨ho.layout, rfl⟩
      | some line => exact .bind_self fun height _ => .ok ⟨ho.layout, rfl⟩
    cases o.value.x with
    | none => exact .bind_self fun width _ => honward width
    | some line => exact .bind_self fun width _ => honward width

theorem follow (h : Alike l l') (target : Rect) :
    Agree AlikeOutcome (l.follow target) (l'.follow target) := by
  unfold Layout.follow
  refine (h.shiftTo target).bind fun s s' _ _ hs => ?_
  rw [hs.storeBounds]
  refine .bind_self fun box? _ => ?_
  cases box? with
  | none => exact .ok ⟨hs, rfl⟩
  | some box =>
    simp -zeta only
    refine .bind_self fun width _ => .bind_self fun height _ => .bind_self fun limits _ => ?_
    rw [hs.scene, hs.anchorPosition?, hs.mins]
    refine .bind_self fun x _ => .bind_self fun y _ => ?_
    extract_lets growth onward onward'
    -- However the anchor's aim is found, what is done with it is alike.
    have honward : ∀ inward, Agree AlikeOutcome (onward inward) (onward' inward) := by
      intro inward
      refine (hs.commitAim inward limits).bind fun first first' _ _ hfirst => ?_
      refine .bind_self fun corner _ => ?_
      refine (hfirst.layout.commitCorner box growth corner limits).bind fun second second' _ _ hsecond => ?_
      rw [hsecond.layout.anchorBounds?, hsecond.value]
      extract_lets last last'
      have hlast : ∀ outward, Agree AlikeOutcome (last outward) (last' outward) := fun outward =>
        (hsecond.layout.commitAim outward limits).bind fun third third' _ _ hthird =>
          .bind_self fun width _ => .bind_self fun height _ => .ok ⟨hthird.layout.inside _, rfl⟩
      cases second.layout.anchorBounds? with
      | none => exact .bind_self fun outward _ => hlast outward
      | some anchor => exact .bind_self fun outward _ => hlast outward
    cases s.anchorPosition? with
    | none => exact .bind_self fun inward _ => honward inward
    | some position => exact .bind_self fun inward _ => honward inward

theorem revalidate (h : Alike l l') : l'.revalidate = l.revalidate := by
  rw [Layout.revalidate, h.report, Layout.revalidate]

/-- A resize does the same to layouts that are alike. -/
theorem resize (h : Alike l l') (target : Rect) :
    Agree AlikeOutcome (l.resize target) (l'.resize target) := by
  have hregions : l'.store.regions = [] ↔ l.store.regions = [] := by
    have hnil : ∀ k : Layout W, k.store.bounds = [] ↔ k.store.regions = [] := fun k => List.map_eq_nil_iff
    rw [← hnil, h.storeBounds, hnil]
  have hrange : l'.hasSizeRange = l.hasSizeRange := by rw [hasSizeRange, h.settings, hasSizeRange]
  unfold Layout.resize
  simp only [h.bounds, hregions, hrange]
  split
  · exact .ok ⟨h, rfl⟩
  · split
    · exact .ok ⟨h.inside _, rfl⟩
    · split
      · refine (h.follow _).bind fun o o' _ _ ho => ?_
        rw [ho.layout.revalidate]
        exact .bind_self fun findings _ => .ok ⟨ho.layout, ho.value⟩
      · exact (h.stretch _).bind fun s s' _ _ hs => .ok ⟨hs, rfl⟩

end Alike

end Layout

end Mosaic
