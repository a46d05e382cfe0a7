import Mosaic.Proofs.Layout.Course
import Mosaic.Proofs.Layout.Restore
import Mosaic.Proofs.Layout.Stretch

/-! Where a resize leaves regions that are empty. Stretching maps the edges of all regions. Cascades move
the lines of those that have an area, and what lies on none of these lines stays where it is. -/
namespace Mosaic.Layout

variable {W : Type} {l : Layout W} {target : Rect} {axis : Axis} {r : Rect}

/-- A resize takes the region along: all edges are mapped, or lines lead to the region, or the container
does not shrink. -/
def TakesAlong (l : Layout W) (target : Rect) (axis : Axis) (r : Rect) : Prop :=
  l.hasSizeRange = false ∨ Rect.Tied axis l.bounds l.store.bounds r ∨ l.bounds.extent axis ≤ target.extent axis

/-- Every region that has an area has a minimum to keep. -/
def KeepsAreas (l : Layout W) : Prop :=
  ∀ (i : Nat) (r : Rect), l.store.bounds[i]? = some r → (∀ axis, 0 < r.extent axis) → ∀ axis, 0 < l.floor i axis

/-- Regions with an area hold the box that they cover open. -/
theorem Reflow.solid {l' : Layout W} {box box' : Rect} (hflow : Reflow l box l' box') (hbox : box.Solid)
    (hsharp : ∀ r ∈ l.store.bounds, r.Sharp) (ht : box.Tile l.store.bounds) (hkeeps : l.KeepsAreas) :
    box'.Solid := by
  obtain ⟨r, hr, hcover⟩ := ht.exists_covers hbox.covers_near
  obtain ⟨i, hi⟩ := List.getElem?_of_mem hr
  have harea := hcover.hasArea
  have hextent : ∀ axis, 0 < r.extent axis := by
    intro axis
    have hspan := harea axis
    have hends := (hsharp r hr).far axis
    omega
  refine ⟨hflow.woven.outer.fits, fun axis => ?_, hflow.woven.outer.far⟩
  exact hflow.rects.extent_pos hi (harea axis) (hkeeps i r hi hextent axis) (ht.tied hr harea)

/-- A resize leaves every cell of the container in one region, wherever empty regions lie. The regions that
are taken along lie inside the container, and if all are, a check finds nothing to say about where they lie. -/
theorem resize_inside {o : Outcome W Rect} (hcontainer : l.bounds.Solid) (hsharp : ∀ r ∈ l.store.bounds, r.Sharp)
    (ht : l.bounds.Tile l.store.bounds) (htarget : target.Fits)
    (hranged : l.hasSizeRange = true → l.KeepsAreas ∧ HasPlace l.bounds target) (ho : l.resize target = .ok o) :
    o.layout.bounds.Solid ∧ o.layout.bounds.Paves o.layout.store.bounds ∧
      (∀ (i : Nat) (r b : Rect), l.store.bounds[i]? = some r → o.layout.store.bounds[i]? = some b →
        ∀ axis, l.TakesAlong target axis r → Rect.Within axis o.layout.bounds b) ∧
      ((∀ r ∈ l.store.bounds, ∀ axis, l.TakesAlong target axis r) →
        o.layout.bounds.Tile o.layout.store.bounds ∧
          ∃ report, o.layout.report = .ok report ∧ report.ClearsCover) := by
  have hlength := (resize_rearranged ho).length_bounds
  obtain ⟨hsolid, hsharp', hpaves, hinside⟩ : o.layout.bounds.Solid ∧ (∀ b ∈ o.layout.store.bounds, b.Sharp) ∧
      o.layout.bounds.Paves o.layout.store.bounds ∧
      ∀ (i : Nat) (r b : Rect), l.store.bounds[i]? = some r → o.layout.store.bounds[i]? = some b →
        ∀ axis, l.TakesAlong target axis r → Rect.Within axis o.layout.bounds b := by
    cases hrange : l.hasSizeRange with
    | true =>
      obtain ⟨hkeeps, hplace⟩ := hranged hrange
      obtain ⟨hflow, hends⟩ := resize_reflow hrange hcontainer hsharp ht hplace ho
      refine ⟨hflow.solid hcontainer hsharp ht hkeeps, hflow.woven.sharp, hflow.woven.paves, ?_⟩
      intro i r b hr hb axis halong
      rcases halong with hclassic | htied | hgrows
      · rw [hrange] at hclassic
        cases hclassic
      · exact ((hflow.rects.each i r b hr hb).2 axis htied).within (hflow.woven.ordered axis)
      · exact (hends axis).2 hgrows b (List.mem_of_getElem? hb)
    | false =>
      obtain ⟨hsolid, hsharp', htile, -⟩ := resize_tile hrange hcontainer hsharp ht htarget ho
      refine ⟨hsolid, hsharp', htile.paves, fun i r b _ hb axis _ => ?_⟩
      exact (htile.1 b (List.mem_of_getElem? hb)).2.edges axis
  refine ⟨hsolid, hpaves, hinside, fun hall => ?_⟩
  have htile : o.layout.bounds.Tile o.layout.store.bounds := by
    refine hpaves.tile fun b hb => ⟨(hsharp' b hb).proper, Rect.encloses_of_edges fun axis => ?_⟩
    obtain ⟨i, hi⟩ := List.getElem?_of_mem hb
    obtain ⟨r, hr⟩ := exists_getElem?_of_length hlength hi
    exact hinside i r b hr hi axis (hall r (List.mem_of_getElem? hr) axis)
  exact ⟨htile, report_of_fills (regions_ne_nil hsolid htile) hsharp' (htile.fills hsolid hsharp')⟩

/-- A column and a marker that stands inside it. -/
def staked : Layout Unit where
  settings := { sizeRange := some ⟨4, 4⟩ }
  bounds := ⟨0, 0, 100, 100⟩
  store := ⟨[{ id := ⟨1⟩, widget := (), bounds := ⟨0, 0, 100, 100⟩ },
    { id := ⟨2⟩, widget := (), bounds := ⟨80, 0, 0, 100⟩ }], 3⟩

theorem staked_tile : staked.bounds.Tile staked.store.bounds :=
  (Rect.tile_self (by decide)).append_empty (by decide) fun harea => absurd (harea .x) (by decide)

theorem staked_keepsAreas : staked.KeepsAreas := by
  intro i r hr hextent
  match i, hr with
  | 0, _ => exact Axis.rec (by decide) (by decide)
  | 1, rfl => exact absurd (hextent .x) (by decide)

/-- The marker goes along when the container gets lower and wider. -/
theorem resize_inside_staked : ∃ o, staked.resize ⟨5, 0, 200, 50⟩ = .ok o ∧
    o.layout.store.bounds = [⟨5, 0, 200, 50⟩, ⟨85, 0, 0, 50⟩] ∧
      o.layout.bounds.Tile o.layout.store.bounds ∧ ∃ report, o.layout.report = .ok report ∧ report.ClearsCover := by
  obtain ⟨o, ho, hbounds⟩ : ∃ o, staked.resize ⟨5, 0, 200, 50⟩ = .ok o ∧
    o.layout.store.bounds = [⟨5, 0, 200, 50⟩, ⟨85, 0, 0, 50⟩] := ⟨_, rfl, by decide⟩
  have hplace : HasPlace staked.bounds ⟨5, 0, 200, 50⟩ := ⟨by decide, Axis.rec (by decide) (by decide)⟩
  obtain ⟨-, -, -, hall⟩ := resize_inside (by decide) (by decide) staked_tile (by decide)
    (fun _ => ⟨staked_keepsAreas, hplace⟩) ho
  refine ⟨o, ho, hbounds, hall fun r hr => ?_⟩
  -- The container gets wider, and both regions reach from its upper end to its lower one.
  simp only [staked, RegionStore.bounds, List.map_cons, List.map_nil, List.mem_cons, List.not_mem_nil,
    or_false] at hr
  rcases hr with rfl | rfl
  · exact Axis.rec (.inr (.inr (by decide))) (.inr (.inl ⟨.refl, .refl⟩))
  · exact Axis.rec (.inr (.inr (by decide))) (.inr (.inl ⟨.refl, .refl⟩))

/-- A marker that no line leads to is left outside when the container gets narrower. -/
theorem not_resize_inside : ¬ ∀ (l : Layout Unit) (target : Rect) (o : Outcome Unit Rect), l.bounds.Solid →
    (∀ r ∈ l.store.bounds, r.Sharp) → l.bounds.Tile l.store.bounds → l.KeepsAreas → target.Solid →
    l.resize target = .ok o → (∀ b ∈ o.layout.store.bounds, o.layout.bounds.Encloses b) ∧
      ∃ report, o.layout.report = .ok report ∧ report.ClearsCover := by
  intro h
  have hresized := h staked ⟨0, 0, 50, 100⟩ _ (by decide) (by decide) staked_tile staked_keepsAreas
    (by decide) rfl
  exact absurd (hresized.1 ⟨80, 0, 0, 100⟩ (by decide)) (by decide)

end Mosaic.Layout
