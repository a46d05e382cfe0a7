import Mosaic.Proofs.Cascade.Transfer
import Mosaic.Proofs.Layout.Inside
import Mosaic.Proofs.Layout.Ranged
import Mosaic.Proofs.Layout.Regrow

/-! Resizing a container some of whose regions have less than their minimums. They do not get smaller then,
and the others not smaller than their minimums. -/
namespace Mosaic.Layout

variable {W : Type} {l l' : Layout W} {range : SizeRange} {box box' target : Rect}

/-- With a size range, regions that have areas and minimums to keep cover the container. Far edges may be cut off at
the largest coordinate. -/
structure Furnished (range : SizeRange) (l : Layout W) : Prop where
  sizeRange : l.settings.sizeRange = some range
  minimums : ∀ r ∈ l.store.regions, 1 ≤ (r.minSize.getD range.min).width ∧ 1 ≤ (r.minSize.getD range.min).height
  container : l.bounds.Fits
  extents : 0 < l.bounds.width ∧ 0 < l.bounds.height
  regions : ∀ r ∈ l.store.bounds, r.Fits ∧ 0 < r.width ∧ 0 < r.height
  tile : l.bounds.Tile l.store.bounds

/-- The far edges of the regions are not cut off. That of the container may be. -/
structure Occupied (range : SizeRange) (l : Layout W) : Prop extends Furnished range l where
  solid : ∀ r ∈ l.store.bounds, r.Solid

/-- Every region has its minimum. -/
def HasMinimums (range : SizeRange) (l : Layout W) : Prop :=
  ∀ r ∈ l.store.regions, (r.minSize.getD range.min).width ≤ r.bounds.width ∧
    (r.minSize.getD range.min).height ≤ r.bounds.height

instance (range : SizeRange) (l : Layout W) : Decidable (HasMinimums range l) :=
  inferInstanceAs (Decidable (∀ r ∈ l.store.regions, _ ∧ _))

theorem HasMinimums.along (h : HasMinimums range l) {r : Region W} (hr : r ∈ l.store.regions) :
    ∀ axis, (r.minSize.getD range.min).along axis ≤ r.bounds.extent axis :=
  Axis.rec (h r hr).1 (h r hr).2

theorem Furnished.min_pos (h : Furnished range l) {r : Region W} (hr : r ∈ l.store.regions) :
    ∀ axis, 0 < (r.minSize.getD range.min).along axis := Axis.rec (h.minimums r hr).1 (h.minimums r hr).2

theorem Furnished.extent_pos (h : Furnished range l) : ∀ axis, 0 < l.bounds.extent axis :=
  Axis.rec h.extents.1 h.extents.2

theorem Furnished.proper (h : Furnished range l) : l.bounds.IsProper :=
  ⟨Int.le_of_lt h.extents.1, Int.le_of_lt h.extents.2⟩

theorem Occupied.sharp (h : Occupied range l) : ∀ r ∈ l.store.bounds, r.Sharp := fun r hr => (h.solid r hr).sharp

theorem Occupied.span (h : Occupied range l) (hregions : l.store.regions ≠ []) (axis : Axis) :
    l.bounds.near axis < l.bounds.far axis := by
  obtain ⟨r, hr⟩ := List.exists_mem_of_ne_nil _ hregions
  have hmem : r.bounds ∈ l.store.bounds := List.mem_map_of_mem hr
  have hspan := (h.solid _ hmem).near_lt_far axis
  obtain ⟨hnear, hfar⟩ := (h.tile.1 _ hmem).2.edges axis
  omega

/-- A resize has answered the container it took, which begins where the target does and is as large as that at
least. The regions cover it, and each keeps its minimum, or its extent where that was less. -/
structure Resized (range : SizeRange) (l : Layout W) (target : Rect) (o : Outcome W Rect) : Prop where
  value : o.value = o.layout.bounds
  near : ∀ axis, o.value.near axis = target.near axis
  extent : ∀ axis, max (target.extent axis) 0 ≤ o.value.extent axis
  tile : o.value.Tile o.layout.store.bounds
  regions : List.Forall₂ (fun r b => b.id = r.id ∧ ∀ axis,
    min (r.bounds.extent axis) ((r.minSize.getD range.min).along axis) ≤ b.bounds.extent axis)
      l.store.regions o.layout.store.regions

/-- What holds of the regions at each position holds of the regions with the same identifiers. -/
theorem Rearranged.forall₂_regions (h : Rearranged l l') {R : Region W → Region W → Prop}
    (hR : ∀ (i : Nat) (r b : Region W), l.store.regions[i]? = some r → l'.store.regions[i]? = some b → R r b) :
    List.Forall₂ (fun r b => b.id = r.id ∧ R r b) l.store.regions l'.store.regions := by
  have hids : l'.store.ids = l.store.ids := h.ids
  have hlength := congrArg List.length hids
  rw [RegionStore.ids, RegionStore.ids, List.length_map, List.length_map] at hlength
  refine forall₂_of_positions hlength.symm fun i r b hr hb => ⟨?_, hR i r b hr hb⟩
  have hid := congrArg (·[i]?) hids
  simpa [RegionStore.ids, hr, hb] using hid

theorem bounds_getElem? {i : Nat} {r : Region W} (h : l.store.regions[i]? = some r) :
    l.store.bounds[i]? = some r.bounds := by
  rw [RegionStore.bounds, List.getElem?_map, h]
  rfl

theorem Reflow.regions (h : Reflow l box l' box') (hrange : l.settings.sizeRange = some range)
    (hsharp : ∀ r ∈ l.store.bounds, r.Sharp) : List.Forall₂ (fun r b => b.id = r.id ∧ ∀ axis,
      min (r.bounds.extent axis) ((r.minSize.getD range.min).along axis) ≤ b.bounds.extent axis)
        l.store.regions l'.store.regions := by
  refine h.rearranged.forall₂_regions fun i r b hr hb axis => ?_
  have hrect := bounds_getElem? hr
  have hrect' := bounds_getElem? hb
  have hmin : (l.scene l.bounds).mins[i]? = some (r.minSize.getD range.min) := by
    simp [scene, mins, hrange, hr]
  have hfloor : (r.minSize.getD range.min).along axis ≤ l.floor i axis := Scene.le_minAlong hmin axis
  have hkept := (h.rects.each i _ _ hrect hrect').1 axis
  have hends := (hsharp _ (List.mem_of_getElem? hrect)).far axis
  have hends' := (h.woven.sharp _ (List.mem_of_getElem? hrect')).far axis
  omega

theorem Occupied.ample (h : Occupied range l) (hroom : HasMinimums range l) (axis : Axis) : (l.scene l.bounds).Ample axis := by
  intro i r hr
  obtain ⟨region, hregion, rfl⟩ := Option.map_eq_some_iff.1 ((List.getElem?_map ..).symm.trans hr)
  have hmem := List.mem_of_getElem? hregion
  have hpos := h.min_pos hmem axis
  have hkept := hroom.along hmem axis
  have hends := (h.solid _ (List.mem_map_of_mem hmem)).far axis
  have hmin : (l.scene l.bounds).minAlong i axis = (region.minSize.getD range.min).along axis := by
    simp only [Scene.minAlong, scene, mins, h.sizeRange, List.getElem?_map, hregion, Option.map_some]
    exact Int.max_eq_left (Int.le_of_lt hpos)
  rw [hmin]
  omega

theorem Occupied.keepsAreas (h : Occupied range l) : l.KeepsAreas := by
  intro i r hr _ axis
  rw [RegionStore.bounds, List.getElem?_map] at hr
  obtain ⟨region, hregion, -⟩ := Option.map_eq_some_iff.1 hr
  have hmin : (l.scene l.bounds).mins[i]? = some (region.minSize.getD range.min) := by
    simp [scene, mins, h.sizeRange, hregion]
  exact Int.lt_of_lt_of_le (h.min_pos (List.mem_of_getElem? hregion) axis) (Scene.le_minAlong hmin axis)

section

variable (h : Occupied range l) (hspan : ∀ axis, l.bounds.near axis < l.bounds.far axis) (htarget : target.Fits)
  (hmoved : ∀ axis, Coord.Fits (l.bounds.far axis + (target.near axis - l.bounds.near axis)))
include h hspan htarget hmoved

/-- A resize does nothing, or follows the target from the part of the container that is not cut off. -/
theorem Occupied.resizes {o : Outcome W Rect} (ho : l.resize target = .ok o) :
    (Rect.clamped target.x target.y target.width target.height = l.bounds ∧ o.layout = l ∧ o.value = l.bounds) ∨
      ∃ followed shifted limits growth inward corner outward first third second,
        Course l l.bounds.trimmed (.clamped target.x target.y target.width target.height) followed shifted limits
            growth inward corner outward first third second ∧
          o.layout = followed.layout ∧ o.value = followed.value := by
  have hbox := Rect.solid_trimmed h.container hspan
  have hranged : l.hasSizeRange = true := by rw [hasSizeRange, h.sizeRange]; rfl
  rcases resize_follows hranged hbox h.tile ho with hsame | ⟨followed, hfollow, hanswer⟩
  · exact .inl hsame
  · obtain ⟨shifted, limits, growth, inward, corner, outward, first, third, second, hcourse⟩ :=
      exists_course (Rect.near_trimmed l.bounds) hbox h.sharp h.tile.trimmed (hasPlace_trimmed htarget hmoved).clamped
        (Rect.isProper_clamped _ _ _ _) hfollow
    exact .inr ⟨followed, shifted, limits, growth, inward, corner, outward, first, third, second, hcourse, hanswer⟩

/-- The target may be any, unless the far edges would have to be moved off the coordinates. -/
theorem resize_undersized {o : Outcome W Rect} (ho : l.resize target = .ok o) : Resized range l target o := by
  have hbox := Rect.solid_trimmed h.container hspan
  have htile := h.tile.trimmed
  have hclamped := Rect.extent_clamped target
  rcases h.resizes hspan htarget hmoved ho with
    ⟨hsame, hlayout, hvalue⟩ | ⟨followed, _, _, _, _, _, _, _, _, _, hcourse, hlayout, hvalue⟩
  · rw [← hlayout] at hvalue hsame
    refine ⟨hvalue, fun axis => ?_, fun axis => ?_, ?_, ?_⟩
    · rw [hvalue, ← hsame, Rect.near_clamped]
    · rw [hvalue, ← hsame, hclamped]
    · rw [hvalue, hlayout]
      exact h.tile
    · rw [hlayout]
      exact (Reflow.refl (htile.woven hbox h.sharp)).regions h.sizeRange h.sharp
  · obtain ⟨hanswer, hflow, hends⟩ := hcourse.answer
    rw [← hlayout] at hflow hends hanswer
    rw [← hvalue] at hanswer
    have hsolid := hflow.solid hbox h.sharp htile h.keepsAreas
    have hsettled : Settled o.layout :=
      hflow.settled (fun r hr axis => htile.tied hr (h.solid r hr).near_lt_far) hsolid.extent
    refine ⟨hanswer, fun axis => ?_, fun axis => ?_, ?_, hflow.regions h.sizeRange h.sharp⟩
    · rw [hanswer, (hends axis).1, Rect.near_clamped]
    · rw [hanswer, ← hclamped]
      exact (hends axis).2.1
    · rw [hanswer]
      exact hsettled.tile

end

/-- Two columns, the first of which is the anchor and has half of its minimum. -/
def cramped : Layout Unit where
  settings := { sizeRange := some ⟨20, 4⟩ }
  bounds := ⟨0, 0, 40, 10⟩
  store := ⟨[{ id := ⟨1⟩, widget := (), bounds := ⟨0, 0, 10, 10⟩ },
    { id := ⟨2⟩, widget := (), bounds := ⟨10, 0, 30, 10⟩ }], 3⟩
  anchor := some ⟨1⟩

/-- The second column gives way, and only down to its minimum. -/
theorem resize_undersized_cramped : ∃ o, cramped.resize ⟨5, 0, 20, 30⟩ = .ok o ∧ o.value = ⟨5, 0, 30, 30⟩ ∧
    o.layout.store.bounds = [⟨5, 0, 10, 30⟩, ⟨15, 0, 20, 30⟩] ∧ Resized ⟨20, 4⟩ cramped ⟨5, 0, 20, 30⟩ o := by
  obtain ⟨o, ho, hvalue, hbounds⟩ : ∃ o, cramped.resize ⟨5, 0, 20, 30⟩ = .ok o ∧ o.value = ⟨5, 0, 30, 30⟩ ∧
    o.layout.store.bounds = [⟨5, 0, 10, 30⟩, ⟨15, 0, 20, 30⟩] := ⟨_, rfl, by decide, by decide⟩
  have htile : cramped.bounds.Tile cramped.store.bounds :=
    Rect.tile_beside .x (by decide) ⟨⟨rfl, rfl⟩, ⟨rfl, rfl⟩⟩ rfl rfl rfl
  have hoccupied : Occupied ⟨20, 4⟩ cramped :=
    ⟨⟨rfl, by decide, by decide, by decide, by decide, htile⟩, by decide⟩
  exact ⟨o, ho, hvalue, hbounds,
    resize_undersized hoccupied (Axis.rec (by decide) (by decide)) (by decide) (Axis.rec (by decide) (by decide)) ho⟩

/-- Resizes keep the cover and the minimums, where starts are what is asked of the layout and the target besides. -/
def Refits (Start : Layout Unit → Rect → Prop) : Prop :=
  ∀ (range : SizeRange) (l : Layout Unit) (target : Rect) (o : Outcome Unit Rect), Furnished range l →
    target.Fits → Start l target → l.resize target = .ok o → Resized range l target o

/-- A region that ends past the largest coordinate, where it is cut off. -/
def overlong (width : Int) : Layout Unit where
  settings := { sizeRange := some ⟨width, 4⟩ }
  bounds := ⟨10, 0, 2147483637, 10⟩
  store := ⟨[{ id := ⟨1⟩, widget := (), bounds := ⟨10, 0, 2147483647, 10⟩ }], 2⟩

theorem overlong_furnished {width : Int} (h : 1 ≤ width) : Furnished ⟨width, 4⟩ (overlong width) where
  sizeRange := rfl
  minimums := List.forall_mem_singleton.2 ⟨h, (by decide : (1 : Int) ≤ 4)⟩
  container := (by decide : Rect.Fits ⟨10, 0, 2147483637, 10⟩)
  extents := (by decide : (0 : Int) < 2147483637 ∧ (0 : Int) < 10)
  regions := List.forall_mem_singleton.2
    (by decide : Rect.Fits ⟨10, 0, 2147483647, 10⟩ ∧ (0 : Int) < 2147483647 ∧ (0 : Int) < 10)
  tile := (Rect.tile_self (by decide : Rect.IsProper ⟨10, 0, 2147483647, 10⟩)).trimmed

/-- No far edge may be moved past the last coordinate, or be cut off there, and the container may not begin
there. -/
theorem not_refits :
    ¬ Refits (fun l _ => l.bounds.Solid ∧ ∀ r ∈ l.store.bounds, r.Solid) ∧
    ¬ Refits (fun l target => l.bounds.Solid ∧ HasPlace l.bounds target) ∧
    ¬ Refits (fun l target => (∀ r ∈ l.store.bounds, r.Solid) ∧
      ∀ axis, Coord.Fits (l.bounds.far axis + (target.near axis - l.bounds.near axis))) := by
  refine ⟨fun h => ?_, fun h => ?_, fun h => ?_⟩
  · have hfurnished : Furnished ⟨4, 4⟩ (laid ⟨0, 0, 300, 300⟩ [⟨0, 0, 300, 300⟩]) :=
      ⟨rfl, by decide, by decide, by decide, by decide, Rect.tile_self (by decide)⟩
    have hresized := h _ _ ⟨2147483352, 0, 290, 300⟩ _ hfurnished (by decide) (by decide) rfl
    exact absurd (hresized.tile.2 ⟨2147483640, 0⟩ (by decide)) (by decide)
  · have hplace : HasPlace (overlong 4).bounds ⟨10, 0, 2147483637, 20⟩ :=
      ⟨by decide, Axis.rec (by decide) (by decide)⟩
    have hresized := h _ _ ⟨10, 0, 2147483637, 20⟩ _ (overlong_furnished (by decide : (1 : Int) ≤ 4)) (by decide)
      ⟨by decide, hplace⟩ rfl
    exact absurd (hresized.tile.2 ⟨2147483640, 0⟩ (by decide)) (by decide)
  · have htile : Rect.Tile ⟨2147483647, 0, 10, 10⟩ [] :=
      ⟨by simp, fun p hp => absurd (Int.lt_of_le_of_lt hp.1 hp.2.1) (by decide)⟩
    have hfurnished : Furnished ⟨4, 4⟩ (laid ⟨2147483647, 0, 10, 10⟩ []) :=
      ⟨rfl, by decide, by decide, by decide, by decide, htile⟩
    have hresized := h _ _ ⟨0, 0, 10, 10⟩ _ hfurnished (by decide) ⟨by decide, Axis.rec (by decide) (by decide)⟩ rfl
    exact absurd (hresized.tile.2 ⟨0, 0⟩ (by decide)) (by decide)

end Mosaic.Layout
