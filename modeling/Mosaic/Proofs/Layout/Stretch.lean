import Mosaic.Proofs.Cover.Carry
import Mosaic.Proofs.Layout.Geometry

/-! Stretching maps all edges of an axis by one monotone map that takes the old ends of the container
to the new ones. -/
namespace Mosaic

namespace Stretch

variable {s : Stretch} {old anchor target : Rect} {axis : Axis}

/-- Where an edge is mapped to, if nothing leaves the coordinates. -/
def image (s : Stretch) (edge : Int) : Int :=
  if edge ≤ s.oldNear then s.near
  else max s.near (min (if s.threshold ≤ edge then edge + s.shift + s.growth
    else min (edge + s.shift) s.limit) (max s.far s.near))

theorem map_eq_ok {edge v : Int} (h : s.map edge = .ok v) : v = s.image edge ∧
    (s.oldNear < edge → s.threshold ≤ edge → Coord.Fits (edge + s.shift + s.growth)) := by
  unfold map at h
  unfold image
  split at h
  · next hle =>
    cases h
    exact ⟨(if_pos hle).symm, fun hlt => absurd hlt (Int.not_lt.2 hle)⟩
  · next hnle =>
    obtain ⟨moved, hmoved, h⟩ := Checked.bind_eq_ok.1 h
    obtain ⟨-, rfl⟩ := Coord.add_eq_ok_iff.1 hmoved
    rw [if_neg hnle]
    split at h
    · next hthreshold =>
      obtain ⟨mapped, hmapped, h⟩ := Checked.bind_eq_ok.1 h
      obtain ⟨hfits, rfl⟩ := Coord.add_eq_ok_iff.1 hmapped
      obtain rfl := Checked.pure_eq_ok.1 h
      exact ⟨by rw [if_pos hthreshold], fun _ _ => hfits⟩
    · next hthreshold =>
      obtain ⟨mapped, hmapped, h⟩ := Checked.bind_eq_ok.1 h
      obtain rfl := Checked.pure_eq_ok.1 hmapped
      obtain rfl := Checked.pure_eq_ok.1 h
      exact ⟨by rw [if_neg hthreshold], fun _ ht => absurd ht hthreshold⟩

theorem between_eq_ok (h : between old anchor target axis = .ok s) :
    s = ⟨old.near axis, target.near axis - old.near axis, target.extent axis - old.extent axis,
      anchor.far axis,
      anchor.far axis + (target.near axis - old.near axis) + (target.extent axis - old.extent axis),
      target.near axis, target.far axis⟩ := by
  obtain ⟨shift, hshift, h⟩ := Checked.bind_eq_ok.1 h
  obtain ⟨growth, hgrowth, h⟩ := Checked.bind_eq_ok.1 h
  obtain ⟨moved, hmoved, h⟩ := Checked.bind_eq_ok.1 h
  obtain ⟨limit, hlimit, h⟩ := Checked.bind_eq_ok.1 h
  obtain ⟨-, rfl⟩ := Coord.sub_eq_ok_iff.1 hshift
  obtain ⟨-, rfl⟩ := Coord.sub_eq_ok_iff.1 hgrowth
  obtain ⟨-, rfl⟩ := Coord.add_eq_ok_iff.1 hmoved
  obtain ⟨-, rfl⟩ := Coord.add_eq_ok_iff.1 hlimit
  exact (Checked.pure_eq_ok.1 h).symm

section

variable (h : between old anchor target axis = .ok s)
include h

theorem image_near : s.image (old.near axis) = target.near axis := by
  obtain rfl := between_eq_ok h
  exact if_pos (Int.le_refl _)

theorem image_far (hold : old.Solid) (hanchor : anchor.far axis ≤ old.far axis)
    (hfar : target.far axis = target.near axis + target.extent axis) (hextent : 0 ≤ target.extent axis) :
    s.image (old.far axis) = target.far axis := by
  obtain rfl := between_eq_ok h
  have hlt := hold.near_lt_far axis
  have hold := hold.far axis
  unfold image
  simp only [if_neg (Int.not_le.2 hlt), if_pos hanchor]
  omega

theorem image_mono {a b : Int} (hab : a ≤ b) : s.image a ≤ s.image b := by
  obtain rfl := between_eq_ok h
  simp only [image]
  by_cases hnear : a ≤ old.near axis
  · rw [if_pos hnear]
    split
    · exact Int.le_refl _
    · exact Int.le_max_left ..
  · rw [if_neg hnear, if_neg fun hb => hnear (Int.le_trans hab hb)]
    by_cases hthreshold : anchor.far axis ≤ a
    · rw [if_pos hthreshold, if_pos (Int.le_trans hthreshold hab)]
      omega
    · rw [if_neg hthreshold]
      -- The limit keeps an edge before the threshold behind one from there on.
      split
      · omega
      · omega

theorem image_within (hle : target.near axis ≤ target.far axis) (edge : Int) :
    target.near axis ≤ s.image edge ∧ s.image edge ≤ target.far axis := by
  obtain rfl := between_eq_ok h
  simp only [image]
  split
  · omega
  · omega

end

def along (x y : Stretch) : Axis → Stretch
  | .x => x
  | .y => y

theorem exists_map_edge {x y : Stretch} {r b : Rect} (h : x.mapRect y r = .ok b) (axis : Axis) (side : Side) :
    ∃ v, (along x y axis).map (r.edge axis side) = .ok v := by
  obtain ⟨left, hleft, h⟩ := Checked.bind_eq_ok.1 h
  obtain ⟨top, htop, h⟩ := Checked.bind_eq_ok.1 h
  obtain ⟨right, hright, h⟩ := Checked.bind_eq_ok.1 h
  obtain ⟨bottom, hbottom, -⟩ := Checked.bind_eq_ok.1 h
  cases axis <;> cases side
  · exact ⟨left, hleft⟩
  · exact ⟨right, hright⟩
  · exact ⟨top, htop⟩
  · exact ⟨bottom, hbottom⟩

theorem mapRect_eq_ok {x y : Stretch} {r b : Rect} (h : x.mapRect y r = .ok b)
    (hordered : ∀ axis, (along x y axis).image (r.near axis) ≤ (along x y axis).image (r.far axis))
    (hfits : ∀ axis side, Coord.Fits ((along x y axis).image (r.edge axis side))) :
    (∀ axis side, b.edge axis side = (along x y axis).image (r.edge axis side)) ∧ b.Sharp := by
  obtain ⟨left, hleft, h⟩ := Checked.bind_eq_ok.1 h
  obtain ⟨top, htop, h⟩ := Checked.bind_eq_ok.1 h
  obtain ⟨right, hright, h⟩ := Checked.bind_eq_ok.1 h
  obtain ⟨bottom, hbottom, h⟩ := Checked.bind_eq_ok.1 h
  obtain ⟨rfl, -⟩ := map_eq_ok hleft
  obtain ⟨rfl, -⟩ := map_eq_ok htop
  obtain ⟨rfl, -⟩ := map_eq_ok hright
  obtain ⟨rfl, -⟩ := map_eq_ok hbottom
  obtain ⟨⟨hx, hy⟩, ⟨hr, hb⟩, ⟨hwidth, hheight⟩, hfits', hproper⟩ := Rect.ofEdges_eq_ok h (hordered .x)
    (hordered .y) (hfits .x .near) (hfits .y .near) (hfits .x .far) (hfits .y .far)
  constructor
  · intro axis side
    cases axis <;> cases side
    · exact hx
    · exact hr
    · exact hy
    · exact hb
  · refine Rect.sharp_iff.2 ⟨⟨hfits', hproper⟩, ?_, ?_⟩
    · omega
    · omega

/-- A rectangle with its edges in order gets those that they are mapped to, uncut. -/
theorem mapRect_edges {x y : Stretch} {r b : Rect}
    (hbetween : ∀ axis, between old anchor target axis = .ok (along x y axis)) (htarget : target.Fits)
    (hordered : ∀ axis, target.near axis ≤ target.far axis) (hr : r.Fits ∧ r.IsProper) (h : x.mapRect y r = .ok b) :
    (∀ axis side, b.edge axis side = (along x y axis).image (r.edge axis side)) ∧ b.Sharp := by
  refine mapRect_eq_ok h (fun axis => image_mono (hbetween axis) (Rect.near_le_far hr.1 hr.2 axis)) fun axis side => ?_
  have hwithin := image_within (hbetween axis) (hordered axis) (r.edge axis side)
  exact (htarget.near axis).between (Rect.fits_far target axis) hwithin.1 hwithin.2

section

variable {x y : Stretch} {rects bs : List Rect}
  (hbetween : ∀ axis, between old anchor target axis = .ok (along x y axis))
  (hanchor : ∀ axis, anchor.far axis ≤ old.far axis) (hold : old.Solid) (ht : old.Tile rects)
  (hmap : List.Forall₂ (fun r b => x.mapRect y r = .ok b) rects bs)
include hbetween hanchor hold ht hmap

/-- Some region ends where the container does, so the target's far edges are mapped edges. -/
theorem solid_target (htarget : target.Fits) (hextent : ∀ axis, 0 < target.extent axis) : target.Solid := by
  refine ⟨htarget, hextent, fun axis => ?_⟩
  obtain ⟨r, hr, hend⟩ := ht.exists_edge hold axis .far
  obtain ⟨i, hi, rfl⟩ := List.getElem_of_mem hr
  obtain ⟨b, -, hb⟩ := forall₂_of_getElem? hmap (List.getElem?_eq_getElem hi)
  obtain ⟨v, hv⟩ := exists_map_edge hb axis .far
  have hfits := (map_eq_ok hv).2
  change rects[i].edge axis .far = old.far axis at hend
  rw [between_eq_ok (hbetween axis), hend] at hfits
  have hspan := hfits (hold.near_lt_far axis) (hanchor axis)
  have hends := hold.far axis
  have hsum : old.far axis + (target.near axis - old.near axis) + (target.extent axis - old.extent axis) =
      target.near axis + target.extent axis := by omega
  rw [hsum] at hspan
  rw [Rect.far_eq, Coord.saturate_of_fits hspan]

theorem mapRects_tile (hsolid : target.Solid) (hrects : ∀ r ∈ rects, r.Fits) :
    (∀ b ∈ bs, b.Sharp) ∧ target.Tile bs := by
  have hordered := fun axis => Int.le_of_lt (hsolid.near_lt_far axis)
  have hwithin := fun axis => image_within (hbetween axis) (hordered axis)
  have hproper : ∀ r ∈ rects, r.Fits ∧ r.IsProper := fun r hr => ⟨hrects r hr, (ht.1 r hr).1⟩
  have hmapped := ((List.forall₂_and_left _ _).2 ⟨hproper, hmap⟩).imp fun r b h =>
    mapRect_edges hbetween hsolid.fits hordered h.1 h.2
  have hsharp : ∀ b ∈ bs, b.Sharp := by
    intro b hb
    obtain ⟨r, -, -, h⟩ := forall₂_of_mem hmapped hb
    exact h
  refine ⟨hsharp, ?_⟩
  apply ht.carry_both ⟨hold.fits, hold.isProper⟩ hrects _ (hmapped.imp fun r b h => h.1) fun b hb =>
    ⟨(hsharp b hb).fits, (hsharp b hb).proper⟩
  · intro b hb axis
    obtain ⟨r, -, hedges, -⟩ := forall₂_of_mem hmapped hb
    have hnear : b.near axis = _ := hedges axis .near
    have hfar : b.far axis = _ := hedges axis .far
    rw [hnear, hfar]
    exact ⟨(hwithin axis _).1, (hwithin axis _).2⟩
  · intro axis side
    cases side
    · exact (image_near (hbetween axis)).symm
    · exact (image_far (hbetween axis) hold (hanchor axis) (hsolid.far axis)
        (Int.le_of_lt (hsolid.extent axis))).symm

end

end Stretch

namespace Layout

variable {W : Type} {l l' : Layout W} {target : Rect}

theorem anchorBounds?_far_le (ht : l.bounds.Tile l.store.bounds) (axis : Axis) :
    (l.anchorBounds?.getD l.bounds).far axis ≤ l.bounds.far axis := by
  cases hanchor : l.anchorBounds? with
  | none => exact Int.le_refl _
  | some anchor => exact ((Rect.encloses_iff axis _ _).1 (ht.1 anchor (mem_of_anchorBounds? hanchor)).2).1.2

theorem stretch_moved (h : l.stretch target = .ok l') (htarget : target.Fits)
    (hordered : ∀ axis, target.near axis ≤ target.far axis)
    (hrects : ∀ r ∈ l.store.bounds, r.Fits ∧ r.IsProper) :
    l'.bounds = target ∧ (∀ b ∈ l'.store.bounds, b.Sharp) ∧ ∀ axis, ∃ s,
      Stretch.between l.bounds (l.anchorBounds?.getD l.bounds) target axis = .ok s ∧
        Rect.MovedWith axis s.image l.store.bounds l'.store.bounds ∧
          ∀ r ∈ l.store.bounds, ∀ side, ∃ v, s.map (r.edge axis side) = .ok v := by
  obtain ⟨x, y, rects, hx, hy, hmap, rfl⟩ := stretch_eq_ok h
  have hmap := Checked.forall₂_of_mapM hmap
  have hbetween : ∀ axis, Stretch.between l.bounds (l.anchorBounds?.getD l.bounds) target axis =
      .ok (Stretch.along x y axis) := Axis.rec hx hy
  have hmapped := ((List.forall₂_and_left _ _).2 ⟨hrects, hmap⟩).imp fun r b h =>
    Stretch.mapRect_edges hbetween htarget hordered h.1 h.2
  have hplaced : (l.store.place rects).bounds = rects := by
    apply RegionStore.bounds_place
    rw [← hmap.length_eq, RegionStore.bounds, List.length_map]
  refine ⟨rfl, ?_⟩
  rw [hplaced]
  refine ⟨fun b hb => ?_, fun axis => ⟨_, hbetween axis, hmapped.imp fun r b h => h.1 axis, fun r hr side => ?_⟩⟩
  · obtain ⟨r, -, -, hsharp⟩ := forall₂_of_mem hmapped hb
    exact hsharp
  · obtain ⟨i, hi⟩ := List.getElem?_of_mem hr
    obtain ⟨b, -, hb⟩ := forall₂_of_getElem? hmap hi
    exact Stretch.exists_map_edge hb axis side

/-- Stretching keeps an exact cover exact. -/
theorem stretch_tile (h : l.stretch target = .ok l') (hold : l.bounds.Solid) (htarget : target.Fits)
    (hextent : ∀ axis, 0 < target.extent axis) (hrects : ∀ r ∈ l.store.bounds, r.Fits)
    (ht : l.bounds.Tile l.store.bounds) :
    l'.bounds = target ∧ target.Solid ∧ (∀ b ∈ l'.store.bounds, b.Sharp) ∧ target.Tile l'.store.bounds := by
  obtain ⟨x, y, rects, hx, hy, hmap, rfl⟩ := stretch_eq_ok h
  have hmap := Checked.forall₂_of_mapM hmap
  have hanchor := anchorBounds?_far_le ht
  have hbetween : ∀ axis, Stretch.between l.bounds (l.anchorBounds?.getD l.bounds) target axis =
      .ok (Stretch.along x y axis) := Axis.rec hx hy
  have hsolid := Stretch.solid_target hbetween hanchor hold ht hmap htarget hextent
  have hplaced : (l.store.place rects).bounds = rects := by
    apply RegionStore.bounds_place
    rw [← hmap.length_eq, RegionStore.bounds, List.length_map]
  refine ⟨rfl, hsolid, ?_⟩
  rw [hplaced]
  exact Stretch.mapRects_tile hbetween hanchor hold ht hmap hsolid hrects

theorem wide_fits (h : target.Fits) :
    Rect.Fits ⟨target.x, target.y, max (max target.width 0) 1, max (max target.height 0) 1⟩ := by
  obtain ⟨hx, hy, hw, hh⟩ := h
  refine ⟨hx, hy, ?_, ?_⟩
  · unfold Coord.Fits at hw ⊢
    simp only
    omega
  · unfold Coord.Fits at hh ⊢
    simp only
    omega

theorem wide_isProper (target : Rect) :
    Rect.IsProper ⟨target.x, target.y, max (max target.width 0) 1, max (max target.height 0) 1⟩ :=
  ⟨Int.le_trans Int.one_nonneg (Int.le_max_right _ _), Int.le_trans Int.one_nonneg (Int.le_max_right _ _)⟩

theorem stretch_wide (h : l.stretch ⟨target.x, target.y, max (max target.width 0) 1,
      max (max target.height 0) 1⟩ = .ok l') (hbox : l.bounds.Solid) (htarget : target.Fits)
    (hrects : ∀ r ∈ l.store.bounds, r.Fits) (ht : l.bounds.Tile l.store.bounds) :
    l'.bounds.Solid ∧ (∀ b ∈ l'.store.bounds, b.Sharp) ∧ l'.bounds.Tile l'.store.bounds ∧
      ∀ axis, target.extent axis ≤ l'.bounds.extent axis := by
  have hpos (a : Int) : 0 < max a 1 := Int.lt_of_lt_of_le Int.one_pos (Int.le_max_right a 1)
  have hwide (a : Int) : a ≤ max (max a 0) 1 := by omega
  obtain ⟨hbounds, hsolid, hsharp, htile⟩ :=
    stretch_tile h hbox (wide_fits htarget) (Axis.rec (hpos _) (hpos _)) hrects ht
  rw [hbounds]
  exact ⟨hsolid, hsharp, htile, Axis.rec (hwide _) (hwide _)⟩

theorem resize_of_classic {o : Outcome W Rect} (hclassic : l.hasSizeRange = false) (hbox : l.bounds.Solid)
    (ht : l.bounds.Tile l.store.bounds) (ho : l.resize target = .ok o) :
    (Rect.clamped target.x target.y target.width target.height = l.bounds ∧ o.layout = l) ∨
      l.stretch ⟨target.x, target.y, max (max target.width 0) 1, max (max target.height 0) 1⟩ =
        .ok o.layout := by
  cases resize_eq_ok ho with
  | same hsame hlayout => exact .inl ⟨hsame, hlayout⟩
  | bare hempty => exact absurd hempty (regions_ne_nil hbox ht)
  | followed followed findings hranged =>
    rw [hclassic] at hranged
    cases hranged
  | stretched _ hstretch => exact .inr hstretch

/-- Without a size range, a resize keeps an exact cover exact, whatever it asks for. -/
theorem resize_tile {o : Outcome W Rect} (hclassic : l.hasSizeRange = false) (hbox : l.bounds.Solid)
    (hsharp : ∀ r ∈ l.store.bounds, r.Sharp) (ht : l.bounds.Tile l.store.bounds) (htarget : target.Fits)
    (ho : l.resize target = .ok o) :
    o.layout.bounds.Solid ∧ (∀ b ∈ o.layout.store.bounds, b.Sharp) ∧
      o.layout.bounds.Tile o.layout.store.bounds ∧ ∀ axis, target.extent axis ≤ o.layout.bounds.extent axis := by
  rcases resize_of_classic hclassic hbox ht ho with ⟨hsame, hlayout⟩ | hstretch
  · rw [hlayout]
    refine ⟨hbox, hsharp, ht, fun axis => ?_⟩
    rw [← hsame, Rect.extent_clamped]
    exact Int.le_max_left _ _
  · exact stretch_wide hstretch hbox htarget (fun r hr => (hsharp r hr).fits) ht

end Layout

end Mosaic
