import Mosaic.Proofs.Cascade.Optimal
import Mosaic.Proofs.Layout.Stages
import Mosaic.Proofs.Layout.Undersized

/-! How large a container gets where the regions have their minimums. Along an axis on which it shrinks it takes
the extent of the target, or the least one that its far line can be pushed back to. An anchor gives way first, and
may thereby bring lines together that could have gone separate ways: then the container stays larger. -/
namespace Mosaic.Layout

variable {W : Type} {l given : Layout W} {range : SizeRange} {box target limits : Rect} {axis : Axis}

/-- Edges of regions that have come to lie on one line did so before. -/
def KeepsApart (l given : Layout W) (axis : Axis) : Prop :=
  ∀ p ∈ l.store.bounds.zip given.store.bounds, ∀ q ∈ l.store.bounds.zip given.store.bounds, ∀ side other,
    p.2.edge axis side = q.2.edge axis other → p.1.edge axis side = q.1.edge axis other

instance (l given : Layout W) (axis : Axis) : Decidable (l.KeepsApart given axis) :=
  decidable_of_iff (∀ p ∈ l.store.bounds.zip given.store.bounds, ∀ q ∈ l.store.bounds.zip given.store.bounds,
      ∀ side ∈ [Side.near, .far], ∀ other ∈ [Side.near, .far],
        p.2.edge axis side = q.2.edge axis other → p.1.edge axis side = q.1.edge axis other) <| by
    have hall : ∀ side, side ∈ [Side.near, .far] := Side.rec (by decide) (by decide)
    simp only [KeepsApart, hall, true_implies]

theorem KeepsApart.injOn (h : l.KeepsApart given axis) {m : Int → Int}
    (hm : Rect.MovedWith axis m l.store.bounds given.store.bounds) : Set.InjOn m ((l.scene limits).lines axis) := by
  rintro _ ⟨r, hr, side, rfl⟩ _ ⟨s, hs, other, rfl⟩ heq
  obtain ⟨b, hb, hrb⟩ := hm.exists_mem_zip hr
  obtain ⟨c, hc, hsc⟩ := hm.exists_mem_zip hs
  refine h (r, b) hb (s, c) hc side other ?_
  rw [hrb, hsc]
  exact heq

theorem keepsApart_of_injective {m : Int → Int} (hm : Rect.MovedWith axis m l.store.bounds given.store.bounds)
    (hinjective : Function.Injective m) : l.KeepsApart given axis := by
  obtain ⟨-, hzip⟩ := List.forall₂_iff_zip.1 hm
  rintro ⟨r, b⟩ hrb ⟨s, c⟩ hsc side other heq
  have hsides := hzip hrb side
  have hothers := hzip hsc other
  exact hinjective (hsides.symm.trans (heq.trans hothers))

/-- The anchor's giving way to the target brings no lines together. An anchor that ends where the container does
has nothing to give. -/
def GivesWayFreely (l : Layout W) (target : Rect) (axis : Axis) : Prop :=
  (∀ anchor, l.anchorBounds? = some anchor → anchor.far axis = l.bounds.far axis) ∨
    ∀ given, l.giveWay (.clamped target.x target.y target.width target.height) = .ok given → l.KeepsApart given axis

namespace Course

variable {o : Outcome W Rect} {shifted : Layout W} {growth : Size} {inward corner outward : Aim}
  {first third : Outcome W Unit} {second : Outcome W Size}
  (h : Course l box target o shifted limits growth inward corner outward first third second)
  (hnear : ∀ axis, box.near axis = l.bounds.near axis)
include h

theorem keepsApart (hbox : box.Solid)
    (hend : ∀ anchor, l.anchorBounds? = some anchor → anchor.far axis = box.far axis) :
    l.KeepsApart first.layout axis := by
  obtain ⟨achieved, m, hm⟩ := commitAim_drawn h.fits h.first_eq axis
  refine keepsApart_of_injective ((h.edges axis).trans hm.edges) ?_
  have hnone : inward.held.along axis = none := by
    rcases aimInward_eq_ok h.inward_eq axis with hnone | ⟨anchor', hanchor', -, -, hbefore, -⟩
    · exact hnone
    · obtain ⟨anchor, hanchor, hmoved⟩ := h.moved.rearranged.anchor_source (h.edges axis) hanchor'
      have hfar : anchor'.far axis = anchor.far axis + _ := hmoved .far
      rw [hfar, hend anchor hanchor, h.far_moved hbox axis] at hbefore
      exact absurd hbefore (Int.lt_irrefl _)
  rw [hm.eq_id (by rw [Scene.movable, hnone]; rfl)]
  exact add_left_injective _

include hnear

theorem recast (axis : Axis) : (l.scene l.bounds).Recast axis (· + (target.near axis - box.near axis))
    (target.near axis - box.near axis) (shifted.scene limits) where
  mins := h.moved.rearranged.mins
  near := by
    change limits.near axis = l.bounds.near axis + _
    rw [h.bounding.near, near_movedTo, hnear]
    omega
  moved := h.edges axis
  apart := (add_left_injective _).injOn

theorem recast_back (axis : Axis) : (shifted.scene limits).Recast axis (· + -(target.near axis - box.near axis))
    (-(target.near axis - box.near axis)) (l.scene l.bounds) where
  mins := h.moved.rearranged.mins.symm
  near := by
    have hthere : limits.near axis = l.bounds.near axis + (target.near axis - box.near axis) :=
      (h.recast hnear axis).near
    change l.bounds.near axis = limits.near axis + _
    omega
  moved := (h.edges axis).flip.imp fun b r hrb side => by
    rw [hrb]
    exact (add_neg_cancel_right _ _).symm
  apart := (add_left_injective _).injOn

theorem ample_moved (hample : (l.scene l.bounds).Ample axis) : (shifted.scene limits).Ample axis := by
  intro i b hb
  have hrecast := h.recast hnear axis
  obtain ⟨r, hr, hrb⟩ := forall₂_of_getElem?_right hrecast.moved hb
  have hkept := hample i r hr
  have hfirst : b.near axis = r.near axis + _ := hrb .near
  have hlast : b.far axis = r.far axis + _ := hrb .far
  rw [hrecast.minAlong]
  omega

section

variable (hbox : box.Solid) (hsharp : ∀ r ∈ l.store.bounds, r.Sharp) (ht : box.Tile l.store.bounds)
  (hfits : l.bounds.Fits) (hample : (l.scene l.bounds).Ample axis)
include hbox hsharp ht hfits hample

theorem feasible_iff {g : Int} (hg : g < 0) :
    (l.scene l.bounds).Feasible ⟨axis, .far, box.far axis, box.far axis + g⟩ ↔
      (shifted.scene limits).Feasible
        ⟨axis, .far, (movedTo box target).far axis, (movedTo box target).far axis + g⟩ := by
  have hs : (l.scene l.bounds).Fits := Scene.fits_of_sharp hsharp hfits
  have hmoved := h.far_moved hbox axis
  constructor
  · intro hf
    obtain ⟨r, hr, hfar⟩ := ht.exists_far hbox axis
    have hthere := (h.recast hnear axis).feasible hs h.fits hsharp h.moved.woven.sharp hample
      (fun r hr => hnear axis ▸ ((ht.1 r hr).2.edges axis).1) ⟨r, hr, .far, hfar⟩ (by omega) hf
    rwa [add_right_comm, ← hmoved] at hthere
  · intro hf
    obtain ⟨r, hr, hfar⟩ := h.tile.exists_far h.solid axis
    have hthere := (h.recast_back hnear axis).feasible h.fits hs h.moved.woven.sharp hsharp
      (h.ample_moved hnear hample) (fun r hr => (h.bounding.near axis).symm ▸ ((h.tile.1 r hr).2.edges axis).1)
      ⟨r, hr, .far, hfar⟩ (by omega) hf
    rwa [add_right_comm, hmoved, add_neg_cancel_right] at hthere

/-- Along an axis on which the container is to shrink, it is found to be able to shrink to the extent of the target,
or to the least one. -/
theorem growth_eq {least : Int}
    (hleast : (l.scene l.bounds).Reaches ⟨axis, .far, box.far axis, l.bounds.near axis⟩ least)
    (hshrinks : target.extent axis < box.extent axis) :
    growth.along axis = max (target.extent axis - box.extent axis) (least - box.far axis) := by
  have hprobed := (h.found axis).2 (by omega)
  have hreached := hleast.eq_max (hprobed.down (by omega)) (by omega) fun g hg =>
    h.feasible_iff hnear hbox hsharp ht hfits hample hg
  omega

theorem gained_eq (hapart : l.KeepsApart first.layout axis) (hshrinks : growth.along axis < 0) :
    second.value.along axis = growth.along axis := by
  have hs : (l.scene l.bounds).Fits := Scene.fits_of_sharp hsharp hfits
  obtain ⟨hflow, -⟩ := h.first_reflow
  have hs' := h.fits_first
  obtain ⟨achieved, m, hm⟩ := commitAim_drawn h.fits h.first_eq axis
  have hrecast : (l.scene l.bounds).Recast axis (m ∘ (· + (target.near axis - box.near axis)))
      (target.near axis - box.near axis) (first.layout.scene limits) := by
    have hmoved := (h.edges axis).trans hm.edges
    exact ⟨hflow.rearranged.mins.trans h.moved.rearranged.mins, (h.recast hnear axis).near, hmoved,
      hapart.injOn hmoved⟩
  -- What was found to be feasible is so in the layout that the anchor has left.
  have hfeasible : (first.layout.scene limits).Feasible
      ⟨axis, .far, (movedTo box target).far axis, (movedTo box target).far axis + growth.along axis⟩ := by
    have hasked : target.extent axis - box.extent axis < 0 := by
      refine Int.not_le.1 fun hgrows => ?_
      have hkept := (h.found axis).1 hgrows
      omega
    have hreached := ((h.found axis).2 hasked).down (by omega)
    have hthere := (h.feasible_iff hnear hbox hsharp ht hfits hample hshrinks).2
      (hreached.moved (by simp only; omega)).2
    obtain ⟨r, hr, hfar⟩ := ht.exists_far hbox axis
    have hfirst := hrecast.feasible hs hs' hsharp hflow.woven.sharp hample
      (fun r hr => hnear axis ▸ ((ht.1 r hr).2.edges axis).1) ⟨r, hr, .far, hfar⟩ (by omega) hthere
    have hend : m (limits.far axis) = limits.far axis :=
      (hm.moved.fixed h.fits fun c hc => (Scene.movable_eq_some hc).2).far
    rw [h.bounding.still axis (Int.le_of_lt hshrinks), h.far_moved hbox axis] at hend
    rwa [Function.comp_apply, hend, add_right_comm, ← h.far_moved hbox axis] at hfirst
  obtain ⟨achieved', m', hm', hvalue⟩ := commitCorner_drawn hs' hflow.woven.sharp h.corner_at h.second_eq axis
  rcases h.corner_at axis with ⟨-, hzero⟩ | ⟨hheld, hgoal, -⟩
  · omega
  · obtain ⟨reached, hreached, hprobed, -⟩ := hm'.of_some hheld
    rw [hgoal] at hprobed
    have hfull : reached = (movedTo box target).far axis + growth.along axis :=
      (hprobed.down (by omega)).eq_goal
        (by simpa [Push.dir, Side.inward] using Int.le_of_lt hshrinks) hfeasible
    rw [hvalue, hreached, grown, hfull, add_sub_cancel_left]

/-- How much the far line gains: what is asked for where the box does not shrink, and elsewhere no less than the least
that there is, which is what it gains where the anchor has brought no lines together. -/
theorem gained_least {least : Int}
    (hleast : (l.scene l.bounds).Reaches ⟨axis, .far, box.far axis, l.bounds.near axis⟩ least) :
    (box.extent axis ≤ target.extent axis → second.value.along axis = target.extent axis - box.extent axis) ∧
      (target.extent axis < box.extent axis →
        max (target.extent axis - box.extent axis) (least - box.far axis) ≤ second.value.along axis ∧
          (l.KeepsApart first.layout axis →
            second.value.along axis = max (target.extent axis - box.extent axis) (least - box.far axis))) := by
  obtain ⟨hasked, -⟩ := h.found axis
  obtain ⟨hgained, hback⟩ := h.gained axis
  refine ⟨fun hgrows => ?_, fun hshrinks => ?_⟩
  · have hkept := hasked (by omega)
    exact (hgained (by omega)).trans hkept
  · have hahead : least ≤ box.far axis := by
      simpa [Push.dir, Side.inward] using hleast.ahead
    have hgrowth := h.growth_eq hnear hbox hsharp ht hfits hample hleast hshrinks
    by_cases hstill : growth.along axis < 0
    · exact ⟨by omega, fun hapart => (h.gained_eq hnear hbox hsharp ht hfits hample hapart hstill).trans hgrowth⟩
    · have hkept := hgained (by omega)
      exact ⟨by omega, fun _ => by omega⟩

end

end Course

section

variable (h : Occupied range l) (hroom : HasMinimums range l) (htarget : target.Fits)
  (hmoved : ∀ axis, Coord.Fits (l.bounds.far axis + (target.near axis - l.bounds.near axis)))
include h hroom htarget hmoved

/-- The container takes the extent of the target or the least one that there is, unless the anchor has brought
lines together. -/
theorem extent_resize {o : Outcome W Rect} (ho : l.resize target = .ok o) {least : Int}
    (hleast : (l.scene l.bounds).Reaches ⟨axis, .far, l.bounds.far axis, l.bounds.near axis⟩ least) :
    o.value.near axis = target.near axis ∧
      (l.bounds.extent axis ≤ target.extent axis → o.value.extent axis = target.extent axis) ∧
      max (max (target.extent axis) 0) (least - l.bounds.near axis) ≤ o.value.extent axis ∧
      (l.GivesWayFreely target axis →
        o.value.extent axis = max (max (target.extent axis) 0) (least - l.bounds.near axis)) := by
  have hclamped := Rect.extent_clamped target axis
  have hnear := Rect.near_clamped target axis
  have hnonneg := h.extent_pos axis
  have hahead : least ≤ l.bounds.far axis := by
    simpa [Push.dir, Side.inward] using hleast.ahead
  have hspan := Rect.near_le_far h.container h.proper axis
  by_cases hempty : l.store.regions = []
  · have hfeasible : (l.scene l.bounds).Feasible ⟨axis, .far, l.bounds.far axis, l.bounds.near axis⟩ := by
      refine .intro (Int.le_refl _) fun i r hc => absurd hc.get ?_
      simp [scene, RegionStore.bounds, hempty]
    have hreached := hleast.eq_goal (by simpa [Push.dir, Side.inward] using hspan) hfeasible
    simp only at hreached
    rw [(resize_empty hempty ho).1, hclamped]
    exact ⟨hnear, by omega, by omega, fun _ => by omega⟩
  have hbox := Rect.solid_trimmed h.container (h.span hempty)
  have hwhole := Rect.span_le_extent h.container h.proper axis
  rcases h.resizes (h.span hempty) htarget hmoved ho with ⟨hsame, -, hvalue⟩ |
    ⟨followed, shifted, limits, growth, inward, corner, outward, first, third, second, course, -, hvalue⟩
  · rw [hsame] at hclamped hnear
    rw [hvalue, hclamped]
    refine ⟨hnear, fun hgrows => ?_, ?_, fun _ => ?_⟩
    all_goals omega
  · have hanswer : o.value = stretched (movedTo l.bounds.trimmed
        (.clamped target.x target.y target.width target.height)) second.value := by
      rw [hvalue, course.value_eq, course.layout_eq]
    have htrimmed := Rect.extent_trimmed l.bounds axis
    have hextent : o.value.extent axis = l.bounds.trimmed.extent axis + second.value.along axis := by
      rw [hanswer, extent_stretched, extent_movedTo]
    refine ⟨by rw [hanswer, near_stretched, near_movedTo, hnear], ?_⟩
    rw [← Rect.far_trimmed] at hleast
    obtain ⟨hforth, hback⟩ := course.gained_least (Rect.near_trimmed l.bounds) hbox h.sharp h.tile.trimmed
      h.container (h.ample hroom axis) hleast
    rw [Rect.far_trimmed, hclamped] at hback
    rw [hclamped] at hforth
    by_cases hshrinks : max (target.extent axis) 0 < l.bounds.trimmed.extent axis
    · obtain ⟨hleast, hexact⟩ := hback hshrinks
      refine ⟨fun hgrows => by omega, by omega, fun hfreely => ?_⟩
      have hapart : l.KeepsApart first.layout axis := by
        rcases hfreely with hend | hgiven
        · exact course.keepsApart hbox fun anchor hanchor => by rw [hend anchor hanchor, Rect.far_trimmed]
        · exact hgiven first.layout course.giveWay_eq
      have hgained := hexact hapart
      omega
    · have hgained := hforth (by omega)
      exact ⟨fun hgrows => by omega, by omega, fun _ => by omega⟩

/-- The container begins where the target does. Along each axis it takes the extent of the target where that is not
less than its own, and elsewhere no less than the target or the least extent that a probe of its far line allows:
exactly the larger of these where the anchor gives way freely. Without an anchor it is no larger than with one. -/
theorem resize_extent {o : Outcome W Rect} (ho : l.resize target = .ok o) (axis : Axis) :
    o.value.near axis = target.near axis ∧
      (l.bounds.extent axis ≤ target.extent axis → o.value.extent axis = target.extent axis) ∧
      (∀ least trace, (l.scene l.bounds).probeLine axis (l.bounds.far axis) (l.bounds.near axis) {} =
          .ok (least, trace) →
        max (max (target.extent axis) 0) (least - l.bounds.near axis) ≤ o.value.extent axis ∧
          (l.GivesWayFreely target axis →
            o.value.extent axis = max (max (target.extent axis) 0) (least - l.bounds.near axis))) ∧
      ∀ o', l.clearAnchor.resize target = .ok o' → o'.value.near axis = o.value.near axis ∧
        o'.value.extent axis ≤ o.value.extent axis ∧
          (l.GivesWayFreely target axis → o'.value.extent axis = o.value.extent axis) := by
  have hs : (l.scene l.bounds).Fits := Scene.fits_of_sharp h.sharp h.container
  obtain ⟨furthest, hfurthest⟩ :=
    (l.scene l.bounds).exists_reaches ⟨axis, .far, l.bounds.far axis, l.bounds.near axis⟩
  obtain ⟨hnear, hgrows, hleast, hfreely⟩ := extent_resize h hroom htarget hmoved ho hfurthest
  refine ⟨hnear, hgrows, fun least trace hprobe => ?_, fun o' ho' => ?_⟩
  · obtain ⟨hprobed, -⟩ :=
      Scene.probeLine_probed hs (fun _ => Scene.clear_of_sharp h.sharp _) (Trace.sound_empty _) hprobe
    exact (extent_resize h hroom htarget hmoved ho (hprobed.back (Rect.near_le_far h.container h.proper axis))).2.2
  · have hcleared : Occupied range l.clearAnchor :=
      ⟨⟨h.sizeRange, h.minimums, h.container, h.extents, h.regions, h.tile⟩, h.solid⟩
    obtain ⟨hnear', -, -, hfreely'⟩ := extent_resize hcleared hroom htarget hmoved ho' hfurthest
    have hnone : l.clearAnchor.GivesWayFreely target axis := .inl fun anchor hanchor => by cases hanchor
    have hexact := hfreely' hnone
    exact ⟨hnear'.trans hnear.symm, hexact.trans_le hleast, fun hfree => hexact.trans (hfreely hfree).symm⟩

end

/-- Three columns with equal minimums, of which the middle one is the anchor. -/
def shelves : Layout Unit where
  settings := { sizeRange := some ⟨10, 4⟩ }
  bounds := ⟨0, 0, 60, 20⟩
  store := ⟨[{ id := ⟨1⟩, widget := (), bounds := ⟨0, 0, 20, 20⟩ },
    { id := ⟨2⟩, widget := (), bounds := ⟨20, 0, 20, 20⟩ }, { id := ⟨3⟩, widget := (), bounds := ⟨40, 0, 20, 20⟩ }], 4⟩
  anchor := some ⟨2⟩

/-- The container is asked to be smaller than the minimums of the columns. -/
theorem resize_extent_shelves : ∃ o trace, shelves.resize ⟨5, 0, 25, 20⟩ = .ok o ∧
    (shelves.scene shelves.bounds).probeLine .x 60 0 {} = .ok (30, trace) ∧
    o.value.extent .x = max (max 25 0) (30 - 0) := by
  obtain ⟨o, ho⟩ : ∃ o, shelves.resize ⟨5, 0, 25, 20⟩ = .ok o := ⟨_, rfl⟩
  obtain ⟨trace, hprobe⟩ : ∃ trace, (shelves.scene shelves.bounds).probeLine .x 60 0 {} = .ok (30, trace) := ⟨_, rfl⟩
  have hrows : Rect.Tile ⟨20, 0, 40, 20⟩ [⟨20, 0, 20, 20⟩, ⟨40, 0, 20, 20⟩] :=
    Rect.tile_beside .x (by decide) ⟨⟨rfl, rfl⟩, ⟨rfl, rfl⟩⟩ rfl rfl rfl
  have hfirst : shelves.bounds.Tile [⟨0, 0, 20, 20⟩, ⟨20, 0, 40, 20⟩] :=
    Rect.tile_beside .x (by decide) ⟨⟨rfl, rfl⟩, ⟨rfl, rfl⟩⟩ rfl rfl rfl
  have hoccupied : Occupied ⟨10, 4⟩ shelves :=
    ⟨⟨rfl, by decide, by decide, by decide, by decide, (hfirst.perm (.swap ..)).split hrows⟩, by decide⟩
  have hfreely : shelves.GivesWayFreely ⟨5, 0, 25, 20⟩ .x := by
    obtain ⟨given, hgiven, hapart⟩ : ∃ given, shelves.giveWay (.clamped 5 0 25 20) = .ok given ∧
      shelves.KeepsApart given .x := ⟨_, rfl, by decide⟩
    exact .inr fun given' hgiven' => Except.ok.inj (hgiven.symm.trans hgiven') ▸ hapart
  obtain ⟨-, -, hleast, -⟩ :=
    resize_extent hoccupied (by decide) (by decide) (Axis.rec (by decide) (by decide)) ho .x
  exact ⟨o, trace, ho, hprobe, (hleast 30 trace hprobe).2 hfreely⟩

/-- Whether or not there is an anchor, resizes take the extents of the target where the container is to grow, and
elsewhere the larger ones of those and of what a probe allows. Starts are what is asked of the layout and the target
besides. -/
def GoesAsFar (Start : Layout Unit → Rect → Prop) : Prop :=
  ∀ (range : SizeRange) (l : Layout Unit) (target : Rect) (o : Outcome Unit Rect) (axis : Axis) (least : Int)
    (trace : Trace), Furnished range l → HasMinimums range l → target.Fits →
    Start l target → l.resize target = .ok o →
    (l.scene l.bounds).probeLine axis (l.bounds.far axis) (l.bounds.near axis) {} = .ok (least, trace) →
    o.value.extent axis = if l.bounds.extent axis ≤ target.extent axis then target.extent axis
      else max (max (target.extent axis) 0) (least - l.bounds.near axis)

/-- A row of three columns, of which the middle one is the anchor, above a row of two. Where the anchor gives way,
its far line comes to lie where the columns below it meet. -/
def rivals : Layout Unit where
  settings := { sizeRange := some ⟨4, 4⟩ }
  bounds := ⟨0, 0, 60, 20⟩
  store := ⟨[{ id := ⟨1⟩, widget := (), bounds := ⟨0, 0, 20, 10⟩ },
    { id := ⟨2⟩, widget := (), bounds := ⟨0, 10, 30, 10⟩, minSize := some ⟨30, 4⟩ },
    { id := ⟨3⟩, widget := (), bounds := ⟨30, 10, 30, 10⟩ },
    { id := ⟨4⟩, widget := (), bounds := ⟨20, 0, 20, 10⟩, minSize := some ⟨10, 4⟩ },
    { id := ⟨5⟩, widget := (), bounds := ⟨40, 0, 20, 10⟩, minSize := some ⟨20, 4⟩ }], 6⟩
  anchor := some ⟨4⟩

theorem rivals_tile : rivals.bounds.Tile rivals.store.bounds := by
  have hrows : rivals.bounds.Tile [⟨0, 0, 60, 10⟩, ⟨0, 10, 60, 10⟩] :=
    Rect.tile_beside .y (by decide) ⟨⟨rfl, rfl⟩, ⟨rfl, rfl⟩⟩ rfl rfl rfl
  have hupper : Rect.Tile ⟨0, 0, 60, 10⟩ [⟨0, 0, 20, 10⟩, ⟨20, 0, 40, 10⟩] :=
    Rect.tile_beside .x (by decide) ⟨⟨rfl, rfl⟩, ⟨rfl, rfl⟩⟩ rfl rfl rfl
  have hbeside : Rect.Tile ⟨20, 0, 40, 10⟩ [⟨20, 0, 20, 10⟩, ⟨40, 0, 20, 10⟩] :=
    Rect.tile_beside .x (by decide) ⟨⟨rfl, rfl⟩, ⟨rfl, rfl⟩⟩ rfl rfl rfl
  have hlower : Rect.Tile ⟨0, 10, 60, 10⟩ [⟨0, 10, 30, 10⟩, ⟨30, 10, 30, 10⟩] :=
    Rect.tile_beside .x (by decide) ⟨⟨rfl, rfl⟩, ⟨rfl, rfl⟩⟩ rfl rfl rfl
  exact (((hrows.split hupper).split hlower).perm (.swap ..)).split hbeside

/-- An anchor may keep the container larger. A far edge may not be moved past the last coordinate, either, and that
of a region may not be cut off there. -/
theorem not_goesAsFar :
    ¬ GoesAsFar (fun l target => l.bounds.Solid ∧ (∀ r ∈ l.store.bounds, r.Solid) ∧ HasPlace l.bounds target) ∧
    ¬ GoesAsFar (fun l _ => l.anchor = none ∧ l.bounds.Solid ∧ ∀ r ∈ l.store.bounds, r.Solid) ∧
    ¬ GoesAsFar (fun l target => l.anchor = none ∧ l.bounds.Solid ∧ HasPlace l.bounds target) := by
  refine ⟨fun h => ?_, fun h => ?_, fun h => ?_⟩
  · have hfurnished : Furnished ⟨4, 4⟩ rivals := ⟨rfl, by decide, by decide, by decide, by decide, rivals_tile⟩
    have hplace : HasPlace rivals.bounds ⟨0, 0, 45, 20⟩ := ⟨by decide, Axis.rec (by decide) (by decide)⟩
    have hextent := h _ _ ⟨0, 0, 45, 20⟩ _ .x 34 _ hfurnished (by decide) (by decide)
      ⟨by decide, by decide, hplace⟩ rfl rfl
    exact absurd hextent (by decide)
  · have hfurnished : Furnished ⟨4, 4⟩ (laid ⟨0, 0, 300, 300⟩ [⟨0, 0, 300, 300⟩]) :=
      ⟨rfl, by decide, by decide, by decide, by decide, Rect.tile_self (by decide)⟩
    have hextent := h _ _ ⟨2147483640, 0, 4, 300⟩ _ .x 4 _ hfurnished (by decide) (by decide)
      ⟨rfl, by decide, by decide⟩ rfl rfl
    exact absurd hextent (by decide)
  · have hplace : HasPlace (overlong 2147483637).bounds ⟨10, 0, 100, 10⟩ :=
      ⟨by decide, Axis.rec (by decide) (by decide)⟩
    have hfurnished := overlong_furnished (by decide : (1 : Int) ≤ 2147483637)
    have hextent := h _ _ ⟨10, 0, 100, 10⟩ _ .x 2147483647 _ hfurnished (by decide) (by decide)
      ⟨rfl, by decide, hplace⟩ rfl rfl
    exact absurd hextent (by decide)

end Mosaic.Layout
