import Mosaic.Proofs.Cascade.Moderate
import Mosaic.Proofs.Cover.Paved
import Mosaic.Proofs.Layout.Course
import Mosaic.Proofs.Layout.Restore
import Mosaic.Proofs.Layout.Stretch

/-! Moderate layouts: whatever is asked of their lines, and whatever moderate target they are resized to, is answered.
Moved edges stay where those of moderate rectangles are, through all stages of following a target, and what is gained or
lost on the way is at most how far two of them can lie apart. -/
namespace Mosaic

open Checked

/-- How far apart two edges of moderate rectangles can be. -/
def Coord.Apart (v : Int) : Prop := -(2 ^ 28 + 2 ^ 29) ≤ v ∧ v ≤ 2 ^ 28 + 2 ^ 29

theorem Coord.gives_gap {a b : Int} (ha : Coord.Reached a) (hb : Coord.Reached b) :
    Gives (Coord.sub b a) Coord.Apart := by
  unfold Coord.Reached at ha hb
  refine (Coord.gives_sub ?_).imp fun gap _ heq => ?_
  · unfold Coord.Fits
    omega
  · rw [heq]
    unfold Coord.Apart
    omega

theorem Coord.gives_beyond {a v : Int} (ha : Coord.Reached a) (hv : Coord.Apart v) :
    Gives (Coord.add a v) fun _ => True := by
  unfold Coord.Reached at ha
  unfold Coord.Apart at hv
  refine (Coord.gives_add ?_).imp fun _ _ _ => trivial
  unfold Coord.Fits
  omega

namespace Stretch

variable {s x y : Stretch} {old anchor target r : Rect} {axis : Axis}

/-- Edges are not moved further than from one moderate rectangle to another. -/
structure Moderate (s : Stretch) : Prop where
  shift : -2 ^ 29 ≤ s.shift ∧ s.shift ≤ 2 ^ 29
  growth : -2 ^ 28 ≤ s.growth ∧ s.growth ≤ 2 ^ 28
  near : Coord.Reached s.near
  far : Coord.Reached s.far

theorem gives_between (hold : old.Moderate ∧ old.IsProper) (hanchor : Coord.Reached (anchor.far axis))
    (htarget : target.Moderate ∧ target.IsProper) : Gives (between old anchor target axis) Moderate := by
  have hnear := hold.1.near axis
  have hextent := hold.1.extent axis
  have hpos := hold.2.extent_nonneg axis
  have hnear' := htarget.1.near axis
  have hextent' := htarget.1.extent axis
  have hpos' := htarget.2.extent_nonneg axis
  have hends := htarget.1.reached htarget.2
  unfold Coord.Reached at hanchor
  unfold Coord.Moderate at hnear hextent hnear' hextent'
  refine (Coord.gives_sub (by unfold Coord.Fits; omega)).bind fun shift _ hshift => ?_
  refine (Coord.gives_sub (by unfold Coord.Fits; omega)).bind fun growth _ hgrowth => ?_
  refine (Coord.gives_add (by unfold Coord.Fits; omega)).bind fun moved _ hmoved => ?_
  refine (Coord.gives_add (by unfold Coord.Fits; omega)).bind fun limit _ _ => .pure ?_
  exact ⟨by simp only; omega, by simp only; omega, hends.near axis, hends.far axis⟩

theorem gives_map (hs : s.Moderate) {edge : Int} (hedge : Coord.Reached edge) : Gives (s.map edge) Coord.Reached := by
  obtain ⟨hshift, hgrowth, hnear, hfar⟩ := hs
  have hends (v : Int) : Coord.Reached (max s.near (min v (max s.far s.near))) := by
    unfold Coord.Reached at hnear hfar ⊢
    omega
  unfold Coord.Reached at hedge
  unfold map
  split
  · exact .pure hnear
  · refine (Coord.gives_add (by unfold Coord.Fits; omega)).bind fun moved _ hmoved => ?_
    split
    · exact (Coord.gives_add (by unfold Coord.Fits; omega)).bind fun mapped _ _ => .pure (hends mapped)
    · exact .pure (hends _)

theorem gives_mapRect (hx : x.Moderate) (hy : y.Moderate) (hr : r.Reached) : Gives (x.mapRect y r) Rect.Reached := by
  refine (gives_map hx (hr.near .x)).bind fun left _ hleft => ?_
  refine (gives_map hy (hr.near .y)).bind fun top _ htop => ?_
  refine (gives_map hx (hr.far .x)).bind fun right _ hright => ?_
  exact (gives_map hy (hr.far .y)).bind fun bottom _ hbottom => Rect.gives_ofEdges hleft htop hright hbottom

end Stretch

namespace Layout

variable {W : Type} {l : Layout W} {limits box anchor target : Rect} {held : Grip} {goal : Point} {growth min : Size}
  {aim : Aim} {axis : Axis}

/-- The edges of all regions are where those of moderate rectangles are, and the minimums in force are moderate. -/
structure Spread (l : Layout W) : Prop where
  regions : ∀ r ∈ l.store.bounds, r.Reached
  mins : ∀ s ∈ l.mins, s.Moderate

namespace Spread

theorem scene (h : l.Spread) (hlimits : limits.Reached) : (l.scene limits).Moderate := ⟨hlimits, h.regions, h.mins⟩

theorem write (h : l.Spread) {plan : Plan} (hpatch : plan.patch.Reached l.store.bounds.length) :
    (l.write plan).Spread := by
  refine ⟨?_, ?_⟩
  · rw [bounds_write hpatch.length]
    exact hpatch.rects
  · rw [(write_rearranged l plan).mins]
    exact h.mins

theorem gives_planWithin (h : l.Spread) (hlimits : limits.Reached) : Gives (l.planWithin held goal limits) fun o =>
    o.value.patch.Reached l.store.bounds.length :=
  (Scene.gives_planFrom (h.scene hlimits) Trace.lands_empty).bind fun _ _ hplan => .pure hplan

theorem gives_commitWithin (h : l.Spread) (hlimits : limits.Reached) :
    Gives (l.commitWithin held goal limits) fun o => o.layout.Spread :=
  (h.gives_planWithin hlimits).bind fun _ _ hplan => .pure (h.write hplan)

theorem gives_commitLinesWithin (h : l.Spread) (hlimits : limits.Reached)
    (hheld : ∀ axis, ∀ line ∈ held.along axis, Coord.Reached line) :
    Gives (l.commitLinesWithin held goal limits) fun o =>
      (∀ axis, ∀ line ∈ o.value.along axis, Coord.Reached line) ∧ o.layout.Spread :=
  (Scene.gives_planLines (h.scene hlimits) hheld Trace.lands_empty).bind fun _ _ hplan =>
    .pure ⟨hplan.1, h.write hplan.2⟩

theorem gives_commitAim (h : l.Spread) (hlimits : limits.Reached) :
    Gives (l.commitAim aim limits) fun o => o.layout.Spread := by
  unfold commitAim
  split
  · exact .pure h
  · exact (h.gives_commitWithin hlimits).bind fun _ _ hmoved => .pure hmoved

theorem gives_commitCorner (h : l.Spread) (hlimits : limits.Reached) (hbox : box.Reached)
    (hgrowth : ∀ axis, Coord.Apart (growth.along axis))
    (hheld : ∀ axis, ∀ line ∈ aim.held.along axis, Coord.Reached line) :
    Gives (l.commitCorner box growth aim limits) fun o =>
      (∀ axis, Coord.Apart (o.value.along axis)) ∧ o.layout.Spread := by
  unfold commitCorner
  split
  · exact .pure ⟨hgrowth, h⟩
  · refine (h.gives_commitLinesWithin hlimits hheld).bind fun o _ ho => ?_
    obtain ⟨hlines, hspread⟩ := ho
    extract_lets onward
    have honward (width : Int) (hwidth : Coord.Apart width) : Gives (onward width) fun o =>
        (∀ axis, Coord.Apart (o.value.along axis)) ∧ o.layout.Spread := by
      unfold onward
      split
      · next line hline =>
        refine (Coord.gives_gap (hbox.far .y) (hlines .y line hline)).bind fun height _ hheight => ?_
        exact .pure ⟨Axis.rec hwidth hheight, hspread⟩
      · exact .pure ⟨Axis.rec hwidth (hgrowth .y), hspread⟩
    split
    · next line hline => exact (Coord.gives_gap (hbox.far .x) (hlines .x line hline)).bind fun width _ => honward width
    · exact honward growth.width (hgrowth .x)

end Spread

theorem gives_feasibleGrowth {scene : Scene} {trace : Trace} (hs : scene.Moderate) (hbox : box.Reached)
    (hgrowth : Coord.Apart (growth.along axis)) (htrace : trace.Lands) :
    Gives (feasibleGrowth scene box growth axis trace) fun found => Coord.Apart found.1 ∧ found.2.Lands := by
  unfold feasibleGrowth
  split
  · refine (Coord.gives_beyond (hbox.far axis) hgrowth).bind fun wanted _ _ => ?_
    refine (Scene.gives_probeLine hs (hbox.far axis) htrace).bind fun found _ hfound => ?_
    exact (Coord.gives_gap (hbox.far axis) hfound.1).bind fun gap _ hgap => .pure ⟨hgap, hfound.2⟩
  · exact .pure ⟨hgrowth, htrace⟩

theorem gives_aimAnchorInward (hanchor : anchor.Reached) (hmin : min.Moderate)
    (hgrowth : Coord.Apart (growth.along axis)) :
    Gives (aimAnchorInward anchor box min growth aim axis) fun _ => True := by
  have hmin := hmin.along axis
  have hfloor : Coord.Apart (min.along axis) := by
    unfold Coord.Apart
    omega
  unfold aimAnchorInward
  split
  · refine (Coord.gives_beyond (hanchor.near axis) hfloor).bind fun floor _ _ => ?_
    exact (Coord.gives_beyond (hanchor.far axis) hgrowth).bind fun wanted _ _ => .pure trivial
  · exact .pure trivial

theorem gives_aimAnchorOutward (hanchor : anchor.Reached) (hgrowth : Coord.Apart (growth.along axis)) :
    Gives (aimAnchorOutward anchor box growth aim axis) fun _ => True := by
  unfold aimAnchorOutward
  split
  · exact (Coord.gives_beyond (hanchor.far axis) hgrowth).bind fun wanted _ _ => .pure trivial
  · exact .pure trivial

theorem along_held_set (aim : Aim) (line goal : Int) (axis other : Axis) :
    (aim.set line goal axis).held.along other = if other = axis then some line else aim.held.along other := by
  cases axis <;> cases other <;> rfl

theorem gives_aimCorner (hbox : box.Reached) (hgrowth : Coord.Apart (growth.along axis))
    (haim : ∀ axis, ∀ line ∈ aim.held.along axis, Coord.Reached line) :
    Gives (aimCorner box growth aim axis) fun aim => ∀ axis, ∀ line ∈ aim.held.along axis, Coord.Reached line := by
  unfold aimCorner
  split
  · exact .pure haim
  · refine (Coord.gives_beyond (hbox.far axis) hgrowth).bind fun wanted _ _ => .pure fun other => ?_
    rw [along_held_set]
    split
    · rintro _ ⟨⟩
      exact hbox.far axis
    · exact haim other

theorem gives_corner (hbox : box.Reached) (hgrowth : ∀ axis, Coord.Apart (growth.along axis)) (start : Point) :
    Gives (Axis.all.foldlM (aimCorner box growth) (.start start)) fun aim =>
      ∀ axis, ∀ line ∈ aim.held.along axis, Coord.Reached line :=
  Gives.foldlM (fun axis _ _ haim => gives_aimCorner hbox (hgrowth axis) haim) (Axis.rec nofun nofun)

theorem Spread.gives_inward {α : Type} {Q : α → Prop} {onward : Aim → Checked α} (h : l.Spread)
    (hgrowth : ∀ axis, Coord.Apart (growth.along axis)) (honward : ∀ aim, Gives (onward aim) Q) :
    Gives (match l.anchorPosition? with
      | none => pure (.start ⟨0, 0⟩) >>= onward
      | some position =>
        let anchor := l.store.bounds[position]?.getD .zero
        let min := l.mins[position]?.getD .zero
        Axis.all.foldlM (aimAnchorInward anchor box min growth) (.start ⟨anchor.right, anchor.bottom⟩) >>=
          onward) Q := by
  split
  · exact honward (.start ⟨0, 0⟩)
  · next position hposition =>
    have hanchor : (l.store.bounds[position]?.getD .zero).Reached := by
      cases hget : l.store.bounds[position]? with
      | none => exact (by decide : Rect.zero.Moderate).reached (by decide)
      | some anchor => exact h.regions anchor (List.mem_of_getElem? hget)
    have hmin : (l.mins[position]?.getD .zero).Moderate := by
      cases hget : l.mins[position]? with
      | none => exact (by decide : Size.zero.Moderate)
      | some min => exact h.mins min (List.mem_of_getElem? hget)
    exact (Gives.foldlM (fun axis _ aim _ => gives_aimAnchorInward hanchor hmin (hgrowth axis)) trivial).bind
      fun aim _ _ => honward aim

theorem Spread.gives_outward {α : Type} {Q : α → Prop} {onward : Aim → Checked α} (h : l.Spread)
    (hgrowth : ∀ axis, Coord.Apart (growth.along axis)) (honward : ∀ aim, Gives (onward aim) Q) :
    Gives (match l.anchorBounds? with
      | none => pure (.start ⟨0, 0⟩) >>= onward
      | some anchor =>
        Axis.all.foldlM (aimAnchorOutward anchor box growth) (.start ⟨anchor.right, anchor.bottom⟩) >>= onward) Q := by
  split
  · exact honward (.start ⟨0, 0⟩)
  · next anchor hanchor =>
    have hanchor := h.regions anchor (mem_of_anchorBounds? hanchor)
    exact (Gives.foldlM (fun axis _ aim _ => gives_aimAnchorOutward hanchor (hgrowth axis)) trivial).bind
      fun aim _ _ => honward aim

/-- The regions cover a container with an area exactly, and the fields of the container and the minimums in force are
moderate. -/
structure Moderate (l : Layout W) : Prop where
  bounds : l.bounds.Moderate
  area : ∀ axis, 0 < l.bounds.extent axis
  tile : l.bounds.Tile l.store.bounds
  mins : ∀ s ∈ l.mins, s.Moderate

namespace Moderate

theorem solid (h : l.Moderate) : l.bounds.Solid := h.bounds.solid h.area

theorem sharp (h : l.Moderate) : ∀ r ∈ l.store.bounds, r.Sharp := h.bounds.sharp_of_tile h.tile

theorem reached (h : l.Moderate) : l.bounds.Reached := h.bounds.reached h.solid.isProper

theorem spread (h : l.Moderate) : l.Spread := ⟨h.bounds.reached_of_tile h.tile, h.mins⟩

section

variable (h : l.Moderate) (ht : target.Moderate)
include h ht

theorem hasPlace : HasPlace l.bounds target := by
  refine ⟨ht.fits, fun axis => ?_⟩
  have hnear := ht.near axis
  have hextent := h.bounds.extent axis
  unfold Coord.Moderate at hnear hextent
  unfold Coord.Fits
  omega

theorem movedTo_moderate : (movedTo l.bounds target).Moderate := ⟨ht.1, ht.2.1, h.bounds.2.2⟩

theorem gives_shiftTo : Gives (l.shiftTo target) fun shifted => shifted.Spread ∧
    Rect.boundingBox shifted.store.bounds = .ok (some (movedTo l.bounds target)) := by
  have hanswered : Gives (l.shiftTo target) fun _ => True := by
    refine (Coord.gives_gap h.bounds.1.reached ht.1.reached).bind fun dx _ _ => ?_
    refine (Coord.gives_gap h.bounds.2.1.reached ht.2.1.reached).bind fun dy _ _ => ?_
    split
    · exact .pure trivial
    · exact .pure trivial
  refine hanswered.imp fun shifted hshift _ => ?_
  obtain ⟨hsolid, htile, hflow, -⟩ := shiftTo_reflow (fun _ => rfl) h.solid h.sharp h.tile (h.hasPlace ht) hshift
  refine ⟨⟨(h.movedTo_moderate ht).reached_of_tile htile, ?_⟩, htile.boundingBox_eq hsolid hflow.woven.sharp⟩
  rw [hflow.rearranged.mins]
  exact h.mins

/-- Every stage of following a moderate target is answered. -/
theorem gives_follow : Gives (l.follow target) fun o => o.layout.Spread := by
  have hmoved := h.movedTo_moderate ht
  have hbox : (movedTo l.bounds target).Reached := hmoved.reached h.solid.isProper
  refine (h.gives_shiftTo ht).bind fun shifted _ hshifted => ?_
  obtain ⟨hspread, hbounding⟩ := hshifted
  refine Gives.bind ⟨_, hbounding, rfl⟩ fun box? _ heq => ?_
  subst heq
  simp -zeta only
  have hextent := fun axis => (h.bounds.extent axis).reached
  refine (Coord.gives_gap (hextent .x) (ht.extent .x).reached).bind fun width _ hwidth => ?_
  refine (Coord.gives_gap (hextent .y) (ht.extent .y).reached).bind fun height _ hheight => ?_
  have hwanted : (Rect.clamped target.x target.y target.width target.height).Reached :=
    ht.clamped.reached (Rect.isProper_clamped ..)
  refine (Rect.gives_union hbox hwanted).bind fun limits _ hlimits => ?_
  have hscene := hspread.scene hlimits
  have hgrowth {width height : Int} (hwidth : Coord.Apart width) (hheight : Coord.Apart height) :
      ∀ axis, Coord.Apart ((⟨width, height⟩ : Size).along axis) := Axis.rec hwidth hheight
  refine (gives_feasibleGrowth hscene hbox (hgrowth hwidth hheight .x) Trace.lands_empty).bind fun x _ hx => ?_
  refine (gives_feasibleGrowth hscene hbox (hgrowth hx.1 hheight .y) hx.2).bind fun y _ hy => ?_
  have hgrowth := hgrowth hx.1 hy.1
  extract_lets growth onward
  refine hspread.gives_inward hgrowth fun inward => ?_
  refine (hspread.gives_commitAim hlimits).bind fun first _ hfirst => ?_
  refine (gives_corner hbox hgrowth _).bind fun corner _ hcorner => ?_
  refine (hfirst.gives_commitCorner hlimits hbox hgrowth hcorner).bind fun second _ hsecond => ?_
  obtain ⟨hgained, hsecond⟩ := hsecond
  extract_lets last
  refine hsecond.gives_outward hgained fun outward => ?_
  refine (hsecond.gives_commitAim hlimits).bind fun third _ hthird => ?_
  refine (Coord.gives_beyond (hextent .x) (hgained .x)).bind fun width _ _ => ?_
  exact (Coord.gives_beyond (hextent .y) (hgained .y)).bind fun height _ _ => .pure ⟨hthird.regions, hthird.mins⟩

end

theorem gives_stretch (h : l.Moderate) (ht : target.Moderate ∧ target.IsProper) :
    Gives (l.stretch target) fun _ => True := by
  have hold : l.bounds.Moderate ∧ l.bounds.IsProper := ⟨h.bounds, h.solid.isProper⟩
  have hanchor : (l.anchorBounds?.getD l.bounds).Reached := by
    cases hget : l.anchorBounds? with
    | none => exact h.reached
    | some anchor => exact h.spread.regions anchor (mem_of_anchorBounds? hget)
  refine (Stretch.gives_between hold (hanchor.far .x) ht).bind fun x _ hx => ?_
  refine (Stretch.gives_between hold (hanchor.far .y) ht).bind fun y _ hy => ?_
  have hrects : Gives (l.store.bounds.mapM (x.mapRect y)) fun rects => ∀ r ∈ rects, r.Reached :=
    Gives.mapM fun r hr => Stretch.gives_mapRect hx hy (h.spread.regions r hr)
  exact hrects.bind fun rects _ _ => .pure trivial

end Moderate

/-- What a check of the layout works out in the range of areas stays in it: the areas that it compares, and the
minimums that it adds up. -/
structure Checkable (l : Layout W) : Prop where
  areas : ∀ r ∈ l.bounds :: l.store.bounds, Area.Fits r.area
  minimums : Cover.Summable l.placements

theorem minAlong_placements (hmins : ∀ s ∈ l.mins, s.Moderate) {p : Placement} (hp : p ∈ l.placements) (axis : Axis) :
    0 ≤ p.minAlong axis ∧ p.minAlong axis ≤ 2 ^ 28 := by
  obtain ⟨r, hr, rfl⟩ := List.mem_map.1 hp
  unfold Placement.minAlong
  unfold mins at hmins
  cases hrange : l.settings.sizeRange with
  | none => exact (by decide : (0 : Int) ≤ 0 ∧ (0 : Int) ≤ 2 ^ 28)
  | some range =>
    rw [hrange] at hmins
    exact (hmins _ (List.mem_map_of_mem hr)).along axis

theorem checkable_of_woven (hw : l.bounds.Woven l.store.bounds) (hmins : ∀ s ∈ l.mins, s.Moderate) : l.Checkable := by
  refine ⟨fun r hr => ?_, ?_⟩
  · have hsharp : r.Sharp := by
      rcases List.mem_cons.1 hr with rfl | hr
      · exact hw.outer
      · exact hw.sharp r hr
    exact Area.fits_area hsharp.fits hsharp.proper
  · refine Cover.summable_of_paves hw.outer (fun p hp => ?_) ?_ fun p hp => minAlong_placements hmins hp
    · exact hw.sharp _ (rects_placements l ▸ List.mem_map_of_mem hp)
    · rw [rects_placements]
      exact hw.paves

theorem gives_revalidate (hw : l.bounds.Woven l.store.bounds) (hreached : ∀ r ∈ l.store.bounds, r.Reached) :
    Gives l.revalidate fun _ => True := by
  rw [← rects_placements] at hreached
  have hsharp : ∀ r ∈ Cover.rects l.placements, r.Sharp := by
    rw [rects_placements]
    exact hw.sharp
  have hpaves : l.bounds.Paves (Cover.rects l.placements) := by
    rw [rects_placements]
    exact hw.paves
  have hreport := Cover.exists_check_of_paves hw.outer hsharp hreached hpaves
  exact (Gives.of_answered hreport).bind fun _ _ _ => .pure trivial

namespace Moderate

theorem woven (h : l.Moderate) : l.bounds.Woven l.store.bounds := h.tile.woven h.solid h.sharp

/-- A move leaves a layout that can be checked, and is answered. -/
theorem gives_move (h : l.Moderate) : Gives (l.move held goal) fun o => o.layout.Checkable := by
  refine (h.spread.gives_commitWithin h.reached).bind fun o ho hspread => ?_
  obtain ⟨plan, trace, hplan, -, hlayout⟩ := commitWithin_eq_ok ho
  have hw : o.layout.bounds.Woven o.layout.store.bounds := by
    rw [hlayout]
    exact (planFrom_reflow h.woven h.bounds.fits hplan fun _ _ _ => ⟨rfl, rfl⟩).1.woven
  have hcheck := checkable_of_woven hw hspread.mins
  split
  · exact (gives_revalidate hw hspread.regions).bind fun _ _ _ => .pure hcheck
  · exact .pure hcheck

theorem wide_moderate (ht : target.Moderate) :
    Rect.Moderate ⟨target.x, target.y, max (max target.width 0) 1, max (max target.height 0) 1⟩ ∧
      ∀ axis, 0 < Rect.extent ⟨target.x, target.y, max (max target.width 0) 1, max (max target.height 0) 1⟩ axis := by
  obtain ⟨hx, hy, hwidth, hheight⟩ := ht
  unfold Coord.Moderate at hwidth hheight
  refine ⟨⟨hx, hy, ?_, ?_⟩, Axis.rec ?_ ?_⟩
  · unfold Coord.Moderate
    simp only
    omega
  · unfold Coord.Moderate
    simp only
    omega
  · simp only [Rect.extent]
    omega
  · simp only [Rect.extent]
    omega

theorem gives_resize (h : l.Moderate) (ht : target.Moderate) : Gives (l.resize target) fun o => o.layout.Checkable := by
  simp only [resize]
  split
  · exact .pure (checkable_of_woven h.woven h.mins)
  · split
    · next hempty => exact absurd hempty (regions_ne_nil h.solid h.tile)
    · split
      · refine (h.gives_follow ht.clamped).bind fun o ho hspread => ?_
        obtain ⟨shifted, limits, growth, inward, corner, outward, first, third, second, hcourse⟩ :=
          exists_course (fun _ => rfl) h.solid h.sharp h.tile (h.hasPlace ht.clamped) (Rect.isProper_clamped ..) ho
        have hw : o.layout.bounds.Woven o.layout.store.bounds := hcourse.answer.2.1.woven
        refine (gives_revalidate hw hspread.regions).bind fun findings _ _ => ?_
        exact .pure (checkable_of_woven hw hspread.mins)
      · obtain ⟨hwide, hextent⟩ := wide_moderate ht
        have hproper : Rect.IsProper ⟨target.x, target.y, max (max target.width 0) 1, max (max target.height 0) 1⟩ :=
          wide_isProper target
        refine (h.gives_stretch ⟨hwide, hproper⟩).bind fun stretched hstretch _ => ?_
        obtain ⟨hbounds, hsolid, hsharp, htile⟩ :=
          stretch_tile hstretch h.solid hwide.fits hextent (fun r hr => (h.sharp r hr).fits) h.tile
        have hmins : ∀ s ∈ stretched.mins, s.Moderate := by
          rw [(stretch_placed hstretch).rearranged.mins]
          exact h.mins
        exact .pure (checkable_of_woven (hbounds ▸ htile.woven hsolid hsharp) hmins)

end Moderate

/-- In a moderate layout every plan, drag and move is answered, whatever is held and wherever it is to go, and so is
every resize to a moderate target, in both modes, with the check that follows. No sum on the way leaves its range. -/
theorem answers_of_moderate (h : l.Moderate) :
    (∀ held goal, (∃ o, l.plan held goal = .ok o) ∧ (∃ o, l.drag held goal = .ok o) ∧
      ∃ o, l.move held goal = .ok o ∧ o.layout.Checkable) ∧
    ∀ target, target.Moderate → ∃ o, l.resize target = .ok o ∧ o.layout.Checkable := by
  refine ⟨fun held goal => ⟨?_, ?_, h.gives_move⟩, fun target ht => h.gives_resize ht⟩
  · exact (h.spread.gives_planWithin h.reached).answered
  · refine Gives.answered (P := fun _ => True) ?_
    exact (h.spread.gives_commitWithin h.reached).bind fun _ _ _ => .pure trivial

/-- Two columns as far out as moderate ones can be. Neither has the width that it should keep. -/
def outermost : Layout Unit where
  settings := { sizeRange := some ⟨268435456, 4⟩ }
  bounds := ⟨268435456, -268435456, 268435456, 268435456⟩
  store := ⟨[{ id := ⟨1⟩, widget := (), bounds := ⟨268435456, -268435456, 134217728, 268435456⟩ },
    { id := ⟨2⟩, widget := (), bounds := ⟨402653184, -268435456, 134217728, 268435456⟩ }], 3⟩
  anchor := some ⟨1⟩

theorem answers_of_moderate_outermost : outermost.Moderate ∧
    (∃ o, outermost.move (.vertical 402653184) ⟨-2147483648, 0⟩ = .ok o ∧ o.layout.Checkable) ∧
    ∃ o, outermost.resize ⟨-268435456, 268435456, 0, 268435456⟩ = .ok o ∧ o.layout.Checkable := by
  have ht : outermost.bounds.Tile outermost.store.bounds :=
    Rect.tile_beside .x (by decide) ⟨⟨rfl, rfl⟩, ⟨rfl, rfl⟩⟩ rfl rfl rfl
  have h : outermost.Moderate := ⟨by decide, Axis.rec (by decide) (by decide), ht, by decide⟩
  obtain ⟨hheld, hresize⟩ := answers_of_moderate h
  exact ⟨h, (hheld _ _).2.2, hresize _ (by decide)⟩

end Layout

end Mosaic
