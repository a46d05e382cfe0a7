import Mosaic.Proofs.Cascade.Driven
import Mosaic.Proofs.Layout.Held
import Mosaic.Proofs.Layout.Restretch
import Mosaic.Proofs.Layout.Undersized

/-! Doing the same once more. A move of lines comes to rest in one go: made again, from where it has left the lines, it
changes nothing. Neither does a resize to the same target, also where the regions have not let the container get as
small as that. -/
namespace Mosaic.Layout

variable {W : Type} {l l' l'' : Layout W} {held : Grip} {goal : Point} {range : SizeRange} {axis : Axis}
  {box target limits limits' : Rect}

/-- A plan that leaves the regions where they are changes nothing, marks included. -/
theorem write_still {plan : Plan} (h : plan.patch.rects = l.store.bounds) : l.write plan = l := by
  refine (Placed.write l plan).eq_self rfl ?_
  rw [bounds_write (by rw [h]), h]

theorem commitWithin_again (hs : l.Sane) {first again : Outcome W Grip}
    (hfirst : l.commitWithin held goal l.bounds = .ok first)
    (hagain : first.layout.commitWithin first.value goal first.layout.bounds = .ok again) :
    again.value = first.value ∧ again.layout = first.layout := by
  obtain ⟨plan, trace, hplan, hvalue, hlayout⟩ := commitWithin_eq_ok hfirst
  obtain ⟨plan', trace', hplan', hvalue', hlayout'⟩ := commitWithin_eq_ok hagain
  rw [hvalue, hlayout] at hplan'
  have hrects : ((l.write plan).scene (l.write plan).bounds).rects = plan.patch.rects :=
    bounds_write (Scene.planFrom_fits hs hplan).1
  obtain ⟨hachieved, hpatch⟩ := Scene.planFrom_again hs hplan hrects (write_rearranged l plan).mins rfl hplan'
  refine ⟨by rw [hvalue', hachieved, hvalue], ?_⟩
  rw [hlayout', hlayout]
  exact write_still hpatch

/-- Moving lines to where they were to go, from where they have come to, leaves all as it is. The regions need not cover
the container, and may be cut off, empty or smaller than their minimums. -/
theorem move_again (hs : l.Sane) {first again : Outcome W Grip} (hfirst : l.move held goal = .ok first)
    (hagain : first.layout.move first.value goal = .ok again) :
    again.value = first.value ∧ again.layout = first.layout := by
  obtain ⟨moved, hmoved, hvalue, hlayout⟩ := move_commits hfirst
  obtain ⟨moved', hmoved', hvalue', hlayout'⟩ := move_commits hagain
  rw [hvalue, hlayout] at hmoved' ⊢
  rw [hvalue', hlayout']
  exact commitWithin_again hs hmoved hmoved'

/-- The first column pushes the empty one along until the last one has no more than its minimum. -/
theorem move_again_folded : ∃ first again, folded.move (.vertical 10) ⟨28, 5⟩ = .ok first ∧
    first.value = .vertical 24 ∧ first.layout.move first.value ⟨28, 5⟩ = .ok again ∧ again.value = .vertical 24 ∧
      again.layout = first.layout := by
  obtain ⟨first, hfirst, hvalue, again, hagain⟩ : ∃ first, folded.move (.vertical 10) ⟨28, 5⟩ = .ok first ∧
      first.value = .vertical 24 ∧ ∃ again, first.layout.move first.value ⟨28, 5⟩ = .ok again :=
    ⟨_, rfl, by decide, _, rfl⟩
  have hsane : folded.Sane := ⟨by decide, by decide⟩
  obtain ⟨hsame, hlayout⟩ := move_again hsane hfirst hagain
  exact ⟨first, again, hfirst, hvalue, hagain, hsame.trans hvalue, hlayout⟩

theorem shiftTo_still (hstill : ∀ axis, target.near axis = l.bounds.near axis) (h : l.shiftTo target = .ok l') :
    l' = l := by
  obtain ⟨dx, hdx, h⟩ := Checked.bind_eq_ok.1 h
  obtain ⟨dy, hdy, h⟩ := Checked.bind_eq_ok.1 h
  obtain ⟨-, rfl⟩ := Coord.sub_eq_ok_iff.1 hdx
  obtain ⟨-, rfl⟩ := Coord.sub_eq_ok_iff.1 hdy
  rw [if_pos ⟨Int.sub_eq_zero.2 (hstill .x), Int.sub_eq_zero.2 (hstill .y)⟩] at h
  exact (Checked.pure_eq_ok.1 h).symm

theorem movedTo_self (hstill : ∀ axis, target.near axis = box.near axis) : movedTo box target = box := by
  have hx : target.x = box.x := hstill .x
  have hy : target.y = box.y := hstill .y
  rw [movedTo, hx, hy]

theorem commitAim_idle {aim : Aim} (hidle : ∀ axis, aim.held.along axis = none) {o : Outcome W Unit}
    (ho : l.commitAim aim limits = .ok o) : o.layout = l := by
  have hempty : aim.held.IsEmpty := ⟨hidle .x, hidle .y⟩
  rw [commitAim, if_pos hempty] at ho
  cases ho
  rfl

theorem commitCorner_still {growth : Size} {aim : Aim} (hs : (l.scene limits).Fits)
    (hsharp : ∀ r ∈ l.store.bounds, r.Sharp) (haim : ∀ axis, aim.AtCorner box growth axis)
    (hgrowth : ∀ axis, growth.along axis = 0) {o : Outcome W Size}
    (ho : l.commitCorner box growth aim limits = .ok o) : o.layout = l := by
  rcases commitCorner_eq_ok ho with ⟨-, hlayout, -⟩ | ⟨plan, trace, hplan, hlayout, -⟩
  · exact hlayout
  · have hsteady : (l.scene limits).Steady aim.held := steady_of_atCorner hsharp haim
    obtain ⟨hprobed, -⟩ := Scene.planLines_eq_ok hs hsteady (Trace.sound_empty _) hplan
    rw [hlayout]
    refine write_still (Scene.planLines_still hs hsteady (Trace.sound_empty _) hplan fun axis => ?_)
    rcases hprobed axis with ⟨hnone, hnone'⟩ | ⟨line, reached, hline, hreached, hprobed⟩
    · rw [hnone, hnone']
    · rcases haim axis with ⟨hnone, -⟩ | ⟨hheld, hgoal, -⟩
      · rw [hnone] at hline
        cases hline
      · obtain rfl := Option.some.inj (hheld.symm.trans hline)
        rw [hline, hreached, hprobed.still (by rw [hgoal, hgrowth, Int.add_zero])]

namespace Course

variable {o o' : Outcome W Rect} {shifted shifted' : Layout W} {growth growth' : Size}
  {inward inward' corner corner' outward outward' : Aim} {first first' third third' : Outcome W Unit}
  {second second' : Outcome W Size}

theorem layout_still (h : Course l l.bounds target o shifted limits growth inward corner outward first third second)
    (hstill : ∀ axis, target.near axis = l.bounds.near axis) (hgrowth : ∀ axis, growth.along axis = 0) :
    o.layout = l := by
  have hgained : ∀ axis, second.value.along axis = 0 := by
    intro axis
    rw [(h.gained axis).1 (Int.le_of_eq (hgrowth axis).symm), hgrowth]
  have hshifted := shiftTo_still hstill h.shift_eq
  have hfirst := commitAim_idle (fun axis => h.inward_none (Int.le_of_eq (hgrowth axis).symm)) h.first_eq
  have hsecond :=
    commitCorner_still h.fits_first h.first_reflow.1.woven.sharp h.corner_at hgrowth h.second_eq
  have hthird := commitAim_idle (fun axis => h.outward_none (Int.le_of_eq (hgained axis))) h.third_eq
  rw [h.layout_eq, stretched_zero hgained, movedTo_self hstill, hthird, hsecond, hfirst, hshifted]

section

variable (h : Course l box target o shifted limits growth inward corner outward first third second)
include h

/-- The anchor gives way: lines are driven back, the far line excepted. -/
theorem driven_inward (hback : growth.along axis ≤ 0) : ∃ m,
    Rect.MovedWith axis m shifted.store.bounds first.layout.store.bounds ∧
      (shifted.scene limits).Driven axis .far m ∧
        m ((movedTo box target).far axis) = (movedTo box target).far axis := by
  obtain ⟨achieved, m, hm⟩ := commitAim_drawn h.fits h.first_eq axis
  have hend : m (limits.far axis) = limits.far axis :=
    (hm.moved.fixed h.fits fun c hc => (Scene.movable_eq_some hc).2).far
  rw [h.bounding.still axis hback] at hend
  refine ⟨m, hm.edges, ?_, hend⟩
  cases hline : (shifted.scene limits).movable inward.held axis with
  | none =>
    rw [hm.eq_id hline]
    exact .still _ axis .far
  | some line =>
    obtain ⟨reached, -, hprobed, hmoved⟩ := hm.of_some hline
    rcases aimInward_eq_ok h.inward_eq axis with hnone | ⟨anchor, -, hheld, -, -, hgoal⟩
    · rw [(Scene.movable_eq_some hline).1] at hnone
      cases hnone
    · obtain rfl := Option.some.inj (hheld.symm.trans (Scene.movable_eq_some hline).1)
      have hgone := (hprobed.inward (Int.le_of_lt hgoal)).2
      exact hmoved.driven h.fits (by simpa [Side.inward] using hgone)

theorem driven_corner (hback : second.value.along axis ≤ 0) : ∃ m,
    Rect.MovedWith axis m first.layout.store.bounds o.layout.store.bounds ∧
      (first.layout.scene limits).Driven axis .far m ∧
        m ((movedTo box target).far axis) = (movedTo box target).far axis + second.value.along axis := by
  obtain ⟨achieved, m, hm, hvalue⟩ :=
    commitCorner_drawn h.fits_first h.first_reflow.1.woven.sharp h.corner_at h.second_eq axis
  obtain ⟨achieved', m', hm'⟩ := commitAim_drawn h.fits_second h.third_eq axis
  have hidle : m' = id := hm'.eq_id (by rw [Scene.movable, h.outward_none hback]; rfl)
  refine ⟨m, ?_, ?_⟩
  · rw [h.layout_eq]
    have hall := hm.edges.trans hm'.edges
    rwa [hidle] at hall
  · rcases h.corner_at axis with ⟨hnone, hzero⟩ | ⟨hheld, -⟩
    · obtain rfl := hm.eq_id hnone
      refine ⟨.still _ axis .far, ?_⟩
      have hforth := (h.gained axis).1 (Int.le_of_eq hzero.symm)
      simp only [id]
      omega
    · obtain ⟨reached, hreached, -, hmoved⟩ := hm.of_some hheld
      rw [hreached, grown] at hvalue
      refine ⟨hmoved.driven h.fits_first ?_, by rw [hmoved.held h.fits_first]; omega⟩
      simp only [Side.inward, Direction.pos_down]
      omega

theorem extent_answer (axis : Axis) : o.layout.bounds.extent axis = box.extent axis + second.value.along axis := by
  rw [h.layout_eq, extent_stretched, extent_movedTo]

theorem far_answer (hbox : o.layout.bounds.Solid) (axis : Axis) :
    o.layout.bounds.far axis = (movedTo box target).far axis + second.value.along axis := by
  have hnear := (h.answer.2.2 axis).1
  rw [hbox.far, h.solid.far, near_movedTo, extent_movedTo, hnear, h.extent_answer, Int.add_assoc]

/-- What the far line of a container that has shrunk can be pushed back by is no more than it could have been before. -/
theorem feasible_back (hbox : o.layout.bounds.Solid) (hs : (o.layout.scene limits').Fits)
    (hnear : limits'.near axis = target.near axis) (hback : growth.along axis ≤ 0) {gain : Int} (hgain : gain < 0)
    (hf : (o.layout.scene limits').Feasible
      ⟨axis, .far, o.layout.bounds.far axis, o.layout.bounds.far axis + gain⟩) :
    let push : Push := ⟨axis, .far, (movedTo box target).far axis,
      (movedTo box target).far axis + (second.value.along axis + gain)⟩
    (first.layout.scene limits).Feasible push ∧ (shifted.scene limits).Feasible push := by
  obtain ⟨hforth, hless⟩ := h.gained axis
  have hgained : second.value.along axis ≤ 0 := by omega
  have hfar := h.far_answer hbox axis
  have hstop : limits.near axis = target.near axis := by rw [h.bounding.near, near_movedTo]
  obtain ⟨m, hedges, hdriven, hend⟩ := h.driven_corner hgained
  obtain ⟨m', hedges', hdriven', hend'⟩ := h.driven_inward hback
  have hahead : Side.far.inward.pos ((movedTo box target).far axis) <
      Side.far.inward.pos ((movedTo box target).far axis + (second.value.along axis + gain)) := by
    simp only [Side.inward, Direction.pos_down]
    omega
  have hplaced : Rearranged first.layout o.layout := by
    rw [h.layout_eq]
    exact ((commitCorner_placed h.second_eq).rearranged.trans (commitAim_placed h.third_eq).rearranged).rebound _
  have hthere : (first.layout.scene limits).Feasible ⟨axis, .far, (movedTo box target).far axis,
      (movedTo box target).far axis + (second.value.along axis + gain)⟩ := by
    refine hdriven.feasible h.fits_first hs (fun i => ?_) (hnear.trans hstop.symm) hedges
      (Scene.clear_of_sharp h.first_reflow.1.woven.sharp _) hahead ?_
    · exact congrFun (congrFun hplaced.floor i) axis
    · rwa [hend, ← hfar, ← add_assoc, ← hfar]
  refine ⟨hthere, hdriven'.feasible h.fits h.fits_first (fun i => ?_) rfl hedges'
    (Scene.clear_of_sharp h.moved.woven.sharp _) hahead (hend'.symm ▸ hthere)⟩
  exact congrFun (congrFun (commitAim_placed h.first_eq).rearranged.floor i) axis

theorem corner_least {gain : Int} (hle : growth.along axis ≤ gain) (hgain : gain < 0)
    (hf : (first.layout.scene limits).Feasible
      ⟨axis, .far, (movedTo box target).far axis, (movedTo box target).far axis + gain⟩) :
    second.value.along axis ≤ gain := by
  obtain ⟨achieved, m, hm, hvalue⟩ :=
    commitCorner_drawn h.fits_first h.first_reflow.1.woven.sharp h.corner_at h.second_eq axis
  rcases h.corner_at axis with ⟨-, hzero⟩ | ⟨hheld, hgoal, -⟩
  · omega
  · obtain ⟨reached, hreached, hprobed, -⟩ := hm.of_some hheld
    rw [hreached, grown] at hvalue
    have hleast := hprobed.least (by omega) (by omega) hf
    omega

/-- When the target is followed once more, nothing is left to grow or to shrink. -/
theorem growth_again (h' : Course o.layout o.layout.bounds target o' shifted' limits' growth' inward' corner' outward'
    first' third' second') (hbox : o.layout.bounds.Solid) (axis : Axis) : growth'.along axis = 0 := by
  have hnear : ∀ axis, target.near axis = o.layout.bounds.near axis := fun axis => (h.answer.2.2 axis).1.symm
  have hextent := h.extent_answer axis
  obtain ⟨hforth, hless⟩ := (h.found axis).tried
  obtain ⟨hforth', hless'⟩ := h.gained axis
  obtain ⟨hasked, hback⟩ := (h'.found axis).tried
  by_contra hne
  have hshrinks : target.extent axis - o.layout.bounds.extent axis < 0 := by
    refine Int.not_le.1 fun hgrows => hne ?_
    rw [hasked hgrows]
    omega
  obtain ⟨hleast, hmost⟩ := hback hshrinks
  have hprobed := (h'.found axis).2 hshrinks
  rw [movedTo_self hnear, shiftTo_still hnear h'.shift_eq] at hprobed
  obtain ⟨-, hf⟩ := (hprobed.down (by omega)).moved (by simp only; omega)
  have hs : (o.layout.scene limits').Fits := shiftTo_still hnear h'.shift_eq ▸ h'.fits
  have hgrowth : growth.along axis ≤ 0 := by omega
  obtain ⟨hcorner, hfound⟩ :=
    h.feasible_back hbox hs (by rw [h'.bounding.near, near_movedTo]) hgrowth (by omega) hf
  -- The far line had been found to go no further back before, and then it was moved no further.
  have hgone := ((h.found axis).2 (by omega)).least (by omega) (by omega) hfound
  have hheld := h.corner_least (by omega) (by omega) hcorner
  omega

end

end Course

theorem stretch_again (hrects : ∀ r ∈ l.store.bounds, r.Fits ∧ r.IsProper) (htarget : target.Fits)
    (hordered : ∀ axis, target.near axis ≤ target.far axis) (h : l.stretch target = .ok l')
    (h' : l'.stretch target = .ok l'') : l'' = l' := by
  obtain ⟨hbounds, hsharp, hmoved⟩ := stretch_moved h htarget hordered hrects
  obtain ⟨hbounds', hsharp', hmoved'⟩ :=
    stretch_moved h' htarget hordered fun r hr => ⟨(hsharp r hr).fits, (hsharp r hr).proper⟩
  have hsame := hbounds'.trans hbounds.symm
  refine (stretch_placed h').eq_self hsame (Rect.eq_of_movedWith (fun axis => ?_) hsharp hsharp')
  obtain ⟨s, hs, hm, -⟩ := hmoved axis
  obtain ⟨s', hs', hm', -⟩ := hmoved' axis
  rw [hbounds] at hs'
  refine ⟨_, hm', fun b hb side => Stretch.image_self hs' ?_⟩
  obtain ⟨r, -, hrb⟩ := forall₂_of_mem hm hb
  rw [hrb]
  exact Stretch.image_within hs (hordered axis) _

section

variable {first again : Outcome W Rect} (htarget : target.Fits) (hfirst : l.resize target = .ok first)
  (hagain : first.layout.resize target = .ok again)
include hfirst hagain

theorem again_of_same (hlayout : first.layout = l) : again = first := by
  rw [hlayout, hfirst] at hagain
  exact (Except.ok.inj hagain).symm

theorem again_of_empty (hempty : l.store.regions = []) : again.value = first.value ∧ again.layout = first.layout := by
  obtain ⟨hvalue, hlayout⟩ := resize_empty hempty hfirst
  obtain ⟨hvalue', hlayout'⟩ := resize_empty (hlayout ▸ hempty) hagain
  refine ⟨hvalue'.trans hvalue.symm, ?_⟩
  rw [hlayout', hvalue', ← hvalue, hlayout]

include htarget

/-- Without a size range the regions are stretched again where the container could not get as small as the target. -/
theorem again_of_classic (hclassic : l.hasSizeRange = false) (hrects : ∀ r ∈ l.store.bounds, r.Fits ∧ r.IsProper) :
    again.value = first.value ∧ again.layout = first.layout := by
  have hmode : first.layout.hasSizeRange = false := by
    rw [hasSizeRange, (resize_rearranged hfirst).settings]
    exact hclassic
  cases resize_eq_ok hfirst with
  | same _ hlayout =>
    rw [again_of_same hfirst hagain hlayout]
    exact ⟨rfl, rfl⟩
  | bare hempty => exact again_of_empty hfirst hagain hempty
  | followed _ _ hranged =>
    rw [hclassic] at hranged
    cases hranged
  | stretched _ hstretch hvalue _ _ hfilled =>
    have hordered := Rect.near_le_far (wide_fits htarget) (wide_isProper target)
    obtain ⟨hbounds, -⟩ := stretch_moved hstretch (wide_fits htarget) hordered hrects
    cases resize_eq_ok hagain with
    | same _ hlayout' hvalue' => exact ⟨by rw [hvalue', hbounds, hvalue], hlayout'⟩
    | bare hempty => exact absurd ((resize_rearranged hfirst).regions_eq_nil_iff.1 hempty) hfilled
    | followed _ _ hranged =>
      rw [hmode] at hranged
      cases hranged
    | stretched _ hstretch' hvalue' =>
      exact ⟨hvalue'.trans hvalue.symm, stretch_again hrects (wide_fits htarget) hordered hstretch hstretch'⟩

/-- With a size range the container is probed again where the minimums have not let it get as small as the target. -/
theorem again_of_occupied (h : Occupied range l)
    (hmoved : ∀ axis, Coord.Fits (l.bounds.far axis + (target.near axis - l.bounds.near axis))) :
    again.value = first.value ∧ again.layout = first.layout := by
  by_cases hempty : l.store.regions = []
  · exact again_of_empty hfirst hagain hempty
  have hspan := h.span hempty
  rcases h.resizes hspan htarget hmoved hfirst with ⟨-, hlayout, -⟩ |
    ⟨followed, shifted, limits, growth, inward, corner, outward, one, three, two, hcourse, hlayout, hvalue⟩
  · rw [again_of_same hfirst hagain hlayout]
    exact ⟨rfl, rfl⟩
  obtain ⟨hanswer, hflow, hends⟩ := hcourse.answer
  have hbox := Rect.solid_trimmed h.container hspan
  have hsettled : Settled followed.layout := hflow.settled
    (fun r hr axis => h.tile.trimmed.tied hr (h.solid r hr).near_lt_far)
    (hflow.solid hbox h.sharp h.tile.trimmed h.keepsAreas).extent
  have hranged : followed.layout.hasSizeRange = true := by
    rw [hasSizeRange, hflow.rearranged.settings, h.sizeRange]
    rfl
  rw [hlayout] at hagain
  rcases resize_follows hranged (hsettled.container.trimmed_eq.symm ▸ hsettled.container) hsettled.tile hagain with
    ⟨-, hlayout', hvalue'⟩ | ⟨followed', hfollow, hlayout', hvalue'⟩
  · rw [hvalue', hlayout', hvalue, hlayout, hanswer]
    exact ⟨rfl, rfl⟩
  have hnear : ∀ axis, (Rect.clamped target.x target.y target.width target.height).near axis =
      followed.layout.bounds.near axis := fun axis => (hends axis).1.symm
  have hplace : HasPlace followed.layout.bounds (.clamped target.x target.y target.width target.height) := by
    refine ⟨(hasPlace_trimmed htarget hmoved).clamped.1, fun axis => ?_⟩
    rw [hnear, ← hsettled.container.far]
    exact Rect.fits_far _ axis
  obtain ⟨_, _, _, _, _, _, _, _, _, hcourse'⟩ := exists_course (fun _ => rfl) hsettled.container hsettled.sharp
    hsettled.tile hplace (Rect.isProper_clamped _ _ _ _) hfollow
  have hstill := hcourse'.layout_still hnear fun axis => hcourse.growth_again hcourse' hsettled.container axis
  rw [hvalue', hlayout', hcourse'.value_eq, hstill, hvalue, hlayout, hanswer]
  exact ⟨rfl, rfl⟩

/-- Resizing to the same target once more answers the same container and leaves all as it is, wherever the target lies
and whatever the anchor is. Far edges may be cut off, but with a size range neither those of the regions nor that of the
container when it has been moved along. -/
theorem resize_again (hstart : (l.hasSizeRange = false ∧ ∀ r ∈ l.store.bounds, r.Fits ∧ r.IsProper) ∨
      ∃ range, Occupied range l ∧
        ∀ axis, Coord.Fits (l.bounds.far axis + (target.near axis - l.bounds.near axis))) :
    again.value = first.value ∧ again.layout = first.layout := by
  rcases hstart with ⟨hclassic, hrects⟩ | ⟨range, h, hmoved⟩
  · exact again_of_classic htarget hfirst hagain hclassic hrects
  · exact again_of_occupied htarget hfirst hagain h hmoved

end

/-- Columns that are shrunk further than their minimums allow, and columns that are shrunk to nothing. -/
theorem resize_again_cramped : (∃ first again, cramped.resize ⟨5, 0, 20, 30⟩ = .ok first ∧
      first.value = ⟨5, 0, 30, 30⟩ ∧ first.layout.resize ⟨5, 0, 20, 30⟩ = .ok again ∧ again.layout = first.layout) ∧
    ∃ first again, hinged.resize ⟨-7, 3, 0, 60⟩ = .ok first ∧ first.value = ⟨-7, 3, 1, 60⟩ ∧
      first.layout.resize ⟨-7, 3, 0, 60⟩ = .ok again ∧ again.layout = first.layout := by
  refine ⟨?_, ?_⟩
  · obtain ⟨first, hfirst, hvalue, again, hagain⟩ : ∃ first, cramped.resize ⟨5, 0, 20, 30⟩ = .ok first ∧
      first.value = ⟨5, 0, 30, 30⟩ ∧ ∃ again, first.layout.resize ⟨5, 0, 20, 30⟩ = .ok again :=
      ⟨_, rfl, by decide, _, rfl⟩
    have htile : cramped.bounds.Tile cramped.store.bounds :=
      Rect.tile_beside .x (by decide) ⟨⟨rfl, rfl⟩, ⟨rfl, rfl⟩⟩ rfl rfl rfl
    have hoccupied : Occupied ⟨20, 4⟩ cramped :=
      ⟨⟨rfl, by decide, by decide, by decide, by decide, htile⟩, by decide⟩
    exact ⟨first, again, hfirst, hvalue, hagain, (resize_again (by decide) hfirst hagain
      (.inr ⟨_, hoccupied, Axis.rec (by decide) (by decide)⟩)).2⟩
  · obtain ⟨first, hfirst, hvalue, again, hagain⟩ : ∃ first, hinged.resize ⟨-7, 3, 0, 60⟩ = .ok first ∧
      first.value = ⟨-7, 3, 1, 60⟩ ∧ ∃ again, first.layout.resize ⟨-7, 3, 0, 60⟩ = .ok again :=
      ⟨_, rfl, by decide, _, rfl⟩
    exact ⟨first, again, hfirst, hvalue, hagain, (resize_again (by decide) hfirst hagain (.inl ⟨rfl, by decide⟩)).2⟩

/-- A resize with a size range leaves nothing to be done, where starts are what is asked of the layout and the target
besides. -/
def Resettles (Start : Layout Unit → Rect → Prop) : Prop :=
  ∀ (range : SizeRange) (l : Layout Unit) (target : Rect) (first again : Outcome Unit Rect), Furnished range l →
    target.Fits → Start l target → l.resize target = .ok first → first.layout.resize target = .ok again →
    again.value = first.value ∧ again.layout = first.layout

/-- A far edge that is cut off when it is moved along, or was cut off before, keeps the container larger at first. -/
theorem not_resettles : ¬ Resettles (fun l _ => l.bounds.Solid ∧ ∀ r ∈ l.store.bounds, r.Solid) ∧
    ¬ Resettles (fun l target => l.bounds.Solid ∧
      ∀ axis, Coord.Fits (l.bounds.far axis + (target.near axis - l.bounds.near axis))) := by
  refine ⟨fun h => ?_, fun h => ?_⟩
  · have hfurnished : Furnished ⟨4, 4⟩ (laid ⟨0, 0, 300, 300⟩ [⟨0, 0, 300, 300⟩]) :=
      ⟨rfl, by decide, by decide, by decide, by decide, Rect.tile_self (by decide)⟩
    obtain ⟨hsame, -⟩ := h _ _ ⟨2147483352, 0, 8, 300⟩ _ _ hfurnished (by decide) (by decide) rfl rfl
    exact absurd hsame (by decide)
  · obtain ⟨hsame, -⟩ := h _ _ ⟨10, 0, 8, 20⟩ _ _ (overlong_furnished (by decide : (1 : Int) ≤ 4)) (by decide)
      ⟨by decide, Axis.rec (by decide) (by decide)⟩ rfl rfl
    exact absurd hsame (by decide)

end Mosaic.Layout
