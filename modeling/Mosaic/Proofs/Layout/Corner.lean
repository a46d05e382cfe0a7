import Mosaic.Proofs.Cascade.Change
import Mosaic.Proofs.Layout.Held

/-! Moving a corner. It is moving its two lines one after the other, in whichever order: what moves on one axis
leaves all spans along the other one as they are. -/
namespace Mosaic

/-- The first grip holds what is held on the axis, and the second one what is held on the other. -/
structure Grip.Splits (grip : Grip) (axis : Axis) (first second : Grip) : Prop where
  held : first.along axis = grip.along axis
  free : second.along axis = Option.none
  held_cross : second.along axis.cross = grip.along axis.cross
  free_cross : first.along axis.cross = Option.none

namespace Scene

variable {scene scene' : Scene} {axis : Axis} {grip first second : Grip} {point : Point} {plan plan' plan'' : Plan}
  {trace trace' trace'' : Trace}

theorem planFrom_still (hs : scene.Fits) (h : scene.planFrom grip point {} = .ok (plan, trace))
    (hnone : grip.along axis = none) : List.Forall₂ (Rect.SameSpan axis axis) scene.rects plan.patch.rects := by
  obtain ⟨m, -, hachieved⟩ := planFrom_drawn hs h axis
  exact (planFrom_stays_iff hs h axis).1 (by rw [hachieved, hnone, Option.map_none])

/-- Plans that hold the same line of an axis take it, and all spans along the axis, to the same places. -/
theorem planFrom_along (hs : scene.Fits) (hs' : scene'.Fits)
    (hrects : List.Forall₂ (Rect.SameSpan axis axis) scene.rects scene'.rects) (hmins : scene'.mins = scene.mins)
    (hbounds : scene'.bounds = scene.bounds) (hheld : first.along axis = grip.along axis)
    (h : scene.planFrom grip point {} = .ok (plan, trace))
    (h' : scene'.planFrom first point {} = .ok (plan', trace')) : plan'.achieved.along axis = plan.achieved.along axis ∧
      List.Forall₂ (Rect.SameSpan axis axis) plan.patch.rects plan'.patch.rects := by
  have hmirrors : scene.Mirrors axis .forward axis scene' := by
    refine mirrors_of_forall₂ (hrects.imp fun _ _ hspan => hspan.reads) (fun i => ?_) (fun side => ?_)
    · simp only [minAlong, hmins]
    · rw [hbounds]
      rfl
  obtain ⟨hachieved, -⟩ := hmirrors.planFrom hs hs' (hheld.trans (Reading.map_forward _).symm) rfl h h'
  obtain ⟨hlength, -⟩ := planFrom_fits hs h
  obtain ⟨hlength', -⟩ := planFrom_fits hs' h'
  refine ⟨hachieved.trans (Reading.map_forward _), ?_⟩
  refine forall₂_of_positions (hlength.trans (hrects.length_eq.trans hlength'.symm)) fun i b b' hb hb' => ?_
  obtain ⟨r, hr⟩ := exists_getElem?_of_length hlength hb
  obtain ⟨r', hr', hspan⟩ := forall₂_of_getElem? hrects hr
  exact hmirrors.sameSpan_planFrom hs hs' hheld rfl h h' hr hr' hspan hb hb'

/-- A plan for two lines is a plan for the one and then one for the other. A region that it leaves in place is left in
place on the way. -/
theorem planFrom_split (hs : scene.Fits) (hsplit : grip.Splits axis first second)
    (h : scene.planFrom grip point {} = .ok (plan, trace))
    (hfirst : scene.planFrom first point {} = .ok (plan', trace')) (hrects : scene'.rects = plan'.patch.rects)
    (hmins : scene'.mins = scene.mins) (hbounds : scene'.bounds = scene.bounds)
    (hsecond : scene'.planFrom second point {} = .ok (plan'', trace'')) :
    plan''.patch.rects = plan.patch.rects ∧ plan.achieved.along axis = plan'.achieved.along axis ∧
      plan.achieved.along axis.cross = plan''.achieved.along axis.cross ∧
        ∀ (i : Nat) (r b : Rect), scene.rects[i]? = some r → plan'.patch.rects[i]? = some b →
          plan.patch.rects[i]? = some r → b = r := by
  have hs' : scene'.Fits := ⟨hbounds ▸ hs.bounds, hrects ▸ (planFrom_fits hs hfirst).2⟩
  have hself : List.Forall₂ (Rect.SameSpan axis axis) scene.rects scene.rects :=
    List.forall₂_same.2 fun _ _ => ⟨rfl, rfl⟩
  have hcross := planFrom_still hs hfirst hsplit.free_cross
  have halong' := planFrom_still hs' hsecond hsplit.free
  obtain ⟨hachieved, halong⟩ := planFrom_along hs hs hself rfl rfl hsplit.held h hfirst
  obtain ⟨hachieved', hcross'⟩ := planFrom_along hs hs' (hrects ▸ hcross) hmins hbounds hsplit.held_cross h hsecond
  rw [hrects] at halong'
  refine ⟨?_, hachieved.symm, hachieved'.symm, fun i r b hr hb hkept => ?_⟩
  · refine List.ext_getElem hcross'.length_eq.symm fun i hi hi' => ?_
    have hb := List.getElem?_eq_getElem hi'
    obtain ⟨mid, hmid, hfirstAlong⟩ := forall₂_of_getElem? halong hb
    obtain ⟨_, hget, hsecondAlong⟩ := forall₂_of_getElem? halong' hmid
    obtain ⟨_, hget', hsecondCross⟩ := forall₂_of_getElem? hcross' hb
    obtain rfl := Option.some.inj (hget.symm.trans (List.getElem?_eq_getElem hi))
    obtain rfl := Option.some.inj (hget'.symm.trans (List.getElem?_eq_getElem hi))
    exact Rect.ext_spans_cross (hfirstAlong.trans hsecondAlong) hsecondCross
  · obtain ⟨_, hget, hfirstAlong⟩ := forall₂_of_getElem? halong hkept
    obtain rfl := Option.some.inj (hb.symm.trans hget)
    obtain ⟨_, hget, hfirstCross⟩ := forall₂_of_getElem? hcross hr
    obtain rfl := Option.some.inj (hb.symm.trans hget)
    exact Rect.ext_spans_cross hfirstAlong hfirstCross

end Scene

namespace Layout

variable {W : Type} {l : Layout W} {axis : Axis} {grip first second : Grip} {point : Point}
  {whole before after : Outcome W Grip}

theorem move_split (hs : l.Sane) (hsplit : grip.Splits axis first second) (h : l.move grip point = .ok whole)
    (hfirst : l.move first point = .ok before) (hsecond : before.layout.move second point = .ok after) :
    after.layout = whole.layout ∧ whole.value.along axis = before.value.along axis ∧
      whole.value.along axis.cross = after.value.along axis.cross := by
  obtain ⟨moved, hmoved, hvalue, hlayout⟩ := move_commits h
  obtain ⟨plan, trace, hplan, hachieved, hwrite⟩ := commitWithin_eq_ok hmoved
  obtain ⟨moved', hmoved', hvalue', hlayout'⟩ := move_commits hfirst
  obtain ⟨plan', trace', hplan', hachieved', hwrite'⟩ := commitWithin_eq_ok hmoved'
  obtain ⟨moved'', hmoved'', hvalue'', hlayout''⟩ := move_commits hsecond
  obtain ⟨plan'', trace'', hplan'', hachieved'', hwrite''⟩ := commitWithin_eq_ok hmoved''
  obtain ⟨hlength, -⟩ := Scene.planFrom_fits hs hplan
  obtain ⟨hlength', -⟩ := Scene.planFrom_fits hs hplan'
  rw [hlayout', hwrite'] at hplan'' hwrite''
  have hrects : ((l.write plan').scene (l.write plan').bounds).rects = plan'.patch.rects := bounds_write hlength'
  obtain ⟨hpatch, halong, hcross, hstays⟩ :=
    Scene.planFrom_split hs hsplit hplan hplan' hrects (write_rearranged l plan').mins rfl hplan''
  refine ⟨?_, by rw [hvalue, hvalue', hachieved, hachieved', halong],
    by rw [hvalue, hvalue'', hachieved, hachieved'', hcross]⟩
  rw [hlayout'', hlayout, hwrite, hwrite'']
  have hplace : (l.store.place plan'.patch.rects).place plan''.patch.rects = l.store.place plan.patch.rects := by
    rw [hpatch]
    have hsize : l.store.bounds.length = l.store.regions.length := List.length_map _
    exact RegionStore.place_place (hlength'.trans hsize) (hlength.trans hsize) hstays
  exact congrArg (fun store => { l with store }) hplace

/-- Moving a corner is moving its lines one after the other, in either order. What is left is the same, marks included,
and so is what the lines have come to. -/
theorem move_corner (hs : l.Sane) {x y : Int} {corner : Outcome W Grip}
    (h : l.move (.corner x y) point = .ok corner) :
    (∀ before after, l.move (.vertical x) point = .ok before → before.layout.move (.horizontal y) point = .ok after →
      after.layout = corner.layout ∧ corner.value = ⟨before.value.x, after.value.y⟩) ∧
    (∀ before after, l.move (.horizontal y) point = .ok before → before.layout.move (.vertical x) point = .ok after →
      after.layout = corner.layout ∧ corner.value = ⟨after.value.x, before.value.y⟩) := by
  refine ⟨fun before after hbefore hafter => ?_, fun before after hbefore hafter => ?_⟩
  · have hsplit : (Grip.corner x y).Splits .x (.vertical x) (.horizontal y) := ⟨rfl, rfl, rfl, rfl⟩
    obtain ⟨hlayout, hx, hy⟩ := move_split hs hsplit h hbefore hafter
    exact ⟨hlayout, congrArg₂ Grip.mk hx hy⟩
  · have hsplit : (Grip.corner x y).Splits .y (.horizontal y) (.vertical x) := ⟨rfl, rfl, rfl, rfl⟩
    obtain ⟨hlayout, hy, hx⟩ := move_split hs hsplit h hbefore hafter
    exact ⟨hlayout, congrArg₂ Grip.mk hx hy⟩

/-- A column before two rows of bricks. -/
def bricks : Layout Unit where
  settings := { sizeRange := some ⟨4, 4⟩ }
  bounds := ⟨0, 0, 30, 20⟩
  store := ⟨[{ id := ⟨1⟩, widget := (), bounds := ⟨0, 0, 10, 20⟩, dirty := false },
    { id := ⟨2⟩, widget := (), bounds := ⟨10, 0, 6, 10⟩, dirty := false },
    { id := ⟨3⟩, widget := (), bounds := ⟨10, 10, 12, 10⟩, dirty := false },
    { id := ⟨4⟩, widget := (), bounds := ⟨16, 0, 14, 10⟩, dirty := false },
    { id := ⟨5⟩, widget := (), bounds := ⟨22, 10, 8, 10⟩, dirty := false }], 6⟩

/-- The column pushes the second brick of the upper row, which is also as low as it may be. -/
theorem move_corner_bricks : bricks.Sane ∧ ∃ corner before after before' after',
    bricks.move (.corner 10 10) ⟨15, 3⟩ = .ok corner ∧ bricks.move (.vertical 10) ⟨15, 3⟩ = .ok before ∧
      before.layout.move (.horizontal 10) ⟨15, 3⟩ = .ok after ∧ bricks.move (.horizontal 10) ⟨15, 3⟩ = .ok before' ∧
        before'.layout.move (.vertical 10) ⟨15, 3⟩ = .ok after' ∧ after.layout = corner.layout ∧
          after'.layout = corner.layout ∧ corner.value = .corner 15 4 ∧
            corner.value = ⟨before.value.x, after.value.y⟩ ∧ corner.value = ⟨after'.value.x, before'.value.y⟩ := by
  have hsane : bricks.Sane := ⟨by decide, by decide⟩
  obtain ⟨corner, h, hvalue⟩ : ∃ corner, bricks.move (.corner 10 10) ⟨15, 3⟩ = .ok corner ∧
      corner.value = .corner 15 4 := ⟨_, rfl, by decide⟩
  obtain ⟨before, hbefore, after, hafter⟩ : ∃ before, bricks.move (.vertical 10) ⟨15, 3⟩ = .ok before ∧
      ∃ after, before.layout.move (.horizontal 10) ⟨15, 3⟩ = .ok after := ⟨_, rfl, _, rfl⟩
  obtain ⟨before', hbefore', after', hafter'⟩ : ∃ before', bricks.move (.horizontal 10) ⟨15, 3⟩ = .ok before' ∧
      ∃ after', before'.layout.move (.vertical 10) ⟨15, 3⟩ = .ok after' := ⟨_, rfl, _, rfl⟩
  obtain ⟨hacross, hdown⟩ := move_corner hsane h
  obtain ⟨hlayout, hsame⟩ := hacross before after hbefore hafter
  obtain ⟨hlayout', hsame'⟩ := hdown before' after' hbefore' hafter'
  exact ⟨hsane, corner, before, after, before', after', h, hbefore, hafter, hbefore', hafter', hlayout, hlayout',
    hvalue, hsame, hsame'⟩

end Layout

end Mosaic
