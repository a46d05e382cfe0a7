import Mosaic.Proofs.Cascade.Floor
import Mosaic.Proofs.Cover.Hull
import Mosaic.Proofs.Cover.Tied

/-! Paved boxes whose lines are moved by plans. Every cell stays in one region, the regions keep their
minimums as a floor, and what is tied to the ends of the box goes along with them. No minimum has to be
more than zero for this, and regions may lie anywhere as long as they have no area. -/
namespace Mosaic

namespace Rect

variable {box box' box'' r b : Rect} {rects bs cs : List Rect} {axis : Axis} {m : Int → Int}
  {floor : Nat → Axis → Int} {i : Nat}

/-- The rectangles pave the box, and their spans lead through it along both axes. No far edge is cut off. -/
structure Woven (box : Rect) (rects : List Rect) : Prop where
  outer : box.Sharp
  sharp : ∀ r ∈ rects, r.Sharp
  paves : box.Paves rects
  leads : ∀ axis, Leads axis rects (box.near axis) (box.far axis)

theorem Tile.woven (ht : Tile box rects) (hbox : box.Solid) (hsharp : ∀ r ∈ rects, r.Sharp) : Woven box rects :=
  ⟨hbox.sharp, hsharp, ht.paves, fun _ => ht.leads hbox⟩

theorem Woven.ordered (h : Woven box rects) (axis : Axis) : ∀ r ∈ rects, r.near axis ≤ r.far axis :=
  fun r hr => (h.sharp r hr).near_le_far axis

/-- What is left of a paved box when lines have been moved, with a floor for each rectangle. -/
structure Reflowed (floor : Nat → Axis → Int) (box : Rect) (rects : List Rect) (box' : Rect)
    (bs : List Rect) : Prop where
  length : bs.length = rects.length
  woven : Woven box' bs
  each : ∀ (i : Nat) (r b : Rect), rects[i]? = some r → bs[i]? = some b →
    Keeps (floor i) r b ∧ ∀ axis, Tied axis box rects r → Tied axis box' bs b

theorem Reflowed.refl (floor : Nat → Axis → Int) (h : Woven box rects) : Reflowed floor box rects box rects := by
  refine ⟨rfl, h, fun i r b hr hb => ?_⟩
  obtain rfl := Option.some.inj (hr.symm.trans hb)
  exact ⟨.refl _ _, fun _ htied => htied⟩

theorem Reflowed.image (h : Reflowed floor box rects box' bs) (hr : rects[i]? = some r) :
    ∃ b, bs[i]? = some b ∧ Keeps (floor i) r b ∧ ∀ axis, Tied axis box rects r → Tied axis box' bs b := by
  obtain ⟨b, hb⟩ := exists_getElem?_of_length h.length.symm hr
  exact ⟨b, hb, h.each i r b hr hb⟩

theorem Reflowed.source (h : Reflowed floor box rects box' bs) (hb : bs[i]? = some b) :
    ∃ r, rects[i]? = some r ∧ Keeps (floor i) r b ∧ ∀ axis, Tied axis box rects r → Tied axis box' bs b := by
  obtain ⟨r, hr⟩ := exists_getElem?_of_length h.length hb
  exact ⟨r, hr, h.each i r b hr hb⟩

theorem Reflowed.trans (h : Reflowed floor box rects box' bs) (h' : Reflowed floor box' bs box'' cs) :
    Reflowed floor box rects box'' cs := by
  refine ⟨h'.length.trans h.length, h'.woven, fun i r c hr hc => ?_⟩
  obtain ⟨b, hb, hkept, htied⟩ := h.image hr
  obtain ⟨hkept', htied'⟩ := h'.each i b c hb hc
  exact ⟨hkept.trans hkept', fun axis ht => htied' axis (htied axis ht)⟩

/-- A tied rectangle with room of its own holds the ends of the box apart. -/
theorem Reflowed.extent_pos (h : Reflowed floor box rects box' bs) (hr : rects[i]? = some r)
    (hspan : r.near axis < r.far axis) (hfloor : 0 < floor i axis) (htied : Tied axis box rects r) :
    0 < box'.extent axis := by
  obtain ⟨b, hb, hkept, htied'⟩ := h.image hr
  have hroom := hkept axis
  obtain ⟨hnear, hfar⟩ := (htied' axis htied).within (h.woven.ordered axis)
  have hends := h.woven.outer.far axis
  omega

/-- Moving the lines of an axis, those of the box along with them. -/
theorem Woven.redraw (h : Woven box rects) (hm : List.Forall₂ (Redrawn axis m) rects bs)
    (hbox : Carried axis m box box') (hfits : box'.Fits)
    (hfar : box'.far axis = box'.near axis + box'.extent axis)
    (hroom : ∀ (i : Nat) (r : Rect), rects[i]? = some r →
      min (r.far axis - r.near axis) (floor i axis) ≤ m (r.far axis) - m (r.near axis)) :
    Reflowed floor box rects box' bs := by
  have hcarried := hm.imp fun _ _ h => h.toCarried
  have hsharp := redrawn_sharp hm h.sharp
  have hordered : ∀ b ∈ bs, b.near axis ≤ b.far axis := fun b hb => (hsharp b hb).near_le_far axis
  have hspan : box'.near axis ≤ box'.far axis := by
    rw [hbox.near, hbox.far]
    exact ((h.leads axis).map (movedWith_of_carried hcarried)).le hordered
  have houter : box'.Sharp := by
    refine ⟨hfits, hbox.across.isProper h.outer.proper (by omega), fun other => ?_⟩
    rcases other.eq_or_eq_cross axis with rfl | rfl
    · exact hfar
    · rw [hbox.across.far, hbox.across.1, hbox.across.2]
      exact h.outer.far _
  refine ⟨hm.length_eq.symm, ⟨houter, hsharp, ?_, fun other => ?_⟩, fun i r b hr hb => ?_⟩
  · exact h.paves.carry (h.outer.near_le_far axis) (h.ordered axis) hbox hcarried hordered
  · rcases other.eq_or_eq_cross axis with rfl | rfl
    · rw [hbox.near, hbox.far]
      exact (h.leads other).map (movedWith_of_carried hcarried)
    · rw [hbox.across.1, hbox.across.far]
      exact (h.leads _).map (movedWith_cross hcarried)
  · obtain ⟨r', hr', hrb⟩ := forall₂_of_getElem?_right hm hb
    obtain rfl : r = r' := Option.some.inj (hr.symm.trans hr')
    exact ⟨hrb.keeps (hroom i r hr), fun other htied => htied.carry hcarried hbox hrb.toCarried⟩

end Rect

namespace Scene

variable {scene : Scene} {held : Grip} {goal : Point} {plan : Plan} {trace trace' : Trace}
  {box box' : Rect} {axis : Axis} {line reached : Option Int} {m : Int → Int}

theorem fits_of_sharp (h : ∀ r ∈ scene.rects, r.Sharp) (hbounds : scene.bounds.Fits) : scene.Fits :=
  ⟨hbounds, fun r hr => ⟨(h r hr).fits, (h r hr).proper⟩⟩

theorem clear_of_sharp (h : ∀ r ∈ scene.rects, r.Sharp) (p : Push) : scene.Clear p := by
  intro _ r hr he _
  have hends := (h r hr).far p.axis
  have hpos := (h r hr).proper.extent_nonneg p.axis
  omega

theorem MovedBy.within (hm : scene.MovedBy axis line reached m) (hs : scene.Fits) {c : Int}
    (hn : scene.bounds.near axis ≤ c) (hf : c ≤ scene.bounds.far axis) :
    scene.bounds.near axis ≤ m c ∧ m c ≤ scene.bounds.far axis := by
  rcases hm with ⟨-, -, rfl⟩ | ⟨_, _, -, -, hm⟩
  · exact ⟨hn, hf⟩
  · exact hm.within hs hn hf

theorem planLines_within (hs : scene.Fits) (hsteady : scene.Steady held) (hsound : trace.Sound scene)
    (hfresh : trace.commits = []) (h : scene.planLines held goal trace = .ok (plan, trace')) (axis : Axis)
    (hwithin : ∀ m, scene.MovedBy axis (held.along axis) (plan.achieved.along axis) m →
      ∀ c, box.near axis ≤ c → c ≤ box.far axis → box.near axis ≤ m c ∧ m c ≤ box.far axis)
    (hin : ∀ r ∈ scene.rects, Rect.Within axis box r) : ∀ b ∈ plan.patch.rects, Rect.Within axis box b := by
  obtain ⟨x, y, mid, hx, hy, hmid, hpatch, -⟩ := planLines_moved hs hsteady hsound hfresh h
  have hstays : ∀ m, scene.MovedBy axis (held.along axis) (plan.achieved.along axis) m →
      ∀ r ∈ scene.rects, box.near axis ≤ m (r.near axis) ∧ m (r.far axis) ≤ box.far axis := by
    intro m hm r hr
    obtain ⟨hnear, hfar⟩ := hin r hr
    have hspan := Rect.near_le_far (hs.rects r hr).1 (hs.rects r hr).2 axis
    exact ⟨(hwithin m hm _ hnear (by omega)).1, (hwithin m hm _ (by omega) hfar).2⟩
  intro b hb
  obtain ⟨q, hq, hqb⟩ := forall₂_of_mem hpatch hb
  obtain ⟨r, hr, hrq⟩ := forall₂_of_mem hmid hq
  unfold Rect.Within
  cases axis
  · rw [show b.near .x = q.near .x from hqb.across.1, show b.far .x = q.far .x from hqb.across.far,
      hrq.near, hrq.far]
    exact hstays x hx r hr
  · rw [hqb.near, hqb.far, show q.near .y = r.near .y from hrq.across.1,
      show q.far .y = r.far .y from hrq.across.far]
    exact hstays y hy r hr

/-- A plan leaves of a paved box what it makes of the box, whose edges have gone along with the lines. -/
theorem planLines_reflowed (hs : scene.Fits) (hsteady : scene.Steady held) (hsound : trace.Sound scene)
    (hfresh : trace.commits = []) (h : scene.planLines held goal trace = .ok (plan, trace'))
    (hwoven : box.Woven scene.rects) (hfits : box'.Fits)
    (hfar : ∀ axis, box'.far axis = box'.near axis + box'.extent axis)
    (hedges : ∀ axis m, scene.MovedBy axis (held.along axis) (plan.achieved.along axis) m →
      ∀ side, box'.edge axis side = m (box.edge axis side)) :
    Rect.Reflowed scene.minAlong box scene.rects box' plan.patch.rects := by
  obtain ⟨x, y, mid, hx, hy, hmid, hpatch, -⟩ := planLines_moved hs hsteady hsound hfresh h
  have hedgesX := hedges .x x hx
  have hedgesY := hedges .y y hy
  -- The box whose edges have been moved along the first axis only.
  have hboxX : Rect.Carried .x x box ⟨box'.x, box.y, box'.width, box.height⟩ :=
    ⟨hedgesX .near, hedgesX .far, rfl, rfl⟩
  have hboxY : Rect.Carried .y y ⟨box'.x, box.y, box'.width, box.height⟩ box' :=
    ⟨hedgesY .near, hedgesY .far, rfl, rfl⟩
  obtain ⟨hfitsX, hfitsY, hfitsW, hfitsH⟩ := hfits
  obtain ⟨-, holdY, -, holdH⟩ := hwoven.outer.fits
  have hfirst : Rect.Reflowed scene.minAlong box scene.rects _ mid :=
    hwoven.redraw hmid hboxX ⟨hfitsX, holdY, hfitsW, holdH⟩ (hfar .x) fun i r hr => hx.room hs hr
  refine hfirst.trans (hfirst.woven.redraw hpatch hboxY ⟨hfitsX, hfitsY, hfitsW, hfitsH⟩ (hfar .y) ?_)
  intro i q hq
  obtain ⟨r, hr, hrq⟩ := forall₂_of_getElem?_right hmid hq
  rw [show q.near .y = r.near .y from hrq.across.1, show q.far .y = r.far .y from hrq.across.far]
  exact hy.room hs hr

/-- A plan that moves lines inside the bounds leaves a box in place that has the same ends wherever a line
is moved. -/
theorem planFrom_fixed (hs : scene.Fits) (hends : ∀ axis line, scene.movable held axis = some line →
      scene.bounds.near axis = box.near axis ∧ scene.bounds.far axis = box.far axis)
    (hm : scene.MovedBy axis ((scene.moving held).along axis) reached m) : box.FixedBy axis m := by
  rw [along_moving] at hm
  cases hline : scene.movable held axis with
  | none =>
    rw [hline] at hm
    rcases hm with ⟨-, -, rfl⟩ | ⟨_, _, hsome, -⟩
    · exact ⟨rfl, rfl, fun _ hn hf => ⟨hn, hf⟩⟩
    · cases hsome
  | some line =>
    obtain ⟨hnear, hfar⟩ := hends axis line hline
    obtain ⟨hfirst, hlast, hwithin⟩ := hm.fixed hs fun c hc => (movable_eq_some hc).2
    rw [hnear, hfar] at hwithin
    exact ⟨hnear ▸ hfirst, hfar ▸ hlast, hwithin⟩

theorem planFrom_reflowed (hs : scene.Fits) (h : scene.planFrom held goal {} = .ok (plan, trace'))
    (hwoven : box.Woven scene.rects) (hends : ∀ axis line, scene.movable held axis = some line →
      scene.bounds.near axis = box.near axis ∧ scene.bounds.far axis = box.far axis) :
    Rect.Reflowed scene.minAlong box scene.rects box plan.patch.rects := by
  obtain ⟨moved, hmoved, hpatch, -⟩ := planFrom_eq_ok h
  rw [hpatch]
  refine planLines_reflowed hs (steady_moving hs held) (Trace.sound_empty scene) rfl hmoved hwoven
    hwoven.outer.fits hwoven.outer.far fun axis m hm side => ?_
  have hfixed := planFrom_fixed hs hends hm
  cases side
  · exact hfixed.near.symm
  · exact hfixed.far.symm

theorem planFrom_within (hs : scene.Fits) (h : scene.planFrom held goal {} = .ok (plan, trace'))
    (hends : ∀ axis line, scene.movable held axis = some line →
      scene.bounds.near axis = box.near axis ∧ scene.bounds.far axis = box.far axis)
    (hin : ∀ r ∈ scene.rects, Rect.Within axis box r) : ∀ b ∈ plan.patch.rects, Rect.Within axis box b := by
  obtain ⟨moved, hmoved, hpatch, -⟩ := planFrom_eq_ok h
  rw [hpatch]
  exact planLines_within hs (steady_moving hs held) (Trace.sound_empty scene) rfl hmoved axis
    (fun m hm => (planFrom_fixed hs hends hm).within) hin

end Scene

end Mosaic
