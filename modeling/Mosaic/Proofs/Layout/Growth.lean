import Mosaic.Proofs.Layout.Stages
import Mosaic.Proofs.Layout.Undersized

/-! Letting a container grow where the regions have their minimums. Its far line takes the regions along that end
there, and what they have gained is handed to the anchor: the far line of the anchor goes as far, and the lines past
it make room. Only regions between the two lines can get smaller then. -/
namespace Mosaic

namespace Scene

variable {scene : Scene} {axis : Axis} {line reached far gain : Int} {m arrangement : Int → Int}

/-- A line at which no region begins goes ahead alone. -/
theorem Moved.outward (h : scene.Moved axis line reached m) (hs : scene.Fits)
    (hout : ∀ r ∈ scene.rects, r.extent axis ≠ 0 → r.near axis ≠ line) (hle : line ≤ reached) :
    m line = reached ∧ ∀ c, c ≠ line → m c = c := by
  refine ⟨h.held hs, fun c hother => ?_⟩
  rcases Int.lt_or_eq_of_le hle with hlt | rfl
  · obtain ⟨-, hm⟩ := h.up hlt
    rcases (hm c).attains with hstill | ⟨q, hq, hline, -⟩
    · exact hstill
    · rcases Relation.ReflTransGen.cases_head hq with rfl | ⟨_, ⟨i, r, hc, -⟩, -⟩
      · exact absurd hline.symm hother
      · exact absurd hc.edge (hout r (List.mem_of_getElem? hc.get) hc.extent)
  · rcases h with ⟨-, rfl⟩ | ⟨side, hroot, -⟩
    · rfl
    · exact absurd hroot.ahead (Int.lt_irrefl _)

theorem Moved.le_of_accommodates (h : scene.Moved axis line reached m) (hs : scene.Fits) (hlt : line < reached)
    (harranged : scene.Accommodates ⟨axis, .near, line, reached⟩ arrangement) (c : Int) :
    m c = c ∨ m c ≤ arrangement c := by
  obtain ⟨-, hm⟩ := h.up hlt
  rcases (hm c).attains with hstill | ⟨q, hq, rfl, hgoal⟩
  · exact .inl hstill
  · right
    rw [← hgoal]
    simpa [Push.dir, Side.inward] using (harranged.follows hs hq).1

/-- The lines from the given one on go ahead by the gain, but not past where the far line has come by it. -/
def handOut (line far gain c : Int) : Int := if c < line then c else min (c + gain) (far + gain)

/-- What the regions at the far end have gained makes room for a line inside to go as far. -/
theorem accommodates_handOut (hgain : 0 < gain) (hline : line < far) (hend : scene.bounds.far axis = far + gain)
    (hopened : ∀ (i : Nat) (r : Rect), scene.rects[i]? = some r → 0 < r.extent axis → r.near axis < far ∧
      (r.far axis < far ∧ scene.minAlong i axis ≤ r.far axis - r.near axis ∨
        r.far axis = far + gain ∧ scene.minAlong i axis ≤ far - r.near axis)) :
    scene.Accommodates ⟨axis, .near, line, line + gain⟩ (handOut line far gain) := by
  have hle : ∀ c, handOut line far gain c ≤ far + gain := by
    intro c
    unfold handOut
    split <;> omega
  refine ⟨?_, ?_, fun r _ => ?_, fun i r hr hextent => ?_⟩
  all_goals
    simp only [Push.dir, Side.inward, Direction.pos_up, Side.flip, Scene.stop, Rect.edge, hend]
  · rw [handOut, if_neg (Int.lt_irrefl _)]
    omega
  · exact hle line
  · exact hle (r.far axis)
  · have hspan := hopened i r hr hextent
    have hmin := scene.minAlong_nonneg i axis
    unfold handOut
    split <;> split <;> omega

theorem Moved.handOut (h : scene.Moved axis line (line + gain) m) (hs : scene.Fits) (hgain : 0 < gain)
    (hend : scene.bounds.far axis = far + gain)
    (hroom : scene.Accommodates ⟨axis, .near, line, line + gain⟩ (handOut line far gain)) :
    m (far + gain) = far + gain ∧ ∀ c, (c ≤ m c ∧ m c ≤ c + gain) ∧ (c < line → m c = c) := by
  obtain ⟨hroot, hm⟩ := h.up (by omega)
  refine ⟨?_, fun c => ⟨⟨?_, ?_⟩, fun hbefore => ?_⟩⟩
  · rw [← hend]
    exact (hm _).stop hs hroot rfl
  · simpa [Push.dir, Side.inward] using (hm c).le hs hroot
  · rcases h.le_of_accommodates hs (by omega) hroom c with hstill | hle
    · omega
    · unfold Scene.handOut at hle
      split at hle <;> omega
  · exact (hm c).behind hs hroot (by simpa [Push.dir, Side.inward] using hbefore)

end Scene

namespace Layout

variable {W : Type} {l : Layout W} {range : SizeRange} {box target limits : Rect} {axis : Axis} {gain : Int}
  {m m' : Int → Int}

/-- The far line of the box alone has gone ahead. -/
structure Opens (box : Rect) (axis : Axis) (gain : Int) (m : Int → Int) : Prop where
  far : m (box.far axis) = box.far axis + gain
  others : ∀ c, c ≠ box.far axis → m c = c

/-- Where the lines of an axis go when a box has grown along it. None goes back, or further ahead than the far line
of the box. That goes by the whole gain, as does the far line of an anchor inside the box, and of the others only
those past the anchor's leave their places. -/
structure Widens (l : Layout W) (box : Rect) (axis : Axis) (gain : Int) (m : Int → Int) : Prop where
  ahead : ∀ c, c ≤ m c ∧ m c ≤ c + gain
  far : m (box.far axis) = box.far axis + gain
  anchor : ∀ anchor, l.anchorBounds? = some anchor → anchor.far axis < box.far axis →
    m (anchor.far axis) = anchor.far axis + gain
  still : ∀ c < box.far axis, (∀ anchor, l.anchorBounds? = some anchor → anchor.far axis < box.far axis →
    c < anchor.far axis) → m c = c

/-- What ends where the box does, or begins before an anchor inside it ends, gets no smaller. -/
theorem Widens.span_le (h : Widens l box axis gain m) {near far : Int} (hspan : near < far)
    (hin : far ≤ box.far axis) (hplace : gain = 0 ∨ far = box.far axis ∨
      ∀ anchor, l.anchorBounds? = some anchor → anchor.far axis < box.far axis → near < anchor.far axis) :
    far - near ≤ m far - m near := by
  obtain ⟨hfar, -⟩ := h.ahead far
  obtain ⟨-, hnear⟩ := h.ahead near
  rcases hplace with rfl | rfl | hbefore
  · omega
  · rw [h.far]
    omega
  · rw [h.still near (by omega) hbefore]
    omega

section

variable (h : Opens box axis gain m) (hgain : 0 ≤ gain)
include h hgain

theorem Opens.ahead (c : Int) : c ≤ m c ∧ m c ≤ c + gain := by
  by_cases hline : c = box.far axis
  · rw [hline, h.far]
    omega
  · rw [h.others c hline]
    omega

theorem Opens.widens (hno : ∀ anchor, l.anchorBounds? = some anchor → anchor.far axis < box.far axis → gain = 0) :
    Widens l box axis gain m := by
  refine ⟨h.ahead hgain, h.far, fun anchor hanchor hinside => ?_, fun c hc _ => h.others c (Int.ne_of_lt hc)⟩
  rw [h.others _ (Int.ne_of_lt hinside), hno anchor hanchor hinside, Int.add_zero]

theorem Opens.widens_handOut {anchor : Rect} (hanchor : l.anchorBounds? = some anchor)
    (hinside : anchor.far axis < box.far axis) (hheld : m' (anchor.far axis) = anchor.far axis + gain)
    (hlast : m' (box.far axis + gain) = box.far axis + gain)
    (hbetween : ∀ c, (c ≤ m' c ∧ m' c ≤ c + gain) ∧ (c < anchor.far axis → m' c = c)) :
    Widens l box axis gain (m' ∘ m) := by
  refine ⟨fun c => ?_, ?_, fun other hother _ => ?_, fun c hc hbefore => ?_⟩
  · by_cases hline : c = box.far axis
    · rw [Function.comp_apply, hline, h.far, hlast]
      omega
    · rw [Function.comp_apply, h.others c hline]
      exact (hbetween c).1
  · rw [Function.comp_apply, h.far, hlast]
  · obtain rfl := Option.some.inj (hanchor.symm.trans hother)
    rw [Function.comp_apply, h.others _ (Int.ne_of_lt hinside), hheld]
  · rw [Function.comp_apply, h.others c (Int.ne_of_lt hc)]
    exact (hbetween c).2 (hbefore anchor hanchor hinside)

end

namespace Course

variable {growth : Size} {o : Outcome W Rect} {shifted : Layout W} {inward corner outward : Aim}
  {first third : Outcome W Unit} {second : Outcome W Size}
  (h : Course l box target o shifted limits growth inward corner outward first third second)
  (hstill : ∀ axis, target.near axis = box.near axis) (hgrows : ∀ axis, box.extent axis ≤ target.extent axis)
  (hbox : box.Solid)
include h

theorem rearranged : Rearranged l second.layout :=
  (h.moved.rearranged.trans h.first_reflow.1.rearranged).trans h.second_reflow.rearranged

include hstill hbox in
theorem far_still (axis : Axis) : (movedTo box target).far axis = box.far axis := by
  rw [h.far_moved hbox, hstill, Int.sub_self, Int.add_zero]

include hgrows

theorem growth_of_grows (axis : Axis) : growth.along axis = target.extent axis - box.extent axis ∧
    second.value.along axis = growth.along axis ∧ 0 ≤ growth.along axis := by
  have hasked := hgrows axis
  have hgrowth := (h.found axis).1 (by omega)
  have hgain := (h.gained axis).1 (by omega)
  exact ⟨hgrowth, hgain, by omega⟩

include hstill hbox

/-- The anchor does not give way, and so the far line goes ahead alone. -/
theorem exists_opens (axis : Axis) : ∃ m, Rect.MovedWith axis m l.store.bounds second.layout.store.bounds ∧
    Opens box axis (growth.along axis) m := by
  have hfar := h.far_still hstill hbox axis
  obtain ⟨-, hgain, hforth⟩ := h.growth_of_grows hgrows axis
  have hnone := h.inward_none hforth
  obtain ⟨hflow, hin⟩ := h.first_reflow
  obtain ⟨given, m, hm⟩ := commitAim_drawn h.fits h.first_eq axis
  obtain ⟨achieved, m', hm', hvalue⟩ := commitCorner_drawn h.fits_first hflow.woven.sharp h.corner_at h.second_eq axis
  have hedges : Rect.MovedWith axis m' l.store.bounds second.layout.store.bounds := by
    have hall := ((h.edges axis).trans hm.edges).trans hm'.edges
    have hsame : m' ∘ m ∘ (· + (target.near axis - box.near axis)) = m' := by
      funext c
      simp [hm.eq_id (by rw [Scene.movable, hnone]; rfl), hstill]
    rwa [hsame] at hall
  refine ⟨m', hedges, ?_⟩
  rcases h.corner_at axis with ⟨hnone, hzero⟩ | ⟨hheld, -, -⟩
  · rw [hm'.eq_id hnone, hzero]
    exact ⟨(Int.add_zero _).symm, fun _ _ => rfl⟩
  · obtain ⟨reached, hreached, -, hmoved⟩ := hm'.of_some hheld
    rw [hreached, grown, hfar] at hvalue
    rw [hfar] at hmoved
    have hout : ∀ r ∈ first.layout.store.bounds, r.extent axis ≠ 0 → r.near axis ≠ box.far axis := by
      intro r hr hextent
      have hnonneg := (hflow.woven.sharp r hr).proper.extent_nonneg axis
      have hends := (hflow.woven.sharp r hr).far axis
      obtain ⟨-, hlast⟩ := hin axis r hr
      omega
    obtain ⟨hend, hothers⟩ := hmoved.outward h.fits_first hout (by omega)
    exact ⟨by omega, hothers⟩

variable (ht : box.Tile l.store.bounds) (hsolid : ∀ r ∈ l.store.bounds, r.Solid)
  (hample : (l.scene l.bounds).Ample axis)
include ht hsolid hample

omit hgrows in
theorem accommodates_of_opens (hm : Rect.MovedWith axis m l.store.bounds second.layout.store.bounds)
    (hopens : Opens box axis (growth.along axis) m) {line : Int} (hline : line < box.far axis)
    (hpos : 0 < growth.along axis) : limits.far axis = box.far axis + growth.along axis ∧
      (second.layout.scene limits).Accommodates ⟨axis, .near, line, line + growth.along axis⟩
        (Scene.handOut line (box.far axis) (growth.along axis)) := by
  have hlimit : limits.far axis = box.far axis + growth.along axis := by
    rw [h.bounding.far_eq (h.corner_at axis), h.far_still hstill hbox, Int.max_eq_left (Int.le_of_lt hpos)]
  refine ⟨hlimit, Scene.accommodates_handOut hpos hline hlimit fun i b hb _ => ?_⟩
  obtain ⟨r, hr, hrb⟩ := forall₂_of_getElem?_right hm hb
  have hspan := (hsolid r (List.mem_of_getElem? hr)).near_lt_far axis
  have hin := (ht.1 r (List.mem_of_getElem? hr)).2.edges axis
  have hfirst : b.near axis = m (r.near axis) := hrb .near
  have hlast : b.far axis = m (r.far axis) := hrb .far
  have hmin : (second.layout.scene limits).minAlong i axis ≤ r.far axis - r.near axis := by
    have hfloor : second.layout.floor i axis = l.floor i axis := by rw [h.rearranged.floor]
    exact Int.le_trans (Int.le_of_eq hfloor) (hample i r hr)
  rw [hopens.others _ (by omega)] at hfirst
  refine ⟨by omega, ?_⟩
  by_cases hends : r.far axis = box.far axis
  · rw [hends, hopens.far] at hlast
    exact .inr ⟨hlast, by omega⟩
  · rw [hopens.others _ hends] at hlast
    exact .inl ⟨by omega, by omega⟩

theorem exists_widens : ∃ m, Rect.MovedWith axis m l.store.bounds third.layout.store.bounds ∧
    Widens l box axis (growth.along axis) m := by
  have hfar := h.far_still hstill hbox axis
  obtain ⟨-, hgain, hforth⟩ := h.growth_of_grows hgrows axis
  obtain ⟨m, hm, hopens⟩ := h.exists_opens hstill hgrows hbox axis
  have hs := h.fits_second
  obtain ⟨achieved, m', hm'⟩ := commitAim_drawn hs h.third_eq axis
  refine ⟨m' ∘ m, hm.trans hm'.edges, ?_⟩
  rcases aimOutward_eq_ok h.outward_eq axis with ⟨hnone, hno⟩ | ⟨anchor', hanchor', hheld, hgoal, hpos, hbefore⟩
  · rw [hm'.eq_id (by rw [Scene.movable, hnone]; rfl)]
    refine hopens.widens hforth fun anchor hanchor hinside => ?_
    obtain ⟨anchor', hanchor', hmoved⟩ := h.rearranged.anchor_moved hm hanchor
    have hsame : anchor'.far axis = m (anchor.far axis) := hmoved .far
    rw [hopens.others _ (Int.ne_of_lt hinside)] at hsame
    have hnot := hno anchor' hanchor'
    omega
  · obtain ⟨anchor, hanchor, hmoved⟩ := h.rearranged.anchor_source hm hanchor'
    have hmem := mem_of_anchorBounds? hanchor
    have hspan := (hsolid anchor hmem).near_lt_far axis
    have hin := (ht.1 anchor hmem).2.edges axis
    have hsame : anchor'.edge axis .far = m (anchor.far axis) := hmoved .far
    have hinside : anchor.far axis < box.far axis := by
      refine lt_of_le_of_ne hin.2 fun hline => ?_
      rw [hline, hopens.far] at hsame
      change anchor'.far axis = _ at hsame
      omega
    rw [hopens.others _ (Int.ne_of_lt hinside)] at hsame
    obtain ⟨hlimit, hroom⟩ := h.accommodates_of_opens hstill hbox ht hsolid hample hm hopens hinside (by omega)
    have hnear : limits.near axis = box.near axis := by rw [h.bounding.near, near_movedTo, hstill]
    have hmovable : (second.layout.scene limits).movable outward.held axis = some (anchor'.edge axis .far) :=
      Scene.movable_of_edge (mem_of_anchorBounds? hanchor') hheld (by simp only [scene]; omega)
    obtain ⟨reached, -, hprobed, hmoved'⟩ := hm'.of_some hmovable
    change outward.goal.along axis = anchor'.edge axis .far + _ at hgoal
    rw [hsame] at hmoved' hprobed hgoal
    rw [hgoal, hgain] at hprobed
    obtain rfl : reached = anchor.far axis + growth.along axis :=
      (hprobed.up (by omega)).eq_goal (by simp [Push.dir, Side.inward]; omega) (hroom.feasible hs)
    obtain ⟨hlast, hbetween⟩ := hmoved'.handOut hs (by omega) hlimit hroom
    exact hopens.widens_handOut hforth hanchor hinside (hmoved'.held hs) hlast hbetween

end Course

/-- Along the axis, the region begins past the far edge of an anchor and ends before the container does. -/
def PastAnchor (l : Layout W) (axis : Axis) (r : Rect) : Prop :=
  ∃ anchor, l.anchorBounds? = some anchor ∧ anchor.far axis ≤ r.near axis ∧ r.far axis < l.bounds.far axis

/-- A resize has let the container grow to the target. The regions keep their minimums. Only such as lie between an
anchor and the end of the container may have got smaller, along an axis on which the container has grown, and an
anchor inside has got larger by as much as the container. -/
structure Enlarged (range : SizeRange) (l : Layout W) (target : Rect) (o : Outcome W Rect) : Prop where
  value : o.value = o.layout.bounds
  extent : ∀ axis, o.value.extent axis = target.extent axis
  regions : List.Forall₂ (fun r b => b.id = r.id ∧ ∀ axis,
    (r.minSize.getD range.min).along axis ≤ b.bounds.extent axis ∧
      (¬ (l.bounds.extent axis < target.extent axis ∧ l.PastAnchor axis r.bounds) →
        r.bounds.extent axis ≤ b.bounds.extent axis)) l.store.regions o.layout.store.regions
  anchor : ∀ anchor, l.anchorBounds? = some anchor → ∃ after, o.layout.anchorBounds? = some after ∧
    ∀ axis, anchor.far axis < l.bounds.far axis →
      after.extent axis = anchor.extent axis + (target.extent axis - l.bounds.extent axis)

section

variable (h : Occupied range l) (hroom : HasMinimums range l)
include h

theorem Course.uncut {growth : Size} {o : Outcome W Rect} {shifted : Layout W} {inward corner outward : Aim}
    {first third : Outcome W Unit} {second : Outcome W Size}
    (hcourse : Course l l.bounds.trimmed target o shifted limits growth inward corner outward first third second)
    (hbox : l.bounds.trimmed.Solid) (hstill : ∀ axis, target.near axis = l.bounds.near axis)
    (hgrows : ∀ axis, l.bounds.extent axis ≤ target.extent axis) : l.bounds.trimmed = l.bounds := by
  have hextent : ∀ axis, l.bounds.trimmed.extent axis = l.bounds.extent axis := by
    intro axis
    have hasked := hgrows axis
    have hspan := Rect.span_le_extent h.container h.proper axis
    have hgrowth := (hcourse.found axis).1 (by rw [Rect.extent_trimmed]; omega)
    rw [Rect.extent_trimmed] at hgrowth ⊢
    rcases hcourse.corner_at axis with ⟨-, hzero⟩ | ⟨-, hgoal, hfits⟩
    · omega
    · have hend := Rect.far_eq l.bounds axis
      have hnear := h.container.near axis
      rw [hcourse.far_moved hbox, Rect.far_trimmed, Rect.near_trimmed, hstill] at hgoal
      unfold Coord.Fits at hfits hnear
      unfold Coord.saturate at hend
      omega
  exact congrArg₂ (Rect.mk l.bounds.x l.bounds.y) (hextent .x) (hextent .y)

include hroom

/-- What the regions have become when the lines of both axes have gone where they do. -/
theorem enlarged_of_widens (hgrows : ∀ axis, l.bounds.extent axis ≤ target.extent axis) {o : Outcome W Rect}
    (hvalue : o.value = o.layout.bounds) (hextent : ∀ axis, o.value.extent axis = target.extent axis)
    (hflow : Reflow l l.bounds o.layout o.layout.bounds)
    (hwidens : ∀ axis, ∃ m, Rect.MovedWith axis m l.store.bounds o.layout.store.bounds ∧
      Widens l l.bounds axis (target.extent axis - l.bounds.extent axis) m) : Enlarged range l target o := by
  have hregions := hflow.regions h.sizeRange h.sharp
  refine ⟨hvalue, hextent, ?_, fun anchor hanchor => ?_⟩
  · refine forall₂_of_positions hregions.length_eq fun i r b hr hb => ?_
    obtain ⟨b', hb', hid, hkept⟩ := forall₂_of_getElem? hregions hr
    obtain rfl := Option.some.inj (hb.symm.trans hb')
    refine ⟨hid, fun axis => ⟨?_, fun hplace => ?_⟩⟩
    · have hmin := hroom.along (List.mem_of_getElem? hr) axis
      exact Int.le_trans (Int.le_min.2 ⟨hmin, Int.le_refl _⟩) (hkept axis)
    · obtain ⟨m, hm, hw⟩ := hwidens axis
      have hrect := bounds_getElem? hr
      obtain ⟨b', hb', hedges⟩ := forall₂_of_getElem? hm hrect
      obtain rfl := Option.some.inj ((bounds_getElem? hb).symm.trans hb')
      have hmem := List.mem_of_getElem? hrect
      have hin := (h.tile.1 _ hmem).2.edges axis
      have hspan := (h.solid _ hmem).near_lt_far axis
      have hwide := hw.span_le hspan hin.2 (by
        rcases Int.lt_or_eq_of_le (hgrows axis) with hlt | heq
        · right
          by_cases hlast : r.bounds.far axis = l.bounds.far axis
          · exact .inl hlast
          · exact .inr fun anchor hanchor _ => Int.not_le.1 fun hpast =>
              hplace ⟨hlt, anchor, hanchor, hpast, lt_of_le_of_ne hin.2 hlast⟩
        · exact .inl (by omega))
      have hends := (h.solid _ hmem).far axis
      have hends' := (hflow.woven.sharp _ (List.mem_of_getElem? (bounds_getElem? hb))).far axis
      have hfirst : b.bounds.near axis = m (r.bounds.near axis) := hedges .near
      have hlast : b.bounds.far axis = m (r.bounds.far axis) := hedges .far
      omega
  · obtain ⟨m, hm, -⟩ := hwidens .x
    obtain ⟨after, hafter, -⟩ := hflow.rearranged.anchor_moved hm hanchor
    refine ⟨after, hafter, fun axis hinside => ?_⟩
    obtain ⟨m, hm, hw⟩ := hwidens axis
    obtain ⟨after', hafter', hedges⟩ := hflow.rearranged.anchor_moved hm hanchor
    obtain rfl := Option.some.inj (hafter.symm.trans hafter')
    have hsolid := h.solid anchor (mem_of_anchorBounds? hanchor)
    have hspan := hsolid.near_lt_far axis
    have hends := hsolid.far axis
    have hends' := (hflow.woven.sharp after (mem_of_anchorBounds? hafter)).far axis
    have hfirst : after.near axis = m (anchor.near axis) := hedges .near
    have hlast : after.far axis = m (anchor.far axis) := hedges .far
    rw [hw.still _ (by omega) fun other hother _ => Option.some.inj (hanchor.symm.trans hother) ▸ hspan] at hfirst
    rw [hw.anchor anchor hanchor hinside] at hlast
    omega

/-- The container may reach past the largest coordinate, but then it has no room to grow. -/
theorem resize_enlarged (htarget : target.Fits) (hstill : ∀ axis, target.near axis = l.bounds.near axis)
    (hgrows : ∀ axis, l.bounds.extent axis ≤ target.extent axis) {o : Outcome W Rect}
    (ho : l.resize target = .ok o) : Enlarged range l target o := by
  have hproper : target.IsProper :=
    ⟨Int.le_trans h.proper.1 (hgrows .x), Int.le_trans h.proper.2 (hgrows .y)⟩
  have hclamped := hproper.clamped_eq
  by_cases hempty : l.store.regions = []
  · obtain ⟨hvalue, hlayout⟩ := resize_empty hempty ho
    refine ⟨by rw [hlayout], fun axis => by rw [hvalue, hclamped], ?_, fun anchor hanchor => ?_⟩
    · rw [hlayout, hempty]
      exact .nil
    · have hmem := mem_of_anchorBounds? hanchor
      rw [RegionStore.bounds, hempty] at hmem
      cases hmem
  have hbox := Rect.solid_trimmed h.container (h.span hempty)
  have hplace : ∀ axis, Coord.Fits (l.bounds.far axis + (target.near axis - l.bounds.near axis)) := fun axis => by
    rw [hstill, Int.sub_self, Int.add_zero]
    exact Rect.fits_far _ axis
  rcases h.resizes (h.span hempty) htarget hplace ho with ⟨hsame, hlayout, hvalue⟩ |
    ⟨followed, shifted, limits, growth, inward, corner, outward, first, third, second, course, hlayout, hvalue⟩
  · rw [hclamped] at hsame
    refine ⟨by rw [hvalue, hlayout], fun axis => by rw [hvalue, hsame], ?_, fun anchor hanchor => ?_⟩
    · rw [hlayout]
      exact List.forall₂_same.2 fun r hr => ⟨rfl, fun axis => ⟨hroom.along hr axis, fun _ => Int.le_refl _⟩⟩
    · rw [hlayout, hsame]
      exact ⟨anchor, hanchor, fun axis _ => by omega⟩
  · rw [hclamped] at course
    have huncut := course.uncut h hbox hstill hgrows
    rw [huncut] at course hbox
    obtain ⟨hanswer, hflow, -⟩ := course.answer
    rw [← hvalue, ← hlayout] at hanswer
    rw [← hlayout] at hflow
    refine enlarged_of_widens h hroom hgrows hanswer (fun axis => ?_) hflow fun axis => ?_
    · obtain ⟨hgrowth, hgain, -⟩ := course.growth_of_grows hgrows axis
      rw [hanswer, hlayout, course.layout_eq, extent_stretched, extent_movedTo]
      omega
    · obtain ⟨m, hm, hw⟩ := course.exists_widens hstill hgrows hbox h.tile h.solid (h.ample hroom axis)
      rw [(course.growth_of_grows hgrows axis).1] at hw
      rw [hlayout, course.layout_eq]
      exact ⟨m, hm, hw⟩

end

/-- Three columns, of which the first one is the anchor. -/
def terrace : Layout Unit where
  settings := { sizeRange := some ⟨10, 10⟩ }
  bounds := ⟨0, 0, 300, 100⟩
  store := ⟨[{ id := ⟨1⟩, widget := (), bounds := ⟨0, 0, 100, 100⟩ },
    { id := ⟨2⟩, widget := (), bounds := ⟨100, 0, 100, 100⟩ },
    { id := ⟨3⟩, widget := (), bounds := ⟨200, 0, 100, 100⟩ }], 4⟩
  anchor := some ⟨1⟩

theorem terrace_tile : terrace.bounds.Tile terrace.store.bounds := by
  have hrest : Rect.Tile ⟨100, 0, 200, 100⟩ [⟨100, 0, 100, 100⟩, ⟨200, 0, 100, 100⟩] :=
    Rect.tile_beside .x (by decide) ⟨⟨rfl, rfl⟩, ⟨rfl, rfl⟩⟩ rfl rfl rfl
  have hfirst : terrace.bounds.Tile [⟨0, 0, 100, 100⟩, ⟨100, 0, 200, 100⟩] :=
    Rect.tile_beside .x (by decide) ⟨⟨rfl, rfl⟩, ⟨rfl, rfl⟩⟩ rfl rfl rfl
  exact (hfirst.perm (.swap ..)).split hrest

/-- The anchor gets the hundred that the container gains. The column next to it is left with its minimum. -/
theorem resize_enlarged_terrace : ∃ o, terrace.resize ⟨0, 0, 400, 100⟩ = .ok o ∧
    o.layout.store.bounds = [⟨0, 0, 200, 100⟩, ⟨200, 0, 10, 100⟩, ⟨210, 0, 190, 100⟩] ∧
    Enlarged ⟨10, 10⟩ terrace ⟨0, 0, 400, 100⟩ o := by
  obtain ⟨o, ho, hbounds⟩ : ∃ o, terrace.resize ⟨0, 0, 400, 100⟩ = .ok o ∧
    o.layout.store.bounds = [⟨0, 0, 200, 100⟩, ⟨200, 0, 10, 100⟩, ⟨210, 0, 190, 100⟩] := ⟨_, rfl, by decide⟩
  have hoccupied : Occupied ⟨10, 10⟩ terrace :=
    ⟨⟨rfl, by decide, by decide, by decide, by decide, terrace_tile⟩, by decide⟩
  exact ⟨o, ho, hbounds, resize_enlarged hoccupied (by decide) (by decide) (Axis.rec (by decide) (by decide))
    (Axis.rec (by decide) (by decide)) ho⟩

/-- When the container grows, no region gets smaller and an anchor inside it gets larger by as much, where starts are
what is asked of the layout and the target besides. -/
def ShrinksNone (Start : Layout Unit → Rect → Prop) : Prop :=
  ∀ (range : SizeRange) (l : Layout Unit) (target : Rect) (o : Outcome Unit Rect), Furnished range l →
    HasMinimums range l → target.Fits → (target.x = l.bounds.x ∧ target.y = l.bounds.y) →
    (l.bounds.width ≤ target.width ∧ l.bounds.height ≤ target.height) →
    Start l target → l.resize target = .ok o →
    List.Forall₂ (fun r b => r.width ≤ b.width ∧ r.height ≤ b.height) l.store.bounds o.layout.store.bounds ∧
    ∀ anchor, l.anchorBounds? = some anchor → ∃ after, o.layout.anchorBounds? = some after ∧
      ∀ axis, anchor.far axis < l.bounds.far axis →
        after.extent axis = anchor.extent axis + (o.value.extent axis - l.bounds.extent axis)

/-- A region past an anchor may get smaller. The far edge of a region may not be cut off, either. -/
theorem not_shrinksNone :
    ¬ ShrinksNone (fun l target => l.bounds.Solid ∧ (∀ r ∈ l.store.bounds, r.Solid) ∧ target.Solid) ∧
    ¬ ShrinksNone (fun l target => l.anchor = none ∧ l.bounds.Solid ∧ target.Solid) := by
  refine ⟨fun h => ?_, fun h => ?_⟩
  · have hfurnished : Furnished ⟨10, 10⟩ terrace := ⟨rfl, by decide, by decide, by decide, by decide, terrace_tile⟩
    obtain ⟨hkept, -⟩ := h _ _ ⟨0, 0, 400, 100⟩ _ hfurnished (by decide) (by decide) (by decide) (by decide)
      ⟨by decide, by decide, by decide⟩ rfl
    exact absurd hkept (by decide)
  · have hfurnished := overlong_furnished (by decide : (1 : Int) ≤ 4)
    obtain ⟨hkept, -⟩ := h _ _ ⟨10, 0, 2147483637, 20⟩ _ hfurnished (by decide) (by decide) (by decide) (by decide)
      ⟨rfl, by decide, by decide⟩ rfl
    exact absurd hkept (by decide)

end Layout

end Mosaic
