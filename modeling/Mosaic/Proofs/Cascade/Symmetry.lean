import Mathlib.Data.List.Perm.Basic
import Mosaic.Proofs.Cascade.Mirrored

/-! The four directions are mirrors of each other, and regions have no order. Plans for scenes whose axes are swapped,
that are reflected along an axis, or whose regions are listed in another order are the same up to that. -/
namespace Mosaic

def Size.swap (s : Size) : Size := ⟨s.height, s.width⟩

def Point.swap (p : Point) : Point := ⟨p.y, p.x⟩

def Point.reflect (axis : Axis) (p : Point) : Point :=
  match axis with
  | .x => { p with x := -p.x }
  | .y => { p with y := -p.y }

def Grip.swap (g : Grip) : Grip := ⟨g.y, g.x⟩

def Grip.reflect (axis : Axis) (g : Grip) : Grip := g.set ((g.along axis).map fun line => -line) axis

/-- What is listed at the positions, in their order. -/
def pick {α : Type} (xs : List α) (order : List Nat) : List α := order.filterMap (xs[·]?)

namespace Rect

def swap (r : Rect) : Rect := ⟨r.y, r.x, r.height, r.width⟩

/-- The span along the axis is read from the other end. -/
def reflect (axis : Axis) (r : Rect) : Rect := r.place (-r.far axis) (r.far axis - r.near axis) axis

/-- The edges along the axis stay coordinates when they are negated. -/
def Negatable (axis : Axis) (r : Rect) : Prop := ∀ side, Coord.Fits (-r.edge axis side)

end Rect

namespace Plan

def swap (plan : Plan) : Plan := ⟨plan.held.swap, plan.achieved.swap, ⟨plan.patch.rects.map Rect.swap⟩⟩

def reflect (axis : Axis) (plan : Plan) : Plan :=
  ⟨plan.held.reflect axis, plan.achieved.reflect axis, ⟨plan.patch.rects.map (Rect.reflect axis)⟩⟩

def reorder (order : List Nat) (plan : Plan) : Plan := { plan with patch := ⟨pick plan.patch.rects order⟩ }

end Plan

namespace Scene

def swap (scene : Scene) : Scene where
  rects := scene.rects.map Rect.swap
  mins := scene.mins.map Size.swap
  bounds := scene.bounds.swap

def reflect (axis : Axis) (scene : Scene) : Scene where
  rects := scene.rects.map (Rect.reflect axis)
  mins := scene.mins
  bounds := scene.bounds.reflect axis

/-- The regions are listed in another order, together with their minimums. -/
def reorder (order : List Nat) (scene : Scene) : Scene where
  rects := pick scene.rects order
  mins := pick scene.mins order
  bounds := scene.bounds

end Scene

theorem Grip.along_swap (g : Grip) (axis : Axis) : g.swap.along axis.cross = g.along axis := by cases axis <;> rfl

theorem Grip.along_reflect (g : Grip) (axis : Axis) :
    (g.reflect axis).along axis = (g.along axis).map Reading.backward.coord := by cases axis <;> rfl

theorem Grip.along_reflect_cross (g : Grip) (axis : Axis) :
    (g.reflect axis).along axis.cross = g.along axis.cross := by cases axis <;> rfl

theorem Grip.ext_along {g g' : Grip} (h : ∀ axis, g.along axis = g'.along axis) : g = g' :=
  congrArg₂ Grip.mk (h .x) (h .y)

theorem Point.along_swap (p : Point) (axis : Axis) : p.swap.along axis.cross = p.along axis := by cases axis <;> rfl

theorem Point.along_reflect (p : Point) (axis : Axis) : (p.reflect axis).along axis = -p.along axis := by
  cases axis <;> rfl

theorem Point.along_reflect_cross (p : Point) (axis : Axis) :
    (p.reflect axis).along axis.cross = p.along axis.cross := by cases axis <;> rfl

theorem getElem?_pick {α : Type} {xs : List α} {order : List Nat} (h : ∀ i ∈ order, i < xs.length) (j : Nat) :
    (pick xs order)[j]? = order[j]?.bind (xs[·]?) := by
  induction order generalizing j with
  | nil => rfl
  | cons i order ih =>
    have hi := List.getElem?_eq_getElem (h i List.mem_cons_self)
    rw [pick, List.filterMap_cons_some hi]
    cases j with
    | zero => rw [List.getElem?_cons_zero, List.getElem?_cons_zero, Option.bind_some, hi]
    | succ j => exact ih (fun k hk => h k (List.mem_cons_of_mem _ hk)) j

theorem length_pick {α : Type} {xs : List α} {order : List Nat} (h : ∀ i ∈ order, i < xs.length) :
    (pick xs order).length = order.length := by
  induction order with
  | nil => rfl
  | cons i order ih =>
    rw [pick, List.filterMap_cons_some (List.getElem?_eq_getElem (h i List.mem_cons_self)), List.length_cons]
    exact congrArg Nat.succ (ih fun k hk => h k (List.mem_cons_of_mem _ hk))

namespace Rect

variable {r r' b b' : Rect} {axis axis' : Axis}

theorem sameSpan_swap (r : Rect) (axis : Axis) : SameSpan axis axis.cross r r.swap := by
  cases axis <;> exact ⟨rfl, rfl⟩

theorem Fits.swap (h : r.Fits) : r.swap.Fits := ⟨h.2.1, h.1, h.2.2.2, h.2.2.1⟩

theorem reads_reflect (h : r.Negatable axis) : Reading.backward.Reads axis axis r (r.reflect axis) := by
  rintro (_ | _)
  · have hend : -r.far axis + (r.far axis - r.near axis) = -r.near axis := by omega
    have hfits : Coord.Fits (-r.far axis + (r.far axis - r.near axis)) := hend ▸ h .near
    exact (far_place _ _ hfits).trans hend
  · exact near_place ..

theorem sameSpan_reflect_cross (r : Rect) (axis : Axis) : SameSpan axis.cross axis.cross r (r.reflect axis) :=
  sameAcross_place ..

theorem Fits.reflect (hr : r.Fits) (h : r.Negatable axis) : (r.reflect axis).Fits := by
  have hspan := hr.span axis
  refine (sameAcross_place r _ _ axis).fits hr ?_ ?_
  · rw [near_place]
    exact h .far
  · rw [extent_place]
    exact hspan

theorem IsProper.reflect (hr : r.Fits) (hp : r.IsProper) : (r.reflect axis).IsProper := by
  have hle := near_le_far hr hp axis
  refine (sameAcross_place r _ _ axis).isProper hp ?_
  rw [extent_place]
  omega

theorem sameSpan_reflect (h : r.Negatable axis) (hb' : Respanned axis (r.reflect axis) b')
    (hreads : Reading.backward.Reads axis axis b b') : SameSpan axis axis (b.reflect axis) b' := by
  have hnear : b'.near axis = -b.far axis := hreads .far
  have hfar : b'.far axis = -b.near axis := hreads .near
  have hexact : b'.far axis = b'.near axis + b'.extent axis := by
    rcases hb' with hstays | ⟨hexact, -⟩
    · have hnear' : (r.reflect axis).near axis = -r.far axis := near_place ..
      have hfar' : (r.reflect axis).far axis = -r.near axis := reads_reflect h .near
      have hextent' : (r.reflect axis).extent axis = r.far axis - r.near axis := extent_place ..
      have hfar'' : b'.far axis = (r.reflect axis).far axis := hstays.edge .far
      rw [hfar'', hstays.1, hstays.2]
      omega
    · exact hexact
  refine ⟨hnear.trans (near_place ..).symm, ?_⟩
  rw [reflect, extent_place]
  omega

end Rect

/-- A plan is what it tells of the held lines, and what becomes of each region. -/
theorem Plan.ext_positions {plan plan' : Plan} (hheld : plan'.held = plan.held)
    (hachieved : ∀ axis, plan'.achieved.along axis = plan.achieved.along axis)
    (hlength : plan'.patch.rects.length = plan.patch.rects.length)
    (hrects : ∀ (j : Nat) (b b' : Rect), plan.patch.rects[j]? = some b → plan'.patch.rects[j]? = some b' → b' = b) :
    plan' = plan := by
  obtain ⟨held, achieved, ⟨bs⟩⟩ := plan
  obtain ⟨held', achieved', ⟨bs'⟩⟩ := plan'
  obtain rfl : held' = held := hheld
  obtain rfl : achieved' = achieved := Grip.ext_along hachieved
  obtain rfl : bs' = bs := List.ext_getElem hlength fun j hj hj' =>
    hrects j _ _ (List.getElem?_eq_getElem hj') (List.getElem?_eq_getElem hj)
  rfl

namespace Scene

variable {scene scene' : Scene} {grip grip' : Grip} {point point' : Point} {plan plan' : Plan} {trace trace' : Trace}
  {axis : Axis}

theorem mirrors_swap (scene : Scene) (axis : Axis) : scene.Mirrors axis .forward axis.cross scene.swap := by
  have hreads : ∀ r : Rect, Reading.forward.Reads axis axis.cross r r.swap := fun r => (r.sameSpan_swap axis).reads
  refine mirrors_of_forall₂ (forall₂_map fun r _ => hreads r) (fun i => ?_) (hreads scene.bounds)
  simp only [minAlong, swap, List.getElem?_map]
  cases scene.mins[i]? with
  | none => rfl
  | some min => cases axis <;> rfl

theorem mirrors_reflect (h : ∀ r ∈ scene.bounds :: scene.rects, r.Negatable axis) :
    scene.Mirrors axis .backward axis (scene.reflect axis) :=
  mirrors_of_forall₂ (forall₂_map fun r hr => Rect.reads_reflect (h r (List.mem_cons_of_mem _ hr))) (fun _ => rfl)
    (Rect.reads_reflect (h _ List.mem_cons_self))

theorem mirrors_reflect_cross (scene : Scene) (axis : Axis) :
    scene.Mirrors axis.cross .forward axis.cross (scene.reflect axis) :=
  mirrors_of_forall₂ (forall₂_map fun r _ => (r.sameSpan_reflect_cross axis).reads) (fun _ => rfl)
    (scene.bounds.sameSpan_reflect_cross axis).reads

theorem lt_of_mem_order {order : List Nat} {n : Nat} (h : order.Perm (List.range n)) : ∀ i ∈ order, i < n :=
  fun _ hi => List.mem_range.1 (h.mem_iff.1 hi)

theorem mirrors_reorder {order : List Nat} (h : order.Perm (List.range scene.rects.length))
    (hmins : scene.mins.length = scene.rects.length) (axis : Axis) :
    scene.Mirrors axis .forward axis (scene.reorder order) := by
  have hin := lt_of_mem_order h
  have hmin : ∀ {i j}, order[j]? = some i → (scene.reorder order).minAlong j axis = scene.minAlong i axis := by
    intro i j hj
    simp only [minAlong, reorder, getElem?_pick (hmins.symm ▸ hin), hj, Option.bind_some]
  refine ⟨fun i r hr => ?_, fun j r' hr' => ?_, fun _ => rfl⟩
  · obtain ⟨hi, -⟩ := List.getElem?_eq_some_iff.1 hr
    obtain ⟨j, hj⟩ := List.getElem?_of_mem (h.mem_iff.2 (List.mem_range.2 hi))
    refine ⟨j, r, ?_, fun _ => rfl, hmin hj⟩
    rw [reorder, getElem?_pick hin, hj, Option.bind_some, hr]
  · rw [reorder, getElem?_pick hin, Option.bind_eq_some_iff] at hr'
    obtain ⟨i, hj, hr⟩ := hr'
    exact ⟨i, r', hr, fun _ => rfl, hmin hj⟩

theorem Fits.swap (hs : scene.Fits) : scene.swap.Fits := by
  refine ⟨hs.bounds.swap, fun r' hr' => ?_⟩
  obtain ⟨r, hr, rfl⟩ := List.mem_map.1 hr'
  obtain ⟨hfits, hproper⟩ := hs.rects r hr
  exact ⟨hfits.swap, hproper.2, hproper.1⟩

theorem Fits.reflect (hs : scene.Fits) (h : ∀ r ∈ scene.bounds :: scene.rects, r.Negatable axis) :
    (scene.reflect axis).Fits := by
  refine ⟨hs.bounds.reflect (h _ List.mem_cons_self), fun r' hr' => ?_⟩
  obtain ⟨r, hr, rfl⟩ := List.mem_map.1 hr'
  obtain ⟨hfits, hproper⟩ := hs.rects r hr
  exact ⟨hfits.reflect (h r (List.mem_cons_of_mem _ hr)), hproper.reflect hfits⟩

theorem Fits.reorder (hs : scene.Fits) (order : List Nat) : (scene.reorder order).Fits := by
  refine ⟨hs.bounds, fun r hr => ?_⟩
  obtain ⟨i, -, hi⟩ := List.mem_filterMap.1 hr
  exact hs.rects r (List.mem_of_getElem? hi)

section

variable (hs : scene.Fits) (hplan : scene.planFrom grip point {} = .ok (plan, trace))
include hs hplan

/-- A plan for regions that are mapped one by one, of which is known where each region goes. -/
private theorem planFrom_eq_map {f : Rect → Rect} {achieved : Grip} (hrects : scene'.rects = scene.rects.map f)
    (hs' : scene'.Fits) (hplan' : scene'.planFrom grip' point' {} = .ok (plan', trace'))
    (hachieved : ∀ axis, plan'.achieved.along axis = achieved.along axis)
    (heach : ∀ (j : Nat) (r b b' : Rect), scene.rects[j]? = some r → scene'.rects[j]? = some (f r) →
      plan.patch.rects[j]? = some b → plan'.patch.rects[j]? = some b' → b' = f b) :
    plan' = ⟨grip', achieved, ⟨plan.patch.rects.map f⟩⟩ := by
  obtain ⟨-, -, -, hheld, -⟩ := planFrom_eq_ok hplan'
  obtain ⟨hlength, -⟩ := planFrom_fits hs hplan
  obtain ⟨hlength', -⟩ := planFrom_fits hs' hplan'
  refine Plan.ext_positions hheld hachieved ?_ fun j c b' hc hb' => ?_
  · rw [hlength', hrects, List.length_map, List.length_map, hlength]
  · obtain ⟨b, hb, rfl⟩ := Option.map_eq_some_iff.1 (List.getElem?_map.symm.trans hc)
    obtain ⟨r, hr⟩ := exists_getElem?_of_length hlength hb
    exact heach j r b b' hr (by rw [hrects, List.getElem?_map, hr, Option.map_some]) hb hb'

theorem planFrom_swap (hplan' : scene.swap.planFrom grip.swap point.swap {} = .ok (plan', trace')) :
    plan' = plan.swap := by
  have hgrip := grip.along_swap
  have hpoint := point.along_swap
  obtain ⟨-, -, -, rfl, -⟩ := planFrom_eq_ok hplan
  -- What a plan makes of an axis the other plan makes of the one across it.
  refine planFrom_eq_map hs hplan rfl hs.swap hplan' ?_ fun j r b b' hr hr' hb hb' => ?_
  · have hcross : ∀ axis : Axis, plan'.achieved.along axis.cross = plan.achieved.swap.along axis.cross := by
      intro axis
      obtain ⟨hachieved, -⟩ := (scene.mirrors_swap axis).planFrom hs hs.swap
        ((hgrip axis).trans (Reading.map_forward _).symm) (hpoint axis) hplan hplan'
      rw [hachieved, Reading.map_forward, Grip.along_swap]
    exact Axis.rec (hcross .y) (hcross .x)
  · have hcross : ∀ axis : Axis, Rect.SameSpan axis.cross axis.cross b.swap b' := by
      intro axis
      have hspan := (scene.mirrors_swap axis).sameSpan_planFrom hs hs.swap (hgrip axis) (hpoint axis) hplan hplan' hr
        hr' (r.sameSpan_swap axis) hb hb'
      exact (b.sameSpan_swap axis).symm.trans hspan
    exact Rect.ext_spans (Axis.rec (hcross .y) (hcross .x))

theorem planFrom_reflect (hneg : ∀ r ∈ scene.bounds :: scene.rects, r.Negatable axis)
    (hplan' : (scene.reflect axis).planFrom (grip.reflect axis) (point.reflect axis) {} = .ok (plan', trace')) :
    plan' = plan.reflect axis := by
  have hs' := hs.reflect hneg
  have halong := mirrors_reflect hneg
  have hacross := scene.mirrors_reflect_cross axis
  have hgrip := grip.along_reflect axis
  have hpoint := point.along_reflect axis
  have hgrip' := grip.along_reflect_cross axis
  have hpoint' := point.along_reflect_cross axis
  obtain ⟨-, -, -, rfl, -⟩ := planFrom_eq_ok hplan
  refine planFrom_eq_map hs hplan rfl hs' hplan' (fun other => ?_) fun j r b b' hr hr' hb hb' => ?_
  · rcases other.eq_or_eq_cross axis with rfl | rfl
    · obtain ⟨hachieved, -⟩ := halong.planFrom hs hs' hgrip hpoint hplan hplan'
      rw [hachieved, Grip.along_reflect]
    · obtain ⟨hachieved, -⟩ :=
        hacross.planFrom hs hs' (hgrip'.trans (Reading.map_forward _).symm) hpoint' hplan hplan'
      rw [hachieved, Reading.map_forward, Grip.along_reflect_cross]
  · have hneg' := hneg r (List.mem_cons_of_mem _ (List.mem_of_getElem? hr))
    have hreads := halong.reads_planFrom hs hs' hgrip hpoint hplan hplan' hr hr' (Rect.reads_reflect hneg') hb hb'
    have hspan := hacross.sameSpan_planFrom hs hs' hgrip' hpoint' hplan hplan' hr hr' (r.sameSpan_reflect_cross axis)
      hb hb'
    obtain ⟨_, hget, hrespanned⟩ := forall₂_of_getElem? (planFrom_respanned hs' hplan' axis) hr'
    obtain rfl := Option.some.inj (hb'.symm.trans hget)
    exact Rect.ext_spans_cross (Rect.sameSpan_reflect hneg' hrespanned hreads)
      ((b.sameSpan_reflect_cross axis).symm.trans hspan)

theorem planFrom_reorder {order : List Nat} (horder : order.Perm (List.range scene.rects.length))
    (hmins : scene.mins.length = scene.rects.length)
    (hplan' : (scene.reorder order).planFrom grip point {} = .ok (plan', trace')) : plan' = plan.reorder order := by
  have hs' := hs.reorder order
  have hmirrors := mirrors_reorder horder hmins
  have hin := lt_of_mem_order horder
  obtain ⟨-, -, -, hheld, -⟩ := planFrom_eq_ok hplan
  obtain ⟨-, -, -, hheld', -⟩ := planFrom_eq_ok hplan'
  obtain ⟨hlength, -⟩ := planFrom_fits hs hplan
  obtain ⟨hlength', -⟩ := planFrom_fits hs' hplan'
  have hin' : ∀ i ∈ order, i < plan.patch.rects.length := hlength.symm ▸ hin
  refine Plan.ext_positions (hheld'.trans hheld.symm) (fun axis => ?_) ?_ fun j b b' hb hb' => ?_
  · obtain ⟨hachieved, -⟩ := (hmirrors axis).planFrom hs hs' (Reading.map_forward _).symm rfl hplan hplan'
    rw [hachieved, Reading.map_forward]
    rfl
  · rw [hlength', reorder, length_pick hin, Plan.reorder, length_pick hin']
  · rw [Plan.reorder, getElem?_pick hin', Option.bind_eq_some_iff] at hb
    obtain ⟨i, hj, hb⟩ := hb
    obtain ⟨r, hr⟩ := exists_getElem?_of_length hlength hb
    have hr' : (scene.reorder order).rects[j]? = some r := by rw [reorder, getElem?_pick hin, hj, Option.bind_some, hr]
    exact Rect.ext_spans fun axis =>
      (hmirrors axis).sameSpan_planFrom hs hs' rfl rfl hplan hplan' hr hr' ⟨rfl, rfl⟩ hb hb'

end

/-- Plans for scenes whose axes are swapped, that are read from the other end of an axis, or whose regions are listed
in another order are the same up to that. -/
theorem plan_symmetric (hs : scene.Fits) (h : scene.plan grip point = .ok plan) :
    (∀ plan', scene.swap.plan grip.swap point.swap = .ok plan' → plan' = plan.swap) ∧
      (∀ axis, (∀ r ∈ scene.bounds :: scene.rects, r.Negatable axis) → ∀ plan',
        (scene.reflect axis).plan (grip.reflect axis) (point.reflect axis) = .ok plan' → plan' = plan.reflect axis) ∧
      (scene.mins.length = scene.rects.length → ∀ order, order.Perm (List.range scene.rects.length) → ∀ plan',
        (scene.reorder order).plan grip point = .ok plan' → plan' = plan.reorder order) := by
  obtain ⟨trace, hplan⟩ := exists_planFrom h
  refine ⟨fun plan' h' => ?_, fun axis hneg plan' h' => ?_, fun hmins order horder plan' h' => ?_⟩
  all_goals obtain ⟨trace', hplan'⟩ := exists_planFrom h'
  · exact planFrom_swap hs hplan hplan'
  · exact planFrom_reflect hs hplan hneg hplan'
  · exact planFrom_reorder hs hplan horder hmins hplan'

theorem plan_symmetric_pushedRows : pushedRows.Fits ∧ ∃ plan, pushedRows.plan (.corner 10 10) ⟨15, 3⟩ = .ok plan ∧
    pushedRows.swap.plan (.corner 10 10) ⟨3, 15⟩ = .ok plan.swap ∧
      (pushedRows.reflect .x).plan (.corner (-10) 10) ⟨-15, 3⟩ = .ok (plan.reflect .x) ∧
        (pushedRows.reorder [2, 0, 4, 1, 3]).plan (.corner 10 10) ⟨15, 3⟩ = .ok (plan.reorder [2, 0, 4, 1, 3]) ∧
          plan.patch.rects = [⟨0, 0, 15, 20⟩, ⟨15, 0, 4, 4⟩, ⟨15, 4, 7, 16⟩, ⟨19, 0, 11, 4⟩, ⟨22, 4, 8, 16⟩] := by
  have hs : pushedRows.Fits := ⟨by decide, by decide⟩
  have hnear : ∀ r ∈ pushedRows.bounds :: pushedRows.rects, Coord.Fits (-r.near .x) := by decide
  have hfar : ∀ r ∈ pushedRows.bounds :: pushedRows.rects, Coord.Fits (-r.far .x) := by decide
  obtain ⟨plan, h, hrects⟩ : ∃ plan, pushedRows.plan (.corner 10 10) ⟨15, 3⟩ = .ok plan ∧
      plan.patch.rects = [⟨0, 0, 15, 20⟩, ⟨15, 0, 4, 4⟩, ⟨15, 4, 7, 16⟩, ⟨19, 0, 11, 4⟩, ⟨22, 4, 8, 16⟩] :=
    ⟨_, rfl, by decide⟩
  obtain ⟨swapped, hswapped⟩ : ∃ plan', pushedRows.swap.plan (.corner 10 10) ⟨3, 15⟩ = .ok plan' := ⟨_, rfl⟩
  obtain ⟨reflected, hreflected⟩ : ∃ plan', (pushedRows.reflect .x).plan (.corner (-10) 10) ⟨-15, 3⟩ = .ok plan' :=
    ⟨_, rfl⟩
  obtain ⟨reordered, hreordered⟩ : ∃ plan', (pushedRows.reorder [2, 0, 4, 1, 3]).plan (.corner 10 10) ⟨15, 3⟩ =
      .ok plan' := ⟨_, rfl⟩
  obtain ⟨hswap, hreflect, hreorder⟩ := plan_symmetric hs h
  obtain rfl := hswap swapped hswapped
  obtain rfl := hreflect .x (fun r hr => Side.rec (hnear r hr) (hfar r hr)) reflected hreflected
  obtain rfl := hreorder rfl [2, 0, 4, 1, 3] (by decide) reordered hreordered
  exact ⟨hs, plan, h, hswapped, hreflected, hreordered, hrects⟩

end Scene

end Mosaic
