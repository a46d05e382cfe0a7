import Mosaic.Proofs.Cascade.Change
import Mosaic.Proofs.Layout.Held

/-! Moves without a size range. No region has a minimum to keep, so what is in the way of a line is pushed flat and
goes along, however many regions that are, and only the container stops the line. -/
namespace Mosaic

namespace Scene

variable {scene : Scene} {axis : Axis} {p q : Push} {grip : Grip} {point : Point} {plan : Plan} {trace : Trace}

/-- No region has a minimum along the axis. -/
def Loose (scene : Scene) (axis : Axis) : Prop := ∀ i, scene.minAlong i axis = 0

theorem Loose.goal_eq (hloose : scene.Loose p.axis) (hq : scene.Follows p q) : q.goal = p.goal := by
  induction hq with
  | refl => rfl
  | @tail q t hq ht ih =>
    obtain ⟨i, r, -, rfl⟩ := ht
    obtain ⟨haxis, -⟩ := Follows.axis_side hq
    calc (scene.handed q i r).goal
      _ = q.goal + q.dir.sign * scene.minAlong i q.axis := rfl
      _ = q.goal := by rw [haxis, hloose i, Int.mul_zero, Int.add_zero]
      _ = p.goal := ih

/-- A push can be made in full unless its goal lies beyond the bounds. -/
theorem Loose.feasible (hloose : scene.Loose p.axis) (hgoal : p.dir.pos p.goal ≤ p.dir.pos (scene.stop p)) :
    scene.Feasible p := by
  intro q hq
  obtain ⟨haxis, hside⟩ := Follows.axis_side hq
  rw [Push.dir, Scene.stop, haxis, hside, hloose.goal_eq hq]
  exact hgoal

theorem Loose.reaches {v : Int} (hloose : scene.Loose p.axis) (h : scene.Reaches p v)
    (hahead : p.dir.pos p.line < p.dir.pos p.goal) (hstop : p.dir.pos p.line < p.dir.pos (scene.stop p)) :
    p.dir.pos v = min (p.dir.pos p.goal) (p.dir.pos (scene.stop p)) := by
  apply Int.le_antisymm
  · by_cases hv : v = p.line
    · subst hv
      omega
    · obtain ⟨hle, hfeasible⟩ := h.moved hv
      exact Int.le_min.2 ⟨hle, hfeasible.le_stop⟩
  · obtain ⟨g, hg⟩ : ∃ g, p.dir.pos g = min (p.dir.pos p.goal) (p.dir.pos (scene.stop p)) :=
      ⟨_, p.dir.pos_nearer p.goal (scene.stop p)⟩
    have hle : p.dir.pos g ≤ p.dir.pos (scene.stop p) := hg ▸ Int.min_le_right _ _
    have hfeasible : scene.Feasible { p with goal := g } := Loose.feasible (p := { p with goal := g }) hloose hle
    exact hg ▸ h.last g (hg ▸ Int.lt_min.2 ⟨hahead, hstop⟩) (hg ▸ Int.min_le_left _ _) hfeasible

theorem Loose.probed {line goal reached : Int} (hloose : scene.Loose axis)
    (hprobed : scene.Probed axis line goal reached) (hnear : scene.bounds.near axis < line)
    (hfar : line < scene.bounds.far axis) :
    reached = max (scene.bounds.near axis) (min goal (scene.bounds.far axis)) := by
  rcases Int.lt_trichotomy line goal with hlt | rfl | hgt
  · have hreached := Loose.reaches (p := ⟨axis, .near, line, goal⟩) hloose (hprobed.up hlt)
    simp only [Push.dir, Side.inward, Direction.pos_up, Scene.stop, Side.flip, Rect.edge] at hreached
    omega
  · rw [hprobed.still rfl]
    omega
  · have hreached := Loose.reaches (p := ⟨axis, .far, line, goal⟩) hloose (hprobed.down hgt)
    simp only [Push.dir, Side.inward, Direction.pos_down, Scene.stop, Side.flip, Rect.edge] at hreached
    omega

/-- A held line that may move is achieved to be where it was to go, within the bounds, and all edges on it are. -/
theorem Loose.planFrom {line : Int} (hloose : scene.Loose axis) (hs : scene.Fits)
    (h : scene.planFrom grip point {} = .ok (plan, trace)) (hline : grip.along axis = some line)
    (hmovable : scene.IsMovable axis line) :
    plan.achieved.along axis =
        some (max (scene.bounds.near axis) (min (point.along axis) (scene.bounds.far axis))) ∧
      List.Forall₂ (fun r b : Rect => ∀ side, r.edge axis side = line →
          some (b.edge axis side) = plan.achieved.along axis) scene.rects plan.patch.rects := by
  obtain ⟨m, hm, hachieved⟩ := planFrom_drawn hs h axis
  obtain ⟨reached, -, hprobed, hmoved⟩ := hm.of_some (movable_eq_some_iff.2 ⟨hline, hmovable⟩)
  rw [hachieved, hline, Option.map_some]
  refine ⟨?_, hm.edges.imp fun r b hedges side hedge => by rw [hedges side, hedge]⟩
  rw [hmoved.held hs, hloose.probed hprobed hmovable.1 hmovable.2.1]

end Scene

namespace Layout

variable {W : Type} {l : Layout W} {held : Grip} {goal : Point}

/-- Held lines inside the container have gone where they were to go, within the container, if some region has an edge
on them, and these edges have. Along an axis on which no such line is held everything has stayed. -/
structure Unhindered (l : Layout W) (held : Grip) (goal : Point) (achieved : Grip) (bounds : List Rect) : Prop where
  reached : ∀ axis line, held.along axis = some line → (l.scene l.bounds).IsMovable axis line →
    achieved.along axis = some (max (l.bounds.near axis) (min (goal.along axis) (l.bounds.far axis))) ∧
      List.Forall₂ (fun r b : Rect => ∀ side, r.edge axis side = line →
        some (b.edge axis side) = achieved.along axis) l.store.bounds bounds
  stayed : ∀ axis, (∀ line, held.along axis = some line → ¬ (l.scene l.bounds).IsMovable axis line) →
    achieved.along axis = held.along axis ∧ List.Forall₂ (Rect.SameAlong axis) l.store.bounds bounds

theorem loose_of_classic (hclassic : l.settings.sizeRange = none) (limits : Rect) (axis : Axis) :
    (l.scene limits).Loose axis := by
  intro i
  simp only [Scene.minAlong, scene, mins, hclassic, List.getElem?_map]
  cases l.store.regions[i]? with
  | none => rfl
  | some r => cases axis <;> rfl

theorem Unhindered.of_planFrom {plan : Plan} {trace : Trace} (hclassic : l.settings.sizeRange = none) (hs : l.Sane)
    (h : (l.scene l.bounds).planFrom held goal {} = .ok (plan, trace)) :
    l.Unhindered held goal plan.achieved plan.patch.rects where
  reached axis line hline hmovable := (loose_of_classic hclassic l.bounds axis).planFrom hs h hline hmovable
  stayed axis hheld := by
    have hstays := Scene.planFrom_stays hs h fun line hline => .inl (hheld line hline)
    exact ⟨hstays, (Scene.planFrom_stays_iff hs h axis).1 hstays⟩

theorem Unhindered.of_commitWithin {o : Outcome W Grip} (hclassic : l.settings.sizeRange = none) (hs : l.Sane)
    (h : l.commitWithin held goal l.bounds = .ok o) : l.Unhindered held goal o.value o.layout.store.bounds := by
  obtain ⟨plan, trace, hplan, hvalue, hlayout⟩ := commitWithin_eq_ok h
  rw [hvalue, hlayout, bounds_write (Scene.planFrom_fits hs hplan).1]
  exact .of_planFrom hclassic hs hplan

/-- Without a size range neighbours are never in the way, neither of a plan nor of a drag nor of a move for good. -/
theorem unhindered_of_classic (hclassic : l.settings.sizeRange = none) (hbounds : l.bounds.Fits)
    (hregions : ∀ r ∈ l.store.bounds, r.Fits ∧ r.IsProper) (held : Grip) (goal : Point) :
    (∀ o, l.plan held goal = .ok o → l.Unhindered held goal o.value.achieved o.value.patch.rects) ∧
      (∀ o, l.drag held goal = .ok o → l.Unhindered held goal o.value o.layout.store.bounds) ∧
        ∀ o, l.move held goal = .ok o → l.Unhindered held goal o.value o.layout.store.bounds := by
  have hs : l.Sane := ⟨hbounds, hregions⟩
  refine ⟨fun o h => ?_, fun o h => ?_, fun o h => ?_⟩
  · obtain ⟨-, trace, hplan⟩ := plan_eq_ok h
    exact .of_planFrom hclassic hs hplan
  · obtain ⟨moved, hmoved, hvalue, hlayout⟩ := drag_commits h
    rw [hvalue, hlayout]
    exact .of_commitWithin hclassic hs hmoved
  · obtain ⟨moved, hmoved, hvalue, hlayout⟩ := move_commits h
    rw [hvalue, hlayout]
    exact .of_commitWithin hclassic hs hmoved

/-- Three columns, a marker on a line between two of them, and a region outside the container. -/
def outlying : Layout Unit where
  bounds := ⟨0, 0, 30, 10⟩
  store := ⟨[{ id := ⟨1⟩, widget := (), bounds := ⟨0, 0, 10, 10⟩ },
    { id := ⟨2⟩, widget := (), bounds := ⟨10, 0, 0, 10⟩ },
    { id := ⟨3⟩, widget := (), bounds := ⟨10, 0, 8, 10⟩, minSize := some ⟨6, 6⟩ },
    { id := ⟨4⟩, widget := (), bounds := ⟨18, 0, 12, 10⟩ },
    { id := ⟨5⟩, widget := (), bounds := ⟨30, 0, 7, 10⟩ }], 6⟩

/-- Two columns are pushed flat against the end of the container. Where no edge is, nothing moves. -/
theorem unhindered_of_classic_outlying : ∃ planned dragged moved,
    outlying.plan (.corner 10 4) ⟨99, 7⟩ = .ok planned ∧ outlying.drag (.corner 10 4) ⟨99, 7⟩ = .ok dragged ∧
      outlying.move (.corner 10 4) ⟨99, 7⟩ = .ok moved ∧
      outlying.Unhindered (.corner 10 4) ⟨99, 7⟩ planned.value.achieved planned.value.patch.rects ∧
      dragged.value.along .x = some 30 ∧ moved.value.along .y = some 4 ∧ moved.layout.store.bounds =
        [⟨0, 0, 30, 10⟩, ⟨30, 0, 0, 10⟩, ⟨30, 0, 0, 10⟩, ⟨30, 0, 0, 10⟩, ⟨30, 0, 7, 10⟩] := by
  obtain ⟨planned, dragged, moved, hplan, hdrag, hmove, hbounds⟩ : ∃ planned dragged moved,
      outlying.plan (.corner 10 4) ⟨99, 7⟩ = .ok planned ∧ outlying.drag (.corner 10 4) ⟨99, 7⟩ = .ok dragged ∧
        outlying.move (.corner 10 4) ⟨99, 7⟩ = .ok moved ∧ moved.layout.store.bounds =
          [⟨0, 0, 30, 10⟩, ⟨30, 0, 0, 10⟩, ⟨30, 0, 0, 10⟩, ⟨30, 0, 0, 10⟩, ⟨30, 0, 7, 10⟩] :=
    ⟨_, _, _, rfl, rfl, rfl, by decide⟩
  obtain ⟨hplanned, hdragged, hmoved⟩ :=
    unhindered_of_classic (l := outlying) rfl (by decide) (by decide) (.corner 10 4) ⟨99, 7⟩
  have hstill : ∀ line, (Grip.corner 10 4).along .y = some line →
      ¬ (outlying.scene outlying.bounds).IsMovable .y line := by
    rintro _ ⟨⟩
    decide
  exact ⟨planned, dragged, moved, hplan, hdrag, hmove, hplanned planned hplan,
    ((hdragged dragged hdrag).reached .x 10 rfl (by decide)).1, ((hmoved moved hmove).stayed .y hstill).1, hbounds⟩

end Layout

end Mosaic
