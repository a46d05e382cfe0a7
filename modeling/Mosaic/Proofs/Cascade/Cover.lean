import Mosaic.Proofs.Cascade.Moved

/-! Plans keep an exact cover exact. They move whole lines, and the lines of the bounds stay. -/
namespace Mosaic

/-- The lines of the box stay, and lines inside it stay inside. -/
structure Rect.FixedBy (box : Rect) (axis : Axis) (m : Int → Int) : Prop where
  near : m (box.near axis) = box.near axis
  far : m (box.far axis) = box.far axis
  within : ∀ c, box.near axis ≤ c → c ≤ box.far axis → box.near axis ≤ m c ∧ m c ≤ box.far axis

namespace Scene

variable {scene : Scene} {held : Grip} {goal : Point} {plan : Plan} {trace trace' : Trace} {box : Rect}

theorem MovedBy.fixed {axis : Axis} {line reached : Option Int} {m : Int → Int}
    (h : scene.MovedBy axis line reached m) (hs : scene.Fits)
    (hinside : ∀ c, line = some c → scene.bounds.near axis < c ∧ c < scene.bounds.far axis) :
    scene.bounds.FixedBy axis m := by
  rcases h with ⟨-, -, rfl⟩ | ⟨line, reached, hline, -, hm⟩
  · exact ⟨rfl, rfl, fun c hn hf => ⟨hn, hf⟩⟩
  · obtain ⟨hn, hf⟩ := hinside line hline
    exact ⟨hm.near hs hn, hm.far hs hf, fun c => hm.within hs⟩

theorem planLines_tile (hs : scene.Fits) (hsteady : scene.Steady held) (hsound : trace.Sound scene)
    (hfresh : trace.commits = []) (h : scene.planLines held goal trace = .ok (plan, trace'))
    (hbox : box.Fits ∧ box.IsProper) (ht : box.Tile scene.rects)
    (hfixed : ∀ axis m, scene.MovedBy axis (held.along axis) (plan.achieved.along axis) m →
      box.FixedBy axis m) :
    plan.patch.rects.length = scene.rects.length ∧ (∀ b ∈ plan.patch.rects, b.Fits) ∧
      box.Tile plan.patch.rects := by
  obtain ⟨x, y, mid, hx, hy, hmid, hpatch, -⟩ := planLines_moved hs hsteady hsound hfresh h
  have hx := hfixed .x x hx
  have hy := hfixed .y y hy
  have hmidFits := Rect.redrawn_fits hmid
  have hpatchFits := Rect.redrawn_fits hpatch
  have hmidTile : box.Tile mid := ht.carry_inside hbox (fun r hr => (hs.rects r hr).1)
    (hmid.imp fun _ _ h => h.toCarried) hmidFits hx.near hx.far hx.within
  refine ⟨hpatch.length_eq.symm.trans hmid.length_eq.symm, fun b hb => (hpatchFits b hb).1, ?_⟩
  exact hmidTile.carry_inside hbox (fun b hb => (hmidFits b hb).1) (hpatch.imp fun _ _ h => h.toCarried)
    hpatchFits hy.near hy.far hy.within

theorem movable_eq_some {axis : Axis} {line : Int} (h : scene.movable held axis = some line) :
    held.along axis = some line ∧ scene.bounds.near axis < line ∧ line < scene.bounds.far axis := by
  obtain ⟨hheld, hinside⟩ := Option.filter_eq_some_iff.1 h
  rw [decide_eq_true_iff] at hinside
  exact ⟨hheld, hinside.1, hinside.2.1⟩

theorem movable_of_edge {axis : Axis} {side : Side} {r : Rect} (hr : r ∈ scene.rects)
    (hheld : held.along axis = some (r.edge axis side))
    (hinside : scene.bounds.near axis < r.edge axis side ∧ r.edge axis side < scene.bounds.far axis) :
    scene.movable held axis = some (r.edge axis side) := by
  refine Option.filter_eq_some_iff.2 ⟨hheld, decide_eq_true ⟨hinside.1, hinside.2, ?_⟩⟩
  have hpositions : scene.index.positions axis side (r.edge axis side) ≠ [] := by
    obtain ⟨i, hi⟩ := List.getElem?_of_mem hr
    rw [scene.index_eq]
    exact List.ne_nil_of_mem (LineIndex.mem_positions_ofRects.2 ⟨r, hi, rfl⟩)
  cases side
  · exact .inl hpositions
  · exact .inr hpositions

/-- The lines that a plan moves. -/
def moving (scene : Scene) (held : Grip) : Grip := ⟨scene.movable held .x, scene.movable held .y⟩

theorem along_moving (scene : Scene) (held : Grip) (axis : Axis) :
    (scene.moving held).along axis = scene.movable held axis := by cases axis <;> rfl

theorem steady_moving (hs : scene.Fits) (held : Grip) : scene.Steady (scene.moving held) := by
  intro axis line hline
  rw [along_moving] at hline
  obtain ⟨-, hn, hf⟩ := movable_eq_some hline
  have hnear := hs.bounds.near axis
  have hfar := Rect.fits_far scene.bounds axis
  refine ⟨hnear.between hfar (Int.le_of_lt hn) (Int.le_of_lt hf), fun goal => Fits.clear hs ?_⟩
  exact Int.lt_of_lt_of_le hf hfar.2

theorem exists_planFrom (h : scene.plan held goal = .ok plan) :
    ∃ trace, scene.planFrom held goal {} = .ok (plan, trace) := by
  obtain ⟨⟨_, trace⟩, hplan, h⟩ := Checked.bind_eq_ok.1 h
  obtain rfl := Checked.pure_eq_ok.1 h
  exact ⟨trace, hplan⟩

theorem planFrom_eq_ok (h : scene.planFrom held goal trace = .ok (plan, trace')) :
    ∃ moved, scene.planLines (scene.moving held) goal trace = .ok (moved, trace') ∧
      plan.patch = moved.patch ∧ plan.held = held ∧
      ∀ axis, plan.achieved.along axis =
        if scene.movable held axis = none then held.along axis else moved.achieved.along axis := by
  obtain ⟨⟨moved, after⟩, hmoved, h⟩ := Checked.bind_eq_ok.1 h
  cases Checked.pure_eq_ok.1 h
  refine ⟨moved, hmoved, rfl, rfl, fun axis => ?_⟩
  cases axis <;> rfl

theorem planFrom_tile (hs : scene.Fits) (hproper : scene.bounds.IsProper)
    (ht : scene.bounds.Tile scene.rects) (h : scene.planFrom held goal {} = .ok (plan, trace')) :
    plan.patch.rects.length = scene.rects.length ∧ (∀ b ∈ plan.patch.rects, b.Fits) ∧
      scene.bounds.Tile plan.patch.rects := by
  obtain ⟨moved, hmoved, hpatch, -⟩ := planFrom_eq_ok h
  rw [hpatch]
  refine planLines_tile hs (steady_moving hs held) (Trace.sound_empty scene) rfl hmoved
    ⟨hs.bounds, hproper⟩ ht fun axis m hm => hm.fixed hs fun c hc => ?_
  rw [along_moving] at hc
  exact (movable_eq_some hc).2

/-- A plan redraws the rectangles along one axis and then along the other. -/
theorem planFrom_redrawn (hs : scene.Fits) (h : scene.planFrom held goal {} = .ok (plan, trace')) :
    ∃ x y mid, List.Forall₂ (Rect.Redrawn .x x) scene.rects mid ∧
      List.Forall₂ (Rect.Redrawn .y y) mid plan.patch.rects := by
  obtain ⟨moved, hmoved, hpatch, -⟩ := planFrom_eq_ok h
  obtain ⟨x, y, mid, -, -, hmid, hlast, -⟩ :=
    planLines_moved hs (steady_moving hs held) (Trace.sound_empty scene) rfl hmoved
  exact ⟨x, y, mid, hmid, hpatch ▸ hlast⟩

theorem planFrom_fits (hs : scene.Fits) (h : scene.planFrom held goal {} = .ok (plan, trace')) :
    plan.patch.rects.length = scene.rects.length ∧ ∀ b ∈ plan.patch.rects, b.Fits ∧ b.IsProper := by
  obtain ⟨x, y, mid, hmid, hlast⟩ := planFrom_redrawn hs h
  exact ⟨hlast.length_eq.symm.trans hmid.length_eq.symm, Rect.redrawn_fits hlast⟩

theorem planFrom_sharp (hs : scene.Fits) (hsharp : ∀ r ∈ scene.rects, r.Sharp)
    (h : scene.planFrom held goal {} = .ok (plan, trace')) : ∀ b ∈ plan.patch.rects, b.Sharp := by
  obtain ⟨x, y, mid, hmid, hlast⟩ := planFrom_redrawn hs h
  exact Rect.redrawn_sharp hlast (Rect.redrawn_sharp hmid hsharp)

/-- A plan keeps the exact cover of the bounds, whatever the minimums, the lines held and the point
they are to go to. -/
theorem plan_tile (hbounds : scene.bounds.Fits) (hproper : scene.bounds.IsProper)
    (hrects : ∀ r ∈ scene.rects, r.Fits) (ht : scene.bounds.Tile scene.rects)
    (h : scene.plan held goal = .ok plan) :
    plan.patch.rects.length = scene.rects.length ∧ (∀ b ∈ plan.patch.rects, b.IsProper) ∧
      scene.bounds.Tile plan.patch.rects := by
  have hs : scene.Fits := ⟨hbounds, fun r hr => ⟨hrects r hr, (ht.1 r hr).1⟩⟩
  obtain ⟨⟨plan', after⟩, hplan, h⟩ := Checked.bind_eq_ok.1 h
  obtain rfl := Checked.pure_eq_ok.1 h
  obtain ⟨hlength, -, htile⟩ := planFrom_tile hs hproper ht hplan
  exact ⟨hlength, fun b hb => (htile.1 b hb).1, htile⟩

/-- Two columns with an empty region on the line between them. -/
def foldedColumn : Scene where
  rects := [⟨0, 0, 10, 10⟩, ⟨10, 0, 0, 10⟩, ⟨10, 0, 20, 10⟩]
  mins := [⟨4, 4⟩, ⟨4, 4⟩, ⟨4, 4⟩]
  bounds := ⟨0, 0, 30, 10⟩

theorem foldedColumn_tile : foldedColumn.bounds.Tile foldedColumn.rects := by
  refine ⟨by decide, fun p hp => ?_⟩
  simp only [foldedColumn, List.countP_cons, List.countP_nil, decide_eq_true_eq]
  simp only [foldedColumn, Rect.Covers, Rect.right, Rect.bottom, Coord.satAdd, Coord.saturate] at hp ⊢
  grind

theorem plan_tile_foldedColumn : ∃ plan, foldedColumn.plan (.vertical 10) ⟨28, 0⟩ = .ok plan ∧
    plan.patch.rects.length = 3 ∧ foldedColumn.bounds.Tile plan.patch.rects := by
  obtain ⟨plan, h⟩ : ∃ plan, foldedColumn.plan (.vertical 10) ⟨28, 0⟩ = .ok plan := ⟨_, rfl⟩
  obtain ⟨hlength, -, htile⟩ := plan_tile (by decide) (by decide) (by decide) foldedColumn_tile h
  exact ⟨plan, h, hlength, htile⟩

end Scene

end Mosaic
