import Mathlib.Data.Set.Function
import Mosaic.Proofs.Cascade.Woven

/-! Pushes in one scene and in another whose lines are those of the first, moved. A push can be made in full as
soon as some arrangement of the lines makes room for it, and an arrangement goes along with the lines as long
as no two of them have come together. -/
namespace Mosaic

namespace Scene

variable {scene scene' : Scene} {p : Push} {axis : Axis} {m a : Int → Int} {shift : Int}

/-- The lines of an axis: where some region has an edge. -/
def lines (scene : Scene) (axis : Axis) : Set Int := {c | ∃ r ∈ scene.rects, ∃ side, r.edge axis side = c}

/-- Every region has its minimum along the axis. -/
def Ample (scene : Scene) (axis : Axis) : Prop :=
  ∀ (i : Nat) (r : Rect), scene.rects[i]? = some r → scene.minAlong i axis ≤ r.far axis - r.near axis

/-- Where all regions have their minimums, what a push leaves is an arrangement with room for it. -/
theorem Viable.exists_accommodates (h : scene.Viable p) (hs : scene.Fits) (hample : scene.Ample p.axis)
    (hin : ∀ r ∈ scene.rects, p.dir.pos (r.edge p.axis p.side.flip) ≤ p.dir.pos (scene.stop p)) :
    ∃ m, scene.Accommodates p m := by
  choose m hm using scene.exists_rests h.feasible
  have hline : m p.line = p.goal := (hm p.line).line hs h rfl
  refine ⟨m, Int.le_of_eq (congrArg p.dir.pos hline.symm), hline.symm ▸ h.feasible.le_stop, ?_, ?_⟩
  · exact fun r hr => (hm _).le_stop h (hin r hr)
  · intro i r hr hextent
    have hroom := (hm _).room hs h hr (Int.ne_of_gt hextent) rfl (hm _)
    have hspan : scene.minAlong i p.axis ≤
        p.dir.pos (r.edge p.axis p.side.flip) - p.dir.pos (r.edge p.axis p.side) := by
      have hmin := hample i r hr
      obtain ⟨axis, side, line, goal⟩ := p
      cases side
      · simpa [Push.dir, Side.inward, Side.flip, Rect.edge] using hmin
      · simp only [Push.dir, Side.inward, Direction.pos_down, Side.flip, Rect.edge]
        simp only at hmin
        omega
    rwa [Int.min_eq_left hspan] at hroom

/-- The lines of one scene have been moved to make those of another, in which the same minimums hold. Everything
has been moved by a distance besides, and no two lines have come together. -/
structure Recast (scene : Scene) (axis : Axis) (a : Int → Int) (shift : Int) (scene' : Scene) : Prop where
  mins : scene'.mins = scene.mins
  near : scene'.bounds.near axis = scene.bounds.near axis + shift
  moved : Rect.MovedWith axis a scene.rects scene'.rects
  apart : Set.InjOn a (scene.lines axis)

theorem Recast.minAlong (h : scene.Recast axis a shift scene') : scene'.minAlong = scene.minAlong := by
  funext i other
  simp only [Scene.minAlong, h.mins]

theorem Recast.exists_accommodates {line goal : Int} (h : scene.Recast axis a shift scene')
    (hsharp : ∀ r ∈ scene.rects, r.Sharp) (hsharp' : ∀ r ∈ scene'.rects, r.Sharp) (hline : line ∈ scene.lines axis)
    (hm : scene.Accommodates ⟨axis, .far, line, goal⟩ m) :
    ∃ m', scene'.Accommodates ⟨axis, .far, a line, goal + shift⟩ m' := by
  -- Each line is put where the arrangement puts the one line that it has come from.
  let m' : Int → Int := fun c => m (Function.invFunOn a (scene.lines axis) c) + shift
  have hcarried : ∀ c ∈ scene.lines axis, m' (a c) = m c + shift := by
    intro c hc
    change m (Function.invFunOn a (scene.lines axis) (a c)) + shift = m c + shift
    rw [h.apart.leftInvOn_invFunOn hc]
  have hedge : ∀ (i : Nat) (b : Rect), scene'.rects[i]? = some b → ∃ r, scene.rects[i]? = some r ∧
      ∀ side, b.edge axis side = a (r.edge axis side) ∧ m' (b.edge axis side) = m (r.edge axis side) + shift := by
    intro i b hb
    obtain ⟨r, hr, hrb⟩ := forall₂_of_getElem?_right h.moved hb
    refine ⟨r, hr, fun side => ⟨hrb side, ?_⟩⟩
    rw [hrb side]
    exact hcarried _ ⟨r, List.mem_of_getElem? hr, side, rfl⟩
  obtain ⟨hgoal, hstop, hedges, hroom⟩ := hm
  simp only [Push.dir, Side.inward, Direction.pos_down, Side.flip, Scene.stop, Rect.edge] at hgoal hstop hedges hroom
  refine ⟨m', ?_, ?_, fun b hb => ?_, fun i b hb hextent => ?_⟩
  all_goals
    simp only [Push.dir, Side.inward, Direction.pos_down, Side.flip, Scene.stop, Rect.edge]
  · rw [hcarried line hline]
    omega
  · rw [hcarried line hline, h.near]
    omega
  · obtain ⟨i, hi⟩ := List.getElem?_of_mem hb
    obtain ⟨r, hr, hends⟩ := hedge i b hi
    have hnear := (hends .near).2
    have hin := hedges r (List.mem_of_getElem? hr)
    simp only [Rect.edge] at hnear
    rw [hnear, h.near]
    omega
  · obtain ⟨r, hr, hends⟩ := hedge i b hb
    obtain ⟨hnear, hnear'⟩ := hends .near
    obtain ⟨hfar, hfar'⟩ := hends .far
    simp only [Rect.edge] at hnear hnear' hfar hfar'
    have hpos : 0 < r.extent axis := by
      have hends := (hsharp r (List.mem_of_getElem? hr)).far axis
      have hends' := (hsharp' b (List.mem_of_getElem? hb)).far axis
      have hnonneg := (hsharp r (List.mem_of_getElem? hr)).proper.extent_nonneg axis
      refine lt_of_le_of_ne hnonneg fun hzero => ?_
      rw [show r.far axis = r.near axis by omega] at hfar
      simp only at hextent
      omega
    have hkept := hroom i r hr hpos
    rw [h.minAlong, hnear', hfar']
    omega

/-- What can be made in full in the one scene can be made in full in the other. -/
theorem Recast.feasible {line goal : Int} (h : scene.Recast axis a shift scene') (hs : scene.Fits) (hs' : scene'.Fits)
    (hsharp : ∀ r ∈ scene.rects, r.Sharp) (hsharp' : ∀ r ∈ scene'.rects, r.Sharp) (hample : scene.Ample axis)
    (hin : ∀ r ∈ scene.rects, scene.bounds.near axis ≤ r.near axis) (hline : line ∈ scene.lines axis)
    (hback : goal < line) (hf : scene.Feasible ⟨axis, .far, line, goal⟩) :
    scene'.Feasible ⟨axis, .far, a line, goal + shift⟩ := by
  obtain ⟨r, hr, side, rfl⟩ := hline
  have hviable : scene.Viable ⟨axis, .far, r.edge axis side, goal⟩ := by
    refine ⟨(hsharp r hr).fits.edge axis side, ?_, clear_of_sharp hsharp _, hf⟩
    simpa [Push.dir, Side.inward] using hback
  obtain ⟨m, hm⟩ := hviable.exists_accommodates hs hample fun s hsr => by
    simpa [Push.dir, Side.inward, Side.flip, Scene.stop, Rect.edge] using hin s hsr
  obtain ⟨m', hm'⟩ := h.exists_accommodates hsharp hsharp' ⟨r, hr, side, rfl⟩ hm
  exact hm'.feasible hs'

/-- A line that may go back as far as it can, in one scene, and to a goal in another one, where the same can be
made in full: it goes as far there, unless the goal comes first. -/
theorem Reaches.eq_max {line reached line' goal' reached' : Int}
    (h : scene.Reaches ⟨axis, .far, line, scene.bounds.near axis⟩ reached)
    (h' : scene'.Reaches ⟨axis, .far, line', goal'⟩ reached') (hback : goal' < line')
    (hiff : ∀ g < 0, scene.Feasible ⟨axis, .far, line, line + g⟩ ↔ scene'.Feasible ⟨axis, .far, line', line' + g⟩) :
    reached' - line' = max (goal' - line') (reached - line) := by
  obtain ⟨hahead, hmoved, hlast⟩ := h
  obtain ⟨hahead', hmoved', hlast'⟩ := h'
  simp only [Push.dir, Side.inward, Direction.pos_down, Int.neg_le_neg_iff, Int.neg_lt_neg_iff]
    at hahead hmoved hlast hahead' hmoved' hlast'
  apply Int.le_antisymm
  · by_cases hstill : reached = line
    · omega
    · let g := max (goal' - line') (reached - line)
      have hg : g < 0 := by omega
      have hfeasible : scene.Feasible ⟨axis, .far, line, line + g⟩ := by
        refine (hmoved hstill).2.within ⟨rfl, rfl, rfl, ?_⟩
        simp only [Push.dir, Side.inward, Direction.pos_down]
        omega
      have hreached := hlast' (line' + g) (by omega) (by omega) ((hiff g hg).1 hfeasible)
      omega
  · by_cases hstill : reached' = line'
    · omega
    · obtain ⟨hgoal, hfeasible⟩ := hmoved' hstill
      have hsum : line' + (reached' - line') = reached' := by omega
      have hother := (hiff (reached' - line') (by omega)).2 (by rwa [hsum])
      have hstop := hother.le_stop
      simp only [Push.dir, Side.inward, Direction.pos_down, Scene.stop, Side.flip, Rect.edge] at hstop
      have hreached := hlast (line + (reached' - line')) (by omega) (by omega) hother
      omega

end Scene

end Mosaic
