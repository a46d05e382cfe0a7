import Mathlib.Logic.Relation
import Mosaic.Cascade.Shrink
import Mosaic.Proofs.Edge.Direction
import Mosaic.Proofs.Edge.Index
import Mosaic.Proofs.Plane.Span

/-! Which pushes a push sets off, and which pushes can be made in full. A push that crowds a region
is handed on to the region's opposite edges; it is feasible when nothing that it sets off goes
beyond the bounds. How far a push reaches is the last of its feasible goals. -/
namespace Mosaic

abbrev Push.dir (p : Push) : Direction := p.side.inward

/-- The same line is pushed, and no further. -/
def Push.Within (p q : Push) : Prop :=
  p.axis = q.axis ∧ p.side = q.side ∧ p.line = q.line ∧ p.dir.pos p.goal ≤ p.dir.pos q.goal

namespace Scene

/-- All fields are coordinates, and no region has a negative extent. -/
structure Fits (scene : Scene) : Prop where
  bounds : scene.bounds.Fits
  rects : ∀ r ∈ scene.rects, r.Fits ∧ r.IsProper

/-- The edge of the bounds that stops a push. -/
def stop (scene : Scene) (p : Push) : Int := scene.bounds.edge p.axis p.side.flip

/-- The push leaves the region at a position less than its minimum. -/
structure Crowds (scene : Scene) (p : Push) (i : Nat) (r : Rect) : Prop where
  get : scene.rects[i]? = some r
  edge : r.edge p.axis p.side = p.line
  extent : r.extent p.axis ≠ 0
  short : p.dir.pos (r.edge p.axis p.side.flip) < p.dir.pos p.goal + scene.minAlong i p.axis

/-- The push of the region's opposite edge that makes room for its minimum. -/
def handed (scene : Scene) (p : Push) (i : Nat) (r : Rect) : Push :=
  { p with
    line := r.edge p.axis p.side.flip
    goal := p.goal + p.dir.sign * scene.minAlong i p.axis }

def HandsOn (scene : Scene) (p q : Push) : Prop := ∃ i r, scene.Crowds p i r ∧ q = scene.handed p i r

/-- The second push is the first one, or the first one sets it off in the end. -/
def Follows (scene : Scene) : Push → Push → Prop := Relation.ReflTransGen scene.HandsOn

/-- The push can be made in full. -/
def Feasible (scene : Scene) (p : Push) : Prop :=
  ∀ q, scene.Follows p q → q.dir.pos q.goal ≤ q.dir.pos (scene.stop q)

/-- The push comes to rest at `v`, which is its line or the last of its feasible goals. -/
structure Reaches (scene : Scene) (p : Push) (v : Int) : Prop where
  ahead : p.dir.pos p.line ≤ p.dir.pos v
  moved : v ≠ p.line → p.dir.pos v ≤ p.dir.pos p.goal ∧ scene.Feasible { p with goal := v }
  last : ∀ g, p.dir.pos p.line < p.dir.pos g → p.dir.pos g ≤ p.dir.pos p.goal →
    scene.Feasible { p with goal := g } → p.dir.pos g ≤ p.dir.pos v

/-- An arrangement of the lines that takes the pushed one to its goal at least. The edges that pushes are handed
on to stay within the bounds, and every region keeps its minimum. -/
structure Accommodates (scene : Scene) (p : Push) (m : Int → Int) : Prop where
  goal : p.dir.pos p.goal ≤ p.dir.pos (m p.line)
  stop : p.dir.pos (m p.line) ≤ p.dir.pos (scene.stop p)
  edges : ∀ r ∈ scene.rects, p.dir.pos (m (r.edge p.axis p.side.flip)) ≤ p.dir.pos (scene.stop p)
  room : ∀ (i : Nat) (r : Rect), scene.rects[i]? = some r → 0 < r.extent p.axis →
    p.dir.pos (m (r.edge p.axis p.side)) + scene.minAlong i p.axis ≤ p.dir.pos (m (r.edge p.axis p.side.flip))

variable {scene : Scene} {p q : Push} {i : Nat} {r : Rect}

theorem Fits.get (h : scene.Fits) (hr : scene.rects[i]? = some r) : r.Fits ∧ r.IsProper :=
  h.rects r (List.mem_of_getElem? hr)

theorem Fits.stop (h : scene.Fits) (p : Push) : Coord.Fits (scene.stop p) := h.bounds.edge _ _

theorem minAlong_nonneg (scene : Scene) (i : Nat) (axis : Axis) : 0 ≤ scene.minAlong i axis := by
  unfold minAlong
  split
  · exact Int.le_max_right _ _
  · exact Int.le_refl 0

theorem mem_moved : i ∈ scene.moved p ↔ ∃ r, scene.rects[i]? = some r ∧ r.edge p.axis p.side = p.line := by
  rw [moved, scene.index_eq]
  exact LineIndex.mem_positions_ofRects

theorem Crowds.mem_moved (h : scene.Crowds p i r) : i ∈ scene.moved p :=
  Scene.mem_moved.2 ⟨r, h.get, h.edge⟩

theorem pos_goal_handed (scene : Scene) (p : Push) (i : Nat) (r : Rect) :
    p.dir.pos (scene.handed p i r).goal = p.dir.pos p.goal + scene.minAlong i p.axis :=
  Direction.pos_add_sign_mul ..

theorem HandsOn.axis (h : scene.HandsOn p q) : q.axis = p.axis := by
  obtain ⟨i, r, _, rfl⟩ := h
  rfl

theorem HandsOn.side (h : scene.HandsOn p q) : q.side = p.side := by
  obtain ⟨i, r, _, rfl⟩ := h
  rfl

theorem Follows.axis_side (h : scene.Follows p q) : q.axis = p.axis ∧ q.side = p.side := by
  induction h with
  | refl => exact ⟨rfl, rfl⟩
  | tail _ hs ih => exact ⟨hs.axis.trans ih.1, hs.side.trans ih.2⟩

theorem Feasible.of_handsOn (h : scene.Feasible p) (hq : scene.HandsOn p q) : scene.Feasible q :=
  fun t ht => h t (Relation.ReflTransGen.head hq ht)

theorem Feasible.le_stop (h : scene.Feasible p) : p.dir.pos p.goal ≤ p.dir.pos (scene.stop p) :=
  h p .refl

theorem Feasible.intro (hgoal : p.dir.pos p.goal ≤ p.dir.pos (scene.stop p))
    (h : ∀ i r, scene.Crowds p i r → scene.Feasible (scene.handed p i r)) : scene.Feasible p := by
  intro t ht
  rcases Relation.ReflTransGen.cases_head ht with rfl | ⟨q, ⟨i, r, hc, rfl⟩, hq⟩
  · exact hgoal
  · exact h i r hc t hq

/-- Nothing that the push sets off goes further than the arrangement. -/
theorem Accommodates.follows {m : Int → Int} (h : scene.Accommodates p m) (hs : scene.Fits)
    (hq : scene.Follows p q) :
    p.dir.pos q.goal ≤ p.dir.pos (m q.line) ∧ p.dir.pos (m q.line) ≤ p.dir.pos (scene.stop p) := by
  induction hq with
  | refl => exact ⟨h.goal, h.stop⟩
  | @tail q t hq ht ih =>
    obtain ⟨i, r, hc, rfl⟩ := ht
    obtain ⟨axis, side, line, goal⟩ := q
    obtain ⟨rfl, rfl⟩ : axis = p.axis ∧ side = p.side := Follows.axis_side hq
    have hpos : 0 < r.extent p.axis := by
      have hnonneg := (hs.get hc.get).2.extent_nonneg p.axis
      have hextent : r.extent p.axis ≠ 0 := hc.extent
      omega
    have hline : r.edge p.axis p.side = line := hc.edge
    have hroom := h.room i r hc.get hpos
    rw [hline] at hroom
    refine ⟨?_, h.edges r (List.mem_of_getElem? hc.get)⟩
    calc p.dir.pos (scene.handed ⟨p.axis, p.side, line, goal⟩ i r).goal
      _ = p.dir.pos goal + scene.minAlong i p.axis := pos_goal_handed scene ⟨p.axis, p.side, line, goal⟩ i r
      _ ≤ p.dir.pos (m line) + scene.minAlong i p.axis := Int.add_le_add_right ih.1 _
      _ ≤ p.dir.pos (m (r.edge p.axis p.side.flip)) := hroom

theorem Accommodates.feasible {m : Int → Int} (h : scene.Accommodates p m) (hs : scene.Fits) :
    scene.Feasible p := by
  intro q hq
  obtain ⟨hgoal, hstop⟩ := h.follows hs hq
  obtain ⟨haxis, hside⟩ := hq.axis_side
  rw [Push.dir, Scene.stop, haxis, hside]
  exact Int.le_trans hgoal hstop

theorem Crowds.further {g : Int} (h : scene.Crowds p i r) (hg : p.dir.pos p.goal ≤ p.dir.pos g) :
    scene.Crowds { p with goal := g } i r :=
  ⟨h.get, h.edge, h.extent, Int.lt_of_lt_of_le h.short (Int.add_le_add_right hg _)⟩

private theorem HandsOn.within {p' q' : Push} (h : scene.HandsOn p' q') (hw : p'.Within p) :
    ∃ q, scene.HandsOn p q ∧ q'.Within q := by
  obtain ⟨i, r, hc, rfl⟩ := h
  obtain ⟨axis, side, line, goal⟩ := p
  obtain ⟨axis', side', line', goal'⟩ := p'
  obtain ⟨rfl, rfl, rfl, hg⟩ := hw
  refine ⟨_, ⟨i, r, hc.further hg, rfl⟩, rfl, rfl, rfl, ?_⟩
  calc side'.inward.pos (scene.handed ⟨axis', side', line', goal'⟩ i r).goal
    _ = side'.inward.pos goal' + scene.minAlong i axis' :=
      pos_goal_handed scene ⟨axis', side', line', goal'⟩ i r
    _ ≤ side'.inward.pos goal + scene.minAlong i axis' := Int.add_le_add_right hg _
    _ = side'.inward.pos (scene.handed ⟨axis', side', line', goal⟩ i r).goal :=
      (pos_goal_handed scene ⟨axis', side', line', goal⟩ i r).symm

theorem Follows.within {p' q' : Push} (h : scene.Follows p' q') (hw : p'.Within p) :
    ∃ q, scene.Follows p q ∧ q'.Within q := by
  induction h with
  | refl => exact ⟨p, .refl, hw⟩
  | tail _ hs ih =>
    obtain ⟨q, hq, hwq⟩ := ih
    obtain ⟨t, ht, hwt⟩ := HandsOn.within hs hwq
    exact ⟨t, hq.tail ht, hwt⟩

/-- A push that stops earlier than a feasible one is feasible. -/
theorem Feasible.within {p' : Push} (h : scene.Feasible p) (hw : p'.Within p) : scene.Feasible p' := by
  intro t' ht'
  obtain ⟨t, ht, haxis, hside, hline, hgoal⟩ := ht'.within hw
  have hle := h t ht
  obtain ⟨axis, side, line, goal⟩ := t
  obtain ⟨axis', side', line', goal'⟩ := t'
  obtain rfl : axis' = axis := haxis
  obtain rfl : side' = side := hside
  exact Int.le_trans hgoal hle

end Scene

end Mosaic
