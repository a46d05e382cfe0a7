import Mosaic.Proofs.Cascade.Drawn
import Mosaic.Proofs.Cascade.Scan

/-! Scenes that look the same along an axis, read from one end or the other. What a push sets off in the one it
sets off in the other as well, so held lines go as far in both, and so do all lines that are in the way. -/
namespace Mosaic

/-- How the lines of an axis are read: as they are, or from the other end. -/
inductive Reading | forward | backward deriving DecidableEq

namespace Reading

def coord : Reading → Int → Int
  | forward, c => c
  | backward, c => -c

def side : Reading → Side → Side
  | forward, s => s
  | backward, s => s.flip

@[simp] theorem coord_coord (t : Reading) (c : Int) : t.coord (t.coord c) = c := by
  cases t
  · rfl
  · exact Int.neg_neg c

theorem map_forward (o : Option Int) : o.map forward.coord = o := by cases o <;> rfl

theorem coord_inj (t : Reading) {c d : Int} : t.coord c = t.coord d ↔ c = d := by
  cases t
  · rfl
  · exact Int.neg_inj

@[simp] theorem side_side (t : Reading) (s : Side) : t.side (t.side s) = s := by
  cases t
  · rfl
  · exact s.flip_flip

@[simp] theorem side_flip (t : Reading) (s : Side) : t.side s.flip = (t.side s).flip := by
  cases t <;> rfl

@[simp] theorem pos_coord (t : Reading) (s : Side) (c : Int) :
    (t.side s).inward.pos (t.coord c) = s.inward.pos c := by
  cases t <;> cases s <;> simp [side, coord, Side.inward, Side.flip]

def push (t : Reading) (axis : Axis) (p : Push) : Push := ⟨axis, t.side p.side, t.coord p.line, t.coord p.goal⟩

@[simp] theorem push_push (t : Reading) (axis : Axis) (p : Push) : t.push p.axis (t.push axis p) = p := by
  simp [push]

/-- The second rectangle has the edges of the first one, as they are read. -/
def Reads (t : Reading) (axis axis' : Axis) (r r' : Rect) : Prop :=
  ∀ side, r'.edge axis' (t.side side) = t.coord (r.edge axis side)

theorem Reads.symm {t : Reading} {axis axis' : Axis} {r r' : Rect} (h : t.Reads axis axis' r r') :
    t.Reads axis' axis r' r := by
  intro side
  have hedge := h (t.side side)
  rw [side_side] at hedge
  rw [hedge, coord_coord]

end Reading

namespace Rect

variable {r r' b b' : Rect} {axis axis' : Axis}

/-- The second rectangle has along its axis the span that the first one has along the other. -/
def SameSpan (axis axis' : Axis) (r r' : Rect) : Prop :=
  r'.near axis' = r.near axis ∧ r'.extent axis' = r.extent axis

theorem SameSpan.symm (h : SameSpan axis axis' r r') : SameSpan axis' axis r' r := ⟨h.1.symm, h.2.symm⟩

theorem SameSpan.trans {axis'' : Axis} {r'' : Rect} (h : SameSpan axis axis' r r')
    (h' : SameSpan axis' axis'' r' r'') : SameSpan axis axis'' r r'' := ⟨h'.1.trans h.1, h'.2.trans h.2⟩

theorem SameSpan.reads (h : SameSpan axis axis' r r') : Reading.forward.Reads axis axis' r r' := by
  rintro (_ | _)
  · exact h.1
  · change r'.far axis' = r.far axis
    rw [far_eq, far_eq, h.1, h.2]

theorem SameSpan.respanned (h : SameSpan axis axis' r r') (hb : Respanned axis r b) (hb' : Respanned axis' r' b')
    (hreads : Reading.forward.Reads axis axis' b b') : SameSpan axis axis' b b' := by
  refine ⟨hreads .near, ?_⟩
  have hedges : ∀ side, b'.edge axis' side = b.edge axis side := hreads
  have hedges' : ∀ side, r'.edge axis' side = r.edge axis side := h.reads
  rcases hb with hstays | ⟨hexact, side, hmoved⟩
  · rcases hb' with hstays' | ⟨-, side, hmoved'⟩
    · rw [hstays'.2, h.2, hstays.2]
    · exact absurd (by rw [hedges, hedges', hstays.edge]) hmoved'
  · rcases hb' with hstays' | ⟨hexact', -⟩
    · exact absurd (by rw [← hedges, ← hedges', hstays'.edge]) hmoved
    · have hnear := hedges .near
      have hfar := hedges .far
      simp only [edge] at hnear hfar
      omega

theorem ext_spans (h : ∀ axis, SameSpan axis axis r r') : r' = r := by
  obtain ⟨hx, hwidth⟩ := h .x
  obtain ⟨hy, hheight⟩ := h .y
  cases r
  cases r'
  simp only [near, extent] at *
  subst hx hwidth hy hheight
  rfl

theorem ext_spans_cross (h : SameSpan axis axis r r') (h' : SameSpan axis.cross axis.cross r r') : r' = r :=
  ext_spans fun other => (other.eq_or_eq_cross axis).elim (fun heq => heq ▸ h) fun heq => heq ▸ h'

end Rect

namespace Scene

/-- The second scene has the lines of the first one, as they are read, with the same minimums between them. -/
structure Mirrors (scene : Scene) (axis : Axis) (t : Reading) (axis' : Axis) (scene' : Scene) : Prop where
  image : ∀ i r, scene.rects[i]? = some r → ∃ j r', scene'.rects[j]? = some r' ∧ t.Reads axis axis' r r' ∧
    scene'.minAlong j axis' = scene.minAlong i axis
  source : ∀ j r', scene'.rects[j]? = some r' → ∃ i r, scene.rects[i]? = some r ∧ t.Reads axis axis' r r' ∧
    scene'.minAlong j axis' = scene.minAlong i axis
  bounds : t.Reads axis axis' scene.bounds scene'.bounds

variable {scene scene' : Scene} {axis axis' : Axis} {t : Reading} {p q : Push} {c v : Int}

theorem Mirrors.symm (h : scene.Mirrors axis t axis' scene') : scene'.Mirrors axis' t axis scene where
  image j r' hr' := by
    obtain ⟨i, r, hr, hreads, hmin⟩ := h.source j r' hr'
    exact ⟨i, r, hr, hreads.symm, hmin.symm⟩
  source i r hr := by
    obtain ⟨j, r', hr', hreads, hmin⟩ := h.image i r hr
    exact ⟨j, r', hr', hreads.symm, hmin.symm⟩
  bounds := h.bounds.symm

theorem mirrors_of_forall₂ (hrects : List.Forall₂ (t.Reads axis axis') scene.rects scene'.rects)
    (hmins : ∀ i, scene'.minAlong i axis' = scene.minAlong i axis)
    (hbounds : t.Reads axis axis' scene.bounds scene'.bounds) : scene.Mirrors axis t axis' scene' where
  image i r hr := by
    obtain ⟨r', hr', hreads⟩ := forall₂_of_getElem? hrects hr
    exact ⟨i, r', hr', hreads, hmins i⟩
  source i r' hr' := by
    obtain ⟨r, hr, hreads⟩ := forall₂_of_getElem?_right hrects hr'
    exact ⟨i, r, hr, hreads, hmins i⟩
  bounds := hbounds

section

variable (h : scene.Mirrors p.axis t axis' scene') (hs : scene.Fits) (hs' : scene'.Fits)
include h

theorem Mirrors.stop : scene'.stop (t.push axis' p) = t.coord (scene.stop p) := by
  rw [Scene.stop, Scene.stop, ← h.bounds, Reading.side_flip]
  rfl

include hs'

/-- A region that a push crowds, and whose edges are apart, is crowded as well by the push as it is read. -/
theorem Mirrors.handsOn {i : Nat} {r : Rect} (hc : scene.Crowds p i r)
    (hapart : p.dir.pos p.line < p.dir.pos (scene.handed p i r).line) :
    scene'.HandsOn (t.push axis' p) (t.push axis' (scene.handed p i r)) := by
  obtain ⟨j, r', hr', hreads, hmin⟩ := h.image i r hc.get
  have hline : r'.edge axis' (t.side p.side) = t.coord p.line := (hreads p.side).trans (congrArg t.coord hc.edge)
  have hopposite : r'.edge axis' (t.side p.side).flip = t.coord (r.edge p.axis p.side.flip) := by
    rw [← t.side_flip, hreads]
  have hgoal : t.coord (scene.handed p i r).goal = (scene'.handed (t.push axis' p) j r').goal := by
    apply (t.side p.side).inward.pos_inj.1
    rw [t.pos_coord]
    refine (pos_goal_handed scene p i r).trans (.trans ?_ (pos_goal_handed scene' (t.push axis' p) j r').symm)
    simp only [Push.dir, Reading.push, Reading.pos_coord, hmin]
  refine ⟨j, r', ⟨hr', hline, fun hempty : r'.extent axis' = 0 => ?_, ?_⟩, ?_⟩
  · -- Where the far edge is cut off a region may have an extent and no room between its edges.
    have hsame := Rect.edge_eq_edge (hs'.get hr').1 hempty (t.side p.side) (t.side p.side).flip
    rw [hopposite, hline, t.coord_inj] at hsame
    rw [handed, hsame] at hapart
    exact Int.lt_irrefl _ hapart
  · have hshort := hc.short
    simp only [Push.dir, Reading.push, hopposite, hmin, Reading.pos_coord] at hshort ⊢
    exact hshort
  · change (⟨axis', t.side p.side, t.coord (r.edge p.axis p.side.flip), _⟩ : Push) =
      ⟨axis', t.side p.side, r'.edge axis' (t.side p.side).flip, _⟩
    rw [hopposite, hgoal]
    rfl

include hs

theorem Mirrors.follows (hclear : scene.Clear p) (hahead : p.dir.pos p.line < p.dir.pos p.goal)
    (hf' : scene'.Feasible (t.push axis' p)) (hq : scene.Follows p q) :
    (scene.Clear q ∧ q.dir.pos q.line < q.dir.pos q.goal) ∧ scene'.Follows (t.push axis' p) (t.push axis' q) ∧
      q.dir.pos q.goal ≤ q.dir.pos (scene.stop q) := by
  -- That nothing goes beyond the bounds as it is read keeps what is set off within the bounds here.
  have hend : ∀ {q : Push}, scene.Follows p q → scene'.Follows (t.push axis' p) (t.push axis' q) →
      q.dir.pos q.goal ≤ q.dir.pos (scene.stop q) := by
    intro q hq hq'
    have hle := hf' _ hq'
    have hstop := Mirrors.stop (p := q) (by rwa [(Follows.axis_side hq).1])
    rw [hstop] at hle
    simpa only [Push.dir, Reading.push, Reading.pos_coord] using hle
  induction hq with
  | refl => exact ⟨⟨hclear, hahead⟩, .refl, hend .refl .refl⟩
  | @tail q u hq hu ih =>
    obtain ⟨⟨hclear', hlt⟩, hfollows, hle⟩ := ih
    have haxis := (Follows.axis_side hq).1
    have hnext := hq.tail hu
    obtain ⟨i, r, hc, rfl⟩ := hu
    have hon := Mirrors.handsOn (p := q) (by rwa [haxis]) hs' hc (hc.ahead hs hclear' hlt hle)
    have hgoal := pos_goal_handed scene q i r
    exact ⟨⟨hc.clear hs hclear', Int.lt_of_lt_of_le hc.short (Int.le_of_eq hgoal.symm)⟩, hfollows.tail hon,
      hend hnext (hfollows.tail hon)⟩

/-- What can be made in full as it is read can be made in full. -/
theorem Mirrors.feasible (hclear : scene.Clear p) (hahead : p.dir.pos p.line < p.dir.pos p.goal)
    (hf' : scene'.Feasible (t.push axis' p)) : scene.Feasible p :=
  fun _ hq => (h.follows hs hs' hclear hahead hf' hq).2.2

theorem Mirrors.reaches (hclear : scene.Clear p) (hclear' : scene'.Clear (t.push axis' p))
    (hv : scene.Reaches p v) : scene'.Reaches (t.push axis' p) (t.coord v) := by
  refine ⟨?_, fun hne => ?_, fun g hg hle hf => ?_⟩
  · have hahead := hv.ahead
    simpa only [Push.dir, Reading.push, Reading.pos_coord] using hahead
  · have hne : v ≠ p.line := fun heq => hne (congrArg t.coord heq)
    obtain ⟨hle, hf⟩ := hv.moved hne
    have hlt : p.dir.pos p.line < p.dir.pos v :=
      lt_of_le_of_ne hv.ahead fun heq => hne (p.dir.pos_inj.1 heq).symm
    refine ⟨by simpa only [Push.dir, Reading.push, Reading.pos_coord] using hle, ?_⟩
    have hback := t.push_push axis' { p with goal := v }
    refine Mirrors.feasible (p := t.push axis' { p with goal := v }) h.symm hs' hs hclear' ?_ (hback.symm ▸ hf)
    simpa only [Push.dir, Reading.push, Reading.pos_coord] using hlt
  · obtain ⟨c, rfl⟩ : ∃ c, t.coord c = g := ⟨t.coord g, t.coord_coord g⟩
    simp only [Push.dir, Reading.push, Reading.pos_coord] at hg hle ⊢
    exact hv.last c hg hle (Mirrors.feasible (p := { p with goal := c }) h hs hs' hclear hg hf)

theorem Mirrors.rests (hroot : scene.Viable p) (hroot' : scene'.Viable (t.push axis' p))
    (hv : scene.Rests p c v) : scene'.Rests (t.push axis' p) (t.coord c) (t.coord v) := by
  refine ⟨?_, fun q' hq' hline => ?_⟩
  · rcases hv.attains with rfl | ⟨q, hq, rfl, rfl⟩
    · exact .inl rfl
    · obtain ⟨-, hfollows, -⟩ := h.follows hs hs' hroot.clear hroot.ahead hroot'.feasible hq
      exact .inr ⟨_, hfollows, rfl, rfl⟩
  · have hback := Mirrors.follows (p := t.push axis' p) h.symm hs' hs hroot'.clear hroot'.ahead
      (by rw [t.push_push]; exact hroot.feasible) hq'
    rw [t.push_push] at hback
    have hlast := hv.last _ hback.2.1 (by rw [Reading.push, hline, t.coord_coord])
    obtain ⟨haxis, hside⟩ := Follows.axis_side hq'
    have hgoal := t.pos_coord p.side (t.coord q'.goal)
    rw [t.coord_coord] at hgoal
    simp only [Push.dir, Reading.push, Reading.pos_coord] at hlast ⊢
    rwa [hgoal]

end

section

variable {line reached goal reached' : Int} {m m' : Int → Int} (h : scene.Mirrors axis t axis' scene')
  (hs : scene.Fits) (hs' : scene'.Fits)
include h hs hs'

theorem Mirrors.moved (hm : scene.Moved axis line reached m)
    (hm' : scene'.Moved axis' (t.coord line) (t.coord reached) m') (c : Int) : m' (t.coord c) = t.coord (m c) := by
  rcases hm with ⟨rfl, rfl⟩ | ⟨side, hroot, hrests⟩
  · rcases hm' with ⟨-, rfl⟩ | ⟨side', hroot', -⟩
    · rfl
    · exact absurd rfl hroot'.goal_ne_line
  · rcases hm' with ⟨hstill, -⟩ | ⟨side', hroot', hrests'⟩
    · exact absurd (t.coord_inj.1 hstill) hroot.goal_ne_line
    · obtain rfl : side' = t.side side := by
        have hahead : side.inward.pos line < side.inward.pos reached := hroot.ahead
        rw [← t.pos_coord, ← t.pos_coord side] at hahead
        exact Direction.side_unique hroot'.ahead hahead
      have hread := Mirrors.rests (p := ⟨axis, side, line, reached⟩) h hs hs' hroot hroot' (hrests c)
      exact (hrests' (t.coord c)).unique hread hs' hroot'

theorem Mirrors.probed (hclear : ∀ side goal, scene.Clear ⟨axis, side, line, goal⟩)
    (hclear' : ∀ side goal, scene'.Clear ⟨axis', side, t.coord line, goal⟩) (hp : scene.Probed axis line goal reached)
    (hp' : scene'.Probed axis' (t.coord line) (t.coord goal) reached') : reached' = t.coord reached := by
  by_cases hstill : line = goal
  · rw [hp.still hstill, hp'.still (congrArg t.coord hstill)]
  · obtain ⟨side, hlt⟩ := Direction.exists_ahead hstill
    have hread := Mirrors.reaches (p := ⟨axis, side, line, goal⟩) h hs hs' (hclear side goal)
      (hclear' _ _) (hp.reaches hlt)
    rw [← t.pos_coord, ← t.pos_coord side goal] at hlt
    exact (hp'.reaches hlt).unique hread

end

/-- A line that may move lies ahead of both ends of the bounds, and some region has an edge at it. -/
theorem isMovable_iff {line : Int} : scene.IsMovable axis line ↔
    (∀ side : Side, side.inward.pos (scene.bounds.edge axis side) < side.inward.pos line) ∧
      ∃ r ∈ scene.rects, ∃ side, r.edge axis side = line := by
  constructor
  · rintro ⟨hnear, hfar, r, hr, hedge⟩
    refine ⟨fun side => ?_, r, hr, ?_⟩
    · cases side
      · simpa [Side.inward, Rect.edge] using hnear
      · simpa [Side.inward, Rect.edge] using hfar
    · exact hedge.elim (fun hedge => ⟨.near, hedge⟩) fun hedge => ⟨.far, hedge⟩
  · rintro ⟨hin, r, hr, side, hedge⟩
    have hnear := hin .near
    have hfar := hin .far
    simp only [Side.inward, Direction.pos_up, Direction.pos_down, Int.neg_lt_neg_iff] at hnear hfar
    refine ⟨hnear, hfar, r, hr, ?_⟩
    cases side
    · exact .inl hedge
    · exact .inr hedge

variable {grip grip' : Grip} {point point' : Point} {plan plan' : Plan} {trace trace' : Trace}

theorem Mirrors.isMovable {line : Int} (h : scene.Mirrors axis t axis' scene') (hline : scene.IsMovable axis line) :
    scene'.IsMovable axis' (t.coord line) := by
  obtain ⟨hin, r, hr, side, hedge⟩ := isMovable_iff.1 hline
  obtain ⟨i, hi⟩ := List.getElem?_of_mem hr
  obtain ⟨j, r', hr', hreads, -⟩ := h.image i r hi
  refine isMovable_iff.2 ⟨fun side' => ?_, r', List.mem_of_getElem? hr', t.side side, ?_⟩
  · obtain ⟨s, rfl⟩ : ∃ s, t.side s = side' := ⟨t.side side', t.side_side side'⟩
    rw [h.bounds, t.pos_coord, t.pos_coord]
    exact hin s
  · rw [hreads, hedge]

theorem Mirrors.movable (h : scene.Mirrors axis t axis' scene')
    (hgrip : grip'.along axis' = (grip.along axis).map t.coord) :
    scene'.movable grip' axis' = (scene.movable grip axis).map t.coord := by
  have hiff : ∀ line, scene'.IsInterior axis' (t.coord line) ↔ scene.IsInterior axis line := by
    intro line
    rw [isInterior_iff, isInterior_iff]
    refine ⟨fun hline => ?_, h.isMovable⟩
    have hback := h.symm.isMovable hline
    rwa [t.coord_coord] at hback
  unfold Scene.movable
  rw [hgrip]
  cases grip.along axis with
  | none => rfl
  | some line =>
    simp only [Option.map_some, Option.filter_some, hiff]
    split <;> rfl

theorem clear_of_movable (hs : scene.Fits) {line : Int} (hline : scene.movable grip axis = some line) (side : Side)
    (goal : Int) : scene.Clear ⟨axis, side, line, goal⟩ :=
  Fits.clear hs (Int.lt_of_lt_of_le (movable_eq_some hline).2.2 (Rect.fits_far scene.bounds axis).2)

section

variable (h : scene.Mirrors axis t axis' scene') (hs : scene.Fits) (hs' : scene'.Fits)
  (hgrip : grip'.along axis' = (grip.along axis).map t.coord)
  (hpoint : point'.along axis' = t.coord (point.along axis))
  (hplan : scene.planFrom grip point {} = .ok (plan, trace))
  (hplan' : scene'.planFrom grip' point' {} = .ok (plan', trace'))
include h hs hs' hgrip hpoint hplan hplan'

/-- Plans for scenes that look the same move the lines to where they are read to go. -/
theorem Mirrors.planFrom : plan'.achieved.along axis' = (plan.achieved.along axis).map t.coord ∧
    ∃ m m', Rect.MovedWith axis m scene.rects plan.patch.rects ∧
      Rect.MovedWith axis' m' scene'.rects plan'.patch.rects ∧ ∀ c, m' (t.coord c) = t.coord (m c) := by
  obtain ⟨m, hm, hachieved⟩ := planFrom_drawn hs hplan axis
  obtain ⟨m', hm', hachieved'⟩ := planFrom_drawn hs' hplan' axis'
  have hmovable := h.movable hgrip
  have hread : ∀ c, m' (t.coord c) = t.coord (m c) := by
    cases hline : scene.movable grip axis with
    | none =>
      rw [hline, Option.map_none] at hmovable
      obtain rfl := hm.eq_id hline
      obtain rfl := hm'.eq_id hmovable
      exact fun _ => rfl
    | some line =>
      rw [hline, Option.map_some] at hmovable
      obtain ⟨reached, -, hprobed, hmoved⟩ := hm.of_some hline
      obtain ⟨reached', -, hprobed', hmoved'⟩ := hm'.of_some hmovable
      rw [hpoint] at hprobed'
      obtain rfl := h.probed hs hs' (clear_of_movable hs hline) (clear_of_movable hs' hmovable) hprobed hprobed'
      exact h.moved hs hs' hmoved hmoved'
  refine ⟨?_, m, m', hm.edges, hm'.edges, hread⟩
  rw [hachieved', hachieved, hgrip, Option.map_map, Option.map_map]
  exact congrArg (fun f => Option.map f (grip.along axis)) (funext hread)

theorem Mirrors.reads_planFrom {i j : Nat} {r r' b b' : Rect} (hr : scene.rects[i]? = some r)
    (hr' : scene'.rects[j]? = some r') (hreads : t.Reads axis axis' r r') (hb : plan.patch.rects[i]? = some b)
    (hb' : plan'.patch.rects[j]? = some b') : t.Reads axis axis' b b' := by
  obtain ⟨-, m, m', hm, hm', hread⟩ := h.planFrom hs hs' hgrip hpoint hplan hplan'
  obtain ⟨_, hget, hedges⟩ := forall₂_of_getElem? hm hr
  obtain rfl := Option.some.inj (hb.symm.trans hget)
  obtain ⟨_, hget', hedges'⟩ := forall₂_of_getElem? hm' hr'
  obtain rfl := Option.some.inj (hb'.symm.trans hget')
  intro side
  rw [hedges, hedges', hreads, hread]

end

theorem Mirrors.sameSpan_planFrom (h : scene.Mirrors axis .forward axis' scene') (hs : scene.Fits) (hs' : scene'.Fits)
    (hgrip : grip'.along axis' = grip.along axis) (hpoint : point'.along axis' = point.along axis)
    (hplan : scene.planFrom grip point {} = .ok (plan, trace))
    (hplan' : scene'.planFrom grip' point' {} = .ok (plan', trace')) {i j : Nat} {r r' b b' : Rect}
    (hr : scene.rects[i]? = some r) (hr' : scene'.rects[j]? = some r') (hspan : Rect.SameSpan axis axis' r r')
    (hb : plan.patch.rects[i]? = some b) (hb' : plan'.patch.rects[j]? = some b') : Rect.SameSpan axis axis' b b' := by
  obtain ⟨_, hget, hrespanned⟩ := forall₂_of_getElem? (planFrom_respanned hs hplan axis) hr
  obtain rfl := Option.some.inj (hb.symm.trans hget)
  obtain ⟨_, hget', hrespanned'⟩ := forall₂_of_getElem? (planFrom_respanned hs' hplan' axis') hr'
  obtain rfl := Option.some.inj (hb'.symm.trans hget')
  rw [← Reading.map_forward (grip.along axis)] at hgrip
  exact hspan.respanned hrespanned hrespanned'
    (h.reads_planFrom hs hs' hgrip hpoint hplan hplan' hr hr' hspan.reads hb hb')

end Scene

end Mosaic
