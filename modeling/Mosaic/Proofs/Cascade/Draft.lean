import Mosaic.Proofs.Cascade.Patch
import Mosaic.Proofs.Cascade.Probe

/-! Writing the pushes that a first push sets off. Whatever their order, an edge is only ever written
to the goal of a push of its line. -/
namespace Mosaic

/-- The two rectangles have the same span along the axis. -/
def Rect.SameAlong (axis : Axis) (r s : Rect) : Prop :=
  s.near axis = r.near axis ∧ s.extent axis = r.extent axis

theorem Rect.SameAlong.edge {axis : Axis} {r s : Rect} (h : SameAlong axis r s) (side : Side) :
    s.edge axis side = r.edge axis side := by
  cases side
  · exact h.1
  · change s.far axis = r.far axis
    rw [far_eq, far_eq, h.1, h.2]

/-- The span along the axis has stayed, or one of its edges has been moved and its far edge is not cut off. -/
def Rect.Respanned (axis : Axis) (r s : Rect) : Prop :=
  SameAlong axis r s ∨ (s.far axis = s.near axis + s.extent axis ∧ ∃ side, s.edge axis side ≠ r.edge axis side)

theorem Rect.Respanned.of_sameAlong {axis : Axis} {r a s : Rect} (h : Respanned axis r s)
    (hsame : SameAlong axis r a) : Respanned axis a s := by
  rcases h with hstays | ⟨hexact, side, hmoved⟩
  · exact .inl ⟨hstays.1.trans hsame.1.symm, hstays.2.trans hsame.2.symm⟩
  · exact .inr ⟨hexact, side, by rwa [hsame.edge]⟩

namespace Scene

variable {scene : Scene} {root p q : Push} {start patch patch' : Patch} {i : Nat} {r a b b' : Rect}
  {side : Side} {v : Int}

/-- A push that goes ahead and can be made in full. -/
structure Viable (scene : Scene) (p : Push) : Prop where
  line : Coord.Fits p.line
  ahead : p.dir.pos p.line < p.dir.pos p.goal
  clear : scene.Clear p
  feasible : scene.Feasible p

theorem Viable.fits_goal (h : scene.Viable p) (hs : scene.Fits) : Coord.Fits p.goal := by
  have hline := h.line
  have hahead := h.ahead
  have hle := h.feasible.le_stop
  have hstop := hs.stop p
  obtain ⟨axis, side, line, goal⟩ := p
  unfold Coord.Fits at *
  cases side
  · simp only [Push.dir, Side.inward, Direction.pos_up] at *
    omega
  · simp only [Push.dir, Side.inward, Direction.pos_down] at *
    omega

theorem Viable.goal_ne_line (h : scene.Viable p) : p.goal ≠ p.line := by
  intro heq
  have hahead := h.ahead
  rw [heq] at hahead
  exact Int.lt_irrefl _ hahead

theorem Viable.up_or_down (h : scene.Viable p) :
    (if p.line < p.goal then Direction.up else .down) = p.dir := by
  have hahead := h.ahead
  rw [Push.dir] at hahead ⊢
  cases hp : p.side
  · simp only [hp, Side.inward, Direction.pos_up] at hahead ⊢
    exact if_pos hahead
  · simp only [hp, Side.inward, Direction.pos_down] at hahead ⊢
    exact if_neg (by omega)

theorem Viable.ite_side (h : scene.Viable p) {α : Type} (f : Side → α) (still : α) :
    (if p.line < p.goal then f .near else if p.goal < p.line then f .far else still) = f p.side := by
  have hahead := h.ahead
  rw [Push.dir] at hahead
  cases hp : p.side
  · simp only [hp, Side.inward, Direction.pos_up] at hahead
    exact if_pos hahead
  · simp only [hp, Side.inward, Direction.pos_down, Int.neg_lt_neg_iff] at hahead
    rw [if_neg (Int.lt_asymm hahead), if_pos hahead]

theorem Viable.handsOn (h : scene.Viable p) (hs : scene.Fits) (hq : scene.HandsOn p q) :
    scene.Viable q ∧ p.dir.pos p.line < p.dir.pos q.line := by
  have hfeasible := h.feasible.of_handsOn hq
  obtain ⟨i, r, hc, rfl⟩ := hq
  have hgoal := pos_goal_handed scene p i r
  have hshort := hc.short
  exact ⟨⟨(hs.get hc.get).1.edge _ _, Int.lt_of_lt_of_le hshort (Int.le_of_eq hgoal.symm),
    hc.clear hs h.clear, hfeasible⟩, hc.ahead hs h.clear h.ahead h.feasible.le_stop⟩

theorem Viable.follows (h : scene.Viable p) (hs : scene.Fits) (hq : scene.Follows p q) :
    scene.Viable q ∧ (q = p ∨ p.dir.pos p.line < p.dir.pos q.line) := by
  induction hq with
  | refl => exact ⟨h, .inl rfl⟩
  | tail hq ht ih =>
    obtain ⟨hviable, hbehind⟩ := ih
    obtain ⟨hnext, hlt⟩ := hviable.handsOn hs ht
    have hside := (Follows.axis_side hq).2
    rw [Push.dir, hside] at hlt
    refine ⟨hnext, .inr ?_⟩
    rcases hbehind with rfl | hbehind
    · exact hlt
    · exact Int.lt_trans hbehind hlt

/-- An edge at `c` stays there, or is at the goal of a push of its line that the first one sets off. -/
def Attains (scene : Scene) (root : Push) (c v : Int) : Prop :=
  v = c ∨ ∃ q, scene.Follows root q ∧ q.line = c ∧ q.goal = v

/-- A region `r` of the scene, which the writing began with as `a`, is now `b`. -/
structure Drafted (scene : Scene) (root : Push) (r a b : Rect) : Prop where
  fits : b.Fits
  proper : b.IsProper
  across : Rect.SameAcross root.axis a b
  attains : ∀ side, scene.Attains root (r.edge root.axis side) (b.edge root.axis side)
  marker : r.extent root.axis = 0 → b.far root.axis = b.near root.axis
  respanned : Rect.Respanned root.axis r b

theorem Drafted.exact_of_start (h : scene.Drafted root r a b) (hsame : Rect.SameAlong root.axis r a)
    (ha : a.far root.axis = a.near root.axis + a.extent root.axis) :
    b.far root.axis = b.near root.axis + b.extent root.axis := by
  rcases h.respanned with hstays | ⟨hexact, -⟩
  · have hfar : b.far root.axis = a.far root.axis := (hstays.edge .far).trans (hsame.edge .far).symm
    rw [hfar, ha, hsame.1, hsame.2, hstays.1, hstays.2]
  · exact hexact

/-- The patch came about from `start` by writing pushes that the first push sets off. -/
structure Drafts (scene : Scene) (root : Push) (start patch : Patch) : Prop where
  length : patch.rects.length = scene.rects.length
  drafted : ∀ (i : Nat) (r : Rect), scene.rects[i]? = some r → ∃ a b, start.rects[i]? = some a ∧
    patch.rects[i]? = some b ∧ scene.Drafted root r a b

/-- The patch has a rectangle for each region of the scene, with its span along the axis. -/
structure Begins (scene : Scene) (axis : Axis) (start : Patch) : Prop where
  length : start.rects.length = scene.rects.length
  region : ∀ (i : Nat) (r : Rect), scene.rects[i]? = some r → ∃ a, start.rects[i]? = some a ∧
    a.Fits ∧ a.IsProper ∧ Rect.SameAlong axis r a

/-- Every edge on `side` at the line of the push has come to its goal. -/
def Carries (scene : Scene) (p : Push) (side : Side) (patch : Patch) : Prop :=
  ∀ (i : Nat) (r b : Rect), scene.rects[i]? = some r → r.edge p.axis side = p.line →
    patch.rects[i]? = some b → p.dir.pos p.goal ≤ p.dir.pos (b.edge p.axis side)

theorem Carries.mono (h : scene.Carries p side patch) (hle : patch.Advances p.dir p.axis patch') :
    scene.Carries p side patch' := by
  intro i r b' hr hline hb'
  obtain ⟨b, hb, hbb'⟩ := hle i b' hb'
  exact Int.le_trans (h i r b hr hline hb) (hbb' side)

theorem Begins.drafts (h : scene.Begins root.axis start) : scene.Drafts root start start := by
  refine ⟨h.length, fun i r hr => ?_⟩
  obtain ⟨a, ha, hf, hp, hsame⟩ := h.region i r hr
  refine ⟨a, a, ha, ha, hf, hp, .refl _ _, fun side => .inl (hsame.edge side), fun he => ?_, .inl hsame⟩
  exact Rect.far_eq_near hf (hsame.2.trans he)

theorem Drafts.set (h : scene.Drafts root start patch) (hr : scene.rects[i]? = some r)
    (ha : start.rects[i]? = some a) (hb : patch.rects[i]? = some b) (hd : scene.Drafted root r a b')
    (hle : ∀ side, root.dir.pos (b.edge root.axis side) ≤ root.dir.pos (b'.edge root.axis side))
    (hset : patch'.rects = patch.rects.set i b') :
    scene.Drafts root start patch' ∧ patch.Advances root.dir root.axis patch' ∧
      patch'.rects[i]? = some b' := by
  have hi : i < patch.rects.length := (List.getElem?_eq_some_iff.1 hb).1
  have hget : patch'.rects[i]? = some b' := by rw [hset, List.getElem?_set_self hi]
  have hother : ∀ j, j ≠ i → patch'.rects[j]? = patch.rects[j]? := by
    intro j hj
    rw [hset, List.getElem?_set_ne hj.symm]
  refine ⟨⟨?_, fun j s hs => ?_⟩, fun j c hc => ?_, hget⟩
  · rw [hset, List.length_set, h.length]
  · by_cases hj : j = i
    · subst hj
      obtain rfl := Option.some.inj (hr.symm.trans hs)
      exact ⟨a, b', ha, hget, hd⟩
    · rw [hother j hj]
      exact h.drafted j s hs
  · by_cases hj : j = i
    · subst hj
      obtain rfl := Option.some.inj (hget.symm.trans hc)
      exact ⟨b, hb, hle⟩
    · exact ⟨c, hother j hj ▸ hc, fun _ => Int.le_refl _⟩

theorem Attains.further {c w : Int} (hv : scene.Attains root c v) (hw : scene.Attains root c w)
    (d : Direction) : scene.Attains root c (d.further v w) := by
  rcases d.further_eq_or v w with h | h
  · rwa [h]
  · rwa [h]

private theorem further_ne {d : Direction} {c e v : Int} (hlt : d.pos c < d.pos v) : d.further e v ≠ c := by
  intro heq
  have hpos := d.pos_further e v
  rw [heq] at hpos
  omega

/-- The region at a position has come at least to `v`. -/
def Arrived (d : Direction) (axis : Axis) (side : Side) (v : Int) (i : Nat) (patch : Patch) : Prop :=
  ∀ b, patch.rects[i]? = some b → d.pos v ≤ d.pos (b.edge axis side)

theorem Arrived.mono {d : Direction} {axis : Axis} (h : Arrived d axis side v i patch)
    (hle : patch.Advances d axis patch') : Arrived d axis side v i patch' := by
  intro b' hb'
  obtain ⟨b, hb, hbb'⟩ := hle i b' hb'
  exact Int.le_trans (h b hb) (hbb' side)

theorem Drafts.moveEdge (h : scene.Drafts root start patch) (hr : scene.rects[i]? = some r)
    (he : r.extent root.axis ≠ 0) (hv : Coord.Fits v) {other : Side}
    (hat : scene.Attains root (r.edge root.axis other) v)
    (hlt : root.dir.pos (r.edge root.axis other) < root.dir.pos v)
    (hroom : other = root.side → Arrived root.dir root.axis root.side.flip v i patch)
    (hok : patch.moveEdge i root.axis other v root.dir = .ok patch') :
    scene.Drafts root start patch' ∧ patch.Advances root.dir root.axis patch' ∧
      Arrived root.dir root.axis other v i patch' := by
  obtain ⟨a, b, ha, hb, hd⟩ := h.drafted i r hr
  obtain ⟨b', hset, hedge, hflip, hexact, hacross, hf, hp⟩ :=
    Patch.moveEdge_eq_ok hb hd.fits hd.proper hv (fun ho => hroom ho b hb) hok
  have hpos := root.dir.pos_further (b.edge root.axis other) v
  rw [← hedge] at hpos
  have hcases : ∀ side, side = other ∨ side = other.flip := by
    intro side
    cases side <;> cases other <;> simp [Side.flip]
  have hdraft : scene.Drafted root r a b' := by
    refine ⟨hf, hp, hd.across.trans hacross, fun side => ?_, fun he' => absurd he' he,
      .inr ⟨hexact, other, hedge ▸ further_ne hlt⟩⟩
    rcases hcases side with rfl | rfl
    · exact hedge ▸ (hd.attains side).further hat _
    · exact hflip ▸ hd.attains other.flip
  have hle : ∀ side, root.dir.pos (b.edge root.axis side) ≤ root.dir.pos (b'.edge root.axis side) := by
    intro side
    rcases hcases side with rfl | rfl
    · omega
    · exact Int.le_of_eq (congrArg root.dir.pos hflip.symm)
  obtain ⟨hdrafts, hadv, hget⟩ := h.set hr ha hb hdraft hle hset
  refine ⟨hdrafts, hadv, fun c hc => ?_⟩
  obtain rfl := Option.some.inj (hget.symm.trans hc)
  omega

theorem Drafts.moveMarker (h : scene.Drafts root start patch) (hr : scene.rects[i]? = some r)
    (he : r.extent root.axis = 0) (hv : Coord.Fits v)
    (hat : ∀ side, scene.Attains root (r.edge root.axis side) v)
    (hlt : root.dir.pos (r.near root.axis) < root.dir.pos v)
    (hok : patch.moveMarker i root.axis v root.dir = .ok patch') :
    scene.Drafts root start patch' ∧ patch.Advances root.dir root.axis patch' ∧
      ∀ side, Arrived root.dir root.axis side v i patch' := by
  obtain ⟨a, b, ha, hb, hd⟩ := h.drafted i r hr
  obtain ⟨b', hset, hedge, hexact, hacross, hf, hp⟩ := Patch.moveMarker_eq_ok hb hd.fits hd.proper hv hok
  have hboth : ∀ side, b.edge root.axis side = b.near root.axis := by
    intro side
    cases side
    · rfl
    · exact hd.marker he
  have hpos := root.dir.pos_further (b.near root.axis) v
  have hdraft : scene.Drafted root r a b' := by
    refine ⟨hf, hp, hd.across.trans hacross, fun side => ?_, fun _ => (hedge .far).trans (hedge .near).symm,
      .inr ⟨hexact, .near, hedge .near ▸ further_ne hlt⟩⟩
    have hattains := hd.attains side
    rw [hboth] at hattains
    exact hedge side ▸ hattains.further (hat side) _
  have hle : ∀ side, root.dir.pos (b.edge root.axis side) ≤ root.dir.pos (b'.edge root.axis side) := by
    intro side
    rw [hboth, hedge]
    omega
  obtain ⟨hdrafts, hadv, hget⟩ := h.set hr ha hb hdraft hle hset
  refine ⟨hdrafts, hadv, fun side c hc => ?_⟩
  obtain rfl := Option.some.inj (hget.symm.trans hc)
  rw [hedge]
  omega

/-- Growing the regions behind the line of a push takes their edges to its goal. -/
theorem Drafts.grow (h : scene.Drafts root start patch) (hs : scene.Fits) (hroot : scene.Viable root)
    (hq : scene.Follows root q) (hok : scene.grow q.axis q.side.flip q.line q.goal patch = .ok patch') :
    scene.Drafts root start patch' ∧ patch.Advances root.dir root.axis patch' ∧
      scene.Carries q q.side.flip patch' := by
  obtain ⟨haxis, hside⟩ := Follows.axis_side hq
  obtain ⟨hviable, -⟩ := hroot.follows hs hq
  have hgoal := hviable.fits_goal hs
  have hne := hviable.goal_ne_line
  have hdir := hviable.up_or_down
  rw [Push.dir, hside] at hdir
  have hattains : scene.Attains root q.line q.goal := .inr ⟨q, hq, rfl, rfl⟩
  have hlt : root.dir.pos q.line < root.dir.pos q.goal := by
    have hahead := hviable.ahead
    rwa [Push.dir, hside] at hahead
  rw [Scene.grow, if_neg hne, hdir, scene.index_eq] at hok
  have hfold : scene.Drafts root start patch' ∧ patch.Advances root.dir root.axis patch' ∧
      ∀ i ∈ (LineIndex.ofRects scene.rects).positions q.axis q.side.flip q.line,
        Arrived root.dir root.axis q.side.flip q.goal i patch' := by
    refine Checked.foldlM_induction (D := Arrived root.dir root.axis q.side.flip q.goal)
      (Patch.Advances.refl root.dir root.axis) (fun _ _ _ => Patch.Advances.trans)
      (fun _ _ _ => Arrived.mono) (fun i hi s t hst ht => ?_) h hok
    obtain ⟨r, hr, hline⟩ := LineIndex.mem_positions_ofRects.1 hi
    rw [haxis] at hline ht
    simp only [hr] at ht
    split at ht
    · next he =>
      have hboth : ∀ side, r.edge root.axis side = q.line := fun side =>
        (Rect.edge_eq_edge (hs.get hr).1 he q.side.flip side).trans hline
      obtain ⟨hd, hadv, hall⟩ := hst.moveMarker hr he hgoal (fun side => (hboth side).symm ▸ hattains)
        (by rwa [show r.near root.axis = q.line from hboth .near]) ht
      exact ⟨hd, hadv, hall _⟩
    · next he =>
      refine hst.moveEdge hr he hgoal (hline.symm ▸ hattains) (hline.symm ▸ hlt) (fun hflip => ?_) ht
      rw [hside] at hflip
      cases hrs : root.side <;> rw [hrs] at hflip <;> cases hflip
  obtain ⟨hd, hadv, hall⟩ := hfold
  refine ⟨hd, hadv, fun i r b hr hline hb => ?_⟩
  have harrived := hall i (LineIndex.mem_positions_ofRects.2 ⟨r, hr, hline⟩) b hb
  rw [Push.dir, hside, haxis]
  rw [hside] at harrived
  exact harrived

end Scene

end Mosaic
