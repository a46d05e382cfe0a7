import Mathlib.Order.Bounds.Defs
import Mosaic.Cascade.Plan
import Mosaic.Proofs.Cascade.Probe

/-! A probed line goes exactly as far as the bounds and the minimums let any arrangement of the
lines go. An arrangement gives each line a place: it keeps the lines of the bounds, puts every edge
inside them and leaves every region its minimum. -/
namespace Mosaic.Scene

variable {scene : Scene} {p : Push} {axis : Axis} {m : Int → Int}

/-- An arrangement of the lines of an axis that the bounds and the minimums admit. -/
structure Admits (scene : Scene) (axis : Axis) (m : Int → Int) : Prop where
  near : m (scene.bounds.near axis) = scene.bounds.near axis
  far : m (scene.bounds.far axis) = scene.bounds.far axis
  inside : ∀ r ∈ scene.rects, ∀ side, scene.bounds.near axis ≤ m (r.edge axis side) ∧
    m (r.edge axis side) ≤ scene.bounds.far axis
  room : ∀ i r, scene.rects[i]? = some r → 0 < r.extent axis →
    scene.minAlong i axis ≤ m (r.far axis) - m (r.near axis)

theorem Admits.inside_along (h : scene.Admits p.axis m) {r : Rect} (hr : r ∈ scene.rects) (side : Side) :
    p.dir.pos (scene.bounds.edge p.axis p.side) ≤ p.dir.pos (m (r.edge p.axis side)) ∧
      p.dir.pos (m (r.edge p.axis side)) ≤ p.dir.pos (scene.stop p) := by
  have hin := h.inside r hr side
  obtain ⟨axis, side', line, goal⟩ := p
  cases side'
  · simp only [Push.dir, Side.inward, Direction.pos_up]
    exact hin
  · simp only [Push.dir, Side.inward, Direction.pos_down]
    exact ⟨Int.neg_le_neg hin.2, Int.neg_le_neg hin.1⟩

theorem Admits.room_along (h : scene.Admits p.axis m) {i : Nat} {r : Rect}
    (hr : scene.rects[i]? = some r) (he : 0 < r.extent p.axis) :
    p.dir.pos (m (r.edge p.axis p.side)) + scene.minAlong i p.axis ≤
      p.dir.pos (m (r.edge p.axis p.side.flip)) := by
  have hroom := h.room i r hr he
  obtain ⟨axis, side, line, goal⟩ := p
  cases side
  · simp only [Push.dir, Side.inward, Direction.pos_up, Rect.edge, Side.flip] at hroom ⊢
    omega
  · simp only [Push.dir, Side.inward, Direction.pos_down, Rect.edge, Side.flip] at hroom ⊢
    omega

theorem Admits.feasible (h : scene.Admits p.axis m) (hs : scene.Fits) (hline : m p.line = p.goal)
    (hgoal : p.dir.pos p.goal ≤ p.dir.pos (scene.stop p)) : scene.Feasible p := by
  have hroom : scene.Accommodates p m := by
    refine ⟨Int.le_of_eq (congrArg p.dir.pos hline.symm), hline.symm ▸ hgoal, ?_, ?_⟩
    · exact fun r hr => (h.inside_along hr p.side.flip).2
    · exact fun i r hr he => h.room_along hr he
  exact hroom.feasible hs

/-- The edge opposite to one that stays, or is pushed in full, can get out of the way. -/
private theorem Reaches.room {c v : Int} {i : Nat} {r : Rect} (hr : scene.rects[i]? = some r)
    (he : r.extent p.axis ≠ 0)
    (hroom : p.dir.pos (r.edge p.axis p.side) + scene.minAlong i p.axis ≤
      p.dir.pos (r.edge p.axis p.side.flip))
    (hc : c = r.edge p.axis p.side ∨
      scene.Feasible { p with line := r.edge p.axis p.side, goal := c })
    (hv : scene.Reaches { p with line := r.edge p.axis p.side.flip, goal := scene.stop p } v) :
    p.dir.pos c + scene.minAlong i p.axis ≤ p.dir.pos v := by
  have hahead : p.dir.pos (r.edge p.axis p.side.flip) ≤ p.dir.pos v := hv.ahead
  rcases hc with rfl | hf
  · omega
  · by_cases hshort : p.dir.pos (r.edge p.axis p.side.flip) < p.dir.pos c + scene.minAlong i p.axis
    · have hnext := hf.of_handsOn ⟨i, r, ⟨hr, rfl, he, hshort⟩, rfl⟩
      have hgoal := pos_goal_handed scene { p with line := r.edge p.axis p.side, goal := c } i r
      have hlast := hv.last _ (Int.lt_of_lt_of_le hshort (Int.le_of_eq hgoal.symm)) hnext.le_stop hnext
      exact Int.le_trans (Int.le_of_eq hgoal.symm) hlast
    · omega

private theorem Admits.of_along
    (hstart : m (scene.bounds.edge p.axis p.side) = scene.bounds.edge p.axis p.side)
    (hstop : m (scene.stop p) = scene.stop p)
    (hinside : ∀ r ∈ scene.rects, ∀ side,
      p.dir.pos (scene.bounds.edge p.axis p.side) ≤ p.dir.pos (m (r.edge p.axis side)) ∧
        p.dir.pos (m (r.edge p.axis side)) ≤ p.dir.pos (scene.stop p))
    (hroom : ∀ i r, scene.rects[i]? = some r → 0 < r.extent p.axis →
      p.dir.pos (m (r.edge p.axis p.side)) + scene.minAlong i p.axis ≤
        p.dir.pos (m (r.edge p.axis p.side.flip))) : scene.Admits p.axis m := by
  obtain ⟨axis, side, line, goal⟩ := p
  cases side
  · simp only [Push.dir, Side.inward, Direction.pos_up] at hinside hroom
    exact ⟨hstart, hstop, hinside, fun i r hr he => Int.le_sub_left_of_add_le (hroom i r hr he)⟩
  · simp only [Push.dir, Side.inward, Direction.pos_down] at hinside hroom
    refine ⟨hstop, hstart, fun r hr s => ?_, fun i r hr he => ?_⟩
    · obtain ⟨hfar, hnear⟩ := hinside r hr s
      exact ⟨Int.neg_le_neg_iff.1 hnear, Int.neg_le_neg_iff.1 hfar⟩
    · have hleft := hroom i r hr he
      simp only [Rect.edge, Side.flip] at hleft ⊢
      omega

/-- Lines behind that of the push stay, its own goes to the goal, and those ahead go as told. -/
def arrange (p : Push) (furthest : Int → Int) (x : Int) : Int :=
  if x = p.line then p.goal else if p.dir.pos x < p.dir.pos p.line then x else furthest x

section

variable {furthest : Int → Int} {x : Int}

theorem arrange_line : arrange p furthest p.line = p.goal := if_pos rfl

theorem arrange_behind (hx : p.dir.pos x < p.dir.pos p.line) : arrange p furthest x = x := by
  have hne : x ≠ p.line := by
    rintro rfl
    omega
  rw [arrange, if_neg hne, if_pos hx]

theorem arrange_ahead (hx : p.dir.pos p.line < p.dir.pos x) : arrange p furthest x = furthest x := by
  have hne : x ≠ p.line := by
    rintro rfl
    omega
  rw [arrange, if_neg hne, if_neg (Int.lt_asymm hx)]

variable (hfurthest : ∀ x, scene.Reaches { p with line := x, goal := scene.stop p } (furthest x))
include hfurthest

theorem pos_le_arrange (hahead : p.dir.pos p.line ≤ p.dir.pos p.goal) :
    p.dir.pos x ≤ p.dir.pos (arrange p furthest x) := by
  rcases Int.lt_trichotomy (p.dir.pos x) (p.dir.pos p.line) with hx | hx | hx
  · rw [arrange_behind hx]
  · rwa [p.dir.pos_inj.1 hx, arrange_line]
  · rw [arrange_ahead hx]
    exact (hfurthest x).ahead

theorem arrange_le_stop (hstop : p.dir.pos p.goal ≤ p.dir.pos (scene.stop p))
    (hx : p.dir.pos x ≤ p.dir.pos (scene.stop p)) :
    p.dir.pos (arrange p furthest x) ≤ p.dir.pos (scene.stop p) := by
  rcases Int.lt_trichotomy (p.dir.pos x) (p.dir.pos p.line) with hline | hline | hline
  · rwa [arrange_behind hline]
  · rwa [p.dir.pos_inj.1 hline, arrange_line]
  · rw [arrange_ahead hline]
    by_cases heq : furthest x = x
    · rwa [heq]
    · exact ((hfurthest x).moved heq).1

theorem arrange_moved (hgoal : p.goal = p.line ∨ scene.Feasible p) (hx : p.dir.pos p.line ≤ p.dir.pos x) :
    arrange p furthest x = x ∨ scene.Feasible { p with line := x, goal := arrange p furthest x } := by
  by_cases heq : arrange p furthest x = x
  · exact .inl heq
  · right
    rcases Int.lt_or_eq_of_le hx with hx | hx
    · rw [arrange_ahead hx] at heq ⊢
      exact ((hfurthest x).moved heq).2
    · obtain rfl := p.dir.pos_inj.1 hx.symm
      rw [arrange_line] at heq ⊢
      exact hgoal.resolve_left heq

theorem arrange_room {i : Nat} {r : Rect} (hr : scene.rects[i]? = some r) (he : 0 < r.extent p.axis)
    (hahead : p.dir.pos p.line ≤ p.dir.pos p.goal) (hgoal : p.goal = p.line ∨ scene.Feasible p)
    (hroom : p.dir.pos (r.edge p.axis p.side) + scene.minAlong i p.axis ≤
      p.dir.pos (r.edge p.axis p.side.flip)) :
    p.dir.pos (arrange p furthest (r.edge p.axis p.side)) + scene.minAlong i p.axis ≤
      p.dir.pos (arrange p furthest (r.edge p.axis p.side.flip)) := by
  have hmin := scene.minAlong_nonneg i p.axis
  have hopposite := pos_le_arrange hfurthest hahead (x := r.edge p.axis p.side.flip)
  by_cases hx : p.dir.pos (r.edge p.axis p.side) < p.dir.pos p.line
  · rw [arrange_behind hx]
    omega
  · by_cases hy : p.dir.pos p.line < p.dir.pos (r.edge p.axis p.side.flip)
    · rw [arrange_ahead hy]
      exact Reaches.room hr (Int.ne_of_gt he) hroom (arrange_moved hfurthest hgoal (by omega)) (hfurthest _)
    · -- only a region without a minimum has both edges on the line
      have hnear : r.edge p.axis p.side = p.line := p.dir.pos_inj.1 (by omega)
      have hfar : r.edge p.axis p.side.flip = p.line := p.dir.pos_inj.1 (by omega)
      rw [hnear, hfar] at hroom ⊢
      omega

end

/-- Where a push can be made in full, there is an arrangement that puts its line at its goal: lines
behind it stay, and lines ahead of it go as far as they can. -/
theorem exists_admits (hid : scene.Admits p.axis id)
    (hbehind : p.dir.pos (scene.bounds.edge p.axis p.side) < p.dir.pos p.line)
    (hahead : p.dir.pos p.line ≤ p.dir.pos p.goal)
    (hstop : p.dir.pos p.goal ≤ p.dir.pos (scene.stop p))
    (hgoal : p.goal = p.line ∨ scene.Feasible p) : ∃ m, scene.Admits p.axis m ∧ m p.line = p.goal := by
  choose furthest hfurthest using fun x => scene.exists_reaches { p with line := x, goal := scene.stop p }
  refine ⟨arrange p furthest, Admits.of_along (arrange_behind hbehind) ?_ (fun r hr side => ?_)
    (fun i r hr he => ?_), arrange_line⟩
  · apply p.dir.pos_inj.1
    exact Int.le_antisymm (arrange_le_stop hfurthest hstop (Int.le_refl _)) (pos_le_arrange hfurthest hahead)
  · obtain ⟨hstart, hend⟩ := hid.inside_along hr side
    exact ⟨Int.le_trans hstart (pos_le_arrange hfurthest hahead), arrange_le_stop hfurthest hstop hend⟩
  · exact arrange_room hfurthest hr he hahead hgoal (hid.room_along hr he)

theorem Reaches.attained {v : Int} (h : scene.Reaches p v) (hid : scene.Admits p.axis id)
    (hbehind : p.dir.pos (scene.bounds.edge p.axis p.side) < p.dir.pos p.line)
    (hline : p.dir.pos p.line < p.dir.pos (scene.stop p)) (hgoal : p.dir.pos p.line ≤ p.dir.pos p.goal) :
    p.dir.pos v ≤ p.dir.pos p.goal ∧ p.dir.pos v ≤ p.dir.pos (scene.stop p) ∧
      ∃ m, scene.Admits p.axis m ∧ m p.line = v := by
  by_cases hv : v = p.line
  · subst hv
    exact ⟨hgoal, Int.le_of_lt hline, id, hid, rfl⟩
  · obtain ⟨hle, hf⟩ := h.moved hv
    have hstop : p.dir.pos v ≤ p.dir.pos (scene.stop p) := hf.le_stop
    exact ⟨hle, hstop, exists_admits (p := { p with goal := v }) hid hbehind h.ahead hstop (.inr hf)⟩

/-- No arrangement puts the line of a push further than the push comes. -/
theorem Reaches.furthest {v : Int} (h : scene.Reaches p v) (hs : scene.Fits) (hm : scene.Admits p.axis m)
    (hline : p.dir.pos p.line ≤ p.dir.pos (m p.line)) (hgoal : p.dir.pos (m p.line) ≤ p.dir.pos p.goal)
    (hstop : p.dir.pos (m p.line) ≤ p.dir.pos (scene.stop p)) : p.dir.pos (m p.line) ≤ p.dir.pos v := by
  rcases Int.lt_or_eq_of_le hline with hlt | heq
  · exact h.last _ hlt hgoal (Admits.feasible (p := { p with goal := m p.line }) hm hs rfl hstop)
  · exact heq ▸ h.ahead

/-- The probed line goes as far as it can. The regions lie inside the bounds and are no smaller,
edge to edge, than their minimums; the answers known beforehand come from earlier probes. -/
theorem probeLine_optimal {scene : Scene} {axis : Axis} {line goal reached : Int} {trace trace' : Trace}
    (hs : scene.Fits)
    (hinside : ∀ r ∈ scene.rects,
      scene.bounds.near axis ≤ r.near axis ∧ r.far axis ≤ scene.bounds.far axis)
    (hroom : ∀ i r, scene.rects[i]? = some r → 0 < r.extent axis →
      scene.minAlong i axis ≤ r.far axis - r.near axis)
    (hnear : scene.bounds.near axis < line) (hfar : line < scene.bounds.far axis)
    (ht : trace.Sound scene) (h : scene.probeLine axis line goal trace = .ok (reached, trace')) :
    (line < goal → IsGreatest {c | line ≤ c ∧ c ≤ min goal (scene.bounds.far axis) ∧
        ∃ m, scene.Admits axis m ∧ m line = c} reached) ∧
      (goal < line → IsLeast {c | c ≤ line ∧ max goal (scene.bounds.near axis) ≤ c ∧
        ∃ m, scene.Admits axis m ∧ m line = c} reached) ∧
      trace'.Sound scene := by
  have hid : scene.Admits axis id := by
    refine ⟨rfl, rfl, fun r hr side => ?_, hroom⟩
    have hedges := Rect.near_le_far (hs.rects r hr).1 (hs.rects r hr).2 axis
    obtain ⟨hrn, hrf⟩ := hinside r hr
    cases side
    · exact ⟨hrn, Int.le_trans hedges hrf⟩
    · exact ⟨Int.le_trans hrn hedges, hrf⟩
  have hmax : scene.bounds.far axis ≤ 2147483647 := (Rect.fits_far scene.bounds axis).2
  unfold probeLine at h
  split at h
  · next hlt =>
    obtain ⟨hreach, hsound, -⟩ := probe_reaches hs _ (scene.ahead_lt_depth _)
      (Fits.clear_of_near rfl) ht h
    have hahead := hreach.ahead
    have hattained := hreach.attained hid
    simp only [Push.dir, Side.inward, Direction.pos_up] at hahead hattained
    obtain ⟨hgoal, hstop, m, hm, hml⟩ := hattained hnear hfar (Int.le_of_lt hlt)
    refine ⟨fun _ => ⟨⟨hahead, Int.le_min.2 ⟨hgoal, hstop⟩, m, hm, hml⟩, ?_⟩,
      fun hgt => absurd hlt (Int.lt_asymm hgt), hsound⟩
    rintro c ⟨hline, hc, m, hm, rfl⟩
    have hfurthest := hreach.furthest hs hm
    simp only [Push.dir, Side.inward, Direction.pos_up] at hfurthest
    exact hfurthest hline (Int.le_min.1 hc).1 (Int.le_min.1 hc).2
  · split at h
    · next hgt =>
      have hclear : scene.Clear ⟨axis, .far, line, goal⟩ := Fits.clear hs (by simp only; omega)
      obtain ⟨hreach, hsound, -⟩ := probe_reaches hs _ (scene.ahead_lt_depth _) hclear ht h
      have hahead := hreach.ahead
      have hattained := hreach.attained hid
      simp only [Push.dir, Side.inward, Direction.pos_down, Int.neg_le_neg_iff, Int.neg_lt_neg_iff]
        at hahead hattained
      obtain ⟨hgoal, hstop, m, hm, hml⟩ := hattained hfar hnear (Int.le_of_lt hgt)
      refine ⟨fun hlt => absurd hgt (Int.lt_asymm hlt),
        fun _ => ⟨⟨hahead, Int.max_le.2 ⟨hgoal, hstop⟩, m, hm, hml⟩, ?_⟩, hsound⟩
      rintro c ⟨hline, hc, m, hm, rfl⟩
      have hfurthest := hreach.furthest hs hm
      simp only [Push.dir, Side.inward, Direction.pos_down, Int.neg_le_neg_iff] at hfurthest
      exact hfurthest hline (Int.max_le.1 hc).1 (Int.max_le.1 hc).2
    · next hnlt hngt =>
      cases h
      exact ⟨fun hlt => absurd hlt hnlt, fun hgt => absurd hgt hngt, ht⟩

/-- Three columns that have to stay four wide. -/
def threeColumns : Scene where
  rects := [⟨0, 0, 10, 10⟩, ⟨10, 0, 5, 10⟩, ⟨15, 0, 15, 10⟩]
  mins := [⟨4, 4⟩, ⟨4, 4⟩, ⟨4, 4⟩]
  bounds := ⟨0, 0, 30, 10⟩

theorem probeLine_optimal_threeColumns : ∃ trace,
    threeColumns.probeLine .x 10 26 {} = .ok (22, trace) ∧
      IsGreatest {c | 10 ≤ c ∧ c ≤ min 26 30 ∧ ∃ m, threeColumns.Admits .x m ∧ m 10 = c} 22 := by
  have room : ∀ i r, threeColumns.rects[i]? = some r → 0 < r.extent .x →
      threeColumns.minAlong i .x ≤ r.far .x - r.near .x := by
    rintro (_ | _ | _ | i) r hr he <;> cases hr <;> decide
  obtain ⟨trace, h⟩ : ∃ trace, threeColumns.probeLine .x 10 26 {} = .ok (22, trace) := ⟨_, rfl⟩
  exact ⟨trace, h, (probeLine_optimal ⟨by decide, by decide⟩ (by decide) room (by decide) (by decide)
    (Trace.sound_empty threeColumns) h).1 (by decide)⟩

/-- The last column is wide enough, but seven of its hundred are left before the end of the coordinates. -/
def cutLastColumn : Scene where
  rects := [⟨0, 0, 10, 10⟩, ⟨10, 0, 2147483630, 10⟩, ⟨2147483640, 0, 100, 10⟩]
  mins := [⟨0, 0⟩, ⟨50, 0⟩, ⟨50, 0⟩]
  bounds := ⟨0, 0, 2147483647, 10⟩

/-- A region that is smaller than its minimum only because its far edge is cut off holds its ground,
where an arrangement would have to give it more. -/
theorem not_optimal_of_cut_off : ¬ ∀ (scene : Scene) (axis : Axis) (line goal reached : Int) (trace : Trace),
    scene.Fits →
    (∀ r ∈ scene.rects, scene.bounds.near axis ≤ r.near axis ∧ r.far axis ≤ scene.bounds.far axis) →
    (∀ i r, scene.rects[i]? = some r → 0 < r.extent axis → scene.minAlong i axis ≤ r.extent axis) →
    scene.bounds.near axis < line → line < scene.bounds.far axis → line < goal →
    scene.probeLine axis line goal {} = .ok (reached, trace) →
      IsGreatest {c | line ≤ c ∧ c ≤ min goal (scene.bounds.far axis) ∧
        ∃ m, scene.Admits axis m ∧ m line = c} reached := by
  intro h
  have room : ∀ i r, cutLastColumn.rects[i]? = some r → 0 < r.extent .x →
      cutLastColumn.minAlong i .x ≤ r.extent .x := by
    rintro (_ | _ | _ | i) r hr he <;> cases hr <;> decide
  obtain ⟨trace, hprobe⟩ : ∃ trace, cutLastColumn.probeLine .x 10 2147483640 {} = .ok (2147483590, trace) := ⟨_, rfl⟩
  obtain ⟨⟨-, -, m, hm, hline⟩, -⟩ := h cutLastColumn .x 10 2147483640 _ trace ⟨by decide, by decide⟩ (by decide) room
    (by decide) (by decide) (by decide) hprobe
  have hfar : m 2147483647 = 2147483647 := hm.far
  have hmiddle : 50 ≤ m 2147483640 - m 10 := hm.room 1 _ rfl (by decide)
  have hlast : 50 ≤ m 2147483647 - m 2147483640 := hm.room 2 _ rfl (by decide)
  omega

end Mosaic.Scene
