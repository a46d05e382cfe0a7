import Mosaic.Proofs.Cascade.Recall

/-! The limit of a line. A line goes where it is asked to go, but not beyond a limit, which is the same for all
goals and does not depend on what has been asked or written before. -/
namespace Mosaic.Scene

variable {scene : Scene} {p : Push} {i : Nat} {r : Rect} {g v w : Int}

/-- The furthest that a push can come, were it to go up to the bounds, is its limit for every goal. -/
theorem Reaches.of_limit {limit : Int} (h : scene.Reaches { p with goal := scene.stop p } limit)
    (hgoal : p.dir.pos p.line ≤ p.dir.pos p.goal) :
    scene.Reaches p (p.dir.further p.line (p.dir.nearer p.goal limit)) := by
  have hahead : p.dir.pos p.line ≤ p.dir.pos limit := h.ahead
  have hnearer := p.dir.pos_nearer p.goal limit
  have hfurther := p.dir.pos_further p.line (p.dir.nearer p.goal limit)
  refine ⟨by omega, fun hv => ⟨by omega, ?_⟩, fun c hc hle hf => ?_⟩
  · have hne : limit ≠ p.line := by
      rintro rfl
      exact hv (p.dir.pos_inj.1 (by omega))
    exact (h.moved hne).2.within ⟨rfl, rfl, rfl, by simp only [Push.dir] at *; omega⟩
  · have hlast := h.last c hc hf.le_stop hf
    simp only [Push.dir] at *
    omega

theorem handOn?_nearer (hg : p.dir.pos g ≤ p.dir.pos p.goal) {next : Option Push}
    (h : scene.handOn? p r i = .ok next) : ∃ next', scene.handOn? { p with goal := g } r i = .ok next' := by
  obtain ⟨axis, side, line, goal⟩ := p
  obtain ⟨b, hb, h⟩ := Checked.bind_eq_ok.1 h
  rcases allowed_cases g hb with ⟨heq, -⟩ | ⟨hne, hlt, -⟩
  · exact ⟨none, Checked.bind_eq_ok.2 ⟨b, hb, if_pos heq⟩⟩
  · rcases allowed_cases goal hb with ⟨-, hle⟩ | ⟨hne', -, -⟩
    · exact absurd hle (Int.not_le.2 (Int.lt_of_lt_of_le hlt (Int.add_le_add_right hg _)))
    · rw [if_neg hne'] at h
      obtain ⟨_, hgap, -⟩ := Checked.bind_eq_ok.1 h
      obtain ⟨hfits, -⟩ := Coord.sub_eq_ok_iff.1 hgap
      have hnearer : Coord.Fits (g - side.inward.nearer g b) := by
        unfold Coord.Fits at *
        cases side
        · simp only [Push.dir, Side.inward, Direction.pos_up, Direction.nearer] at *
          omega
        · simp only [Push.dir, Side.inward, Direction.pos_down, Direction.nearer] at *
          omega
      exact ⟨_, Checked.bind_eq_ok.2 ⟨b, hb, (if_neg hne).trans
        (Checked.bind_eq_ok.2 ⟨_, Coord.sub_eq_ok_iff.2 ⟨hnearer, rfl⟩, rfl⟩)⟩⟩

theorem Crowds.asked_le (hs : scene.Fits) (hc : scene.Crowds { p with goal := g } i r)
    (hg : p.dir.pos g ≤ p.dir.pos p.goal) :
    p.dir.pos (r.edge p.axis p.side.flip) ≤ p.dir.pos (scene.asked { p with goal := g } i r).goal ∧
      p.dir.pos (scene.asked { p with goal := g } i r).goal ≤ p.dir.pos (scene.asked p i r).goal := by
  obtain ⟨axis, side, line, goal⟩ := p
  have hshort : side.inward.pos (r.edge axis side.flip) < side.inward.pos g + scene.minAlong i axis := hc.short
  have hopposite := (hs.get hc.get).1.edge axis side.flip
  unfold Coord.Fits at hopposite
  simp only [asked, handed, Coord.saturate, Push.dir] at *
  cases side
  · simp only [Side.inward, Direction.pos_up, Direction.sign] at *
    omega
  · simp only [Side.inward, Direction.pos_down, Direction.sign] at *
    omega

theorem plainProbeRegion_nearer {onward : Push → Checked Int} (hr : scene.rects[i]? = some r)
    (hline : r.edge p.axis p.side = p.line) (hg : p.dir.pos g ≤ p.dir.pos p.goal)
    (honward : ∀ pushed, scene.Crowds { p with goal := g } i r → onward (scene.asked p i r) = .ok pushed →
      ∃ pushed', onward (scene.asked { p with goal := g } i r) = .ok pushed' ∧
        p.dir.pos (r.edge p.axis p.side.flip) ≤ p.dir.pos pushed' ∧ p.dir.pos pushed' ≤ p.dir.pos pushed)
    {before nearest : Int} (h : scene.plainProbeRegion onward p before (r, i) = .ok nearest) (start : Int) :
    ∃ nearest', scene.plainProbeRegion onward { p with goal := g } start (r, i) = .ok nearest' := by
  unfold plainProbeRegion at h ⊢
  split at h
  · next he => exact ⟨_, if_pos he⟩
  · next he =>
    obtain ⟨next, hask, h⟩ := Checked.bind_eq_ok.1 h
    obtain ⟨next', hask'⟩ := handOn?_nearer hg hask
    rw [if_neg he]
    simp only [hask']
    rcases handOn?_eq_ok (p := { p with goal := g }) hr hline he hask' with ⟨-, rfl⟩ | ⟨hc, rfl⟩
    · exact ⟨_, rfl⟩
    · rcases handOn?_eq_ok hr hline he hask with ⟨hno, -⟩ | ⟨-, rfl⟩
      · exact absurd (hc.further (p := { p with goal := g }) hg) hno
      · obtain ⟨pushed, hpushed, h⟩ := Checked.bind_eq_ok.1 h
        obtain ⟨v, hv, -⟩ := Checked.bind_eq_ok.1 h
        obtain ⟨pushed', hpushed', hopposite, hle⟩ := honward pushed hc hpushed
        obtain ⟨b, hb, -⟩ := Checked.bind_eq_ok.1 hask
        obtain ⟨u, hu⟩ := Direction.before_between hb hv hopposite hle
        exact ⟨_, Checked.bind_eq_ok.2 ⟨_, rfl, Checked.bind_eq_ok.2 ⟨_, hpushed',
          Checked.bind_eq_ok.2 ⟨u, hu, rfl⟩⟩⟩⟩

/-- A probe that is answered is answered for every goal on the way. -/
theorem plainProbe_nearer (hs : scene.Fits) (fuel : Nat) {p : Push} {g v : Int} (hfuel : scene.ahead p < fuel)
    (hclear : scene.Clear p) (hline : p.dir.pos p.line ≤ p.dir.pos g) (hg : p.dir.pos g ≤ p.dir.pos p.goal)
    (h : scene.plainProbe fuel p = .ok v) : ∃ w, scene.plainProbe fuel { p with goal := g } = .ok w := by
  induction fuel generalizing p g v with
  | zero => omega
  | succ fuel ih =>
    rw [plainProbe_succ] at h ⊢
    obtain ⟨b, hb, h⟩ := Checked.bind_eq_ok.1 h
    have hgoal : p.dir.pos (scene.confine p).goal = _ := p.dir.pos_nearer p.goal (scene.stop p)
    -- The goal that counts is the one inside the bounds.
    obtain ⟨g', hg'⟩ : ∃ g', (scene.confine { p with goal := g }).goal = g' := ⟨_, rfl⟩
    have hnear : p.dir.pos g' = min (p.dir.pos g) (p.dir.pos (scene.stop p)) := by
      rw [← hg']
      exact p.dir.pos_nearer g (scene.stop p)
    have hconfine : scene.confine { p with goal := g } = { scene.confine p with goal := g' } := by
      rw [← hg']
      rfl
    have hle : p.dir.pos g' ≤ p.dir.pos (scene.confine p).goal := by omega
    rw [hconfine]
    obtain ⟨b', hb'⟩ : ∃ b', p.dir.isAhead p.line g' = .ok b' := by
      rcases Int.lt_or_le (p.dir.pos (scene.stop p)) (p.dir.pos p.line) with hbeyond | hwithin
      · have hsame : g' = (scene.confine p).goal := p.dir.pos_inj.1 (by omega)
        exact ⟨b, hsame ▸ hb⟩
      · exact Direction.isAhead_between hb (by omega) hle
    have hahead := Direction.isAhead_eq_ok hb'
    cases b' with
    | false => exact ⟨p.line, Checked.bind_eq_ok.2 ⟨false, hb', rfl⟩⟩
    | true =>
      have hfar : p.dir.pos p.line < p.dir.pos (scene.confine p).goal := Int.lt_of_lt_of_le (hahead.1 rfl) hle
      have hstop := scene.confine_goal_le_stop p
      obtain rfl := (Direction.isAhead_eq_ok hb).2 hfar
      obtain ⟨_, hfold, -⟩ := Checked.bind_eq_ok.1 h
      have hstep : ∀ e ∈ scene.touching p.axis p.side p.line, ∀ start, ∃ nearest, scene.plainProbeRegion
          (scene.plainProbe fuel) { scene.confine p with goal := g' } start e = .ok nearest := by
        rintro ⟨r, i⟩ hmem start
        obtain ⟨hr, hedge⟩ := mem_touching.1 hmem
        obtain ⟨_, _, hregion⟩ := Checked.exists_of_mem_foldlM hfold _ hmem
        refine plainProbeRegion_nearer (p := scene.confine p) hr hedge hle (fun pushed hc hpushed => ?_) hregion start
        have hc' : scene.Crowds (scene.confine p) i r :=
          hc.further (p := { scene.confine p with goal := g' }) hle
        have hfewer := hc'.fewer hs hclear hfar hstop hfuel
        have hnext := hc'.clear hs hclear
        obtain ⟨hopposite, hasked⟩ := hc.asked_le (p := scene.confine p) hs hle
        obtain ⟨pushed', hpushed'⟩ :=
          ih (p := scene.asked (scene.confine p) i r) hfewer hnext hopposite hasked hpushed
        have hreach := plainProbe_reaches hs (p := scene.asked (scene.confine p) i r) hfewer hnext hpushed
        have hreach' := plainProbe_reaches hs
          (p := scene.asked { scene.confine p with goal := g' } i r) hfewer hnext hpushed'
        exact ⟨pushed', hpushed', hreach'.ahead,
          Reaches.mono (p := scene.asked (scene.confine p) i r) hreach' hreach hasked⟩
      obtain ⟨nearest, hnearest⟩ := Checked.exists_foldlM hstep g'
      exact ⟨_, Checked.bind_eq_ok.2 ⟨true, hb', Checked.bind_eq_ok.2 ⟨nearest, hnearest, rfl⟩⟩⟩

section

variable {axis : Axis} {side : Side} {line goal limit reached : Int}

theorem plainReach_self (scene : Scene) (axis : Axis) (line : Int) : scene.plainReach axis line line = .ok line := by
  rw [plainReach, if_neg (Int.lt_irrefl _), if_neg (Int.lt_irrefl _)]

theorem plainReach_ahead (hlt : side.inward.pos line < side.inward.pos goal) :
    scene.plainReach axis line goal = scene.plainProbe scene.depth ⟨axis, side, line, goal⟩ := by
  cases side
  · simp only [Side.inward, Direction.pos_up] at hlt
    rw [plainReach, if_pos hlt]
  · simp only [Side.inward, Direction.pos_down, Int.neg_lt_neg_iff] at hlt
    rw [plainReach, if_neg (Int.lt_asymm hlt), if_pos hlt]

/-- A line goes where it is asked to go, but not beyond its limit. -/
theorem plainReach_limit (hs : scene.Fits) (hclear : scene.Clear ⟨axis, side, line, goal⟩)
    (hlimit : scene.Reaches ⟨axis, side, line, scene.bounds.edge axis side.flip⟩ limit)
    (hgoal : side.inward.pos line ≤ side.inward.pos goal) (h : scene.plainReach axis line goal = .ok reached) :
    reached = side.inward.further line (side.inward.nearer goal limit) := by
  have hof := Reaches.of_limit (p := ⟨axis, side, line, goal⟩) hlimit hgoal
  rcases Int.lt_or_eq_of_le hgoal with hlt | heq
  · rw [plainReach_ahead hlt] at h
    exact (plainProbe_reaches hs (scene.ahead_lt_depth _) hclear h).unique hof
  · obtain rfl := side.inward.pos_inj.1 heq
    obtain rfl := Except.ok.inj ((scene.plainReach_self axis line).symm.trans h)
    have hahead : side.inward.pos line ≤ side.inward.pos limit := hlimit.ahead
    have hnearer := side.inward.pos_nearer line limit
    have hfurther := side.inward.pos_further line (side.inward.nearer line limit)
    exact side.inward.pos_inj.1 (by omega)

theorem plainReach_nearer (hs : scene.Fits) (hclear : scene.Clear ⟨axis, side, line, goal⟩)
    (hline : side.inward.pos line ≤ side.inward.pos g) (hg : side.inward.pos g ≤ side.inward.pos goal)
    (h : scene.plainReach axis line goal = .ok v) : ∃ w, scene.plainReach axis line g = .ok w := by
  rcases Int.lt_or_eq_of_le hline with hlt | heq
  · rw [plainReach_ahead (Int.lt_of_lt_of_le hlt hg)] at h
    rw [plainReach_ahead hlt]
    exact plainProbe_nearer hs _ (p := ⟨axis, side, line, goal⟩) (scene.ahead_lt_depth _) hclear hline hg h
  · obtain rfl := side.inward.pos_inj.1 heq
    exact ⟨_, scene.plainReach_self axis line⟩

end

/-- What may be done with a scene again and again: to call it, to probe a push, or to write one to a patch. -/
inductive Use
  | call (c : Call)
  | probe (p : Push)
  | commit (p : Push) (patch : Patch)

def use (scene : Scene) (trace : Trace) : Use → Checked Trace
  | .call c => scene.call trace c
  | .probe p => do return (← scene.probe scene.depth p trace).2
  | .commit p patch => do return (← scene.commit scene.depth p patch trace).trace

/-- What is known after uses made with nothing known beforehand. -/
def used (scene : Scene) (uses : List Use) : Checked Trace := uses.foldlM scene.use {}

theorem Apart.clear (h : scene.Apart) (p : Push) : scene.Clear p := fun _ r hr he _ => h p.axis r hr he

theorem use_known (hs : scene.Fits) (hapart : scene.Apart) {trace trace' : Trace} (hknown : trace.Known scene)
    {u : Use} (h : scene.use trace u = .ok trace') : trace'.Known scene := by
  cases u with
  | call c => exact (call_known hs hapart hknown h).1
  | probe p =>
    obtain ⟨⟨reached, found⟩, hprobe, h⟩ := Checked.bind_eq_ok.1 h
    cases Checked.pure_eq_ok.1 h
    have hagree := probe_agree hs scene.depth (scene.ahead_lt_depth p) (hapart.clear p) hknown
    rw [hprobe] at hagree
    obtain ⟨_, -, hfound⟩ := hagree.to_ok
    exact hfound.known
  | commit p patch =>
    obtain ⟨w, hw, h⟩ := Checked.bind_eq_ok.1 h
    cases Checked.pure_eq_ok.1 h
    exact commit_known hs scene.depth (scene.ahead_lt_depth p) (hapart.clear p) hknown hw

theorem used_known (hs : scene.Fits) (hapart : scene.Apart) {uses : List Use} {trace : Trace}
    (h : scene.used uses = .ok trace) : trace.Known scene :=
  Checked.foldlM_invariant (I := fun t : Trace => t.Known scene)
    (fun _ _ _ _ hknown ht => use_known hs hapart hknown ht) (Trace.known_empty scene) h

/-- After some uses of the scene it has been found how far a line goes. -/
def Finds (scene : Scene) (axis : Axis) (line goal reached : Int) (found : Trace) : Prop :=
  ∃ uses trace, scene.used uses = .ok trace ∧ scene.probeLine axis line goal trace = .ok (reached, found)

/-- After whatever uses, a probe says what a plain one says. -/
theorem Finds.plain (hs : scene.Fits) (hapart : scene.Apart) {axis : Axis} {line goal reached : Int} {found : Trace}
    (h : scene.Finds axis line goal reached found) :
    scene.plainReach axis line goal = .ok reached ∧ found.Known scene := by
  obtain ⟨uses, before, hused, h⟩ := h
  have hknown := used_known hs hapart hused
  have hagree := probeLine_agree hs (fun goal => hapart.clear ⟨axis, .far, line, goal⟩) hknown goal
  rw [h] at hagree
  obtain ⟨_, hplain, rfl, hknown, -⟩ := hagree.to_ok
  exact ⟨hplain, hknown⟩

/-- In each direction a line has a limit. Whatever has been asked and written before, the line goes where it is
asked to go, but not beyond the limit: no less far when asked to go further, and when asked to go where it has been
found to go, just there. -/
theorem probeLine_limit (hs : scene.Fits) (hapart : scene.Apart) (axis : Axis) (line : Int) (d : Direction) :
    ∃ limit, ∀ goal reached found, d.pos line ≤ d.pos goal → scene.Finds axis line goal reached found →
      reached = d.further line (d.nearer goal limit) ∧
        (∃ again, scene.probeLine axis line reached found = .ok (reached, again)) ∧
          ∀ goal' reached' found', d.pos goal ≤ d.pos goal' → scene.Finds axis line goal' reached' found' →
            d.pos reached ≤ d.pos reached' := by
  obtain ⟨side, rfl⟩ := d.exists_inward
  obtain ⟨limit, hlimit⟩ := scene.exists_reaches ⟨axis, side, line, scene.bounds.edge axis side.flip⟩
  have hcut : ∀ {goal reached}, side.inward.pos line ≤ side.inward.pos goal →
      scene.plainReach axis line goal = .ok reached →
        reached = side.inward.further line (side.inward.nearer goal limit) :=
    fun {goal _} hgoal h => plainReach_limit hs (hapart.clear ⟨axis, side, line, goal⟩) hlimit hgoal h
  have hpos : ∀ goal, side.inward.pos (side.inward.further line (side.inward.nearer goal limit)) =
      max (side.inward.pos line) (min (side.inward.pos goal) (side.inward.pos limit)) := by
    intro goal
    rw [Direction.pos_further, Direction.pos_nearer]
  refine ⟨limit, fun goal reached found hgoal h => ?_⟩
  obtain ⟨hplain, hknown⟩ := h.plain hs hapart
  have heq := hcut hgoal hplain
  have hreached := hpos goal
  rw [← heq] at hreached
  refine ⟨heq, ?_, fun goal' reached' found' hle h' => ?_⟩
  · obtain ⟨w, hagain⟩ : ∃ w, scene.plainReach axis line reached = .ok w :=
      plainReach_nearer hs (hapart.clear ⟨axis, side, line, goal⟩) (by omega) (by omega) hplain
    have hsame : w = reached := side.inward.pos_inj.1 (by rw [hcut (by omega) hagain, hpos]; omega)
    have hagree := probeLine_agree hs (fun goal => hapart.clear ⟨axis, .far, line, goal⟩) hknown reached
    rw [hagain, hsame] at hagree
    obtain ⟨⟨_, again⟩, hprobe, rfl, -⟩ := hagree.of_ok
    exact ⟨again, hprobe⟩
  · obtain rfl := hcut (Int.le_trans hgoal hle) (h'.plain hs hapart).1
    rw [hreached, hpos]
    omega

/-- Whatever the rows have been asked before, the line between the first column and them goes no further than where
both rows and the last column have their minimum. -/
theorem probeLine_limit_crowdedRows : crowdedRows.Fits ∧ crowdedRows.Apart ∧
    ∃ (limit : Int) (found : Trace), crowdedRows.Finds .x 10 26 20 found ∧ 20 = max 10 (min 26 limit) ∧
      (∃ again, crowdedRows.probeLine .x 10 20 found = .ok (20, again)) ∧
        ∀ (goal reached : Int) (found' : Trace), 26 ≤ goal → crowdedRows.Finds .x 10 goal reached found' →
          20 ≤ reached := by
  have hs : crowdedRows.Fits := ⟨by decide, by decide⟩
  have hapart : crowdedRows.Apart := Axis.rec (by decide) (by decide)
  obtain ⟨trace, hused⟩ : ∃ trace, crowdedRows.used [.call (.plan (.vertical 10) ⟨18, 0⟩),
      .commit ⟨.x, .near, 10, 19⟩ ⟨crowdedRows.rects⟩, .probe ⟨.x, .far, 20, 3⟩] = .ok trace := ⟨_, rfl⟩
  obtain ⟨found, hprobe⟩ : ∃ found, crowdedRows.probeLine .x 10 26 trace = .ok (20, found) := by
    cases hused
    exact ⟨_, rfl⟩
  obtain ⟨limit, hlimit⟩ := probeLine_limit hs hapart .x 10 .up
  simp only [Direction.pos_up] at hlimit
  have hfinds : crowdedRows.Finds .x 10 26 20 found := ⟨_, trace, hused, hprobe⟩
  obtain ⟨hcut, hagain, hmono⟩ := hlimit 26 20 found (by decide) hfinds
  exact ⟨hs, hapart, limit, found, hfinds, hcut, hagain, hmono⟩

end Mosaic.Scene
