import Mathlib.Data.Int.LeastGreatest
import Mosaic.Proofs.Cascade.HandOn

/-! A probe finds how far a push reaches. Each push that is handed on has fewer regions ahead of it,
so the depth of the recursion suffices, and the answers kept in the trace are answers of probes. -/
namespace Mosaic.Scene

variable {scene : Scene} {p : Push} {i : Nat} {r : Rect}

/-- Up to the line of the push, regions with an extent have their edges apart. Only a far edge that
is cut off at the end of the coordinates can meet its near edge. -/
def Clear (scene : Scene) (p : Push) : Prop :=
  p.side = .far → ∀ r ∈ scene.rects, r.extent p.axis ≠ 0 → r.far p.axis ≤ p.line →
    r.near p.axis < r.far p.axis

/-- Regions with an extent have their edges apart. -/
def Apart (scene : Scene) : Prop :=
  ∀ axis, ∀ r ∈ scene.rects, r.extent axis ≠ 0 → r.near axis < r.far axis

theorem Fits.clear (hs : scene.Fits) (h : p.line < 2147483647) : scene.Clear p := by
  intro _ r hr he hle
  obtain ⟨hf, hp⟩ := hs.rects r hr
  have := Rect.near_le_far hf hp p.axis
  exact Rect.near_lt_far hp he (by omega)

theorem Fits.clear_of_near (hs : p.side = .near) : scene.Clear p := by
  intro h
  rw [hs] at h
  cases h

theorem Crowds.clear (hs : scene.Fits) (h : scene.Crowds p i r) (hp : scene.Clear p) :
    scene.Clear (scene.handed p i r) := by
  intro hside r' hr' he hle
  obtain ⟨axis, side, line, goal⟩ := p
  obtain rfl : side = .far := hside
  have hline : r.far axis = line := h.edge
  have hedges := Rect.near_le_far (hs.get h.get).1 (hs.get h.get).2 axis
  have hle : r'.far axis ≤ r.near axis := hle
  exact hp rfl r' hr' he (by simp only; omega)

/-- A push is handed on to lines ahead of its own. -/
theorem Crowds.ahead (hs : scene.Fits) (h : scene.Crowds p i r) (hc : scene.Clear p)
    (hgoal : p.dir.pos p.line < p.dir.pos p.goal)
    (hstop : p.dir.pos p.goal ≤ p.dir.pos (scene.stop p)) :
    p.dir.pos p.line < p.dir.pos (scene.handed p i r).line := by
  obtain ⟨hf, hp⟩ := hs.get h.get
  have hlast := hs.stop p
  obtain ⟨axis, side, line, goal⟩ := p
  cases side with
  | near =>
    have hline : r.near axis = line := h.edge
    have hext : r.extent axis ≠ 0 := h.extent
    simp only [Push.dir, Side.inward, Direction.pos_up] at hgoal hstop
    unfold Coord.Fits at hlast
    have := Rect.near_lt_far hp hext (by omega)
    simp only [handed, Push.dir, Side.inward, Side.flip, Rect.edge, Direction.pos_up]
    omega
  | far =>
    have hline : r.far axis = line := h.edge
    have : r.near axis < r.far axis :=
      hc rfl r (List.mem_of_getElem? h.get) h.extent (Int.le_of_eq hline)
    simp only [handed, Push.dir, Side.inward, Side.flip, Rect.edge, Direction.pos_down]
    omega

/-- How many regions have an edge of the pushed side on the line or ahead of it. -/
def ahead (scene : Scene) (p : Push) : Nat :=
  scene.rects.countP fun r => p.dir.pos p.line ≤ p.dir.pos (r.edge p.axis p.side)

theorem ahead_lt_depth (scene : Scene) (p : Push) : scene.ahead p < scene.depth := by
  have : scene.ahead p ≤ scene.rects.length := List.countP_le_length
  unfold depth
  omega

private theorem countP_lt_countP {α : Type} {f g : α → Bool} {xs : List α}
    (hle : ∀ x, f x = true → g x = true) {x : α} (hx : x ∈ xs) (hf : f x = false) (hg : g x = true) :
    xs.countP f < xs.countP g := by
  induction xs with
  | nil => cases hx
  | cons y ys ih =>
    rw [List.countP_cons, List.countP_cons]
    rcases List.mem_cons.1 hx with rfl | hx
    · have := List.countP_mono_left (l := ys) fun z _ => hle z
      simp only [hf, hg, Bool.false_eq_true, if_false, if_true]
      omega
    · have := ih hx
      cases hy : f y with
      | false =>
        simp only [Bool.false_eq_true, if_false]
        omega
      | true =>
        simp only [hle y hy, if_true]
        omega

theorem Crowds.ahead_lt (h : scene.Crowds p i r)
    (hlt : p.dir.pos p.line < p.dir.pos (scene.handed p i r).line) :
    scene.ahead (scene.handed p i r) < scene.ahead p := by
  refine countP_lt_countP (fun s hs => ?_) (List.mem_of_getElem? h.get) ?_ ?_
  · simp only [decide_eq_true_eq] at hs ⊢
    exact Int.le_trans (Int.le_of_lt hlt) hs
  · rw [decide_eq_false_iff_not, Int.not_le]
    exact (congrArg p.dir.pos h.edge).symm ▸ hlt
  · simp [h.edge]

theorem Crowds.ahead_lt_of_apart (h : scene.Crowds p i r) (hapart : scene.Apart) :
    scene.ahead (scene.handed p i r) < scene.ahead p := by
  apply h.ahead_lt
  have hspan := hapart p.axis r (List.mem_of_getElem? h.get) h.extent
  have hline := h.edge
  obtain ⟨axis, side, line, goal⟩ := p
  cases side
  · simp only [Rect.edge, Push.dir, Side.inward, Direction.pos_up, handed, Side.flip] at hspan hline ⊢
    omega
  · simp only [Rect.edge, Push.dir, Side.inward, Direction.pos_down, handed, Side.flip] at hspan hline ⊢
    omega

theorem Crowds.fewer (h : scene.Crowds p i r) (hs : scene.Fits) (hclear : scene.Clear p)
    (hahead : p.dir.pos p.line < p.dir.pos p.goal) (hstop : p.dir.pos p.goal ≤ p.dir.pos (scene.stop p))
    {fuel : Nat} (hfuel : scene.ahead p < fuel + 1) : scene.ahead (scene.handed p i r) < fuel :=
  Nat.lt_of_lt_of_le (h.ahead_lt (h.ahead hs hclear hahead hstop)) (Nat.le_of_lt_succ hfuel)

theorem probeRegion_eq_ok {onward : Push → Trace → Checked (Int × Trace)} {found found' : Int × Trace}
    (hr : scene.rects[i]? = some r) (hline : r.edge p.axis p.side = p.line)
    (h : scene.probeRegion onward p found i = .ok found') :
    (found' = found ∧ ¬ scene.Crowds p i r) ∨
      (scene.Crowds p i r ∧ ∃ pushed trace v, onward (scene.asked p i r) found.2 = .ok (pushed, trace) ∧
        p.dir.pos v = p.dir.pos pushed - scene.minAlong i p.axis ∧
        ∃ hop, found' = (p.dir.nearer found.1 v, trace.note hop)) := by
  rw [probeRegion_eq hr] at h
  split at h
  · next he => exact .inl ⟨(Except.ok.inj h).symm, fun hc => hc.extent he⟩
  · next he =>
    obtain ⟨next, hask, h⟩ := Checked.bind_eq_ok.1 h
    rcases handOn?_eq_ok hr hline he hask with ⟨hno, rfl⟩ | ⟨hc, rfl⟩
    · exact .inl ⟨(Checked.pure_eq_ok.1 h).symm, hno⟩
    · obtain ⟨⟨pushed, trace⟩, hon, h⟩ := Checked.bind_eq_ok.1 h
      obtain ⟨v, hv, h⟩ := Checked.bind_eq_ok.1 h
      exact .inr ⟨hc, pushed, trace, v, hon, Direction.before_eq_ok hv, _, (Checked.pure_eq_ok.1 h).symm⟩

theorem exists_reaches (scene : Scene) (p : Push) : ∃ v, scene.Reaches p v := by
  by_cases hsome : ∃ z g, p.dir.pos g = z ∧ p.dir.pos p.line < z ∧ z ≤ p.dir.pos p.goal ∧
      scene.Feasible { p with goal := g }
  · obtain ⟨_, ⟨v, rfl, hline, hgoal, hf⟩, hlast⟩ :=
      Int.exists_greatest_of_bdd ⟨p.dir.pos p.goal, fun _ ⟨_, _, _, hle, _⟩ => hle⟩ hsome
    exact ⟨v, Int.le_of_lt hline, fun _ => ⟨hgoal, hf⟩, fun g hg hle hfg =>
      hlast _ ⟨g, rfl, hg, hle, hfg⟩⟩
  · exact ⟨p.line, Int.le_refl _, fun hv => absurd rfl hv, fun g hg hle hf =>
      absurd ⟨_, g, rfl, hg, hle, hf⟩ hsome⟩

/-- A push that is asked to go further reaches no less far. -/
theorem Reaches.mono {g v w : Int} (h : scene.Reaches { p with goal := g } w) (h' : scene.Reaches p v)
    (hg : p.dir.pos g ≤ p.dir.pos p.goal) : p.dir.pos w ≤ p.dir.pos v := by
  rcases Int.lt_or_eq_of_le h.ahead with hlt | heq
  · obtain ⟨hle, hf⟩ := h.moved fun hw => Int.ne_of_lt hlt (congrArg p.dir.pos hw.symm)
    exact h'.last w hlt (Int.le_trans hle hg) hf
  · exact heq ▸ h'.ahead

theorem Reaches.unique {v w : Int} (h : scene.Reaches p v) (h' : scene.Reaches p w) : v = w :=
  p.dir.pos_inj.1 (Int.le_antisymm (h.mono h' (Int.le_refl _)) (h'.mono h (Int.le_refl _)))

theorem Reaches.of_nearer_goal {g v : Int} (h : scene.Reaches { p with goal := g } v)
    (hle : p.dir.pos g ≤ p.dir.pos p.goal)
    (hall : ∀ c, p.dir.pos c ≤ p.dir.pos p.goal → p.dir.pos c ≤ p.dir.pos (scene.stop p) →
      p.dir.pos c ≤ p.dir.pos g) : scene.Reaches p v where
  ahead := h.ahead
  moved hv := ⟨Int.le_trans (h.moved hv).1 hle, (h.moved hv).2⟩
  last c hc hgoal hf := h.last c hc (hall c hgoal hf.le_stop) hf

theorem Reaches.of_confine {v : Int} (h : scene.Reaches (scene.confine p) v) : scene.Reaches p v := by
  have hpos := p.dir.pos_nearer p.goal (scene.stop p)
  refine Reaches.of_nearer_goal (g := p.dir.nearer p.goal (scene.stop p)) h ?_ fun c hg hs => ?_
  · omega
  · omega

theorem Reaches.of_asked {v : Int} (hs : scene.Fits) (hgoal : Coord.Fits p.goal)
    (h : scene.Reaches (scene.asked p i r) v) : scene.Reaches (scene.handed p i r) v := by
  have hpos := pos_goal_handed scene p i r
  have hmin := scene.minAlong_nonneg i p.axis
  have hstop := hs.stop (scene.handed p i r)
  refine Reaches.of_nearer_goal (g := Coord.saturate (scene.handed p i r).goal) h ?_ fun c hg hc => ?_
  all_goals
    obtain ⟨axis, side, line, goal⟩ := p
    unfold Coord.Fits at hgoal hstop
    cases side
    · simp only [Push.dir, Side.inward, Direction.pos_up, handed] at *
      unfold Coord.saturate
      omega
    · simp only [Push.dir, Side.inward, Direction.pos_down, handed] at *
      unfold Coord.saturate
      omega

end Mosaic.Scene

namespace Mosaic

/-- Every answer that is kept tells how far its push reaches. -/
def Trace.Sound (trace : Trace) (scene : Scene) : Prop :=
  ∀ e ∈ trace.probes, scene.Reaches e.1 e.2

theorem Trace.sound_empty (scene : Scene) : ({} : Trace).Sound scene := by
  intro e he
  cases he

namespace Scene

variable {scene : Scene} {p : Push}

theorem reaches_line (h : p.dir.pos (scene.confine p).goal ≤ p.dir.pos p.line) :
    scene.Reaches p p.line where
  ahead := Int.le_refl _
  moved hv := absurd rfl hv
  last g hg hgoal hf := by
    have hstop : p.dir.pos g ≤ p.dir.pos (scene.stop p) := hf.le_stop
    have := p.dir.pos_nearer p.goal (scene.stop p)
    simp only [confine] at h
    change p.dir.pos (p.dir.nearer p.goal (scene.stop p)) ≤ _ at h
    omega

/-- Taking the nearest of what the regions on the line allow gives how far the push reaches. -/
theorem reaches_nearest {nearest : Int} (hgoal : p.dir.pos p.goal ≤ p.dir.pos (scene.stop p))
    (hle : p.dir.pos nearest ≤ p.dir.pos p.goal)
    (hlast : ∀ g, p.dir.pos p.line < p.dir.pos g → p.dir.pos g ≤ p.dir.pos p.goal →
      scene.Feasible { p with goal := g } → p.dir.pos g ≤ p.dir.pos nearest)
    (hall : ∀ i r, p.dir.pos p.line < p.dir.pos nearest → scene.Crowds { p with goal := nearest } i r →
      scene.Feasible (scene.handed { p with goal := nearest } i r)) :
    scene.Reaches p (p.dir.further nearest p.line) := by
  have hpos := p.dir.pos_further nearest p.line
  refine ⟨by omega, fun hv => ?_, fun g hg hle hf => ?_⟩
  · have hlt : p.dir.pos p.line < p.dir.pos nearest := by
      refine Int.not_le.1 fun hn => hv (p.dir.pos_inj.1 ?_)
      omega
    have heq : p.dir.further nearest p.line = nearest := p.dir.pos_inj.1 (by omega)
    rw [heq]
    exact ⟨hle, .intro (Int.le_trans hle hgoal) fun i r hc => hall i r hlt hc⟩
  · have := hlast g hg hle hf
    omega

/-- What is kept while a probe goes through the regions on the line. -/
private structure Probing (scene : Scene) (p : Push) (start : Trace) (found : Int × Trace) : Prop where
  le_goal : p.dir.pos found.1 ≤ p.dir.pos p.goal
  last : ∀ g, p.dir.pos p.line < p.dir.pos g → p.dir.pos g ≤ p.dir.pos p.goal →
    scene.Feasible { p with goal := g } → p.dir.pos g ≤ p.dir.pos found.1
  sound : found.2.Sound scene
  commits : found.2.commits = start.commits

/-- The region at a position lets the push go as far as has been found. -/
private def Lets (scene : Scene) (p : Push) (i : Nat) (found : Int × Trace) : Prop :=
  ∀ g r, p.dir.pos p.line < p.dir.pos g → p.dir.pos g ≤ p.dir.pos found.1 →
    scene.Crowds { p with goal := g } i r → scene.Feasible (scene.handed { p with goal := g } i r)

/-- A region that hands the push on lets it go as far as its opposite edges can make way. -/
private theorem handed_feasible_iff {i : Nat} {r : Rect} {g pushed : Int}
    (h : scene.Reaches (scene.handed p i r) pushed) (hg : p.dir.pos g ≤ p.dir.pos p.goal)
    (hc : scene.Crowds { p with goal := g } i r) :
    scene.Feasible (scene.handed { p with goal := g } i r) ↔
      p.dir.pos g + scene.minAlong i p.axis ≤ p.dir.pos pushed := by
  have hgoal := pos_goal_handed scene p i r
  have hgoal' : p.dir.pos (scene.handed { p with goal := g } i r).goal =
      p.dir.pos g + scene.minAlong i p.axis := pos_goal_handed scene { p with goal := g } i r
  have hshort : p.dir.pos (scene.handed p i r).line < p.dir.pos g + scene.minAlong i p.axis := hc.short
  have hle : p.dir.pos (scene.handed { p with goal := g } i r).goal ≤
      p.dir.pos (scene.handed p i r).goal := by omega
  constructor
  · intro hf
    exact hgoal' ▸ h.last _ (hgoal'.symm ▸ hshort) hle hf
  · intro hpushed
    have hne : pushed ≠ (scene.handed p i r).line := by
      rintro rfl
      omega
    exact (h.moved hne).2.within ⟨rfl, rfl, rfl, Int.le_trans (Int.le_of_eq hgoal') hpushed⟩

private theorem probing_region {onward : Push → Trace → Checked (Int × Trace)} {start : Trace} {i : Nat}
    (hs : scene.Fits) (hgoal : Coord.Fits p.goal) (hi : i ∈ scene.moved p)
    (hon : ∀ r, scene.Crowds p i r → ∀ trace pushed trace', trace.Sound scene →
      onward (scene.asked p i r) trace = .ok (pushed, trace') →
        scene.Reaches (scene.asked p i r) pushed ∧ trace'.Sound scene ∧ trace'.commits = trace.commits)
    {s t : Int × Trace} (h : scene.Probing p start s) (ht : scene.probeRegion onward p s i = .ok t) :
    scene.Probing p start t ∧ p.dir.pos t.1 ≤ p.dir.pos s.1 ∧ scene.Lets p i t := by
  obtain ⟨r, hr, hline⟩ := mem_moved.1 hi
  have unique : ∀ g r', scene.Crowds { p with goal := g } i r' → r' = r := fun g r' hc =>
    Option.some.inj (hc.get.symm.trans hr)
  rcases probeRegion_eq_ok hr hline ht with ⟨rfl, hno⟩ | ⟨hc, pushed, trace, v, hok, hv, hop, rfl⟩
  · refine ⟨h, Int.le_refl _, fun g r' _ hg hc => ?_⟩
    obtain rfl := unique g r' hc
    exact absurd (hc.further (Int.le_trans hg h.le_goal)) hno
  · obtain ⟨hreach, hsound, hcommits⟩ := hon r hc s.2 pushed trace h.sound hok
    have hreach := hreach.of_asked hs hgoal
    have hpos := p.dir.pos_nearer s.1 v
    refine ⟨⟨?_, fun g hline' hg hf => ?_, hsound, hcommits.trans h.commits⟩, ?_, fun g r' _ hg hc' => ?_⟩
    · exact Int.le_trans (by simp only; omega) h.le_goal
    · have hleft := h.last g hline' hg hf
      have hright : p.dir.pos g + scene.minAlong i p.axis ≤ p.dir.pos pushed := by
        by_cases hcg : scene.Crowds { p with goal := g } i r
        · exact (handed_feasible_iff hreach hg hcg).1 (hf.of_handsOn ⟨i, r, hcg, rfl⟩)
        · have hroom : ¬ p.dir.pos (scene.handed p i r).line < p.dir.pos g + scene.minAlong i p.axis :=
            fun hshort => hcg ⟨hr, hline, hc.extent, hshort⟩
          have : p.dir.pos (scene.handed p i r).line ≤ p.dir.pos pushed := hreach.ahead
          omega
      simp only
      omega
    · simp only
      omega
    · obtain rfl := unique g r' hc'
      have hle := h.le_goal
      simp only at hg
      exact (handed_feasible_iff hreach (by omega) hc').2 (by omega)

private theorem Lets.mono {i : Nat} {s t : Int × Trace} (h : scene.Lets p i s)
    (hle : p.dir.pos t.1 ≤ p.dir.pos s.1) : scene.Lets p i t :=
  fun g r hline hg hc => h g r hline (Int.le_trans hg hle) hc

theorem confine_goal_le_stop (scene : Scene) (p : Push) :
    p.dir.pos (scene.confine p).goal ≤ p.dir.pos (scene.stop p) := by
  have : p.dir.pos (scene.confine p).goal = _ := p.dir.pos_nearer p.goal (scene.stop p)
  omega

theorem fits_goal (hs : scene.Fits) {i : Nat} {r : Rect} (hr : scene.rects[i]? = some r)
    (hline : r.edge p.axis p.side = p.line) (hgoal : p.dir.pos p.line < p.dir.pos p.goal)
    (hstop : p.dir.pos p.goal ≤ p.dir.pos (scene.stop p)) : Coord.Fits p.goal := by
  have hl : Coord.Fits p.line := hline ▸ (hs.get hr).1.edge p.axis p.side
  have hb := hs.stop p
  obtain ⟨axis, side, line, goal⟩ := p
  unfold Coord.Fits at *
  cases side
  · simp only [Push.dir, Side.inward, Direction.pos_up] at *
    omega
  · simp only [Push.dir, Side.inward, Direction.pos_down] at *
    omega

/-- A probe answers how far its push reaches. -/
theorem probe_reaches (hs : scene.Fits) (fuel : Nat) {p : Push} {trace trace' : Trace} {v : Int}
    (hfuel : scene.ahead p < fuel) (hclear : scene.Clear p) (hsound : trace.Sound scene)
    (h : scene.probe fuel p trace = .ok (v, trace')) :
    scene.Reaches p v ∧ trace'.Sound scene ∧ trace'.commits = trace.commits := by
  induction fuel generalizing p trace trace' v with
  | zero => omega
  | succ fuel ih =>
    rw [probe] at h
    obtain ⟨b, hb, h⟩ := Checked.bind_eq_ok.1 h
    have hahead := Direction.isAhead_eq_ok hb
    have hstop := scene.confine_goal_le_stop p
    split at h
    · next hbt =>
      have hlt := hahead.1 hbt
      split at h
      · next reached hl =>
        cases Checked.pure_eq_ok.1 h
        obtain ⟨before, after, he, _⟩ := List.lookup_eq_some_iff.1 hl
        have hreach := hsound (scene.confine p, v) (by simp [he])
        exact ⟨hreach.of_confine, hsound, rfl⟩
      · obtain ⟨⟨nearest, found⟩, hfold, h⟩ := Checked.bind_eq_ok.1 h
        cases Checked.pure_eq_ok.1 h
        have step : ∀ i ∈ scene.moved (scene.confine p), ∀ s t,
            scene.Probing (scene.confine p) trace s →
            scene.probeRegion (scene.probe fuel) (scene.confine p) s i = .ok t →
            scene.Probing (scene.confine p) trace t ∧ p.dir.pos t.1 ≤ p.dir.pos s.1 ∧
              scene.Lets (scene.confine p) i t := by
          intro i hi s t hp ht
          obtain ⟨r, hr, hline⟩ := mem_moved.1 hi
          refine probing_region hs (fits_goal hs hr hline hlt hstop) hi (fun r hc tr pushed tr' htr hok => ?_)
            hp ht
          have hnext := hc.clear hs hclear
          exact ih (hc.fewer hs hclear hlt hstop hfuel) hnext htr hok
        obtain ⟨hprobing, -, hall⟩ := Checked.foldlM_induction (I := scene.Probing (scene.confine p) trace)
          (R := fun s t => p.dir.pos t.1 ≤ p.dir.pos s.1) (D := scene.Lets (scene.confine p))
          (fun s => Int.le_refl _) (fun s t u hst htu => Int.le_trans htu hst)
          (fun i s t hi hst => hi.mono hst) step ⟨Int.le_refl _, fun g _ hg _ => hg, hsound, rfl⟩ hfold
        have hreach := reaches_nearest hstop hprobing.le_goal hprobing.last fun i r hl hc =>
          hall i hc.mem_moved nearest r hl (Int.le_refl _) hc
        refine ⟨hreach.of_confine, ?_, hprobing.commits⟩
        intro e he
        rcases List.mem_cons.1 he with rfl | he
        · exact hreach
        · exact hprobing.sound e he
    · next hbf =>
      cases Checked.pure_eq_ok.1 h
      exact ⟨reaches_line (Int.not_lt.1 fun hlt => hbf (hahead.2 hlt)), hsound, rfl⟩

end Scene

end Mosaic
