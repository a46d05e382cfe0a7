import Mosaic.Proofs.Cascade.Probe

/-! Probing the plain way. Looking at every region finds the same edges as the index does, the depth of
the recursion does not matter once it suffices, and so a kept answer is the one that probing anew gives. -/
namespace Mosaic.Scene

variable {scene : Scene} {p : Push} {i : Nat} {r : Rect} {axis : Axis} {side : Side} {line goal : Int}

theorem positions_eq (scene : Scene) (axis : Axis) (side : Side) (line : Int) :
    scene.index.positions axis side line = (scene.touching axis side line).map Prod.snd := by
  rw [scene.index_eq]
  exact LineIndex.positions_ofRects ..

theorem mem_touching :
    (r, i) ∈ scene.touching axis side line ↔ scene.rects[i]? = some r ∧ r.edge axis side = line := by
  simp [touching, List.mem_filter, List.mem_zipIdx_iff_getElem?]

theorem isInterior_iff : scene.IsInterior axis line ↔ scene.IsMovable axis line := by
  have hside : ∀ side, scene.index.positions axis side line ≠ [] ↔
      ∃ r ∈ scene.rects, r.edge axis side = line := by
    intro side
    rw [positions_eq, ne_eq, List.map_eq_nil_iff, List.eq_nil_iff_forall_not_mem]
    constructor
    · intro h
      simp only [Prod.forall, mem_touching, not_forall, not_not] at h
      obtain ⟨r, i, hr, hline⟩ := h
      exact ⟨r, List.mem_of_getElem? hr, hline⟩
    · rintro ⟨r, hr, hline⟩ h
      obtain ⟨i, hi⟩ := List.getElem?_of_mem hr
      exact h (r, i) (mem_touching.2 ⟨hi, hline⟩)
  simp only [IsInterior, IsMovable, hside, Rect.edge, ← exists_or, ← and_or_left]

theorem movable_eq_some_iff {held : Grip} :
    scene.movable held axis = some line ↔ held.along axis = some line ∧ scene.IsMovable axis line := by
  rw [movable, Option.filter_eq_some_iff, decide_eq_true_iff, isInterior_iff]

theorem grow_eq_plainGrow (scene : Scene) (axis : Axis) (side : Side) (line goal : Int) (patch : Patch) :
    scene.grow axis side line goal patch = scene.plainGrow axis side line goal patch := by
  unfold grow plainGrow
  split
  · rfl
  · rw [positions_eq, List.foldlM_map]
    refine Checked.foldlM_congr (fun e he patch => ?_) patch
    obtain ⟨r, i⟩ := e
    simp only [(mem_touching.1 he).1]

theorem isAhead_agree {α β : Type} {S : α → β → Prop} {d : Direction} {f : Bool → Checked α}
    {g : Bool → Checked β} (hahead : d.isAhead line goal = .ok true → Checked.Agree S (f true) (g true))
    (hstay : d.isAhead line goal = .ok false → Checked.Agree S (f false) (g false)) :
    Checked.Agree S (d.isAhead line goal >>= f) (d.isAhead line goal >>= g) := by
  refine (Checked.Agree.refl _).bind fun b b' hb _ heq => ?_
  subst heq
  cases b
  · exact hstay hb
  · exact hahead hb

def plainProbeRegion (scene : Scene) (onward : Push → Checked Int) (p : Push) (nearest : Int)
    (e : Rect × Nat) : Checked Int :=
  if e.1.extent p.axis = 0 then .ok nearest
  else do
    match ← scene.handOn? p e.1 e.2 with
    | none => return nearest
    | some next =>
      let pushed ← onward next
      return p.dir.nearer nearest (← p.dir.before pushed (scene.minAlong e.2 p.axis))

theorem plainProbe_succ (scene : Scene) (fuel : Nat) (p : Push) : scene.plainProbe (fuel + 1) p = do
    if ← p.dir.isAhead p.line (scene.confine p).goal then
      let nearest ← (scene.touching p.axis p.side p.line).foldlM
        (scene.plainProbeRegion (scene.plainProbe fuel) (scene.confine p)) (scene.confine p).goal
      return p.dir.further nearest p.line
    else return p.line := rfl

/-- Only the place of the line and the regions ahead of it decide how deep a probe goes. -/
theorem plainProbe_fuel (hs : scene.Fits) (fuel other : Nat) {p : Push} (hfuel : scene.ahead p < fuel)
    (hother : scene.ahead p < other) (hclear : scene.Clear p) :
    scene.plainProbe fuel p = scene.plainProbe other p := by
  induction fuel generalizing p other with
  | zero => omega
  | succ fuel ih =>
    obtain ⟨other, rfl⟩ := Nat.exists_eq_succ_of_ne_zero (Nat.ne_zero_of_lt hother)
    rw [plainProbe_succ, plainProbe_succ]
    apply Checked.Agree.eq
    refine isAhead_agree (fun hb => ?_) fun _ => .refl _
    have hlt := (Direction.isAhead_eq_ok hb).1 rfl
    have hstop := scene.confine_goal_le_stop p
    refine Checked.Agree.bind (R := Eq) (.foldlM ?_ rfl) fun nearest _ _ _ heq => heq ▸ .refl _
    rintro ⟨r, i⟩ hmem nearest _ rfl
    obtain ⟨hr, hline⟩ := mem_touching.1 hmem
    unfold plainProbeRegion
    split
    · exact .refl _
    · next he =>
      refine handOn?_agree (p := scene.confine p) hr hline he (.refl _) fun hc _ => ?_
      have hnext := hc.clear hs hclear
      have hsame := ih other (p := scene.asked (scene.confine p) i r)
        (hc.fewer hs hclear hlt hstop hfuel) (hc.fewer hs hclear hlt hstop hother) hnext
      simp only [hsame]
      exact .refl _

theorem confine_confine (scene : Scene) (p : Push) : scene.confine (scene.confine p) = scene.confine p := by
  have hgoal : p.dir.nearer (p.dir.nearer p.goal (scene.stop p)) (scene.stop p) =
      p.dir.nearer p.goal (scene.stop p) := by
    refine p.dir.pos_inj.1 ?_
    rw [p.dir.pos_nearer, p.dir.pos_nearer]
    omega
  exact congrArg (fun g => { p with goal := g }) hgoal

theorem plainProbe_confine (scene : Scene) (fuel : Nat) (p : Push) :
    scene.plainProbe (fuel + 1) (scene.confine p) = scene.plainProbe (fuel + 1) p := by
  rw [plainProbe_succ, plainProbe_succ, confine_confine]
  rfl

end Mosaic.Scene

namespace Mosaic

/-- Every answer that is kept is the one that probing anew gives. -/
def Trace.Known (trace : Trace) (scene : Scene) : Prop :=
  ∀ e ∈ trace.probes, scene.Clear e.1 ∧ scene.plainProbe scene.depth e.1 = .ok e.2

theorem Trace.known_empty (scene : Scene) : ({} : Trace).Known scene := by
  intro e he
  cases he

namespace Scene

variable {scene : Scene} {p : Push}

/-- A probe that keeps answers has found what a plain one has. -/
structure Found (scene : Scene) (trace : Trace) (found : Int × Trace) (reached : Int) : Prop where
  reached : found.1 = reached
  known : found.2.Known scene
  commits : found.2.commits = trace.commits

/-- A probe that keeps answers and one that does not say the same. -/
theorem probe_agree (hs : scene.Fits) (fuel : Nat) {p : Push} {trace : Trace}
    (hfuel : scene.ahead p < fuel) (hclear : scene.Clear p) (hknown : trace.Known scene) :
    Checked.Agree (scene.Found trace) (scene.probe fuel p trace) (scene.plainProbe fuel p) := by
  induction fuel generalizing p trace with
  | zero => omega
  | succ fuel ih =>
    have hdeep : scene.plainProbe (fuel + 1) p = scene.plainProbe scene.depth (scene.confine p) := by
      rw [← plainProbe_confine]
      exact plainProbe_fuel hs _ _ hfuel (scene.ahead_lt_depth _) hclear
    have hstop := scene.confine_goal_le_stop p
    rw [probe]
    cases hl : trace.probes.lookup (scene.confine p) with
    | some reached =>
      -- The answer was kept by a probe at some other depth, which may have been a deeper one.
      obtain ⟨before, after, he, -⟩ := List.lookup_eq_some_iff.1 hl
      have hplain := hdeep.trans (hknown (scene.confine p, reached) (by simp [he])).2
      rw [hplain]
      rw [plainProbe_succ] at hplain
      obtain ⟨b, hb, hplain⟩ := Checked.bind_eq_ok.1 hplain
      change Checked.Agree _ (p.dir.isAhead p.line (scene.confine p).goal >>= _) _
      rw [hb]
      cases b
      · exact .ok ⟨Except.ok.inj hplain, hknown, rfl⟩
      · exact .ok ⟨rfl, hknown, rfl⟩
    | none =>
      rw [plainProbe_succ] at hdeep ⊢
      refine isAhead_agree (fun hb => ?_) fun _ => .ok ⟨rfl, hknown, rfl⟩
      have hlt := (Direction.isAhead_eq_ok hb).1 rfl
      rw [if_pos rfl, if_pos rfl, moved, positions_eq, List.foldlM_map]
      refine Checked.Agree.bind (.foldlM (T := scene.Found trace) ?_ ⟨rfl, hknown, rfl⟩) ?_
      · rintro ⟨r, i⟩ hmem found _ ⟨rfl, hfound, hcommits⟩
        obtain ⟨hr, hline⟩ := mem_touching.1 hmem
        rw [probeRegion_eq hr, plainProbeRegion]
        split
        · exact .ok ⟨rfl, hfound, hcommits⟩
        · next he =>
          refine handOn?_agree (p := scene.confine p) hr hline he (.ok ⟨rfl, hfound, hcommits⟩) fun hc _ => ?_
          have hnext := hc.clear hs hclear
          have hprobe := ih (p := scene.asked (scene.confine p) i r)
            (hc.fewer hs hclear hlt hstop hfuel) hnext hfound
          refine hprobe.bind ?_
          rintro pushed _ - - ⟨rfl, hpushed, hkept⟩
          refine (Checked.Agree.refl _).bind fun v _ _ _ heq => ?_
          exact heq ▸ .ok ⟨rfl, hpushed, hkept.trans hcommits⟩
      · rintro ⟨nearest, found⟩ _ - hplain ⟨rfl, hfound, hcommits⟩
        refine .ok ⟨rfl, fun e he => ?_, hcommits⟩
        rcases List.mem_cons.1 he with rfl | he
        · refine ⟨hclear, ?_⟩
          rw [← hdeep]
          exact Checked.bind_eq_ok.2 ⟨true, hb, Checked.bind_eq_ok.2 ⟨nearest, hplain, rfl⟩⟩
        · exact hfound e he

theorem plainProbe_reaches (hs : scene.Fits) {fuel : Nat} {v : Int} (hfuel : scene.ahead p < fuel)
    (hclear : scene.Clear p) (h : scene.plainProbe fuel p = .ok v) : scene.Reaches p v := by
  have hagree := probe_agree hs fuel hfuel hclear (Trace.known_empty scene)
  rw [h] at hagree
  obtain ⟨⟨_, trace⟩, hprobe, rfl, -⟩ := hagree.of_ok
  exact (probe_reaches hs fuel hfuel hclear (Trace.sound_empty scene) hprobe).1

end Scene

theorem Trace.Known.sound {scene : Scene} {trace : Trace} (h : trace.Known scene) (hs : scene.Fits) :
    trace.Sound scene := by
  intro e he
  obtain ⟨hclear, hprobe⟩ := h e he
  exact Scene.plainProbe_reaches hs (scene.ahead_lt_depth _) hclear hprobe

end Mosaic
