import Mosaic.Cascade.Plain
import Mosaic.Proofs.Cascade.Feasible

/-! Where a region hands a push on to. Probing and writing, with kept answers or without, all ask this same
question of a region and differ in what they do with the answer. -/
namespace Mosaic.Scene

variable {scene : Scene} {p : Push} {i : Nat} {r : Rect}

/-- The handed-on push as it is asked for: its goal is cut off at the end of the coordinates. -/
def asked (scene : Scene) (p : Push) (i : Nat) (r : Rect) : Push :=
  { scene.handed p i r with goal := Coord.saturate (scene.handed p i r).goal }

/-- Either the goal leaves the distance to the opposite edge, or that edge is asked to make way. -/
theorem allowed_cases {d : Direction} (goal : Int) {opposite distance b : Int}
    (hb : d.before opposite distance = .ok b) :
    (d.nearer goal b = goal ∧ d.pos goal + distance ≤ d.pos opposite) ∨
      (d.nearer goal b ≠ goal ∧ d.pos opposite < d.pos goal + distance ∧
        opposite + (goal - d.nearer goal b) = goal + d.sign * distance) := by
  have hpos := Direction.before_eq_ok hb
  cases d
  · simp only [Direction.pos_up, Direction.nearer, Direction.sign] at *
    omega
  · simp only [Direction.pos_down, Direction.nearer, Direction.sign] at *
    omega

/-- A region that is crowded is told which push to hand on, and no other region is. -/
theorem handOn?_eq_ok (hr : scene.rects[i]? = some r) (hline : r.edge p.axis p.side = p.line)
    (he : r.extent p.axis ≠ 0) {next : Option Push} (h : scene.handOn? p r i = .ok next) :
    (¬ scene.Crowds p i r ∧ next = none) ∨ (scene.Crowds p i r ∧ next = some (scene.asked p i r)) := by
  obtain ⟨b, hb, h⟩ := Checked.bind_eq_ok.1 h
  rcases allowed_cases p.goal hb with ⟨heq, hle⟩ | ⟨hne, hlt, hasked⟩
  · rw [if_pos heq] at h
    exact .inl ⟨fun hc => Int.not_le.2 hc.short hle, (Checked.pure_eq_ok.1 h).symm⟩
  · rw [if_neg hne] at h
    obtain ⟨gap, hgap, h⟩ := Checked.bind_eq_ok.1 h
    obtain ⟨-, rfl⟩ := Coord.sub_eq_ok_iff.1 hgap
    rw [Coord.satAdd, hasked] at h
    exact .inr ⟨⟨hr, hline, he, hlt⟩, (Checked.pure_eq_ok.1 h).symm⟩

/-- What follows on the question where a region hands a push on to goes together when it does so for a
region that is crowded and for one that is not. -/
theorem handOn?_agree {α β : Type} {S : α → β → Prop} (hr : scene.rects[i]? = some r)
    (hline : r.edge p.axis p.side = p.line) (he : r.extent p.axis ≠ 0) {f : Option Push → Checked α}
    {g : Option Push → Checked β} (hroom : Checked.Agree S (f none) (g none))
    (hcrowds : scene.Crowds p i r → scene.handOn? p r i = .ok (some (scene.asked p i r)) →
      Checked.Agree S (f (some (scene.asked p i r))) (g (some (scene.asked p i r)))) :
    Checked.Agree S (scene.handOn? p r i >>= f) (scene.handOn? p r i >>= g) := by
  refine (Checked.Agree.refl _).bind fun next next' hnext _ heq => ?_
  subst heq
  rcases handOn?_eq_ok hr hline he hnext with ⟨-, rfl⟩ | ⟨hc, rfl⟩
  · exact hroom
  · exact hcrowds hc hnext

theorem handOn?_bind {α : Type} (scene : Scene) (p : Push) (r : Rect) (i : Nat) (f : Option Push → Checked α) :
    scene.handOn? p r i >>= f = (do
      let opposite := r.edge p.axis p.side.flip
      let allowed := p.dir.nearer p.goal (← p.dir.before opposite (scene.minAlong i p.axis))
      if allowed = p.goal then f none
      else
        let gap ← Coord.sub p.goal allowed
        f (some { p with line := opposite, goal := Coord.satAdd opposite gap })) := by
  simp only [handOn?]
  cases p.dir.before (r.edge p.axis p.side.flip) (scene.minAlong i p.axis) with
  | error e => rfl
  | ok b =>
    by_cases hgoal : p.dir.nearer p.goal b = p.goal
    · simp only [bind, Except.bind, if_pos hgoal]
      rfl
    · simp only [bind, Except.bind, if_neg hgoal]
      cases Coord.sub p.goal (p.dir.nearer p.goal b) <;> rfl

theorem probeRegion_eq (hr : scene.rects[i]? = some r) (onward : Push → Trace → Checked (Int × Trace))
    (found : Int × Trace) : scene.probeRegion onward p found i =
      if r.extent p.axis = 0 then .ok found
      else do
        match ← scene.handOn? p r i with
        | none => return found
        | some next =>
          let (pushed, trace) ← onward next found.2
          return (p.dir.nearer found.1 (← p.dir.before pushed (scene.minAlong i p.axis)),
            trace.note ⟨p.axis, p.side, next.line, next.goal, pushed⟩) := by
  simp only [probeRegion, hr, handOn?_bind]

theorem commitRegion_eq (hr : scene.rects[i]? = some r) (onward : Push → Trace → Checked (Int × Trace))
    (write : Push → Patch → Trace → Checked Writing) (w : Writing) :
    scene.commitRegion onward write p w i =
      if r.extent p.axis = 0 then do
        return { w with patch := ← w.patch.moveMarker i p.axis p.goal p.dir }
      else do
        let w ← match ← scene.handOn? p r i with
          | none => pure w
          | some next => do
            let (pushed, trace) ← onward next w.trace
            let trace := trace.note ⟨p.axis, p.side, next.line, next.goal, pushed⟩
            let written ← write { next with goal := pushed } w.patch trace
            let patch ← scene.grow p.axis p.side.flip next.line pushed written.patch
            pure ⟨p.dir.nearer w.nearest (← p.dir.before pushed (scene.minAlong i p.axis)), patch, written.trace⟩
        return { w with patch := ← w.patch.moveEdge i p.axis p.side p.goal p.dir } := by
  simp only [commitRegion, hr, handOn?_bind]

end Mosaic.Scene
