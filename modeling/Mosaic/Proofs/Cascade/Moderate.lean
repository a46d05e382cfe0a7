import Mosaic.Proofs.Cascade.Cover
import Mosaic.Proofs.Plane.Moderate

/-! Plans for moderate scenes are always answered. A push that is confined goes to a place between its line and the edge
that stops it, wherever it is asked to go, so every sum on the way is one of edges and a minimum. -/
namespace Mosaic

open Checked

namespace Direction

variable {d : Direction} {a b c distance : Int}

theorem gives_isAhead (ha : Coord.Reached a) (hb : Coord.Reached b) :
    Gives (d.isAhead a b) fun ahead => ahead = true ↔ d.pos a < d.pos b := by
  unfold Coord.Reached at ha hb
  have hgap : Coord.Fits (b - a) ∧ Coord.Fits ((b - a) * d.sign) := by
    unfold Coord.Fits
    cases d
    · simp only [sign]
      omega
    · simp only [sign]
      omega
  have hanswered : Gives (d.isAhead a b) fun _ => True := by
    refine (Coord.gives_sub hgap.1).bind fun gap _ heq => ?_
    subst heq
    exact (Coord.gives_mul hgap.2).bind fun _ _ _ => .pure trivial
  exact hanswered.imp fun ahead h _ => isAhead_eq_ok h

theorem gives_before (ha : Coord.Reached a) (hdistance : 0 ≤ distance ∧ distance ≤ 2 ^ 28) :
    Gives (d.before a distance) fun v => d.pos v = d.pos a - distance := by
  unfold Coord.Reached at ha
  have hsum : Coord.Fits (d.sign * distance) ∧ Coord.Fits (a - d.sign * distance) := by
    unfold Coord.Fits
    cases d
    · simp only [sign]
      omega
    · simp only [sign]
      omega
  have hanswered : Gives (d.before a distance) fun _ => True := by
    refine (Coord.gives_mul hsum.1).bind fun scaled _ heq => ?_
    subst heq
    exact (Coord.gives_sub hsum.2).imp fun _ _ _ => trivial
  exact hanswered.imp fun v h _ => before_eq_ok h

theorem reached_further (ha : Coord.Reached a) (hb : Coord.Reached b) : Coord.Reached (d.further a b) := by
  rcases d.further_eq_or a b with heq | heq
  · rwa [heq]
  · rwa [heq]

theorem reached_between (ha : Coord.Reached a) (hb : Coord.Reached b) (hac : d.pos a ≤ d.pos c)
    (hcb : d.pos c ≤ d.pos b) : Coord.Reached c := by
  unfold Coord.Reached at *
  cases d
  · simp only [pos_up] at hac hcb
    omega
  · simp only [pos_down] at hac hcb
    omega

end Direction

namespace Push

/-- The push begins where an edge can be, and is not asked to go back. -/
structure Forward (p : Push) : Prop where
  line : Coord.Reached p.line
  ahead : p.dir.pos p.line ≤ p.dir.pos p.goal

/-- An edge can be there, and it does not lie behind the line of the push. -/
structure Lands (p : Push) (v : Int) : Prop where
  reached : Coord.Reached v
  ahead : p.dir.pos p.line ≤ p.dir.pos v

end Push

/-- Every answer that is kept is a place where its push may have come to rest. -/
def Trace.Lands (trace : Trace) : Prop := ∀ e ∈ trace.probes, e.1.Lands e.2

theorem Trace.lands_empty : ({} : Trace).Lands := nofun

namespace Patch

/-- The patch has so many rectangles, with all edges where those of moderate ones are. -/
structure Reached (n : Nat) (patch : Patch) : Prop where
  length : patch.rects.length = n
  rects : ∀ r ∈ patch.rects, r.Reached

namespace Reached

variable {n i : Nat} {patch : Patch} {axis : Axis} {side : Side} {v : Int} {d : Direction}

theorem set (h : patch.Reached n) {r : Rect} (hr : r.Reached) : Reached n ⟨patch.rects.set i r⟩ := by
  refine ⟨(List.length_set ..).trans h.length, fun b hb => ?_⟩
  rcases List.mem_or_eq_of_mem_set hb with hb | rfl
  · exact h.rects b hb
  · exact hr

theorem gives_moveEdge (h : patch.Reached n) (hv : Coord.Reached v) :
    Gives (patch.moveEdge i axis side v d) (Patch.Reached n) := by
  unfold moveEdge
  split
  · exact .pure h
  · next r hget =>
    have hr := h.rects r (List.mem_of_getElem? hget)
    cases side
    · have hnear : Coord.Reached (d.further (r.near axis) v) := Direction.reached_further (hr.near axis) hv
      exact (hr.gives_withSpan hnear (hr.far axis)).bind fun moved _ hmoved => .pure (h.set hmoved)
    · have hfar : Coord.Reached (d.further (r.far axis) v) := Direction.reached_further (hr.far axis) hv
      exact (hr.gives_withSpan (hr.near axis) hfar).bind fun moved _ hmoved => .pure (h.set hmoved)

theorem gives_moveMarker (h : patch.Reached n) (hv : Coord.Reached v) :
    Gives (patch.moveMarker i axis v d) (Patch.Reached n) := by
  unfold moveMarker
  split
  · exact .pure h
  · next r hget =>
    have hr := h.rects r (List.mem_of_getElem? hget)
    have hplace : Coord.Reached (d.further (r.near axis) v) := Direction.reached_further (hr.near axis) hv
    exact (hr.gives_withSpan hplace hplace).bind fun moved _ hmoved => .pure (h.set hmoved)

end Reached

end Patch

namespace Scene

/-- The edges of regions and bounds are where those of moderate rectangles are, and the minimums are moderate. -/
structure Moderate (scene : Scene) : Prop where
  bounds : scene.bounds.Reached
  rects : ∀ r ∈ scene.rects, r.Reached
  mins : ∀ s ∈ scene.mins, s.Moderate

variable {scene : Scene} {p : Push} {i n : Nat} {r : Rect} {axis : Axis} {patch : Patch} {trace : Trace}

namespace Moderate

theorem get (h : scene.Moderate) (hr : scene.rects[i]? = some r) : r.Reached := h.rects r (List.mem_of_getElem? hr)

theorem apart (h : scene.Moderate) : scene.Apart := fun _ r hr he => (h.rects r hr).near_lt_far he

theorem minAlong (h : scene.Moderate) (i : Nat) (axis : Axis) :
    0 ≤ scene.minAlong i axis ∧ scene.minAlong i axis ≤ 2 ^ 28 := by
  unfold Scene.minAlong
  split
  · next s hs =>
    have hmin := (h.mins s (List.mem_of_getElem? hs)).along axis
    omega
  · decide

end Moderate

theorem reached_confine (hs : scene.Moderate) (hp : p.Forward) : Coord.Reached (scene.confine p).goal := by
  obtain ⟨hline, hahead⟩ := hp
  have hstop := hs.bounds.edge p.axis p.side.flip
  obtain ⟨axis, side, line, goal⟩ := p
  unfold Coord.Reached at *
  cases side
  · simp only [Push.dir, confine, Side.inward, Direction.pos_up, Direction.nearer] at *
    omega
  · simp only [Push.dir, confine, Side.inward, Direction.pos_down, Direction.nearer] at *
    omega

theorem gives_handOn? (hs : scene.Moderate) (hr : scene.rects[i]? = some r) (hgoal : Coord.Reached p.goal) :
    Gives (scene.handOn? p r i) fun next => ∀ q, next = some q → q.Forward := by
  have hopposite := (hs.get hr).edge p.axis p.side.flip
  have hmin := hs.minAlong i p.axis
  refine (Direction.gives_before hopposite hmin).bind fun b _ hb => ?_
  simp only
  split
  · exact .pure nofun
  · next hshort =>
    obtain ⟨axis, side, line, goal⟩ := p
    unfold Coord.Reached at *
    have hgap : Coord.Fits (goal - side.inward.nearer goal b) ∧
        side.inward.pos (r.edge axis side.flip) ≤ side.inward.pos
          (Coord.satAdd (r.edge axis side.flip) (goal - side.inward.nearer goal b)) := by
      unfold Coord.Fits Coord.satAdd Coord.saturate
      cases side
      · simp only [Side.inward, Direction.pos_up, Direction.nearer] at *
        omega
      · simp only [Side.inward, Direction.pos_down, Direction.nearer] at *
        omega
    refine (Coord.gives_sub hgap.1).bind fun gap _ heq => .pure fun q hq => ?_
    cases hq
    rw [heq]
    exact ⟨hopposite, hgap.2⟩

/-- Pushes that go forward, with so few regions ahead, are answered with a place where they may come to rest. -/
def Explores (scene : Scene) (levels : Nat) (onward : Push → Trace → Checked (Int × Trace)) : Prop :=
  ∀ q trace, scene.ahead q < levels → q.Forward → trace.Lands →
    Gives (onward q trace) fun found => q.Lands found.1 ∧ found.2.Lands

theorem gives_probeRegion {onward : Push → Trace → Checked (Int × Trace)} (hs : scene.Moderate)
    (hon : scene.Explores (scene.ahead p) onward) (hgoal : Coord.Reached p.goal) (hi : i ∈ scene.moved p)
    {found : Int × Trace} (hfound : p.dir.pos found.1 ≤ p.dir.pos p.goal ∧ found.2.Lands) :
    Gives (scene.probeRegion onward p found i) fun found =>
      p.dir.pos found.1 ≤ p.dir.pos p.goal ∧ found.2.Lands := by
  obtain ⟨r, hr, hline⟩ := mem_moved.1 hi
  rw [probeRegion_eq hr]
  split
  · exact .pure hfound
  · next he =>
    refine (gives_handOn? hs hr hgoal).bind fun next hask hnext => ?_
    rcases handOn?_eq_ok hr hline he hask with ⟨-, rfl⟩ | ⟨hc, rfl⟩
    · exact .pure hfound
    · have hfewer : scene.ahead (scene.asked p i r) < scene.ahead p := hc.ahead_lt_of_apart hs.apart
      refine (hon _ found.2 hfewer (hnext _ rfl) hfound.2).bind fun after _ hafter => ?_
      refine (Direction.gives_before hafter.1.reached (hs.minAlong i p.axis)).bind fun v _ _ => .pure ⟨?_, hafter.2⟩
      rw [Direction.pos_nearer]
      exact Int.le_trans (Int.min_le_left ..) hfound.1

/-- More levels of recursion than there are regions ahead are enough to answer a probe. -/
theorem explores_probe (hs : scene.Moderate) (fuel : Nat) : scene.Explores fuel (scene.probe fuel) := by
  induction fuel with
  | zero => exact fun q _ hfuel => absurd hfuel (Nat.not_lt_zero _)
  | succ fuel ih =>
    intro p trace hfuel hp htrace
    have hgoal := reached_confine hs hp
    have hon : scene.Explores (scene.ahead (scene.confine p)) (scene.probe fuel) :=
      fun q trace hq => ih q trace (Nat.lt_of_lt_of_le hq (Nat.le_of_lt_succ hfuel))
    rw [probe]
    refine (Direction.gives_isAhead hp.line hgoal).bind fun ahead _ hahead => ?_
    split
    · next htrue =>
      split
      · next reached hkept =>
        obtain ⟨before, after, hprobes, -⟩ := List.lookup_eq_some_iff.1 hkept
        have hlands : (scene.confine p).Lands reached :=
          htrace (scene.confine p, reached) (hprobes ▸ List.mem_append_right _ List.mem_cons_self)
        exact .pure ⟨⟨hlands.reached, hlands.ahead⟩, htrace⟩
      · refine (Gives.foldlM (fun i hi found hfound => gives_probeRegion hs hon hgoal hi hfound)
          ⟨Int.le_refl _, htrace⟩).bind fun found _ hfound => .pure ?_
        have hlt : p.dir.pos p.line < p.dir.pos (scene.confine p).goal := hahead.1 htrue
        have hle : p.dir.pos found.1 ≤ p.dir.pos (scene.confine p).goal := hfound.1
        have hfurther := p.dir.pos_further found.1 p.line
        have hforth : p.dir.pos p.line ≤ p.dir.pos (p.dir.further found.1 p.line) := by omega
        have hlands : p.Lands (p.dir.further found.1 p.line) :=
          ⟨Direction.reached_between hp.line hgoal hforth (by omega), hforth⟩
        exact ⟨hlands, List.forall_mem_cons.2 ⟨⟨hlands.reached, hlands.ahead⟩, hfound.2⟩⟩
    · exact .pure ⟨⟨hp.line, Int.le_refl _⟩, htrace⟩

theorem gives_grow {side : Side} {line v : Int} (hpatch : patch.Reached n) (hv : Coord.Reached v) :
    Gives (scene.grow axis side line v patch) (Patch.Reached n) := by
  unfold grow
  split
  · exact .pure hpatch
  · refine Gives.foldlM (fun i _ patch hpatch => ?_) hpatch
    split
    · exact .pure hpatch
    · split
      · exact hpatch.gives_moveMarker hv
      · exact hpatch.gives_moveEdge hv

/-- Writing pushes that go forward, with so few regions ahead, is answered, and moves edges only to where they can be. -/
def Completes (scene : Scene) (n levels : Nat) (write : Push → Patch → Trace → Checked Writing) : Prop :=
  ∀ q patch trace, scene.ahead q < levels → q.Forward → patch.Reached n → trace.Lands →
    Gives (write q patch trace) fun w => w.patch.Reached n ∧ w.trace.Lands

theorem gives_commitRegion {onward : Push → Trace → Checked (Int × Trace)}
    {write : Push → Patch → Trace → Checked Writing} (hs : scene.Moderate)
    (hon : scene.Explores (scene.ahead p) onward) (hwrite : scene.Completes n (scene.ahead p) write)
    (hgoal : Coord.Reached p.goal) (hi : i ∈ scene.moved p) {w : Writing}
    (hw : w.patch.Reached n ∧ w.trace.Lands) :
    Gives (scene.commitRegion onward write p w i) fun w => w.patch.Reached n ∧ w.trace.Lands := by
  obtain ⟨r, hr, hline⟩ := mem_moved.1 hi
  rw [commitRegion_eq hr]
  split
  · exact (hw.1.gives_moveMarker hgoal).bind fun patch _ hpatch => .pure ⟨hpatch, hw.2⟩
  · next he =>
    refine (gives_handOn? hs hr hgoal).bind fun next hask hnext => ?_
    rcases handOn?_eq_ok hr hline he hask with ⟨-, rfl⟩ | ⟨hc, rfl⟩
    · exact (hw.1.gives_moveEdge hgoal).bind fun patch _ hpatch => .pure ⟨hpatch, hw.2⟩
    · have hq := hnext _ rfl
      have hfewer : scene.ahead (scene.asked p i r) < scene.ahead p := hc.ahead_lt_of_apart hs.apart
      refine (hon _ w.trace hfewer hq hw.2).bind fun found _ hfound => ?_
      obtain ⟨pushed, after⟩ := found
      obtain ⟨hlands, hafter⟩ := hfound
      have hforth : Push.Forward { scene.asked p i r with goal := pushed } := ⟨hq.line, hlands.ahead⟩
      refine (hwrite { scene.asked p i r with goal := pushed } w.patch (after.note _) hfewer hforth hw.1
        hafter).bind fun written _ hwritten => ?_
      refine (gives_grow hwritten.1 hlands.reached).bind fun patch _ hpatch => ?_
      refine (Direction.gives_before hlands.reached (hs.minAlong i p.axis)).bind fun v _ _ => ?_
      exact (hpatch.gives_moveEdge hgoal).bind fun patch _ hpatch => .pure ⟨hpatch, hwritten.2⟩

theorem completes_commit (hs : scene.Moderate) (n fuel : Nat) : scene.Completes n fuel (scene.commit fuel) := by
  induction fuel with
  | zero => exact fun q _ _ hfuel => absurd hfuel (Nat.not_lt_zero _)
  | succ fuel ih =>
    intro p patch trace hfuel hp hpatch htrace
    have hgoal := reached_confine hs hp
    have hle : scene.ahead (scene.confine p) ≤ fuel := Nat.le_of_lt_succ hfuel
    have hon : scene.Explores (scene.ahead (scene.confine p)) (scene.probe fuel) :=
      fun q trace hq => explores_probe hs fuel q trace (Nat.lt_of_lt_of_le hq hle)
    have hwrite : scene.Completes n (scene.ahead (scene.confine p)) (scene.commit fuel) :=
      fun q patch trace hq => ih q patch trace (Nat.lt_of_lt_of_le hq hle)
    rw [commit]
    refine (Direction.gives_isAhead hp.line hgoal).bind fun ahead _ hahead => ?_
    split
    · split
      · exact .pure ⟨hpatch, htrace⟩
      · refine (Gives.foldlM (fun i hi w hw => gives_commitRegion hs hon hwrite hgoal hi hw)
          ⟨hpatch, htrace⟩).bind fun w _ hw => .pure hw
    · exact .pure ⟨hpatch, htrace⟩

variable {held achieved : Grip} {goal : Point}

theorem gives_probeLine (hs : scene.Moderate) {line goal : Int} (hline : Coord.Reached line) (htrace : trace.Lands) :
    Gives (scene.probeLine axis line goal trace) fun found => Coord.Reached found.1 ∧ found.2.Lands := by
  have hprobe (side : Side) (hforth : side.inward.pos line ≤ side.inward.pos goal) :
      Gives (scene.probe scene.depth ⟨axis, side, line, goal⟩ trace) fun found =>
        Coord.Reached found.1 ∧ found.2.Lands :=
    (explores_probe hs _ _ trace (scene.ahead_lt_depth _) ⟨hline, hforth⟩ htrace).imp fun _ _ hfound => ⟨hfound.1.reached, hfound.2⟩
  unfold probeLine
  split
  · next hup => exact hprobe .near (by simpa [Side.inward] using Int.le_of_lt hup)
  · split
    · next hdown => exact hprobe .far (by simpa [Side.inward] using Int.le_of_lt hdown)
    · exact .pure ⟨hline, htrace⟩

theorem gives_probeHeld (hs : scene.Moderate) (hheld : ∀ line ∈ held.along axis, Coord.Reached line)
    (htrace : trace.Lands) : Gives (scene.probeHeld held goal axis trace) fun found =>
      (∀ line ∈ found.1, Coord.Reached line) ∧ found.2.Lands := by
  unfold probeHeld
  split
  · exact .pure ⟨nofun, htrace⟩
  · next line hline =>
    refine (gives_probeLine hs (hheld line hline) htrace).bind fun found _ hfound => .pure ⟨?_, hfound.2⟩
    rintro _ ⟨⟩
    exact hfound.1

theorem gives_commitHeld (hs : scene.Moderate) (hheld : ∀ line ∈ held.along axis, Coord.Reached line)
    (hachieved : ∀ line ∈ achieved.along axis, Coord.Reached line) (hpatch : patch.Reached n) (htrace : trace.Lands) :
    Gives (scene.commitHeld held achieved axis patch trace) fun w => w.1.Reached n ∧ w.2.Lands := by
  unfold commitHeld
  split
  · next line reached hline hreached =>
    have hline := hheld line hline
    have hreached := hachieved reached hreached
    have hmove (side : Side) (hforth : side.inward.pos line ≤ side.inward.pos reached) : Gives (do
          let w ← scene.commit scene.depth ⟨axis, side, line, reached⟩ patch trace
          return (← scene.grow axis side.flip line reached w.patch, w.trace))
        fun w => w.1.Reached n ∧ w.2.Lands := by
      refine (completes_commit hs n _ _ patch trace (scene.ahead_lt_depth _) ⟨hline, hforth⟩ hpatch htrace).bind fun w _ hw => ?_
      exact (gives_grow hw.1 hreached).bind fun patch _ hpatch => .pure ⟨hpatch, hw.2⟩
    split
    · next hup => exact hmove .near (by simpa [Side.inward] using Int.le_of_lt hup)
    · split
      · next hdown => exact hmove .far (by simpa [Side.inward] using Int.le_of_lt hdown)
      · exact .pure ⟨hpatch, htrace⟩
  · exact .pure ⟨hpatch, htrace⟩

/-- Whatever is asked of lines where edges can be, the plan is answered and moves edges only to where they can be. -/
theorem gives_planLines (hs : scene.Moderate) (hheld : ∀ axis, ∀ line ∈ held.along axis, Coord.Reached line)
    (htrace : trace.Lands) : Gives (scene.planLines held goal trace) fun found =>
      (∀ axis, ∀ line ∈ found.1.achieved.along axis, Coord.Reached line) ∧
        found.1.patch.Reached scene.rects.length := by
  refine (gives_probeHeld hs (hheld .x) htrace).bind fun x _ hx => ?_
  refine (gives_probeHeld hs (hheld .y) hx.2).bind fun y _ hy => ?_
  have hachieved : ∀ axis, ∀ line ∈ (⟨x.1, y.1⟩ : Grip).along axis, Coord.Reached line := Axis.rec hx.1 hy.1
  refine (gives_commitHeld hs (hheld .x) (hachieved .x) ⟨rfl, hs.rects⟩ hy.2).bind fun w _ hw => ?_
  exact (gives_commitHeld hs (hheld .y) (hachieved .y) hw.1 hw.2).bind fun w _ hw => .pure ⟨hachieved, hw.1⟩

theorem gives_planFrom (hs : scene.Moderate) (htrace : trace.Lands) :
    Gives (scene.planFrom held goal trace) fun found => found.1.patch.Reached scene.rects.length := by
  have hmovable : ∀ axis, ∀ line ∈ scene.movable held axis, Coord.Reached line := by
    intro axis line hline
    obtain ⟨-, hnear, hfar⟩ := movable_eq_some hline
    have hfirst := hs.bounds.near axis
    have hlast := hs.bounds.far axis
    unfold Coord.Reached at *
    omega
  have hheld : ∀ axis, ∀ line ∈ (scene.moving held).along axis, Coord.Reached line := by
    intro axis
    rw [along_moving]
    exact hmovable axis
  exact (gives_planLines hs hheld htrace).bind fun _ _ hfound => .pure hfound.2

end Scene

end Mosaic
