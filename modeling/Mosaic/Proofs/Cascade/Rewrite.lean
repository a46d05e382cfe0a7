import Mosaic.Proofs.Cascade.Commit
import Mosaic.Proofs.Cascade.Scan

/-! Writing a push anew. What a finished push wrote stays at its goals or goes beyond them, so writing the
push again changes nothing, and skipping it is the same. -/
namespace Mosaic.Scene

variable {scene : Scene} {root p q : Push} {start patch patch' : Patch} {i : Nat} {r : Rect}
  {side : Side} {v : Int}

/-- An edge that has left its line is not moved again up to where it is. -/
theorem Drafts.moveEdge_idle (h : scene.Drafts root start patch) (hr : scene.rects[i]? = some r)
    (hlt : root.dir.pos (r.edge root.axis side) < root.dir.pos v)
    (harrived : Arrived root.dir root.axis side v i patch) :
    patch.moveEdge i root.axis side v root.dir = .ok patch := by
  obtain ⟨a, b, -, hb, hd⟩ := h.drafted i r hr
  have hle := harrived b hb
  obtain ⟨hexact, -⟩ := hd.respanned.resolve_left fun hstays => by
    rw [hstays.edge side] at hle
    omega
  exact Patch.moveEdge_idle hb hd.fits hd.proper hexact hle

theorem Drafts.moveMarker_idle (h : scene.Drafts root start patch) (hr : scene.rects[i]? = some r)
    (he : r.extent root.axis = 0) (hlt : root.dir.pos (r.edge root.axis side) < root.dir.pos v)
    (harrived : Arrived root.dir root.axis side v i patch) :
    patch.moveMarker i root.axis v root.dir = .ok patch := by
  obtain ⟨a, b, -, hb, hd⟩ := h.drafted i r hr
  have hle := harrived b hb
  obtain ⟨hexact, -⟩ := hd.respanned.resolve_left fun hstays => by
    rw [hstays.edge side] at hle
    omega
  have hempty := hd.marker he
  have hnear : b.edge root.axis side = b.near root.axis := by
    cases side
    · rfl
    · exact hempty
  exact Patch.moveMarker_idle hb hd.fits hd.proper hexact hempty (hnear ▸ hle)

theorem Drafts.grow_idle (h : scene.Drafts root start patch) (hs : scene.Fits) (hroot : scene.Viable root)
    (hq : scene.Follows root q) (hcarries : scene.Carries q q.side.flip patch) :
    scene.plainGrow q.axis q.side.flip q.line q.goal patch = .ok patch := by
  obtain ⟨haxis, hside⟩ := Follows.axis_side hq
  obtain ⟨hviable, -⟩ := hroot.follows hs hq
  have hahead := hviable.ahead
  have hdir : q.dir = root.dir := by rw [Push.dir, hside]
  rw [plainGrow, if_neg hviable.goal_ne_line, hviable.up_or_down, hdir]
  refine Checked.foldlM_eq_self ?_
  rintro ⟨r, i⟩ hmem
  obtain ⟨hr, hline⟩ := mem_touching.1 hmem
  have harrived : Arrived root.dir root.axis q.side.flip q.goal i patch := by
    intro b hb
    have hle := hcarries i r b hr hline hb
    rwa [hdir, haxis] at hle
  rw [hdir] at hahead
  rw [haxis] at hline
  simp only [haxis]
  split
  · next he => exact h.moveMarker_idle hr he (hline.symm ▸ hahead) harrived
  · exact h.moveEdge_idle hr (hline.symm ▸ hahead) harrived

/-- What one region adds to the plain writing of `p`. -/
def plainCommitRegion (scene : Scene) (onward : Push → Checked Int) (write : Push → Patch → Checked Patch)
    (p : Push) (patch : Patch) (e : Rect × Nat) : Checked Patch :=
  if e.1.extent p.axis = 0 then patch.moveMarker e.2 p.axis p.goal p.dir
  else do
    let patch ← match ← scene.handOn? p e.1 e.2 with
      | none => pure patch
      | some next => do
        let pushed ← onward next
        let written ← write { next with goal := pushed } patch
        scene.plainGrow p.axis p.side.flip next.line pushed written
    patch.moveEdge e.2 p.axis p.side p.goal p.dir

theorem plainCommit_succ (scene : Scene) (fuel : Nat) (p : Push) (patch : Patch) :
    scene.plainCommit (fuel + 1) p patch = do
      if ← p.dir.isAhead p.line (scene.confine p).goal then
        (scene.touching p.axis p.side p.line).foldlM (scene.plainCommitRegion (scene.plainProbe fuel)
          (scene.plainCommit fuel) (scene.confine p)) patch
      else return patch := rfl

/-- The plain writing of the push has been answered before. -/
def Wrote (scene : Scene) (p : Push) : Prop :=
  ∃ fuel before after, scene.ahead p < fuel ∧ scene.plainCommit fuel p before = .ok after

theorem plainProbe_asked (hs : scene.Fits) (hviable : scene.Viable p) {fuel : Nat}
    (hfuel : scene.ahead p < fuel + 1) (hc : scene.Crowds p i r)
    (h : scene.plainProbe fuel (scene.asked p i r) = .ok v) : v = (scene.handed p i r).goal := by
  have hclear := hc.clear hs hviable.clear
  exact pushed_eq hs hviable hc
    (plainProbe_reaches hs (p := scene.asked p i r) (hviable.fewer hs hfuel hc) hclear h)

theorem plainCommitRegion_idle (hs : scene.Fits) (hroot : scene.Viable root) (hp : scene.Follows root p)
    (hd : scene.Drafts root start patch) (hdone : scene.Done p patch) (hr : scene.rects[i]? = some r)
    (hline : r.edge p.axis p.side = p.line) {onward onward' : Push → Checked Int}
    {write write' : Push → Patch → Checked Patch} {before after : Patch}
    (hwrote : scene.plainCommitRegion onward' write' p before (r, i) = .ok after)
    (hnext : scene.Crowds p i r → ∀ pushed before after, onward' (scene.asked p i r) = .ok pushed →
      write' { scene.handed p i r with goal := pushed } before = .ok after →
        onward (scene.asked p i r) = .ok pushed ∧ pushed = (scene.handed p i r).goal ∧
          write (scene.handed p i r) patch = .ok patch) :
    scene.plainCommitRegion onward write p patch (r, i) = .ok patch := by
  have hahead := (hroot.follows hs hp).1.ahead
  obtain ⟨haxis, hside⟩ := Follows.axis_side hp
  obtain ⟨axis, side, line, goal⟩ := p
  obtain ⟨axis', side', line', goal'⟩ := root
  obtain rfl : axis = axis' := haxis
  obtain rfl : side = side' := hside
  have hlt : side.inward.pos (r.edge axis side) < side.inward.pos goal := hline.symm ▸ hahead
  have harrived : Arrived side.inward axis side goal i patch := fun b hb => hdone.own _ .refl i r b hr hline hb
  unfold plainCommitRegion at hwrote ⊢
  split at hwrote
  · next he =>
    rw [if_pos he]
    exact hd.moveMarker_idle hr he hlt harrived
  · next he =>
    have hmove : patch.moveEdge i axis side goal side.inward = .ok patch := hd.moveEdge_idle hr hlt harrived
    obtain ⟨next, hask, hwrote⟩ := Checked.bind_eq_ok.1 hwrote
    rw [if_neg he, hask]
    rcases handOn?_eq_ok hr hline he hask with ⟨-, rfl⟩ | ⟨hc, rfl⟩
    · exact hmove
    · obtain ⟨pushed, hpushed, hwrote⟩ := Checked.bind_eq_ok.1 hwrote
      obtain ⟨written, hwritten, -⟩ := Checked.bind_eq_ok.1 hwrote
      obtain ⟨honward, rfl, hwrite⟩ := hnext hc _ _ _ hpushed hwritten
      have hgrow := hd.grow_idle hs hroot (hp.tail ⟨i, r, hc, rfl⟩) (hdone.behind _ _ .refl ⟨i, r, hc, rfl⟩)
      exact Checked.bind_eq_ok.2 ⟨_, rfl, Checked.bind_eq_ok.2 ⟨_, honward,
        Checked.bind_eq_ok.2 ⟨_, hwrite, Checked.bind_eq_ok.2 ⟨_, hgrow, hmove⟩⟩⟩⟩

/-- Writing a push again that is written already changes nothing. -/
theorem plainCommit_idle (hs : scene.Fits) (hroot : scene.Viable root) (fuel : Nat) {p : Push}
    (hp : scene.Follows root p) (hfuel : scene.ahead p < fuel) (hd : scene.Drafts root start patch)
    (hdone : scene.Done p patch) (hwrote : scene.Wrote p) : scene.plainCommit fuel p patch = .ok patch := by
  induction fuel generalizing p with
  | zero => omega
  | succ fuel ih =>
    obtain ⟨other, before, after, hother, hwrote⟩ := hwrote
    obtain ⟨other, rfl⟩ := Nat.exists_eq_succ_of_ne_zero (Nat.ne_zero_of_lt hother)
    obtain ⟨hviable, -⟩ := hroot.follows hs hp
    have hconfine := confine_eq hviable.feasible.le_stop
    rw [plainCommit_succ, hconfine] at hwrote ⊢
    obtain ⟨b, hb, hwrote⟩ := Checked.bind_eq_ok.1 hwrote
    obtain rfl := (Direction.isAhead_eq_ok hb).2 hviable.ahead
    -- The earlier writing asked the same of every region, so nothing asked now can be refused.
    refine Checked.bind_eq_ok.2 ⟨true, hb, Checked.foldlM_eq_self ?_⟩
    rintro ⟨r, i⟩ hmem
    obtain ⟨s, t, hst⟩ := Checked.exists_of_mem_foldlM hwrote (r, i) hmem
    obtain ⟨hr, hline⟩ := mem_touching.1 hmem
    refine plainCommitRegion_idle hs hroot hp hd hdone hr hline hst fun hc pushed before after hask hok => ?_
    have hfewer := hviable.fewer hs hfuel hc
    have hfewer' := hviable.fewer hs hother hc
    have hclear := hc.clear hs hviable.clear
    obtain rfl := plainProbe_asked hs hviable hother hc hask
    have hhands : scene.HandsOn p (scene.handed p i r) := ⟨i, r, hc, rfl⟩
    have hnext := ih (hp.tail hhands) hfewer (hdone.handed hhands) ⟨other, before, after, hfewer', hok⟩
    have hsame := plainProbe_fuel hs _ _ (p := scene.asked p i r) hfewer hfewer' hclear
    exact ⟨hsame.trans hask, rfl, hnext⟩

theorem before_goal_handed (hs : scene.Fits) (hviable : scene.Viable p) {next : Option Push}
    (h : scene.handOn? p r i = .ok next) :
    p.dir.before (scene.handed p i r).goal (scene.minAlong i p.axis) = .ok p.goal := by
  obtain ⟨b, hb, -⟩ := Checked.bind_eq_ok.1 h
  simp only [Direction.before, Checked.bind_eq_ok, Coord.sub_eq_ok_iff, Coord.mul_eq_ok_iff] at hb ⊢
  obtain ⟨_, ⟨hfits, rfl⟩, -⟩ := hb
  have hback : (scene.handed p i r).goal - p.dir.sign * scene.minAlong i p.axis = p.goal := by
    simp only [handed]
    omega
  exact ⟨_, ⟨hfits, rfl⟩, hback ▸ hviable.fits_goal hs, hback⟩

variable {trace : Trace}

/-- A writing that skips pushes and one that does not have come to the same patch. -/
structure Matches (scene : Scene) (trace : Trace) (w : Writing) (patch : Patch) : Prop where
  patch : w.patch = patch
  known : w.trace.Known scene
  commits : ∀ q ∈ w.trace.commits, q ∈ trace.commits ∨ scene.Wrote q

private theorem agree_write (x : Checked Patch) (nearest : Int) {after : Trace} (hknown : after.Known scene)
    (hcommits : ∀ q ∈ after.commits, q ∈ trace.commits ∨ scene.Wrote q) :
    Checked.Agree (scene.Matches trace) (do return ⟨nearest, ← x, after⟩) x :=
  (Checked.Agree.refl x).map fun _ _ _ _ heq => ⟨heq, hknown, hcommits⟩

theorem commitRegion_agree (hs : scene.Fits) (hviable : scene.Viable p) (hr : scene.rects[i]? = some r)
    (hline : r.edge p.axis p.side = p.line) {onward : Push → Trace → Checked (Int × Trace)}
    {onward' : Push → Checked Int} {write : Push → Patch → Trace → Checked Writing}
    {write' : Push → Patch → Checked Patch} {w : Writing} (hw : w.trace.Known scene)
    (hon : scene.Crowds p i r → Checked.Agree (scene.Found w.trace)
      (onward (scene.asked p i r) w.trace) (onward' (scene.asked p i r)))
    (hreach : scene.Crowds p i r → ∀ pushed, onward' (scene.asked p i r) = .ok pushed →
      pushed = (scene.handed p i r).goal)
    (hwrite : scene.Crowds p i r → ∀ trace, trace.Known scene → trace.commits = w.trace.commits →
      Checked.Agree (scene.Matches trace)
        (write (scene.handed p i r) w.patch trace) (write' (scene.handed p i r) w.patch)) :
    Checked.Agree (scene.Matches w.trace) (scene.commitRegion onward write p w i)
      (scene.plainCommitRegion onward' write' p w.patch (r, i)) := by
  have hnone : ∀ q ∈ w.trace.commits, q ∈ w.trace.commits ∨ scene.Wrote q := fun q hq => .inl hq
  rw [commitRegion_eq hr, plainCommitRegion]
  split
  · exact agree_write _ _ hw hnone
  · next he =>
    refine handOn?_agree hr hline he ?_ fun hc hask => ?_
    · exact agree_write _ _ hw hnone
    · refine (hon hc).bind ?_
      rintro ⟨pushed, trace⟩ _ - hpushed ⟨rfl, hknown, hcommits⟩
      obtain rfl := hreach hc _ hpushed
      refine (hwrite hc (trace.note _) hknown hcommits).bind ?_
      rintro written _ - - ⟨rfl, hknown, hwritten⟩
      rw [grow_eq_plainGrow]
      refine (Checked.Agree.refl _).bind ?_
      rintro grown _ - - rfl
      rw [before_goal_handed hs hviable hask]
      refine agree_write _ _ hknown fun q hq => (hwritten q hq).imp_left fun hq => ?_
      rwa [← hcommits]

/-- Of the pushes noted as written, the plain writing of those at or ahead of the line of `p` has been
answered before. -/
def Recalled (scene : Scene) (p : Push) (commits : List Push) : Prop :=
  ∀ q ∈ commits, q.axis = p.axis → q.side = p.side → p.dir.pos p.line ≤ p.dir.pos q.line → scene.Wrote q

private theorem commit_region_agree (hs : scene.Fits) (hroot : scene.Viable root) (hp : scene.Follows root p)
    {fuel : Nat} (hfuel : scene.ahead p < fuel + 1) {noted : Trace} (hnoted : noted.commits = p :: trace.commits)
    (hsettled : scene.Settled p trace.commits patch) (hrecalled : scene.Recalled p trace.commits)
    (hrec : ∀ q, scene.HandsOn p q → ∀ patch trace, scene.ahead q < fuel → scene.Drafts root start patch →
      trace.Known scene → scene.Settled q trace.commits patch → scene.Recalled q trace.commits →
        Checked.Agree (scene.Matches trace) (scene.commit fuel q patch trace) (scene.plainCommit fuel q patch))
    (hr : scene.rects[i]? = some r) (hline : r.edge p.axis p.side = p.line) {w : Writing}
    (hcont : scene.Continues root start patch noted w) (hmatch : scene.Matches noted w patch') :
    Checked.Agree (fun t patch' => scene.Matches noted t patch' ∧ scene.Continues root start patch noted t)
      (scene.commitRegion (scene.probe fuel) (scene.commit fuel) p w i)
      (scene.plainCommitRegion (scene.plainProbe fuel) (scene.plainCommit fuel) p patch' (r, i)) := by
  obtain ⟨rfl, hw, hcommits⟩ := hmatch
  obtain ⟨hviable, -⟩ := hroot.follows hs hp
  have hahead := hsettled.cons
  rw [← hnoted] at hahead
  have hon : scene.Crowds p i r → Checked.Agree (scene.Found w.trace)
      (scene.probe fuel (scene.asked p i r) w.trace) (scene.plainProbe fuel (scene.asked p i r)) := by
    intro hc
    have hclear := hc.clear hs hviable.clear
    exact probe_agree hs fuel (p := scene.asked p i r) (hviable.fewer hs hfuel hc) hclear hw
  have hreach : scene.Crowds p i r → ∀ pushed, scene.plainProbe fuel (scene.asked p i r) = .ok pushed →
      pushed = (scene.handed p i r).goal := fun hc _ => plainProbe_asked hs hviable hfuel hc
  have hwrite : scene.Crowds p i r → ∀ trace', trace'.Known scene → trace'.commits = w.trace.commits →
      Checked.Agree (scene.Matches trace') (scene.commit fuel (scene.handed p i r) w.patch trace')
        (scene.plainCommit fuel (scene.handed p i r) w.patch) := by
    intro hc trace' hknown' hsame
    obtain ⟨-, hlt⟩ := hviable.handsOn hs ⟨i, r, hc, rfl⟩
    refine hrec _ ⟨i, r, hc, rfl⟩ w.patch trace' (hviable.fewer hs hfuel hc) hcont.drafts hknown' ?_ ?_
    · rw [hsame]
      exact hcont.settled hp rfl rfl hlt hahead
    · -- The push at hand is noted too, but its line lies behind those that it hands on to.
      intro q hq haxis hside hle
      rw [hsame] at hq
      rcases hcommits q hq with hq | hq
      · rcases List.mem_cons.1 (hnoted ▸ hq) with rfl | hq
        · exact absurd hlt (Int.not_lt.2 hle)
        · exact hrecalled q hq haxis hside (Int.le_trans (Int.le_of_lt hlt) hle)
      · exact hq
  refine (commitRegion_agree hs hviable hr hline hw hon hreach hwrite).imp fun t patch' ht _ h => ⟨?_, ?_⟩
  · exact ⟨h.patch, h.known, fun q hq => (h.commits q hq).elim (hcommits q) .inr⟩
  · exact (commit_region hs hroot hp (mem_moved.2 ⟨r, hr, hline⟩) (answers_probe hs hviable hfuel)
      (writes_commit hs hroot hp hfuel) hahead hcont ht).1

/-- Skipping pushes that are written already makes no difference to the patch. -/
theorem commit_agree (hs : scene.Fits) (hroot : scene.Viable root) (fuel : Nat) {p : Push} {patch : Patch}
    {trace : Trace} (hp : scene.Follows root p) (hfuel : scene.ahead p < fuel)
    (hd : scene.Drafts root start patch) (hknown : trace.Known scene)
    (hsettled : scene.Settled p trace.commits patch) (hrecalled : scene.Recalled p trace.commits) :
    Checked.Agree (scene.Matches trace)
      (scene.commit fuel p patch trace) (scene.plainCommit fuel p patch) := by
  induction fuel generalizing p patch trace with
  | zero => omega
  | succ fuel ih =>
    obtain ⟨hviable, -⟩ := hroot.follows hs hp
    have hconfine := confine_eq hviable.feasible.le_stop
    rw [commit, hconfine]
    by_cases hmem : p ∈ trace.commits
    · -- The push is skipped here and written again there.
      have hidle := plainCommit_idle hs hroot (fuel + 1) hp hfuel hd
        (hsettled p hmem rfl rfl (Int.le_refl _)) (hrecalled p hmem rfl rfl (Int.le_refl _))
      rw [hidle]
      rw [plainCommit_succ, hconfine] at hidle
      obtain ⟨b, hb, -⟩ := Checked.bind_eq_ok.1 hidle
      obtain rfl := (Direction.isAhead_eq_ok hb).2 hviable.ahead
      rw [hb]
      simp only [if_pos hmem]
      exact .ok ⟨rfl, hknown, fun q hq => .inl hq⟩
    · rw [plainCommit_succ, hconfine]
      refine isAhead_agree (fun hb => ?_) fun hb =>
        absurd ((Direction.isAhead_eq_ok hb).2 hviable.ahead) Bool.false_ne_true
      rw [if_pos rfl, if_neg hmem, if_pos rfl, moved, positions_eq]
      simp only [List.foldlM_map]
      have hbegin : scene.Matches { trace with commits := p :: trace.commits }
            ⟨p.goal, patch, { trace with commits := p :: trace.commits }⟩ patch ∧
          scene.Continues root start patch { trace with commits := p :: trace.commits }
            ⟨p.goal, patch, { trace with commits := p :: trace.commits }⟩ :=
        ⟨⟨rfl, hknown, fun q hq => .inl hq⟩, hd, .refl _ _ _, hknown.sound hs, fun q hq => .inl hq⟩
      refine Checked.Agree.map (.foldlM (T := fun w patch' =>
        scene.Matches { trace with commits := p :: trace.commits } w patch' ∧
          scene.Continues root start patch { trace with commits := p :: trace.commits } w) ?_ hbegin) ?_
      · rintro ⟨r, i⟩ hri w patch' ⟨hmatch, hcont⟩
        obtain ⟨hr, hline⟩ := mem_touching.1 hri
        refine commit_region_agree hs hroot hp hfuel rfl hsettled hrecalled ?_ hr hline hcont hmatch
        intro q hq patch trace hfewer hd hknown hsettled hrecalled
        exact ih (hp.tail hq) hfewer hd hknown hsettled hrecalled
      · rintro w _ - hplain ⟨⟨rfl, hw, hcommits⟩, -⟩
        refine ⟨rfl, hw, fun q hq => ?_⟩
        rcases hcommits q hq with hq | hq
        · rcases List.mem_cons.1 hq with rfl | hq
          · refine .inr ⟨fuel + 1, patch, w.patch, hfuel, ?_⟩
            rw [plainCommit_succ, hconfine]
            exact Checked.bind_eq_ok.2 ⟨true, hb, hplain⟩
          · exact .inl hq
        · exact .inr hq

end Mosaic.Scene
