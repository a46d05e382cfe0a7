import Mosaic.Proofs.Cascade.Draft

/-! Writing a push writes everything that it sets off. Pushes that are written already are skipped,
and rightly so: those still being written lie behind the line of the push at hand. -/
namespace Mosaic.Scene

variable {scene : Scene} {root p q : Push} {start patch patch' : Patch} {i : Nat} {r : Rect}

theorem confine_eq (h : p.dir.pos p.goal ≤ p.dir.pos (scene.stop p)) : scene.confine p = p := by
  have hgoal : p.dir.nearer p.goal (scene.stop p) = p.goal := by
    refine p.dir.pos_inj.1 ?_
    rw [p.dir.pos_nearer]
    omega
  exact congrArg (fun g => { p with goal := g }) hgoal

theorem Reaches.eq_goal {v : Int} (h : scene.Reaches p v) (hahead : p.dir.pos p.line ≤ p.dir.pos p.goal)
    (hf : scene.Feasible p) : v = p.goal := by
  have hge : p.dir.pos p.goal ≤ p.dir.pos v := by
    rcases Int.lt_or_eq_of_le hahead with hlt | heq
    · exact h.last p.goal hlt (Int.le_refl _) hf
    · exact heq ▸ h.ahead
  by_cases hstill : v = p.line
  · subst hstill
    exact p.dir.pos_inj.1 (Int.le_antisymm hahead hge)
  · exact p.dir.pos_inj.1 (Int.le_antisymm (h.moved hstill).1 hge)

/-- A region that a push hands on to is pushed on exactly as far as it has to be. -/
theorem pushed_eq (hs : scene.Fits) (hviable : scene.Viable p) (hc : scene.Crowds p i r)
    {v : Int} (h : scene.Reaches (scene.asked p i r) v) : v = (scene.handed p i r).goal := by
  obtain ⟨hnext, -⟩ := hviable.handsOn hs ⟨i, r, hc, rfl⟩
  exact (h.of_asked hs (hviable.fits_goal hs)).eq_goal (Int.le_of_lt hnext.ahead) hnext.feasible

theorem Attains.le {c v : Int} (h : scene.Attains root c v) (hs : scene.Fits) (hroot : scene.Viable root) :
    root.dir.pos c ≤ root.dir.pos v := by
  rcases h with rfl | ⟨q, hq, rfl, rfl⟩
  · exact Int.le_refl _
  · have hahead := (hroot.follows hs hq).1.ahead
    rw [Push.dir, (Follows.axis_side hq).2] at hahead
    exact Int.le_of_lt hahead

/-- All that a push sets off has been written: on the lines of the pushes in their own direction,
and behind the lines that were handed on. -/
structure Done (scene : Scene) (p : Push) (patch : Patch) : Prop where
  own : ∀ q, scene.Follows p q → scene.Carries q q.side patch
  behind : ∀ q t, scene.Follows p q → scene.HandsOn q t → scene.Carries t t.side.flip patch

theorem Done.mono (h : scene.Done p patch) (hle : patch.Advances p.dir p.axis patch') :
    scene.Done p patch' := by
  refine ⟨fun q hq => ?_, fun q t hq ht => ?_⟩
  · obtain ⟨haxis, hside⟩ := Follows.axis_side hq
    exact (h.own q hq).mono (by rwa [Push.dir, haxis, hside])
  · obtain ⟨haxis, hside⟩ := Follows.axis_side (hq.tail ht)
    exact (h.behind q t hq ht).mono (by rwa [Push.dir, haxis, hside])

theorem Done.handed (h : scene.Done p patch) (hq : scene.HandsOn p q) : scene.Done q patch :=
  ⟨fun t ht => h.own t (ht.head hq), fun t u ht hu => h.behind t u (ht.head hq) hu⟩

theorem Done.intro (hp : scene.Carries p p.side patch)
    (h : ∀ q, scene.HandsOn p q → scene.Carries q q.side.flip patch ∧ scene.Done q patch) :
    scene.Done p patch := by
  refine ⟨fun q hq => ?_, fun q t hq ht => ?_⟩
  · rcases Relation.ReflTransGen.cases_head hq with rfl | ⟨u, hu, hq⟩
    · exact hp
    · exact (h u hu).2.own q hq
  · rcases Relation.ReflTransGen.cases_head hq with rfl | ⟨u, hu, hq⟩
    · exact (h t ht).1
    · exact (h u hu).2.behind q t hq ht

theorem Done.advance (h : scene.Done q patch) (hq : scene.Follows root q)
    (hle : patch.Advances root.dir root.axis patch') : scene.Done q patch' := by
  obtain ⟨haxis, hside⟩ := Follows.axis_side hq
  exact h.mono (by rwa [Push.dir, haxis, hside])

theorem commitRegion_eq_ok {onward : Push → Trace → Checked (Int × Trace)}
    {write : Push → Patch → Trace → Checked Writing} {w w' : Writing} (hr : scene.rects[i]? = some r)
    (hline : r.edge p.axis p.side = p.line) (h : scene.commitRegion onward write p w i = .ok w') :
    (r.extent p.axis = 0 ∧ w.patch.moveMarker i p.axis p.goal p.dir = .ok w'.patch ∧
        w'.trace = w.trace) ∨
      (r.extent p.axis ≠ 0 ∧ ∃ patch, patch.moveEdge i p.axis p.side p.goal p.dir = .ok w'.patch ∧
        ((¬ scene.Crowds p i r ∧ patch = w.patch ∧ w'.trace = w.trace) ∨
          (scene.Crowds p i r ∧ ∃ pushed trace hop written,
            onward (scene.asked p i r) w.trace = .ok (pushed, trace) ∧
              write { scene.handed p i r with goal := pushed } w.patch (trace.note hop) = .ok written ∧
                scene.grow p.axis p.side.flip (scene.handed p i r).line pushed written.patch = .ok patch ∧
                  w'.trace = written.trace))) := by
  rw [commitRegion_eq hr] at h
  split at h
  · next he =>
    obtain ⟨moved, hm, h⟩ := Checked.bind_eq_ok.1 h
    cases Checked.pure_eq_ok.1 h
    exact .inl ⟨he, hm, rfl⟩
  · next he =>
    obtain ⟨next, hask, h⟩ := Checked.bind_eq_ok.1 h
    rcases handOn?_eq_ok hr hline he hask with ⟨hno, rfl⟩ | ⟨hc, rfl⟩
    · obtain ⟨before, hbefore, h⟩ := Checked.bind_eq_ok.1 h
      cases Checked.pure_eq_ok.1 hbefore
      obtain ⟨moved, hm, h⟩ := Checked.bind_eq_ok.1 h
      cases Checked.pure_eq_ok.1 h
      exact .inr ⟨he, w.patch, hm, .inl ⟨hno, rfl, rfl⟩⟩
    · obtain ⟨⟨pushed, trace⟩, hon, h⟩ := Checked.bind_eq_ok.1 h
      obtain ⟨written, hwrite, h⟩ := Checked.bind_eq_ok.1 h
      obtain ⟨grown, hgrow, h⟩ := Checked.bind_eq_ok.1 h
      obtain ⟨v, -, h⟩ := Checked.bind_eq_ok.1 h
      obtain ⟨before, hbefore, h⟩ := Checked.bind_eq_ok.1 h
      cases Checked.pure_eq_ok.1 hbefore
      obtain ⟨moved, hm, h⟩ := Checked.bind_eq_ok.1 h
      cases Checked.pure_eq_ok.1 h
      exact .inr ⟨he, grown, hm, .inr ⟨hc, pushed, trace, _, written, hon, hwrite, hgrow, rfl⟩⟩

/-- Of the pushes noted as written, those at or ahead of the line of `p` are. -/
def Settled (scene : Scene) (p : Push) (commits : List Push) (patch : Patch) : Prop :=
  ∀ q ∈ commits, q.axis = p.axis → q.side = p.side → p.dir.pos p.line ≤ p.dir.pos q.line →
    scene.Done q patch

theorem Settled.cons {commits : List Push} (h : scene.Settled p commits patch) : ∀ q ∈ p :: commits,
    q.axis = p.axis → q.side = p.side → p.dir.pos p.line < p.dir.pos q.line → scene.Done q patch := by
  intro q hq haxis hside hlt
  rcases List.mem_cons.1 hq with rfl | hq
  · exact absurd hlt (Int.lt_irrefl _)
  · exact h q hq haxis hside (Int.le_of_lt hlt)

/-- The writing has gone on from a patch and a trace, and all pushes noted since then are written. -/
structure Continues (scene : Scene) (root : Push) (start patch : Patch) (trace : Trace) (w : Writing) :
    Prop where
  drafts : scene.Drafts root start w.patch
  advances : patch.Advances root.dir root.axis w.patch
  sound : w.trace.Sound scene
  commits : ∀ q ∈ w.trace.commits, q ∈ trace.commits ∨ (scene.Follows root q ∧ scene.Done q w.patch)

variable {trace trace' : Trace} {s t : Writing}

private theorem Continues.next (h : scene.Continues root start patch trace s)
    (hd : scene.Drafts root start t.patch) (hadv : s.patch.Advances root.dir root.axis t.patch)
    (htrace : t.trace = s.trace) : scene.Continues root start patch trace t := by
  refine ⟨hd, h.advances.trans hadv, htrace ▸ h.sound, fun q hq => ?_⟩
  rw [htrace] at hq
  exact (h.commits q hq).imp_right fun ⟨hfollows, hdone⟩ => ⟨hfollows, hdone.advance hfollows hadv⟩

private theorem Continues.trans (h : scene.Continues root start patch trace s)
    (h' : scene.Continues root start s.patch trace' t) (htrace : trace'.commits = s.trace.commits) :
    scene.Continues root start patch trace t := by
  refine ⟨h'.drafts, h.advances.trans h'.advances, h'.sound, fun q hq => ?_⟩
  rcases h'.commits q hq with hq | hq
  · rw [htrace] at hq
    exact (h.commits q hq).imp_right fun ⟨hfollows, hdone⟩ =>
      ⟨hfollows, hdone.advance hfollows h'.advances⟩
  · exact .inr hq

/-- The region at a position is at the goal of the push, and so is all that it hands on. -/
structure Handled (scene : Scene) (p : Push) (i : Nat) (patch : Patch) : Prop where
  arrived : Arrived p.dir p.axis p.side p.goal i patch
  handed : ∀ r, scene.Crowds p i r → scene.Carries (scene.handed p i r) p.side.flip patch ∧
    scene.Done (scene.handed p i r) patch

theorem Handled.mono (h : scene.Handled p i patch) (hle : patch.Advances p.dir p.axis patch') :
    scene.Handled p i patch' :=
  ⟨h.arrived.mono hle, fun r hc => ⟨(h.handed r hc).1.mono hle, (h.handed r hc).2.mono hle⟩⟩

private theorem arrived_of_not_crowds (hs : scene.Fits) (hroot : scene.Viable root)
    (hp : scene.Follows root p) (h : scene.Drafts root start patch) (hr : scene.rects[i]? = some r)
    (hline : r.edge p.axis p.side = p.line) (he : r.extent p.axis ≠ 0) (hc : ¬ scene.Crowds p i r) :
    Arrived p.dir p.axis p.side.flip p.goal i patch := by
  intro b hb
  obtain ⟨haxis, hside⟩ := Follows.axis_side hp
  obtain ⟨a, b', -, hb', hd⟩ := h.drafted i r hr
  obtain rfl := Option.some.inj (hb'.symm.trans hb)
  have hle := (hd.attains p.side.flip).le hs hroot
  have hmin := scene.minAlong_nonneg i p.axis
  have hroom : p.dir.pos p.goal + scene.minAlong i p.axis ≤ p.dir.pos (r.edge p.axis p.side.flip) :=
    Int.not_lt.1 fun hlt => hc ⟨hr, hline, he, hlt⟩
  rw [← haxis, Push.dir, ← hside] at hle
  simp only [Push.dir] at hroom ⊢
  omega

variable {onward : Push → Trace → Checked (Int × Trace)} {write : Push → Patch → Trace → Checked Writing}

/-- Asking how far crowded regions can be pushed on gets the right answers. -/
def Answers (scene : Scene) (p : Push) (onward : Push → Trace → Checked (Int × Trace)) : Prop :=
  ∀ i r, scene.Crowds p i r → ∀ trace pushed trace', trace.Sound scene →
    onward (scene.asked p i r) trace = .ok (pushed, trace') →
      scene.Reaches (scene.asked p i r) pushed ∧ trace'.Sound scene ∧ trace'.commits = trace.commits

/-- What a push hands on is written in full. -/
def Writes (scene : Scene) (root : Push) (start : Patch) (p : Push)
    (write : Push → Patch → Trace → Checked Writing) : Prop :=
  ∀ q, scene.HandsOn p q → ∀ patch trace w, scene.Drafts root start patch → trace.Sound scene →
    scene.Settled q trace.commits patch → write q patch trace = .ok w →
      scene.Continues root start patch trace w ∧ scene.Done q w.patch

theorem Continues.settled (h : scene.Continues root start patch trace s) (hp : scene.Follows root p)
    (haxis : q.axis = p.axis) (hside : q.side = p.side) (hlt : p.dir.pos p.line < p.dir.pos q.line)
    (hsettled : ∀ t ∈ trace.commits, t.axis = p.axis → t.side = p.side →
      p.dir.pos p.line < p.dir.pos t.line → scene.Done t patch) :
    scene.Settled q s.trace.commits s.patch := by
  intro t ht hta hts hle
  rcases h.commits t ht with ht | ⟨-, hdone⟩
  · have hahead : p.dir.pos p.line < p.dir.pos t.line := by
      rw [Push.dir, hside] at hle
      exact Int.lt_of_lt_of_le hlt hle
    apply (hsettled t ht (hta.trans haxis) (hts.trans hside) hahead).mono
    obtain ⟨haxis', hside'⟩ := Follows.axis_side hp
    rw [Push.dir, hta, hts, haxis, hside, haxis', hside']
    exact h.advances
  · exact hdone

/-- The region behind a crowded one is pushed on first, up to the line it is asked for. -/
private theorem commit_handed (hs : scene.Fits) (hroot : scene.Viable root) (hp : scene.Follows root p)
    (hon : scene.Answers p onward) (hwrite : scene.Writes root start p write)
    (hsettled : ∀ q ∈ trace.commits, q.axis = p.axis → q.side = p.side →
      p.dir.pos p.line < p.dir.pos q.line → scene.Done q patch)
    (h : scene.Continues root start patch trace s) (hc : scene.Crowds p i r) {pushed : Int} {hop : Hop}
    {mid : Patch} (hprobe : onward (scene.asked p i r) s.trace = .ok (pushed, trace'))
    (hw : write { scene.handed p i r with goal := pushed } s.patch (trace'.note hop) = .ok t)
    (hgrow : scene.grow p.axis p.side.flip (scene.handed p i r).line pushed t.patch = .ok mid) :
    scene.Continues root start patch trace { t with patch := mid } ∧
      s.patch.Advances root.dir root.axis mid ∧
      scene.Carries (scene.handed p i r) p.side.flip mid ∧ scene.Done (scene.handed p i r) mid := by
  obtain ⟨hviable, -⟩ := hroot.follows hs hp
  have hhands : scene.HandsOn p (scene.handed p i r) := ⟨i, r, hc, rfl⟩
  have hfollows := hp.tail hhands
  obtain ⟨-, hlt⟩ := hviable.handsOn hs hhands
  obtain ⟨hreach, hsound, hcommits⟩ := hon i r hc s.trace pushed trace' h.sound hprobe
  obtain rfl := pushed_eq hs hviable hc hreach
  have hset : scene.Settled (scene.handed p i r) (trace'.note hop).commits s.patch := by
    rw [Trace.note, hcommits]
    exact h.settled hp rfl rfl hlt hsettled
  obtain ⟨hcont, hdone⟩ := hwrite _ hhands s.patch (trace'.note hop) t h.drafts hsound hset hw
  obtain ⟨hd, hadv, hcarries⟩ := hcont.drafts.grow hs hroot hfollows hgrow
  refine ⟨(h.trans hcont hcommits).next hd hadv rfl, hcont.advances.trans hadv, hcarries,
    hdone.advance hfollows hadv⟩

theorem commit_region (hs : scene.Fits) (hroot : scene.Viable root) (hp : scene.Follows root p)
    (hi : i ∈ scene.moved p) (hon : scene.Answers p onward) (hwrite : scene.Writes root start p write)
    (hsettled : ∀ q ∈ trace.commits, q.axis = p.axis → q.side = p.side →
      p.dir.pos p.line < p.dir.pos q.line → scene.Done q patch)
    (h : scene.Continues root start patch trace s) (ht : scene.commitRegion onward write p s i = .ok t) :
    scene.Continues root start patch trace t ∧ s.patch.Advances root.dir root.axis t.patch ∧
      scene.Handled p i t.patch := by
  obtain ⟨r, hr, hline⟩ := mem_moved.1 hi
  have hgoal := (hroot.follows hs hp).1.fits_goal hs
  have hlt := (hroot.follows hs hp).1.ahead
  have hattains : scene.Attains root p.line p.goal := .inr ⟨p, hp, rfl, rfl⟩
  have unique : ∀ r', scene.Crowds p i r' → r' = r := fun r' hc =>
    Option.some.inj (hc.get.symm.trans hr)
  obtain ⟨haxis, hside⟩ := Follows.axis_side hp
  obtain ⟨axis, side, line, goal⟩ := p
  obtain ⟨axis', side', line', goal'⟩ := root
  obtain rfl : axis = axis' := haxis
  obtain rfl : side = side' := hside
  rcases commitRegion_eq_ok hr hline ht with ⟨he, hm, htrace⟩ | ⟨he, mid, hm, hcase⟩
  · have hboth : ∀ other, r.edge axis other = line := fun other =>
      (Rect.edge_eq_edge (hs.get hr).1 he side other).trans hline
    obtain ⟨hd, hadv, harrived⟩ :=
      h.drafts.moveMarker hr he hgoal (fun other => (hboth other).symm ▸ hattains)
        (by rwa [show r.near axis = line from hboth .near]) hm
    exact ⟨h.next hd hadv htrace, hadv, harrived _, fun r' hc => absurd (unique r' hc ▸ he) hc.extent⟩
  · rcases hcase with ⟨hc, rfl, htrace⟩ | ⟨hc, pushed, trace', hop, written, hprobe, hw, hgrow, htrace⟩
    · have hroom := arrived_of_not_crowds hs hroot hp h.drafts hr hline he hc
      obtain ⟨hd, hadv, harrived⟩ :=
        h.drafts.moveEdge hr he hgoal (hline.symm ▸ hattains) (hline.symm ▸ hlt) (fun _ => hroom) hm
      exact ⟨h.next hd hadv htrace, hadv, harrived, fun r' hc' => absurd (unique r' hc' ▸ hc') hc⟩
    · obtain ⟨hcont, hadv, hcarries, hdone⟩ :=
        commit_handed hs hroot hp hon hwrite hsettled h hc hprobe hw hgrow
      have hroom : Arrived side.inward axis side.flip goal i mid := by
        intro b hb
        have hback := hcarries i r b hr rfl hb
        have hmin := scene.minAlong_nonneg i axis
        have hpos := pos_goal_handed scene ⟨axis, side, line, goal⟩ i r
        simp only [Push.dir, handed] at hback hpos ⊢
        omega
      obtain ⟨hd, hadv', harrived⟩ :=
        hcont.drafts.moveEdge hr he hgoal (hline.symm ▸ hattains) (hline.symm ▸ hlt) (fun _ => hroom) hm
      refine ⟨hcont.next hd hadv' htrace, hadv.trans hadv', harrived, fun r' hc' => ?_⟩
      obtain rfl := unique r' hc'
      exact ⟨hcarries.mono hadv', hdone.mono hadv'⟩

theorem Viable.fewer (h : scene.Viable p) (hs : scene.Fits) {fuel : Nat} (hfuel : scene.ahead p < fuel + 1)
    (hc : scene.Crowds p i r) : scene.ahead (scene.handed p i r) < fuel :=
  hc.fewer hs h.clear h.ahead h.feasible.le_stop hfuel

theorem answers_probe (hs : scene.Fits) (h : scene.Viable p) {fuel : Nat}
    (hfuel : scene.ahead p < fuel + 1) : scene.Answers p (scene.probe fuel) := by
  intro i r hc trace pushed trace' hsound hok
  have hclear := hc.clear hs h.clear
  exact probe_reaches hs fuel (h.fewer hs hfuel hc) hclear hsound hok

/-- Writing a push that goes ahead in full: everything it sets off is written, and edges are only
moved to the goals of pushes. -/
theorem commit_continues (hs : scene.Fits) (hroot : scene.Viable root) (fuel : Nat) {p : Push}
    {patch : Patch} {trace : Trace} {w : Writing} (hp : scene.Follows root p)
    (hfuel : scene.ahead p < fuel) (hd : scene.Drafts root start patch) (hsound : trace.Sound scene)
    (hsettled : scene.Settled p trace.commits patch) (h : scene.commit fuel p patch trace = .ok w) :
    scene.Continues root start patch trace w ∧ scene.Done p w.patch := by
  induction fuel generalizing p patch trace w with
  | zero => omega
  | succ fuel ih =>
    obtain ⟨hviable, -⟩ := hroot.follows hs hp
    rw [commit, confine_eq hviable.feasible.le_stop] at h
    obtain ⟨b, hb, h⟩ := Checked.bind_eq_ok.1 h
    rw [if_pos ((Direction.isAhead_eq_ok hb).2 hviable.ahead)] at h
    split at h
    · next hmem =>
      cases Checked.pure_eq_ok.1 h
      exact ⟨⟨hd, .refl _ _ _, hsound, fun q hq => .inl hq⟩,
        hsettled p hmem rfl rfl (Int.le_refl _)⟩
    · obtain ⟨done, hfold, h⟩ := Checked.bind_eq_ok.1 h
      cases Checked.pure_eq_ok.1 h
      have hahead := hsettled.cons
      have hon := answers_probe hs hviable hfuel
      have hwrite : scene.Writes root start p (scene.commit fuel) := by
        rintro _ ⟨i, r, hc, rfl⟩ patch trace w hd hsound hset hok
        exact ih (hp.tail ⟨i, r, hc, rfl⟩) (hviable.fewer hs hfuel hc) hd hsound hset hok
      have step : ∀ i ∈ scene.moved p, ∀ s t : Writing,
          scene.Continues root start patch { trace with commits := p :: trace.commits } s →
          scene.commitRegion (scene.probe fuel) (scene.commit fuel) p s i = .ok t →
          scene.Continues root start patch { trace with commits := p :: trace.commits } t ∧
            s.patch.Advances root.dir root.axis t.patch ∧ scene.Handled p i t.patch := by
        intro i hi s t hst ht
        exact commit_region hs hroot hp hi hon hwrite hahead hst ht
      have keep : ∀ i (s t : Writing), scene.Handled p i s.patch →
          s.patch.Advances root.dir root.axis t.patch → scene.Handled p i t.patch := by
        intro i s t hi hst
        obtain ⟨haxis, hside⟩ := Follows.axis_side hp
        exact hi.mono (by rwa [Push.dir, haxis, hside])
      obtain ⟨hcont, -, hall⟩ := Checked.foldlM_induction
        (I := scene.Continues root start patch { trace with commits := p :: trace.commits })
        (R := fun s t => s.patch.Advances root.dir root.axis t.patch)
        (D := fun i w => scene.Handled p i w.patch) (fun s => .refl _ _ _) (fun _ _ _ => .trans)
        keep step ⟨hd, .refl _ _ _, hsound, fun q hq => .inl hq⟩ hfold
      have hdone : scene.Done p done.patch := by
        refine .intro (fun i r b hr hline hb => ?_) fun q hq => ?_
        · exact (hall i (mem_moved.2 ⟨r, hr, hline⟩)).arrived b hb
        · obtain ⟨i, r, hc, rfl⟩ := hq
          exact (hall i hc.mem_moved).handed r hc
      refine ⟨⟨hcont.drafts, hcont.advances, hcont.sound, fun q hq => ?_⟩, hdone⟩
      rcases hcont.commits q hq with hq | hq
      · rcases List.mem_cons.1 hq with rfl | hq
        · exact .inr ⟨hp, hdone⟩
        · exact .inl hq
      · exact .inr hq

theorem writes_commit (hs : scene.Fits) (hroot : scene.Viable root) (hp : scene.Follows root p) {fuel : Nat}
    (hfuel : scene.ahead p < fuel + 1) : scene.Writes root start p (scene.commit fuel) := by
  obtain ⟨hviable, -⟩ := hroot.follows hs hp
  rintro _ ⟨i, r, hc, rfl⟩ patch trace w hd hsound hset hok
  exact commit_continues hs hroot fuel (hp.tail ⟨i, r, hc, rfl⟩) (hviable.fewer hs hfuel hc) hd hsound hset hok

end Mosaic.Scene
