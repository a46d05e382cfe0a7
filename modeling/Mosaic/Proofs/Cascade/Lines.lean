import Mathlib.Data.Int.LeastGreatest
import Mosaic.Proofs.Cascade.Commit

/-! Where a push leaves the lines. All edges on one line come to rest at one place, the furthest goal
of a push of that line, so a written push moves lines and not single edges. -/
namespace Mosaic.Scene

variable {scene : Scene} {root p q : Push} {start patch : Patch} {c v w : Int}

/-- A push rests a line at the furthest goal that it sets off for it. -/
structure Rests (scene : Scene) (root : Push) (c v : Int) : Prop where
  attains : scene.Attains root c v
  last : ∀ q, scene.Follows root q → q.line = c → root.dir.pos q.goal ≤ root.dir.pos v

theorem Rests.unique (hv : scene.Rests root c v) (hw : scene.Rests root c w) (hs : scene.Fits)
    (hroot : scene.Viable root) : v = w := by
  have key : ∀ {v w}, scene.Rests root c v → scene.Rests root c w → root.dir.pos v ≤ root.dir.pos w := by
    intro v w hv hw
    rcases hv.attains with rfl | ⟨q, hq, hline, rfl⟩
    · exact hw.attains.le hs hroot
    · exact hw.last q hq hline
  exact root.dir.pos_inj.1 (Int.le_antisymm (key hv hw) (key hw hv))

theorem Follows.le_stop (hq : scene.Follows root q) (hf : scene.Feasible root) :
    root.dir.pos q.goal ≤ root.dir.pos (scene.stop root) := by
  have hle := hf q hq
  obtain ⟨haxis, hside⟩ := Follows.axis_side hq
  rwa [Push.dir, stop, haxis, hside] at hle

theorem exists_rests (hf : scene.Feasible root) (c : Int) : ∃ v, scene.Rests root c v := by
  let Goal : Int → Prop := fun z => ∃ q, scene.Follows root q ∧ q.line = c ∧ root.dir.pos q.goal = z
  by_cases hsome : ∃ z, Goal z
  · obtain ⟨_, ⟨q, hq, hline, rfl⟩, hlast⟩ := Int.exists_greatest_of_bdd
      ⟨root.dir.pos (scene.stop root), fun _ ⟨_, hq, _, hz⟩ => hz ▸ Follows.le_stop hq hf⟩ hsome
    exact ⟨q.goal, .inr ⟨q, hq, hline, rfl⟩, fun t ht htl => hlast _ ⟨t, ht, htl, rfl⟩⟩
  · exact ⟨c, .inl rfl, fun q hq hline => absurd ⟨_, q, hq, hline, rfl⟩ hsome⟩

/-- When all is written, every edge is where its line comes to rest. -/
theorem Drafts.rests (h : scene.Drafts root start patch) (hdone : scene.Done root patch)
    (hback : scene.Carries root root.side.flip patch) {i : Nat} {r b : Rect}
    (hr : scene.rects[i]? = some r) (hb : patch.rects[i]? = some b) (side : Side) :
    scene.Rests root (r.edge root.axis side) (b.edge root.axis side) := by
  obtain ⟨a, b', -, hb', hd⟩ := h.drafted i r hr
  obtain rfl := Option.some.inj (hb'.symm.trans hb)
  refine ⟨hd.attains side, fun q hq hline => ?_⟩
  obtain ⟨haxis, hside⟩ := Follows.axis_side hq
  have hcases : side = root.side ∨ side = root.side.flip := by
    cases side <;> cases root.side <;> simp [Side.flip]
  rcases hcases with rfl | rfl
  · have hcarries := hdone.own q hq i r _ hr (by rw [haxis, hside, hline]) hb
    rwa [Push.dir, haxis, hside] at hcarries
  · rcases Relation.ReflTransGen.cases_tail hq with rfl | ⟨u, hu, hstep⟩
    · exact hback i r _ hr hline.symm hb
    · have hcarries := hdone.behind u q hu hstep i r _ hr (by rw [haxis, hside, hline]) hb
      rwa [Push.dir, haxis, hside] at hcarries

section

variable (hs : scene.Fits) (hroot : scene.Viable root) (h : scene.Rests root c v)
include hs hroot h

theorem Rests.le : root.dir.pos c ≤ root.dir.pos v := h.attains.le hs hroot

theorem Rests.behind (hc : root.dir.pos c < root.dir.pos root.line) : v = c := by
  rcases h.attains with hv | ⟨q, hq, rfl, rfl⟩
  · exact hv
  · rcases (hroot.follows hs hq).2 with rfl | hlt
    · exact absurd hc (Int.lt_irrefl _)
    · exact absurd hc (Int.lt_asymm hlt)

theorem Rests.line (hc : c = root.line) : v = root.goal := by
  subst hc
  have hlast := h.last root .refl rfl
  have hahead := hroot.ahead
  rcases h.attains with rfl | ⟨q, hq, hline, rfl⟩
  · omega
  · rcases (hroot.follows hs hq).2 with rfl | hlt
    · rfl
    · rw [hline] at hlt
      exact absurd hlt (Int.lt_irrefl _)

omit hs in
theorem Rests.le_stop (hc : root.dir.pos c ≤ root.dir.pos (scene.stop root)) :
    root.dir.pos v ≤ root.dir.pos (scene.stop root) := by
  rcases h.attains with rfl | ⟨q, hq, -, rfl⟩
  · exact hc
  · exact Follows.le_stop hq hroot.feasible

theorem Rests.stop (hc : c = scene.stop root) : v = scene.stop root := by
  subst hc
  exact root.dir.pos_inj.1 (Int.le_antisymm (h.le_stop hroot (Int.le_refl _)) (h.le hs hroot))

theorem Rests.kept {i : Nat} {r : Rect} (hr : scene.rects[i]? = some r) (he : r.extent root.axis ≠ 0)
    (hc : c = r.edge root.axis root.side) (hmoved : v ≠ c)
    (hw : scene.Rests root (r.edge root.axis root.side.flip) w) :
    root.dir.pos v + scene.minAlong i root.axis ≤ root.dir.pos w := by
  have hle := hw.le hs hroot
  rcases h.attains with rfl | ⟨q, hq, hline, rfl⟩
  · exact absurd rfl hmoved
  · obtain ⟨haxis, hside⟩ := Follows.axis_side hq
    by_cases hcrowds : scene.Crowds q i r
    · have hlast := hw.last _ (hq.tail ⟨i, r, hcrowds, rfl⟩) (by rw [handed, haxis, hside])
      have hgoal := pos_goal_handed scene q i r
      rw [Push.dir, haxis, hside] at hgoal
      simp only [Push.dir] at hlast ⊢
      omega
    · have hshort : ¬ q.dir.pos (r.edge q.axis q.side.flip) < q.dir.pos q.goal + scene.minAlong i q.axis :=
        fun hlt => hcrowds ⟨hr, by rw [haxis, hside, hline, hc], by rwa [haxis], hlt⟩
      rw [Push.dir, haxis, hside] at hshort
      simp only [Push.dir] at hle ⊢
      omega

/-- A region keeps its minimum, or its extent where that is less. -/
theorem Rests.room {i : Nat} {r : Rect} (hr : scene.rects[i]? = some r) (he : r.extent root.axis ≠ 0)
    (hc : c = r.edge root.axis root.side) (hw : scene.Rests root (r.edge root.axis root.side.flip) w) :
    root.dir.pos v + min (scene.minAlong i root.axis)
      (root.dir.pos (r.edge root.axis root.side.flip) - root.dir.pos c) ≤ root.dir.pos w := by
  have hle := hw.le hs hroot
  by_cases hmoved : v = c
  · subst hmoved
    omega
  · have hkept := h.kept hs hroot hr he hc hmoved hw
    omega

end

end Mosaic.Scene
