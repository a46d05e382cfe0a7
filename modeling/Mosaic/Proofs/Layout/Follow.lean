import Mosaic.Proofs.Layout.Reflow

/-! Following a target moves lines of a box paved by the regions. The regions are moved along, the
anchor gives way inside the old box, the far lines take the box along, and what was gained goes to the
anchor inside the new box. -/
namespace Mosaic

namespace Layout

variable {W : Type} {l l' : Layout W} {anchor box box' limits target : Rect} {min growth : Size}
  {aim aim' : Aim} {axis : Axis}

theorem aims_eq_ok {f : Aim → Axis → Checked Aim} {C : Axis → Int → Int → Prop} {N : Axis → Prop}
    (hf : ∀ aim axis aim', f aim axis = .ok aim' → (aim' = aim ∧ N axis) ∨
      ∃ line goal, aim' = aim.set line goal axis ∧ C axis line goal) {start : Point} {aim : Aim}
    (h : Axis.all.foldlM f (.start start) = .ok aim) (axis : Axis) :
    (aim.held.along axis = none ∧ N axis) ∨
      ∃ line, aim.held.along axis = some line ∧ C axis line (aim.goal.along axis) := by
  rw [Axis.all, List.foldlM_cons] at h
  obtain ⟨first, hx, h⟩ := Checked.bind_eq_ok.1 h
  rw [List.foldlM_cons] at h
  obtain ⟨second, hy, h⟩ := Checked.bind_eq_ok.1 h
  rw [List.foldlM_nil, Checked.pure_eq_ok] at h
  subst h
  have hstart : ∀ axis, (Aim.start start).held.along axis = none := Axis.rec rfl rfl
  cases axis
  · have hkept : second.held.along .x = first.held.along .x ∧ second.goal.along .x = first.goal.along .x := by
      rcases hf _ _ _ hy with ⟨rfl, -⟩ | ⟨line, goal, rfl, -⟩
      · exact ⟨rfl, rfl⟩
      · exact ⟨rfl, rfl⟩
    rw [hkept.1, hkept.2]
    rcases hf _ _ _ hx with ⟨rfl, hn⟩ | ⟨line, goal, rfl, hc⟩
    · exact .inl ⟨rfl, hn⟩
    · exact .inr ⟨line, rfl, hc⟩
  · rcases hf _ _ _ hy with ⟨rfl, hn⟩ | ⟨line, goal, rfl, hc⟩
    · left
      refine ⟨?_, hn⟩
      rcases hf _ _ _ hx with ⟨rfl, -⟩ | ⟨line, goal, rfl, -⟩
      · exact hstart .y
      · exact hstart .y
    · exact .inr ⟨line, rfl, hc⟩

theorem aimAnchorInward_eq_ok (h : aimAnchorInward anchor box min growth aim axis = .ok aim') :
    (aim' = aim ∧ True) ∨ ∃ line goal, aim' = aim.set line goal axis ∧
      line = anchor.far axis ∧ growth.along axis < 0 ∧ anchor.far axis < box.far axis ∧ goal < anchor.far axis := by
  unfold aimAnchorInward at h
  split at h
  · next hshrinks =>
    obtain ⟨floor, -, h⟩ := Checked.bind_eq_ok.1 h
    obtain ⟨inner, -, h⟩ := Checked.bind_eq_ok.1 h
    obtain rfl := Checked.pure_eq_ok.1 h
    split
    · next hback => exact .inr ⟨_, _, rfl, rfl, hshrinks.1, hshrinks.2, hback⟩
    · exact .inl ⟨rfl, trivial⟩
  · cases h
    exact .inl ⟨rfl, trivial⟩

theorem aimCorner_eq_ok (h : aimCorner box growth aim axis = .ok aim') :
    (aim' = aim ∧ growth.along axis = 0) ∨ ∃ line goal, aim' = aim.set line goal axis ∧
      line = box.far axis ∧ goal = box.far axis + growth.along axis ∧ Coord.Fits goal := by
  unfold aimCorner at h
  split at h
  · next hstill =>
    cases h
    exact .inl ⟨rfl, hstill⟩
  · obtain ⟨goal, hgoal, h⟩ := Checked.bind_eq_ok.1 h
    obtain ⟨hfits, rfl⟩ := Coord.add_eq_ok_iff.1 hgoal
    cases Checked.pure_eq_ok.1 h
    exact .inr ⟨_, _, rfl, rfl, rfl, hfits⟩

theorem aimAnchorOutward_eq_ok (h : aimAnchorOutward anchor box growth aim axis = .ok aim') :
    (aim' = aim ∧ ¬ (0 < growth.along axis ∧ anchor.far axis < box.far axis)) ∨
      ∃ line goal, aim' = aim.set line goal axis ∧ line = anchor.far axis ∧
        goal = anchor.far axis + growth.along axis ∧ 0 < growth.along axis ∧ anchor.far axis < box.far axis := by
  unfold aimAnchorOutward at h
  split at h
  · next hgrows =>
    obtain ⟨goal, hgoal, h⟩ := Checked.bind_eq_ok.1 h
    obtain ⟨-, rfl⟩ := Coord.add_eq_ok_iff.1 hgoal
    cases Checked.pure_eq_ok.1 h
    exact .inr ⟨_, _, rfl, rfl, rfl, hgrows⟩
  · next hno =>
    cases h
    exact .inl ⟨rfl, hno⟩

/-- The limits of a resize: the box itself, or as far as it is to grow. -/
structure Bounding (box limits : Rect) (growth : Size) : Prop where
  fits : limits.Fits
  near : ∀ axis, limits.near axis = box.near axis
  still : ∀ axis, growth.along axis ≤ 0 → limits.far axis = box.far axis
  ahead : ∀ axis, 0 < growth.along axis → Coord.Fits (box.far axis + growth.along axis) →
    limits.far axis = box.far axis + growth.along axis

/-- Only what is to shrink is tried out, and it is found to shrink no more than that. -/
def Tried (asked growth : Int) : Prop := (0 ≤ asked → growth = asked) ∧ (asked < 0 → asked ≤ growth ∧ growth ≤ 0)

/-- What is to shrink has been probed, and nothing else. -/
def FoundFeasible (scene : Scene) (axis : Axis) (far asked growth : Int) : Prop :=
  (0 ≤ asked → growth = asked) ∧ (asked < 0 → scene.Probed axis far (far + asked) (far + growth))

theorem FoundFeasible.tried {scene : Scene} {far asked growth : Int}
    (h : FoundFeasible scene axis far asked growth) : Tried asked growth := by
  refine ⟨h.1, fun hshrinks => ?_⟩
  have hback := (h.2 hshrinks).inward (by omega)
  omega

theorem feasibleGrowth_eq_ok {scene : Scene} {trace trace' : Trace} {v : Int}
    (hs : scene.Fits) (hsharp : ∀ r ∈ scene.rects, r.Sharp) (hsound : trace.Sound scene)
    (h : feasibleGrowth scene box growth axis trace = .ok (v, trace')) :
    FoundFeasible scene axis (box.far axis) (growth.along axis) v ∧ trace'.Sound scene := by
  unfold feasibleGrowth at h
  split at h
  · next hshrinks =>
    obtain ⟨goal, hgoal, h⟩ := Checked.bind_eq_ok.1 h
    obtain ⟨⟨reached, after⟩, hprobe, h⟩ := Checked.bind_eq_ok.1 h
    obtain ⟨gap, hgap, h⟩ := Checked.bind_eq_ok.1 h
    cases Checked.pure_eq_ok.1 h
    obtain ⟨-, rfl⟩ := Coord.add_eq_ok_iff.1 hgoal
    obtain ⟨-, rfl⟩ := Coord.sub_eq_ok_iff.1 hgap
    obtain ⟨hprobed, hsound, -⟩ :=
      Scene.probeLine_probed hs (fun _ => Scene.clear_of_sharp hsharp _) hsound hprobe
    refine ⟨⟨fun hgrows => absurd hshrinks (Int.not_lt.2 hgrows), fun _ => ?_⟩, hsound⟩
    rwa [add_sub_cancel]
  · next hgrows =>
    cases h
    exact ⟨⟨fun _ => rfl, fun hshrinks => absurd hshrinks hgrows⟩, hsound⟩

theorem clamped_fits (hbox : box.Fits) (ht : target.Fits ∧ target.IsProper) :
    (Rect.clamped box.x box.y target.width target.height).Fits ∧
      (Rect.clamped box.x box.y target.width target.height).IsProper := by
  obtain ⟨hx, hy, -, -⟩ := hbox
  obtain ⟨⟨-, -, hwidth, hheight⟩, hproper⟩ := ht
  rw [Rect.clamped, Int.max_eq_left hproper.1, Int.max_eq_left hproper.2]
  exact ⟨⟨hx, hy, hwidth, hheight⟩, hproper⟩

theorem bounding_of_union (asked : Size) (hbox : box.Solid) (htarget : target.Fits ∧ target.IsProper)
    (hunion : box.union (.clamped box.x box.y target.width target.height) = .ok limits)
    (hasked : ∀ axis, asked.along axis = target.extent axis - box.extent axis)
    (htried : ∀ axis, Tried (asked.along axis) (growth.along axis)) : Bounding box limits growth := by
  obtain ⟨hfits, hnear, hfar, -⟩ := Rect.union_edges hunion ⟨hbox.fits, hbox.isProper⟩
    (clamped_fits hbox.fits htarget)
  rw [Rect.clamped, Int.max_eq_left htarget.2.1, Int.max_eq_left htarget.2.2] at hnear hfar
  have hend : ∀ axis, limits.far axis =
      max (box.far axis) (Coord.saturate (box.near axis + target.extent axis)) := by
    intro axis
    rw [hfar]
    cases axis <;> rfl
  refine ⟨hfits, fun axis => ?_, fun axis hstill => ?_, fun axis hahead hgoal => ?_⟩
  · rw [hnear]
    cases axis <;> exact Int.min_self _
  · have hends := hbox.far axis
    have hedge := Rect.fits_far box axis
    obtain ⟨hkept, -⟩ := htried axis
    have hask := hasked axis
    rw [hend]
    unfold Coord.Fits at hedge
    unfold Coord.saturate
    omega
  · have hends := hbox.far axis
    obtain ⟨hkept, hback⟩ := htried axis
    have hask := hasked axis
    have hsum : box.near axis + target.extent axis = box.far axis + growth.along axis := by omega
    rw [hend, hsum, Coord.saturate_of_fits hgoal]
    omega

theorem bounding_of_growths (hbox : box.Solid) (hsharp : ∀ r ∈ l.store.bounds, r.Sharp)
    (htarget : target.Fits ∧ target.IsProper)
    (hunion : box.union (.clamped box.x box.y target.width target.height) = .ok limits)
    {width height : Int} {trace trace' : Trace}
    (hwidth : feasibleGrowth (l.scene limits) box
      ⟨target.width - box.width, target.height - box.height⟩ .x {} = .ok (width, trace))
    (hheight : feasibleGrowth (l.scene limits) box ⟨width, target.height - box.height⟩ .y trace =
      .ok (height, trace')) :
    (∀ axis, FoundFeasible (l.scene limits) axis (box.far axis) (target.extent axis - box.extent axis)
      ((⟨width, height⟩ : Size).along axis)) ∧ Bounding box limits ⟨width, height⟩ := by
  have hfits : limits.Fits :=
    (Rect.union_edges hunion ⟨hbox.fits, hbox.isProper⟩ (clamped_fits hbox.fits htarget)).1
  have hs : (l.scene limits).Fits := Scene.fits_of_sharp hsharp hfits
  obtain ⟨hfoundX, hsound⟩ := feasibleGrowth_eq_ok hs hsharp (Trace.sound_empty _) hwidth
  obtain ⟨hfoundY, -⟩ := feasibleGrowth_eq_ok hs hsharp hsound hheight
  exact ⟨Axis.rec hfoundX hfoundY,
    bounding_of_union ⟨target.width - box.width, target.height - box.height⟩ hbox htarget hunion
      (Axis.rec rfl rfl) (Axis.rec hfoundX.tried hfoundY.tried)⟩

theorem commitAim_reflow (hw : box.Woven l.store.bounds) {o : Outcome W Unit} (hlimits : limits.Fits)
    (hheld : ∀ axis line, aim.held.along axis = some line →
      limits.near axis = box.near axis ∧ limits.far axis = box.far axis)
    (ho : l.commitAim aim limits = .ok o) :
    Reflow l box o.layout box ∧ ∀ axis, (∀ r ∈ l.store.bounds, Rect.Within axis box r) →
      ∀ b ∈ o.layout.store.bounds, Rect.Within axis box b := by
  unfold Layout.commitAim at ho
  split at ho
  · cases ho
    exact ⟨.refl hw, fun _ hin => hin⟩
  · obtain ⟨moved, hmoved, ho⟩ := Checked.bind_eq_ok.1 ho
    cases Checked.pure_eq_ok.1 ho
    obtain ⟨plan, trace, hplan, -, hlayout⟩ := commitWithin_eq_ok hmoved
    exact hlayout ▸ planFrom_reflow hw hlimits hplan hheld

/-- The box when its far edges have gone along. -/
def stretched (box : Rect) (growth : Size) : Rect :=
  ⟨box.x, box.y, box.width + growth.width, box.height + growth.height⟩

theorem near_stretched (box : Rect) (growth : Size) (axis : Axis) :
    (stretched box growth).near axis = box.near axis := by cases axis <;> rfl

theorem extent_stretched (box : Rect) (growth : Size) (axis : Axis) :
    (stretched box growth).extent axis = box.extent axis + growth.along axis := by cases axis <;> rfl

theorem clamped_stretched (h : (stretched box growth).IsProper) :
    Rect.clamped box.x box.y (box.width + growth.width) (box.height + growth.height) =
      stretched box growth := by
  simp only [stretched] at h
  rw [Rect.clamped, Int.max_eq_left h.1, Int.max_eq_left h.2, stretched]

theorem far_stretched (hbox : box.Sharp) (hfits : Coord.Fits (box.far axis + growth.along axis)) :
    (stretched box growth).far axis = box.far axis + growth.along axis := by
  have hends := hbox.far axis
  have hsum : box.near axis + (box.extent axis + growth.along axis) = box.far axis + growth.along axis := by
    omega
  rw [Rect.far_eq, near_stretched, extent_stretched, hsum, Coord.saturate_of_fits hfits]

/-- The aim takes the far line of the axis along with the growth. -/
def Aim.AtCorner (aim : Aim) (box : Rect) (growth : Size) (axis : Axis) : Prop :=
  (aim.held.along axis = none ∧ growth.along axis = 0) ∨ (aim.held.along axis = some (box.far axis) ∧
    aim.goal.along axis = box.far axis + growth.along axis ∧ Coord.Fits (aim.goal.along axis))

/-- The far edge of the axis stays, or has gained what its line was found to go. -/
def Gained (scene : Scene) (box : Rect) (aim : Aim) (achieved : Grip) (gain : Size) (axis : Axis) : Prop :=
  (aim.held.along axis = none ∧ gain.along axis = 0) ∨ ∃ reached,
    aim.held.along axis = some (box.far axis) ∧ achieved.along axis = some reached ∧
      reached = box.far axis + gain.along axis ∧
        scene.Probed axis (box.far axis) (aim.goal.along axis) reached

theorem Bounding.far_eq (h : Bounding box limits growth) (haim : aim.AtCorner box growth axis) :
    limits.far axis = box.far axis + max (growth.along axis) 0 := by
  by_cases hahead : 0 < growth.along axis
  · rcases haim with ⟨-, hzero⟩ | ⟨-, hgoal, hfits⟩
    · omega
    · rw [h.ahead axis hahead (hgoal ▸ hfits), Int.max_eq_left (Int.le_of_lt hahead)]
  · rw [h.still axis (Int.not_lt.1 hahead), Int.max_eq_right (Int.not_lt.1 hahead), Int.add_zero]

section

variable {scene : Scene} {achieved : Grip} {gain : Size} {m : Int → Int}

theorem steady_of_atCorner (hsharp : ∀ r ∈ scene.rects, r.Sharp)
    (haim : ∀ axis, aim.AtCorner box growth axis) : scene.Steady aim.held := by
  intro axis line hline
  rcases haim axis with ⟨hnone, -⟩ | ⟨hheld, -⟩
  · rw [hnone] at hline
    cases hline
  · obtain rfl := Option.some.inj (hheld.symm.trans hline)
    exact ⟨Rect.fits_far box axis, fun _ => Scene.clear_of_sharp hsharp _⟩

theorem gained_of_probed (haim : aim.AtCorner box growth axis)
    (hp : scene.ProbedBy axis (aim.held.along axis) (achieved.along axis) (aim.goal.along axis))
    (hgain : gain.along axis = grown (box.far axis) (growth.along axis) (achieved.along axis)) :
    Gained scene box aim achieved gain axis := by
  rcases haim with ⟨hnone, hzero⟩ | ⟨hheld, -⟩
  · rcases hp with ⟨-, hachieved⟩ | ⟨line, reached, hline, -⟩
    · rw [hachieved] at hgain
      exact .inl ⟨hnone, hgain.trans hzero⟩
    · rw [hnone] at hline
      cases hline
  · rcases hp with ⟨hnone, -⟩ | ⟨line, reached, hline, hachieved, hprobed⟩
    · rw [hheld] at hnone
      cases hnone
    · obtain rfl := Option.some.inj (hheld.symm.trans hline)
      rw [hachieved, grown] at hgain
      exact .inr ⟨reached, hheld, hachieved, by omega, hprobed⟩

theorem Gained.fits (h : Gained scene box aim achieved gain axis) (hs : scene.Fits)
    (hsteady : scene.Steady aim.held) : Coord.Fits (box.far axis + gain.along axis) := by
  rcases h with ⟨-, hzero⟩ | ⟨reached, hheld, -, rfl, hprobed⟩
  · rw [hzero, Int.add_zero]
    exact Rect.fits_far box axis
  · obtain ⟨hfits, hclear⟩ := hsteady axis _ hheld
    rcases hprobed.reachable hfits hclear with hsame | ⟨side, hviable⟩
    · rwa [hsame]
    · exact hviable.fits_goal hs

theorem Gained.edges (h : Gained scene box aim achieved gain axis) (hs : scene.Fits) (hbox : box.Sharp)
    (hspan : box.near axis < box.far axis) (hnear : scene.bounds.near axis = box.near axis)
    (hfits : Coord.Fits (box.far axis + gain.along axis))
    (hm : scene.MovedBy axis (aim.held.along axis) (achieved.along axis) m) (side : Side) :
    (stretched box gain).edge axis side = m (box.edge axis side) := by
  have hfar := far_stretched hbox hfits
  rcases h with ⟨hnone, hzero⟩ | ⟨reached, hheld, hachieved, hreached, -⟩
  · rcases hm with ⟨-, -, rfl⟩ | ⟨line, _, hline, -⟩
    · cases side
      · exact near_stretched box gain axis
      · rw [hzero, Int.add_zero] at hfar
        exact hfar
    · rw [hnone] at hline
      cases hline
  · rcases hm with ⟨hnone, -⟩ | ⟨line, reached', hline, hachieved', hm⟩
    · rw [hheld] at hnone
      cases hnone
    · obtain rfl := Option.some.inj (hheld.symm.trans hline)
      obtain rfl := Option.some.inj (hachieved.symm.trans hachieved')
      have hfirst := hm.near hs (show scene.bounds.near axis < box.far axis by omega)
      cases side
      · change (stretched box gain).near axis = m (box.near axis)
        rw [near_stretched, ← hnear, hfirst]
      · change (stretched box gain).far axis = m (box.far axis)
        rw [hfar, hm.held hs, hreached]

theorem Gained.tried (h : Gained scene box aim achieved gain axis) (hb : Bounding box scene.bounds growth)
    (hsharp : ∀ r ∈ scene.rects, r.Sharp) (hin : ∀ r ∈ scene.rects, Rect.Within axis box r)
    (haim : aim.AtCorner box growth axis) : Tried (growth.along axis) (gain.along axis) := by
  have hlimit := hb.far_eq haim
  rcases h with ⟨hnone, hzero⟩ | ⟨reached, hheld, -, hreached, hprobed⟩
  · rcases haim with ⟨-, hzero'⟩ | ⟨hheld, -⟩
    · exact ⟨fun _ => hzero.trans hzero'.symm, fun _ => by omega⟩
    · rw [hheld] at hnone
      cases hnone
  · rcases haim with ⟨hnone, -⟩ | ⟨-, hgoal, hfits⟩
    · rw [hheld] at hnone
      cases hnone
    · rw [hgoal] at hprobed
      constructor
      · intro hahead
        rcases Int.lt_or_eq_of_le hahead with hlt | heq
        · have hout : ∀ r ∈ scene.rects, r.extent axis ≠ 0 → r.near axis ≠ box.far axis := by
            intro r hr hextent
            have hpos := (hsharp r hr).proper.extent_nonneg axis
            have hends := (hsharp r hr).far axis
            obtain ⟨-, hfar⟩ := hin r hr
            omega
          have hall := hprobed.outward hout (by omega) (by omega)
          omega
        · have hstill := hprobed.still (by omega)
          omega
      · intro hback
        have hreach := hprobed.inward (by omega)
        omega

end

theorem stretched_zero (h : ∀ axis, growth.along axis = 0) : stretched box growth = box := by
  have hwidth : growth.width = 0 := h .x
  have hheight : growth.height = 0 := h .y
  rw [stretched, hwidth, hheight, Int.add_zero, Int.add_zero]

theorem along_eq_none {held : Grip} (h : held.IsEmpty) (axis : Axis) : held.along axis = none := by
  cases axis
  · exact h.1
  · exact h.2

theorem growth_eq_zero (haim : ∀ axis, aim.AtCorner box growth axis) (hempty : aim.held.IsEmpty) (axis : Axis) :
    growth.along axis = 0 := by
  have hnone := along_eq_none hempty axis
  rcases haim axis with ⟨-, hzero⟩ | ⟨hheld, -⟩
  · exact hzero
  · rw [hheld] at hnone
    cases hnone

theorem Bounding.within (h : Bounding box limits growth) (haim : aim.AtCorner box growth axis) {r : Rect}
    (hr : Rect.Within axis box r) : Rect.Within axis limits r := by
  obtain ⟨hfirst, hlast⟩ := hr
  have hlimits := h.far_eq haim
  have hsame := h.near axis
  exact ⟨by omega, by omega⟩

theorem Bounding.ends {gain : Size} (h : Bounding box limits growth) (haim : aim.AtCorner box growth axis)
    (htried : Tried (growth.along axis) (gain.along axis)) (hahead : 0 ≤ gain.along axis)
    (hfar : (stretched box gain).far axis = box.far axis + gain.along axis) :
    limits.near axis = (stretched box gain).near axis ∧ limits.far axis = (stretched box gain).far axis := by
  obtain ⟨hforth, hback⟩ := htried
  have hlimits := h.far_eq haim
  refine ⟨(h.near axis).trans (near_stretched box gain axis).symm, ?_⟩
  rw [hfar, hlimits]
  omega

/-- Moving the far lines takes the far edges of the box along. Along an axis on which the box does not
shrink, it gets the ends of the limits, and the regions stay inside it. -/
theorem commitCorner_reflow (hbox : box.Solid) (hw : box.Woven l.store.bounds)
    (hin : ∀ axis, ∀ r ∈ l.store.bounds, Rect.Within axis box r) (hb : Bounding box limits growth)
    {o : Outcome W Size} (haim : ∀ axis, aim.AtCorner box growth axis) (hfits : (stretched box o.value).Fits)
    (ho : l.commitCorner box growth aim limits = .ok o) :
    Reflow l box o.layout (stretched box o.value) ∧
      (∀ axis, Tried (growth.along axis) (o.value.along axis)) ∧
        ∀ axis, 0 ≤ o.value.along axis →
          (limits.near axis = (stretched box o.value).near axis ∧
            limits.far axis = (stretched box o.value).far axis) ∧
          ∀ b ∈ o.layout.store.bounds, Rect.Within axis (stretched box o.value) b := by
  have hs : (l.scene limits).Fits := Scene.fits_of_sharp hw.sharp hb.fits
  rcases commitCorner_eq_ok ho with ⟨hempty, hlayout, hvalue⟩ | ⟨plan, trace, hplan, hlayout, hvalue⟩
  · have hstill := growth_eq_zero haim hempty
    rw [hlayout, hvalue, stretched_zero hstill]
    exact ⟨.refl hw, fun axis => ⟨fun _ => rfl, fun _ => by rw [hstill]; omega⟩,
      fun axis _ => ⟨⟨hb.near axis, hb.still axis (Int.le_of_eq (hstill axis))⟩, hin axis⟩⟩
  · have hsteady : (l.scene limits).Steady aim.held := steady_of_atCorner hw.sharp haim
    obtain ⟨hprobed, -⟩ := Scene.planLines_eq_ok hs hsteady (Trace.sound_empty _) hplan
    have hgained : ∀ axis, Gained (l.scene limits) box aim plan.achieved o.value axis := by
      intro axis
      apply gained_of_probed (haim axis) (hprobed axis)
      rw [hvalue]
      cases axis <;> rfl
    have hend := fun axis => (hgained axis).fits hs hsteady
    have hfar := fun axis => far_stretched hw.outer (hend axis)
    have htried : ∀ axis, Tried (growth.along axis) (o.value.along axis) := fun axis =>
      (hgained axis).tried hb hw.sharp (hin axis) (haim axis)
    have hflow : Rect.Reflowed l.floor box l.store.bounds (stretched box o.value) plan.patch.rects := by
      apply Scene.planLines_reflowed hs hsteady (Trace.sound_empty _) rfl hplan hw hfits
      · intro axis
        have hends := hw.outer.far axis
        rw [hfar, near_stretched, extent_stretched]
        omega
      · intro axis m hm
        exact (hgained axis).edges hs hw.outer (hbox.near_lt_far axis) (hb.near axis) (hend axis) hm
    rw [hlayout]
    refine ⟨.write hflow, htried, fun axis hahead => ?_⟩
    have hends := hb.ends (haim axis) (htried axis) hahead (hfar axis)
    refine ⟨hends, fun b hb' => ?_⟩
    rw [bounds_write hflow.length] at hb'
    have hwithin : Rect.Within axis limits b := Scene.planLines_within hs hsteady (Trace.sound_empty _) rfl hplan
      axis (fun m hm c => hm.within hs) (fun r hr => hb.within (haim axis) (hin axis r hr)) b hb'
    unfold Rect.Within at hwithin ⊢
    rwa [← hends.1, ← hends.2]

theorem atCorner_of_aims {start : Point} (h : Axis.all.foldlM (aimCorner box growth) (.start start) = .ok aim)
    (axis : Axis) : aim.AtCorner box growth axis := by
  rcases aims_eq_ok (fun _ _ _ => aimCorner_eq_ok) h axis with hstill | ⟨line, hline, rfl, hgoal, hfits⟩
  · exact .inl hstill
  · exact .inr ⟨hline, hgoal, hfits⟩

theorem held_start (start : Point) (axis : Axis) : (Aim.start start).held.along axis = none := by
  cases axis <;> rfl

/-- Only the far line of an anchor gives way, and only where the box shrinks. It is to go back. -/
theorem aimInward_eq_ok (h : l.aimInward box growth = .ok aim) (axis : Axis) : aim.held.along axis = none ∨
    ∃ anchor, l.anchorBounds? = some anchor ∧ aim.held.along axis = some (anchor.far axis) ∧
      growth.along axis < 0 ∧ anchor.far axis < box.far axis ∧ aim.goal.along axis < anchor.far axis := by
  unfold Layout.aimInward at h
  split at h
  · cases h
    exact .inl (held_start _ axis)
  · next position hposition =>
    obtain ⟨anchor, hget, hanchor⟩ := bounds_anchorPosition hposition
    rcases aims_eq_ok (fun _ _ _ => aimAnchorInward_eq_ok) h axis with ⟨hnone, -⟩ | ⟨line, hline, rfl, haimed⟩
    · exact .inl hnone
    · rw [hget] at hline haimed
      exact .inr ⟨anchor, hanchor, hline, haimed⟩

theorem aimOutward_eq_ok (h : l.aimOutward box growth = .ok aim) (axis : Axis) :
    (aim.held.along axis = none ∧ ∀ anchor, l.anchorBounds? = some anchor →
      ¬ (0 < growth.along axis ∧ anchor.far axis < box.far axis)) ∨
    ∃ anchor, l.anchorBounds? = some anchor ∧ aim.held.along axis = some (anchor.far axis) ∧
      aim.goal.along axis = anchor.far axis + growth.along axis ∧
        0 < growth.along axis ∧ anchor.far axis < box.far axis := by
  unfold Layout.aimOutward at h
  split at h
  · next hnone =>
    cases h
    refine .inl ⟨held_start _ axis, fun anchor hanchor => ?_⟩
    rw [hnone] at hanchor
    cases hanchor
  · next anchor hanchor =>
    rcases aims_eq_ok (fun _ _ _ => aimAnchorOutward_eq_ok) h axis with ⟨hnone, hno⟩ | ⟨line, hline, rfl, haimed⟩
    · refine .inl ⟨hnone, fun other hother => ?_⟩
      obtain rfl := Option.some.inj (hanchor.symm.trans hother)
      exact hno
    · exact .inr ⟨anchor, hanchor, hline, haimed⟩

/-- The anchor gives way inside the box, the far lines take the box along, and the anchor grows inside
what the box has become. -/
theorem commits_reflow (hbox : box.Solid) (hw : box.Woven l.store.bounds)
    (hin : ∀ axis, ∀ r ∈ l.store.bounds, Rect.Within axis box r) (hb : Bounding box limits growth)
    {inward corner outward : Aim} {first third : Outcome W Unit} {second : Outcome W Size}
    (hfirst : l.commitAim inward limits = .ok first)
    (hsecond : first.layout.commitCorner box growth corner limits = .ok second)
    (hthird : second.layout.commitAim outward limits = .ok third)
    (hinward : ∀ axis line, inward.held.along axis = some line → growth.along axis < 0)
    (hcorner : ∀ axis, corner.AtCorner box growth axis)
    (houtward : ∀ axis line, outward.held.along axis = some line → 0 < second.value.along axis)
    (hfits : (stretched box second.value).Fits) :
    Reflow l box third.layout (stretched box second.value) ∧
      (∀ axis, Tried (growth.along axis) (second.value.along axis)) ∧
        ∀ axis, 0 ≤ second.value.along axis →
          ∀ b ∈ third.layout.store.bounds, Rect.Within axis (stretched box second.value) b := by
  obtain ⟨hflow, hkept⟩ := commitAim_reflow hw hb.fits (fun axis line hline =>
    ⟨hb.near axis, hb.still axis (Int.le_of_lt (hinward axis line hline))⟩) hfirst
  obtain ⟨hflow', htried, hahead⟩ :=
    commitCorner_reflow hbox hflow.woven (fun axis => hkept axis (hin axis)) hb hcorner hfits hsecond
  obtain ⟨hflow'', hkept''⟩ := commitAim_reflow hflow'.woven hb.fits (fun axis line hline =>
    (hahead axis (Int.le_of_lt (houtward axis line hline))).1) hthird
  exact ⟨(hflow.trans hflow').trans hflow'', htried,
    fun axis hgain => hkept'' axis (hahead axis hgain).2⟩

end Layout

end Mosaic
