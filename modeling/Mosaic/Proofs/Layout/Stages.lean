import Mosaic.Proofs.Cascade.Drawn
import Mosaic.Proofs.Cascade.Transfer
import Mosaic.Proofs.Layout.Course

/-! What the stages of following a target do to the lines of an axis. The anchor gives way, the far line takes the
container along, and the anchor gets what was gained: each time one line is moved toward a goal, as far as it was
found to go, and all edges go along with the lines. -/
namespace Mosaic

namespace Layout

variable {W : Type} {l : Layout W} {box limits : Rect} {growth : Size} {aim : Aim}

theorem Rearranged.anchor_moved {l' : Layout W} {axis : Axis} {m : Int → Int} (h : Rearranged l l')
    (hm : Rect.MovedWith axis m l.store.bounds l'.store.bounds) {anchor : Rect} (ha : l.anchorBounds? = some anchor) :
    ∃ anchor', l'.anchorBounds? = some anchor' ∧ ∀ side, anchor'.edge axis side = m (anchor.edge axis side) := by
  rw [anchorBounds?_eq] at ha ⊢
  obtain ⟨position, hposition, hget⟩ := Option.bind_eq_some_iff.1 ha
  obtain ⟨anchor', hget', hedges⟩ := forall₂_of_getElem? hm hget
  rw [h.anchorPosition?, hposition]
  exact ⟨anchor', hget', hedges⟩

theorem Rearranged.anchor_source {l' : Layout W} {axis : Axis} {m : Int → Int} (h : Rearranged l l')
    (hm : Rect.MovedWith axis m l.store.bounds l'.store.bounds) {anchor' : Rect}
    (ha : l'.anchorBounds? = some anchor') :
    ∃ anchor, l.anchorBounds? = some anchor ∧ ∀ side, anchor'.edge axis side = m (anchor.edge axis side) := by
  rw [anchorBounds?_eq] at ha ⊢
  obtain ⟨position, hposition, hget'⟩ := Option.bind_eq_some_iff.1 ha
  obtain ⟨anchor, hget, hedges⟩ := forall₂_of_getElem?_right hm hget'
  rw [← h.anchorPosition?, hposition]
  exact ⟨anchor, hget, hedges⟩

theorem commitAim_drawn (hs : (l.scene limits).Fits) {o : Outcome W Unit} (ho : l.commitAim aim limits = .ok o)
    (axis : Axis) : ∃ achieved m, (l.scene limits).Drawn axis ((l.scene limits).movable aim.held axis)
      (aim.goal.along axis) achieved m o.layout.store.bounds := by
  unfold Layout.commitAim at ho
  split at ho
  · next hempty =>
    cases ho
    have hnone : (l.scene limits).movable aim.held axis = none := by
      rw [Scene.movable, along_eq_none hempty]
      rfl
    rw [hnone]
    exact ⟨none, id, .still _ axis _⟩
  · obtain ⟨moved, hmoved, ho⟩ := Checked.bind_eq_ok.1 ho
    cases Checked.pure_eq_ok.1 ho
    obtain ⟨plan, trace, hplan, -, hlayout⟩ := commitWithin_eq_ok hmoved
    obtain ⟨m, hm, -⟩ := Scene.planFrom_drawn hs hplan axis
    refine ⟨((l.scene limits).movable aim.held axis).map m, m, ?_⟩
    rwa [hlayout, bounds_write hm.edges.length_eq.symm]

theorem commitCorner_drawn (hs : (l.scene limits).Fits) (hsharp : ∀ r ∈ l.store.bounds, r.Sharp)
    (haim : ∀ axis, aim.AtCorner box growth axis) {o : Outcome W Size}
    (ho : l.commitCorner box growth aim limits = .ok o) (axis : Axis) : ∃ achieved m,
      (l.scene limits).Drawn axis (aim.held.along axis) (aim.goal.along axis) achieved m o.layout.store.bounds ∧
        o.value.along axis = grown (box.far axis) (growth.along axis) achieved := by
  rcases commitCorner_eq_ok ho with ⟨hempty, hlayout, hvalue⟩ | ⟨plan, trace, hplan, hlayout, hvalue⟩
  · rw [along_eq_none hempty, hlayout, hvalue]
    exact ⟨none, id, .still _ axis _, rfl⟩
  · obtain ⟨m, hm⟩ := Scene.planLines_drawn hs (steady_of_atCorner hsharp haim) (Trace.sound_empty _) rfl hplan axis
    refine ⟨plan.achieved.along axis, m, ?_, ?_⟩
    · rwa [hlayout, bounds_write hm.edges.length_eq.symm]
    · rw [hvalue]
      cases axis <;> rfl

namespace Course

variable {target : Rect} {o : Outcome W Rect} {shifted : Layout W} {inward corner outward : Aim}
  {first third : Outcome W Unit} {second : Outcome W Size}
  (h : Course l box target o shifted limits growth inward corner outward first third second)
include h

theorem far_moved (hbox : box.Solid) (axis : Axis) :
    (movedTo box target).far axis = box.far axis + (target.near axis - box.near axis) := by
  rw [h.solid.far, hbox.far, near_movedTo, extent_movedTo]
  omega

theorem fits : (shifted.scene limits).Fits := Scene.fits_of_sharp h.moved.woven.sharp h.bounding.fits

theorem first_reflow : Reflow shifted (movedTo box target) first.layout (movedTo box target) ∧
    ∀ axis, ∀ r ∈ first.layout.store.bounds, Rect.Within axis (movedTo box target) r := by
  obtain ⟨hflow, hkept⟩ := commitAim_reflow h.moved.woven h.bounding.fits (fun axis line hline => by
    rcases aimInward_eq_ok h.inward_eq axis with hnone | ⟨anchor, -, -, hshrinks, -⟩
    · rw [hnone] at hline
      cases hline
    · exact ⟨h.bounding.near axis, h.bounding.still axis (Int.le_of_lt hshrinks)⟩) h.first_eq
  exact ⟨hflow, fun axis => hkept axis fun r hr => (h.tile.1 r hr).2.edges axis⟩

theorem fits_first : (first.layout.scene limits).Fits :=
  Scene.fits_of_sharp h.first_reflow.1.woven.sharp h.bounding.fits

theorem second_reflow : Reflow first.layout (movedTo box target) second.layout
    (stretched (movedTo box target) second.value) :=
  (commitCorner_reflow h.solid h.first_reflow.1.woven h.first_reflow.2 h.bounding h.corner_at
    h.reflow.woven.outer.fits h.second_eq).1

theorem fits_second : (second.layout.scene limits).Fits :=
  Scene.fits_of_sharp h.second_reflow.woven.sharp h.bounding.fits

/-- The anchor only gives way along an axis on which the box is to shrink, and only gets something where it has grown. -/
theorem inward_none {axis : Axis} (hforth : 0 ≤ growth.along axis) : inward.held.along axis = none := by
  rcases aimInward_eq_ok h.inward_eq axis with hnone | ⟨anchor, -, -, hshrinks, -⟩
  · exact hnone
  · exact absurd hshrinks (Int.not_lt.2 hforth)

theorem outward_none {axis : Axis} (hback : second.value.along axis ≤ 0) : outward.held.along axis = none := by
  rcases aimOutward_eq_ok h.outward_eq axis with ⟨hnone, -⟩ | ⟨anchor, -, -, -, hgrows, -⟩
  · exact hnone
  · exact absurd hgrows (Int.not_lt.2 hback)

end Course

end Layout

end Mosaic
