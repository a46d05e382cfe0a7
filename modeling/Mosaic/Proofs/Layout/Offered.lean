import Mosaic.Proofs.Cover.Hull
import Mosaic.Proofs.Edge.Grasp
import Mosaic.Proofs.Layout.Staged

/-! Which of the lines under the pointer can be dragged. A line that is offered lies inside the container, and
plans move it, unless it is a near edge of the container: there it is offered when a region is collapsed onto
it, and every plan leaves it where it is. -/
namespace Mosaic.Layout

variable {W : Type} {l : Layout W} {pointer goal : Point} {grasp : Grasp} {axis : Axis} {line : Int}

theorem located_of_locate (h : l.locate pointer = .ok grasp) : grasp.Located l.store.bounds l.bounds pointer :=
  Grasp.locate_eq_ok h

/-- A line that does not take part in a plan stays. -/
theorem achieved_of_not_movable {held : Grip} {planned : Outcome W Plan} (h : l.plan held goal = .ok planned)
    (hnone : (l.scene l.bounds).movable held axis = none) :
    planned.value.achieved.along axis = held.along axis := by
  obtain ⟨-, trace, hplan⟩ := plan_eq_ok h
  obtain ⟨moved, -, -, -, hachieved⟩ := Scene.planFrom_eq_ok hplan
  rw [hachieved, if_pos hnone]

/-- What is offered under the pointer can be dragged, but for what is collapsed onto a near edge. Each line lies
inside the container or on its near edge. Inside, it takes part in plans. On the near edge there is a region
without extent, and all plans leave the line there. -/
theorem movable_of_locate (hregions : ∀ r ∈ l.store.bounds, r.Fits) (ht : l.bounds.Tile l.store.bounds)
    (h : l.locate pointer = .ok grasp) (hline : grasp.grip.along axis = some line) :
    (l.bounds.near axis ≤ line ∧ line < l.bounds.far axis) ∧
      (l.bounds.near axis < line → (l.scene l.bounds).movable grasp.grip axis = some line) ∧
      (line = l.bounds.near axis → (∃ r ∈ l.store.bounds, r.near axis = line ∧ r.far axis = line) ∧
        ∀ goal planned, l.plan grasp.grip goal = .ok planned →
          planned.value.achieved.along axis = some line) := by
  obtain ⟨hfar, r, hr, rfl⟩ := (located_of_locate h).offered axis line hline
  obtain ⟨hproper, hin⟩ := ht.1 r hr
  have hinside := hin.edges axis
  have hspan := Rect.near_le_far (hregions r hr) hproper axis
  have hlt : r.far axis < l.bounds.far axis := Int.lt_iff_le_and_ne.2 ⟨hinside.2, hfar⟩
  refine ⟨⟨Int.le_trans hinside.1 hspan, hlt⟩, fun hnear => ?_, fun hnear => ⟨?_, ?_⟩⟩
  · have hedge : (l.scene l.bounds).movable grasp.grip axis = some (r.edge axis .far) :=
      Scene.movable_of_edge hr hline ⟨hnear, hlt⟩
    exact hedge
  · exact ⟨r, hr, by omega, rfl⟩
  · intro goal planned hplan
    rw [achieved_of_not_movable hplan ?_, hline]
    refine Option.eq_none_iff_forall_ne_some.2 fun other hother => ?_
    obtain ⟨hheld, hinner, -⟩ := Scene.movable_eq_some hother
    cases hline.symm.trans hheld
    exact Int.lt_irrefl _ (hnear ▸ hinner)

theorem movable_of_locate_folded : ∃ grasp, folded.locate ⟨11, 5⟩ = .ok grasp ∧
    grasp.grip = .vertical 10 ∧ (folded.scene folded.bounds).movable grasp.grip .x = some 10 := by
  obtain ⟨grasp, h, hgrip⟩ : ∃ grasp, folded.locate ⟨11, 5⟩ = .ok grasp ∧ grasp.grip = .vertical 10 :=
    ⟨_, rfl, rfl⟩
  have hline : grasp.grip.along .x = some 10 := by rw [hgrip]; rfl
  exact ⟨grasp, h, hgrip, (movable_of_locate (by decide) Scene.foldedColumn_tile h hline).2.1 (by decide)⟩

/-- A column that has been dragged shut, and one that takes up the container. -/
def shut : Layout Unit where
  bounds := ⟨0, 0, 100, 100⟩
  store := ⟨[{ id := ⟨1⟩, widget := (), bounds := ⟨0, 0, 0, 100⟩ },
    { id := ⟨2⟩, widget := (), bounds := ⟨0, 0, 100, 100⟩ }], 3⟩

/-- Not all that is offered takes part in plans: the line of a column that is shut is offered, too. -/
theorem not_movable_of_locate : ¬ ∀ (l : Layout Unit) (pointer : Point) (grasp : Grasp) (axis : Axis) (line : Int),
    l.bounds.Solid → (∀ r ∈ l.store.bounds, r.Sharp) → l.bounds.Tile l.store.bounds →
    l.locate pointer = .ok grasp → grasp.grip.along axis = some line →
      (l.bounds.near axis < line ∧ line < l.bounds.far axis) ∧
        (l.scene l.bounds).movable grasp.grip axis = some line := by
  intro h
  have ht : shut.bounds.Tile shut.store.bounds :=
    Rect.tile_beside .x (by decide) ⟨⟨rfl, rfl⟩, ⟨rfl, rfl⟩⟩ rfl rfl rfl
  have hinside := (h shut ⟨1, 50⟩ _ .x 0 (by decide) (by decide) ht rfl rfl).1.1
  exact absurd hinside (by decide)

end Mosaic.Layout
