import Mosaic.Proofs.Cascade.Cover
import Mosaic.Proofs.Cover.Clean
import Mosaic.Proofs.Layout.Geometry

/-! Moves in two stages. The plan for an exact cover is an exact cover again, so the check that a patch
has to pass lets it through, and what is written then is what a drag writes at once. -/
namespace Mosaic.Layout

variable {W : Type} {l : Layout W} {held : Grip} {goal : Point} {patch : Patch} {planned : Outcome W Plan}

theorem plan_eq_ok (h : l.plan held goal = .ok planned) :
    planned.layout = l ∧ ∃ trace, (l.scene l.bounds).planFrom held goal {} = .ok (planned.value, trace) := by
  obtain ⟨⟨plan, trace⟩, hplan, h⟩ := Checked.bind_eq_ok.1 h
  cases Checked.pure_eq_ok.1 h
  exact ⟨rfl, trace, hplan⟩

theorem drag_of_plan (h : l.plan held goal = .ok planned) : ∃ dragged, l.drag held goal = .ok dragged ∧
    dragged.value = planned.value.achieved ∧ dragged.layout = l.write planned.value := by
  have hcommit : l.commitWithin held goal l.bounds = .ok {
      value := planned.value.achieved
      layout := l.write planned.value
      journal := planned.journal } := by
    rw [commitWithin, show l.planWithin held goal l.bounds = .ok planned from h]
    rfl
  exact ⟨_, by rw [drag, hcommit]; rfl, rfl, rfl⟩

/-- A patch that covers the container exactly is not refused. -/
theorem exists_applyPatch (hcontainer : l.bounds.Solid) (hlength : patch.rects.length = l.store.size)
    (hsharp : ∀ b ∈ patch.rects, b.Sharp) (ht : l.bounds.Tile patch.rects) :
    let placed := { l with store := l.store.place patch.rects }
    l.applyPatch patch = .ok { value := .ok (placed.store.changedSince l.store.bounds), layout := placed } := by
  let placements : List Placement :=
    (l.store.regions.zip patch.rects).map fun p => { id := p.1.id, bounds := p.2 }
  have hplaced : placements.map (·.bounds) = patch.rects := by
    rw [List.map_map]
    exact List.map_snd_zip (Nat.le_of_eq hlength)
  have hmin : ∀ p ∈ placements, p.min = none := List.forall_mem_map.2 fun _ _ => rfl
  obtain ⟨report, hcheck, hclear⟩ := Cover.check_of_tile_unlimited hcontainer ht hsharp hplaced hmin
  intro placed
  rw [applyPatch, if_neg (not_not_intro hlength)]
  change (Cover.check l.bounds placements >>= _) = _
  rw [hcheck]
  exact if_neg hclear

/-- Applying the patch of a plan is never refused where the regions cover the container exactly. It tells
the regions whose bounds have become different, and leaves what the drag leaves. -/
theorem applyPatch_plan (hids : l.store.ids.Nodup) (hcontainer : l.bounds.Solid)
    (hsharp : ∀ r ∈ l.store.bounds, r.Sharp) (ht : l.bounds.Tile l.store.bounds)
    (h : l.plan held goal = .ok planned) :
    ∃ applied dragged, planned.layout.applyPatch planned.value.patch = .ok applied ∧
      l.drag held goal = .ok dragged ∧
      applied.value = .ok (l.store.ids.filter fun id =>
        applied.layout.store.boundsOf? id ≠ l.store.boundsOf? id) ∧
      applied.layout = dragged.layout ∧ planned.value.achieved = dragged.value := by
  obtain ⟨hlayout, trace, hplan⟩ := plan_eq_ok h
  rw [hlayout]
  have hs : (l.scene l.bounds).Fits := ⟨hcontainer.fits, fun r hr => ⟨(hsharp r hr).fits, (hsharp r hr).proper⟩⟩
  obtain ⟨hlength, -, htile⟩ := Scene.planFrom_tile hs hcontainer.isProper ht hplan
  have hsize : planned.value.patch.rects.length = l.store.size := hlength.trans (List.length_map _)
  have happlied := exists_applyPatch hcontainer hsize (Scene.planFrom_sharp hs hsharp hplan) htile
  obtain ⟨dragged, hdragged, hachieved, hdrag⟩ := drag_of_plan h
  refine ⟨_, dragged, happlied, hdragged, ?_, hdrag.symm, hachieved.symm⟩
  exact congrArg Except.ok (RegionStore.changedSince_eq (write_rearranged l planned.value).ids hids)

/-- Two columns with an empty region on the line between them, of which the first is the anchor. -/
def folded : Layout Unit where
  settings := { sizeRange := some ⟨4, 4⟩, restoreOnCancel := true }
  bounds := ⟨0, 0, 30, 10⟩
  store := ⟨[{ id := ⟨1⟩, widget := (), bounds := ⟨0, 0, 10, 10⟩, dirty := false },
    { id := ⟨2⟩, widget := (), bounds := ⟨10, 0, 0, 10⟩ },
    { id := ⟨4⟩, widget := (), bounds := ⟨10, 0, 20, 10⟩, minSize := some ⟨6, 6⟩, dirty := false }], 5⟩
  anchor := some ⟨1⟩

theorem applyPatch_plan_folded : ∃ planned applied dragged,
    folded.plan (.vertical 10) ⟨28, 0⟩ = .ok planned ∧
      planned.layout.applyPatch planned.value.patch = .ok applied ∧
      applied.value = .ok [⟨1⟩, ⟨2⟩, ⟨4⟩] ∧ folded.drag (.vertical 10) ⟨28, 0⟩ = .ok dragged ∧
      dragged.value = .vertical 24 ∧ applied.layout = dragged.layout := by
  obtain ⟨planned, h, hachieved⟩ : ∃ planned, folded.plan (.vertical 10) ⟨28, 0⟩ = .ok planned ∧
    planned.value.achieved = .vertical 24 := ⟨_, rfl, by decide⟩
  obtain ⟨applied, dragged, happlied, hdragged, hchanged, hsame, hvalue⟩ :=
    applyPatch_plan (by decide) (by decide) (by decide) Scene.foldedColumn_tile h
  refine ⟨planned, applied, dragged, h, happlied, ?_, hdragged, hvalue ▸ hachieved, hsame⟩
  obtain rfl : dragged = _ := (Except.ok.inj hdragged).symm
  rw [hchanged, hsame]
  decide

/-- The regions are told apart and cover a container that has an area. -/
structure Covering (l : Layout Unit) : Prop where
  nodup : l.store.ids.Nodup
  container : l.bounds.Fits
  area : 0 < l.bounds.width ∧ 0 < l.bounds.height
  regions : ∀ r ∈ l.store.bounds, r.Fits
  tile : l.bounds.Tile l.store.bounds

/-- Plans for covers pass the check of a patch, where starts are what is asked of them besides. -/
def Stages (Start : Layout Unit → Prop) : Prop :=
  ∀ (l : Layout Unit) (held : Grip) (goal : Point) (planned : Outcome Unit Plan), Covering l → Start l →
    l.plan held goal = .ok planned → ∃ applied changed,
      planned.layout.applyPatch planned.value.patch = .ok applied ∧ applied.value = .ok changed

/-- Two columns up to the largest coordinate, which the widths of the container and of the last column
may go past. -/
def endColumns (settings : Settings) (width last : Int) : Layout Unit where
  settings
  bounds := ⟨10, 0, width, 10⟩
  store := ⟨[{ id := ⟨1⟩, widget := (), bounds := ⟨10, 0, 50, 10⟩ },
    { id := ⟨2⟩, widget := (), bounds := ⟨60, 0, last, 10⟩ }], 3⟩

theorem endColumns_covering (settings : Settings) {width last : Int}
    (hwidth : Coord.Fits width ∧ 2147483637 ≤ width) (hlast : Coord.Fits last ∧ 2147483587 ≤ last) :
    Covering (endColumns settings width last) := by
  have hbox : Rect.far ⟨10, 0, width, 10⟩ .x = 2147483647 := by
    simp only [Rect.far_eq, Rect.near, Rect.extent, Coord.saturate]
    omega
  have hend : Rect.far ⟨60, 0, last, 10⟩ .x = 2147483647 := by
    simp only [Rect.far_eq, Rect.near, Rect.extent, Coord.saturate]
    omega
  have hfirst : Rect.Fits ⟨10, 0, 50, 10⟩ := by decide
  have hsecond : Rect.Fits ⟨60, 0, last, 10⟩ :=
    ⟨(by decide : Coord.Fits 60), (by decide : Coord.Fits 0), hlast.1, (by decide : Coord.Fits 10)⟩
  have hproper : Rect.IsProper ⟨60, 0, last, 10⟩ :=
    ⟨Int.le_trans (by decide) hlast.2, (by decide : (0 : Int) ≤ 10)⟩
  refine ⟨(by decide : [(⟨1⟩ : RegionId), ⟨2⟩].Nodup), ?_, ?_, ?_, ?_⟩
  · exact ⟨(by decide : Coord.Fits 10), (by decide : Coord.Fits 0), hwidth.1, (by decide : Coord.Fits 10)⟩
  · exact ⟨Int.lt_of_lt_of_le (by decide) hwidth.2, (by decide : (0 : Int) < 10)⟩
  · exact List.forall_mem_cons.2 ⟨hfirst, List.forall_mem_singleton.2 hsecond⟩
  · exact Rect.tile_beside .x ⟨⟨hfirst, by decide⟩, hsecond, hproper⟩ ⟨⟨rfl, rfl⟩, ⟨rfl, rfl⟩⟩ rfl rfl
      (hend.trans hbox.symm)

/-- No far edge may be cut off, neither that of the container nor that of a region, also where the areas
add up. -/
theorem not_stages : ¬ Stages (fun l => (l.store.bounds.map (·.area)).sum = l.bounds.area) ∧
    ¬ Stages (fun l => ∀ r ∈ l.store.bounds, r.Sharp) ∧ ¬ Stages (fun l => l.bounds.Solid) := by
  refine ⟨fun h => ?_, fun h => ?_, fun h => ?_⟩
  · obtain ⟨applied, changed, happlied, hvalue⟩ := h (endColumns {} 2147483647 2147483597) (.vertical 60) ⟨70, 0⟩ _
      (endColumns_covering {} (by decide) (by decide)) (by decide) rfl
    cases happlied
    cases hvalue
  · obtain ⟨applied, changed, happlied, hvalue⟩ := h (endColumns {} 2147483647 2147483587) (.vertical 60) ⟨70, 0⟩ _
      (endColumns_covering {} (by decide) (by decide)) (by decide) rfl
    cases happlied
    cases hvalue
  · obtain ⟨applied, changed, happlied, hvalue⟩ := h (endColumns {} 2147483637 2147483647) .none ⟨70, 0⟩ _
      (endColumns_covering {} (by decide) (by decide)) (by decide) rfl
    cases happlied
    cases hvalue

end Mosaic.Layout
