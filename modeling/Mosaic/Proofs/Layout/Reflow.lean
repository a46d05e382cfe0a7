import Mosaic.Proofs.Cascade.Woven
import Mosaic.Proofs.Layout.Geometry

/-! Layouts whose regions pave a box. What plans and translations leave of them is stated alike: the
regions pave the box that is left, keep their minimums as a floor, and what is tied to its ends stays so. -/
namespace Mosaic

namespace Rect

variable {box r : Rect} {rects : List Rect} {dx dy : Int}

/-- How far an axis goes along when everything is moved. -/
def offset (dx dy : Int) : Axis → Int
  | .x => dx
  | .y => dy

@[simp] theorem extent_translate (r : Rect) (dx dy : Int) (axis : Axis) :
    (r.translate dx dy).extent axis = r.extent axis := by cases axis <;> rfl

theorem Sharp.translate (h : r.Sharp) (hfits : ∀ axis side, Coord.Fits (r.edge axis side + offset dx dy axis)) :
    r.translate dx dy = ⟨r.x + dx, r.y + dy, r.width, r.height⟩ ∧ (r.translate dx dy).Sharp ∧
      ∀ axis side, (r.translate dx dy).edge axis side = r.edge axis side + offset dx dy axis := by
  have hx : Coord.Fits (r.x + dx) := hfits .x .near
  have hy : Coord.Fits (r.y + dy) := hfits .y .near
  have hright : Coord.Fits (r.right + dx) := hfits .x .far
  have hbottom : Coord.Fits (r.bottom + dy) := hfits .y .far
  have hendX : r.right = r.x + r.width := h.far .x
  have hendY : r.bottom = r.y + r.height := h.far .y
  obtain ⟨-, -, hwidth, hheight⟩ := h.fits
  have hmoved : r.translate dx dy = ⟨r.x + dx, r.y + dy, r.width, r.height⟩ := by
    rw [Rect.translate, Coord.satAdd, Coord.satAdd, Coord.saturate_of_fits hx, Coord.saturate_of_fits hy]
  have hfar : ∀ axis, (r.translate dx dy).far axis = r.far axis + offset dx dy axis := by
    intro axis
    rw [hmoved]
    cases axis
    · change Coord.saturate (r.x + dx + r.width) = r.right + dx
      rw [Int.add_right_comm, ← hendX, Coord.saturate_of_fits hright]
    · change Coord.saturate (r.y + dy + r.height) = r.bottom + dy
      rw [Int.add_right_comm, ← hendY, Coord.saturate_of_fits hbottom]
  have hnear : ∀ axis, (r.translate dx dy).near axis = r.near axis + offset dx dy axis := by
    intro axis
    rw [hmoved]
    cases axis <;> rfl
  refine ⟨hmoved, ⟨?_, h.proper, fun axis => ?_⟩, fun axis side => ?_⟩
  · rw [hmoved]
    exact ⟨hx, hy, hwidth, hheight⟩
  · have hends := h.far axis
    rw [hfar, hnear, extent_translate]
    omega
  · cases side
    · exact hnear axis
    · exact hfar axis

section

variable (ht : Tile box rects) (hbox : box.Solid) (hsharp : ∀ r ∈ rects, r.Sharp)
  (hfits : ∀ axis side, Coord.Fits (box.edge axis side + offset dx dy axis))
include ht hsharp hfits

theorem Tile.translate_inside (hr : r ∈ rects) : (r.translate dx dy).Sharp ∧
    ∀ axis side, (r.translate dx dy).edge axis side = r.edge axis side + offset dx dy axis := by
  refine ((hsharp r hr).translate fun axis side => ?_).2
  have hspan := (hsharp r hr).near_le_far axis
  have hedges := (ht.1 r hr).2.edges axis
  apply (hfits axis .near).between (hfits axis .far)
  · cases side <;> simp only [edge] <;> omega
  · cases side <;> simp only [edge] <;> omega

theorem Tile.edges_translate :
    List.Forall₂ (fun r b => ∀ axis side, b.edge axis side = r.edge axis side + offset dx dy axis) rects
      (rects.map (·.translate dx dy)) :=
  List.forall₂_map_right_iff.2 (List.forall₂_same.2 fun _ hr => (ht.translate_inside hsharp hfits hr).2)

include hbox

theorem Tile.translate : (box.translate dx dy).Solid ∧ (∀ b ∈ rects.map (·.translate dx dy), b.Sharp) ∧
    Tile (box.translate dx dy) (rects.map (·.translate dx dy)) := by
  obtain ⟨-, hboxSharp, hboxEdges⟩ := hbox.sharp.translate hfits
  have hsolid : (box.translate dx dy).Solid := by
    refine ⟨hboxSharp.fits, fun axis => ?_, hboxSharp.far⟩
    rw [extent_translate]
    exact hbox.extent axis
  have hsharp' : ∀ b ∈ rects.map (·.translate dx dy), b.Sharp :=
    List.forall_mem_map.2 fun r hr => (ht.translate_inside hsharp hfits hr).1
  refine ⟨hsolid, hsharp', ?_⟩
  apply ht.carry_both (m := fun axis c => c + offset dx dy axis) ⟨hbox.fits, hbox.isProper⟩
    (fun r hr => (hsharp r hr).fits) hboxEdges (ht.edges_translate hsharp hfits) fun b hb =>
      ⟨(hsharp' b hb).fits, (hsharp' b hb).proper⟩
  refine List.forall_mem_map.2 fun r hr axis => ?_
  have hedges := (ht.translate_inside hsharp hfits hr).2 axis
  have hinside := (ht.1 r hr).2.edges axis
  have hboxNear := hboxEdges axis .near
  have hboxFar := hboxEdges axis .far
  have hnear := hedges .near
  have hfar := hedges .far
  simp only [edge] at *
  omega

/-- It keeps every span and every tie, too. -/
theorem Tile.reflowed_translate (floor : Nat → Axis → Int) :
    Reflowed floor box rects (box.translate dx dy) (rects.map (·.translate dx dy)) := by
  obtain ⟨hsolid, hsharp', htile⟩ := ht.translate hbox hsharp hfits
  have hedges := ht.edges_translate hsharp hfits
  refine ⟨List.length_map _, htile.woven hsolid hsharp', fun i r b hr hb => ?_⟩
  obtain ⟨r', hr', hedge⟩ := forall₂_of_getElem?_right hedges hb
  obtain rfl := Option.some.inj (hr.symm.trans hr')
  constructor
  · intro axis
    have hnear := hedge axis .near
    have hfar := hedge axis .far
    simp only [edge] at hnear hfar
    omega
  · intro axis htied
    exact htied.map (m := fun c => c + offset dx dy axis) (hedges.imp fun _ _ h => h axis)
      ((hbox.sharp.translate hfits).2.2 axis) (hedge axis)

end

end Rect

namespace Layout

variable {W : Type} {l l' l'' : Layout W} {box box' box'' limits target : Rect} {held : Grip} {goal : Point}
  {plan : Plan} {trace : Trace} {axis : Axis}

theorem Rearranged.mins (h : Rearranged l l') : l'.mins = l.mins := by
  have hmins : ∀ f : Option Size → Size,
      l'.store.regions.map (fun r => f r.minSize) = l.store.regions.map fun r => f r.minSize := by
    intro f
    have hsizes := congrArg (List.map f) h.minSizes
    rwa [List.map_map, List.map_map] at hsizes
  unfold Layout.mins
  rw [h.settings]
  cases l.settings.sizeRange with
  | none => exact hmins fun _ => .zero
  | some range => exact hmins fun size => size.getD range.min

theorem bounds_write (h : plan.patch.rects.length = l.store.bounds.length) :
    (l.write plan).store.bounds = plan.patch.rects := by
  apply RegionStore.bounds_place
  rw [h, RegionStore.bounds, List.length_map]

/-- The extent along the axis below which plans do not make the region at a position smaller. -/
def floor (l : Layout W) (i : Nat) (axis : Axis) : Int := (l.scene l.bounds).minAlong i axis

theorem Rearranged.floor (h : Rearranged l l') : l'.floor = l.floor := by
  funext i axis
  simp only [Layout.floor, Scene.minAlong, scene, h.mins]

/-- Lines of a box paved by the regions have been moved, and the box along with them. -/
structure Reflow (l : Layout W) (box : Rect) (l' : Layout W) (box' : Rect) : Prop where
  rearranged : Rearranged l l'
  rects : Rect.Reflowed l.floor box l.store.bounds box' l'.store.bounds

theorem Reflow.woven (h : Reflow l box l' box') : box'.Woven l'.store.bounds := h.rects.woven

theorem Reflow.refl (h : box.Woven l.store.bounds) : Reflow l box l box := ⟨.refl l, .refl _ h⟩

theorem Reflow.trans (h : Reflow l box l' box') (h' : Reflow l' box' l'' box'') : Reflow l box l'' box'' := by
  refine ⟨h.rearranged.trans h'.rearranged, h.rects.trans ?_⟩
  rw [← h.rearranged.floor]
  exact h'.rects

theorem Reflow.write (hrects : Rect.Reflowed l.floor box l.store.bounds box' plan.patch.rects) :
    Reflow l box (l.write plan) box' := by
  refine ⟨write_rearranged l plan, ?_⟩
  rwa [bounds_write hrects.length]

/-- A plan that moves no end of the box leaves the box in place, and the regions inside it there. -/
theorem planFrom_reflow (hw : box.Woven l.store.bounds) (hlimits : limits.Fits)
    (hplan : (l.scene limits).planFrom held goal {} = .ok (plan, trace))
    (hends : ∀ axis line, held.along axis = some line →
      limits.near axis = box.near axis ∧ limits.far axis = box.far axis) :
    Reflow l box (l.write plan) box ∧ ∀ axis, (∀ r ∈ l.store.bounds, Rect.Within axis box r) →
      ∀ b ∈ (l.write plan).store.bounds, Rect.Within axis box b := by
  have hs : (l.scene limits).Fits := Scene.fits_of_sharp hw.sharp hlimits
  have hheld : ∀ axis line, (l.scene limits).movable held axis = some line →
      limits.near axis = box.near axis ∧ limits.far axis = box.far axis :=
    fun axis line hline => hends axis line (Scene.movable_eq_some hline).1
  have hflow := Scene.planFrom_reflowed hs hplan hw hheld
  refine ⟨.write hflow, fun axis hin => ?_⟩
  rw [bounds_write hflow.length]
  exact Scene.planFrom_within hs hplan hheld hin

/-- Where the container is moved to, its far edges have to be coordinates. -/
def HasPlace (container target : Rect) : Prop :=
  target.Fits ∧ ∀ axis, Coord.Fits (target.near axis + container.extent axis)

theorem HasPlace.clamped {container : Rect} (h : HasPlace container target) :
    HasPlace container (.clamped target.x target.y target.width target.height) := by
  obtain ⟨⟨hx, hy, hw, hh⟩, hplace⟩ := h
  refine ⟨⟨hx, hy, ?_, ?_⟩, Axis.rec (hplace .x) (hplace .y)⟩
  · unfold Coord.Fits at hw ⊢
    simp only [Rect.clamped]
    omega
  · unfold Coord.Fits at hh ⊢
    simp only [Rect.clamped]
    omega

theorem HasPlace.edges {container : Rect} (h : HasPlace container target) (hbox : container.Solid) (axis : Axis)
    (side : Side) : Coord.Fits
      (container.edge axis side + Rect.offset (target.x - container.x) (target.y - container.y) axis) := by
  have hnear := h.1.near axis
  have hend := h.2 axis
  have hextent := hbox.far axis
  have hoffset : Rect.offset (target.x - container.x) (target.y - container.y) axis =
      target.near axis - container.near axis := by cases axis <;> rfl
  rw [hoffset]
  cases side
  · change Coord.Fits (container.near axis + (target.near axis - container.near axis))
    rwa [add_sub_cancel]
  · have hsum : container.far axis + (target.near axis - container.near axis) =
        target.near axis + container.extent axis := by omega
    change Coord.Fits (container.far axis + (target.near axis - container.near axis))
    rwa [hsum]

def movedTo (box target : Rect) : Rect := ⟨target.x, target.y, box.width, box.height⟩

theorem near_movedTo (box target : Rect) (axis : Axis) : (movedTo box target).near axis = target.near axis := by
  cases axis <;> rfl

theorem extent_movedTo (box target : Rect) (axis : Axis) : (movedTo box target).extent axis = box.extent axis := by
  cases axis <;> rfl

theorem shiftTo_reflow (hnear : ∀ axis, box.near axis = l.bounds.near axis) (hbox : box.Solid)
    (hsharp : ∀ r ∈ l.store.bounds, r.Sharp) (ht : box.Tile l.store.bounds) (hplace : HasPlace box target)
    (hs : l.shiftTo target = .ok l') : (movedTo box target).Solid ∧
      (movedTo box target).Tile l'.store.bounds ∧ Reflow l box l' (movedTo box target) ∧
        ∀ axis, Rect.MovedWith axis (· + (target.near axis - box.near axis)) l.store.bounds l'.store.bounds := by
  have hr := (shiftTo_placed hs).rearranged
  have hx : l.bounds.x = box.x := (hnear .x).symm
  have hy : l.bounds.y = box.y := (hnear .y).symm
  have hoffset : ∀ axis, target.near axis - box.near axis =
      Rect.offset (target.x - box.x) (target.y - box.y) axis := Axis.rec rfl rfl
  obtain ⟨dx, hdx, hs⟩ := Checked.bind_eq_ok.1 hs
  obtain ⟨dy, hdy, hs⟩ := Checked.bind_eq_ok.1 hs
  obtain ⟨-, rfl⟩ := Coord.sub_eq_ok_iff.1 hdx
  obtain ⟨-, rfl⟩ := Coord.sub_eq_ok_iff.1 hdy
  rw [hx, hy] at hs
  split at hs
  · next hstill =>
    cases Checked.pure_eq_ok.1 hs
    have hsame : movedTo box target = box := by
      rw [movedTo, show target.x = box.x by omega, show target.y = box.y by omega]
    rw [hsame]
    refine ⟨hbox, ht, .refl (ht.woven hbox hsharp), fun axis => ?_⟩
    refine (Rect.MovedWith.refl axis _).imp fun r b hrb side => ?_
    rw [hrb, hoffset, hstill.1, hstill.2]
    cases axis <;> exact (Int.add_zero _).symm
  · cases Checked.pure_eq_ok.1 hs
    have hfits := hplace.edges hbox
    obtain ⟨hbounds, -⟩ := hbox.sharp.translate hfits
    obtain ⟨hsolid, -, htile⟩ := ht.translate hbox hsharp hfits
    have hflow := ht.reflowed_translate hbox hsharp hfits l.floor
    have hedges := ht.edges_translate hsharp hfits
    rw [hbounds, add_sub_cancel, add_sub_cancel] at hsolid htile hflow
    refine ⟨hsolid, ?_, ⟨hr, ?_⟩, fun axis => ?_⟩
    · rwa [RegionStore.bounds_place_map]
    · rwa [RegionStore.bounds_place_map]
    · rw [RegionStore.bounds_place_map, hoffset]
      exact hedges.imp fun _ _ hrb => hrb axis

end Layout

end Mosaic
