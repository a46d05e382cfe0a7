import Mosaic.Proofs.Cascade.Woven

/-! Plans leave every region its minimum. Where the regions cover a box and have their minimums,
they still do when the lines of the box are moved along. -/
namespace Mosaic

namespace Rect

variable {box box' : Rect} {mins : List Size} {rects bs : List Rect} {floor : Nat → Axis → Int}

def HasRoom (min : Size) (r : Rect) : Prop :=
  ∀ axis, 0 < min.along axis ∧ min.along axis ≤ r.extent axis

/-- The regions cover the box, and none of them is smaller than its minimum. -/
structure Roomy (box : Rect) (mins : List Size) (rects : List Rect) : Prop where
  outer : box.Solid
  tile : box.Tile rects
  solid : ∀ r ∈ rects, r.Solid
  room : ∀ (i : Nat) (r : Rect), rects[i]? = some r → ∃ min, mins[i]? = some min ∧ HasRoom min r

theorem Roomy.sharp (h : Roomy box mins rects) : ∀ r ∈ rects, r.Sharp := fun r hr => (h.solid r hr).sharp

theorem Roomy.reflow (h : Roomy box mins rects) (hflow : Reflowed floor box rects box' bs)
    (hfloor : ∀ (i : Nat) (min : Size), mins[i]? = some min → ∀ axis, min.along axis ≤ floor i axis) :
    Roomy box' mins bs := by
  have hall : ∀ (i : Nat) (b : Rect), bs[i]? = some b → b.Solid ∧ ∃ min, mins[i]? = some min ∧ HasRoom min b := by
    intro i b hb
    obtain ⟨r, hr, hkeeps, -⟩ := hflow.source hb
    obtain ⟨min, hmin, hroom⟩ := h.room i r hr
    have hsharp := hflow.woven.sharp b (List.mem_of_getElem? hb)
    have hkept : ∀ axis, 0 < min.along axis ∧ min.along axis ≤ b.extent axis := by
      intro axis
      obtain ⟨hpos, hle⟩ := hroom axis
      have hends := (h.solid r (List.mem_of_getElem? hr)).far axis
      have hends' := hsharp.far axis
      have hspan := hkeeps axis
      have hmins := hfloor i min hmin axis
      exact ⟨hpos, by omega⟩
    exact ⟨⟨hsharp.fits, fun axis => Int.lt_of_lt_of_le (hkept axis).1 (hkept axis).2, hsharp.far⟩, min, hmin, hkept⟩
  have hsolid : ∀ b ∈ bs, b.Solid := by
    intro b hb
    obtain ⟨i, hi⟩ := List.getElem?_of_mem hb
    exact (hall i b hi).1
  have hin : ∀ b ∈ bs, box'.Encloses b := fun b hb =>
    hflow.woven.paves.inside b hb (hsolid b hb).near_lt_far
  refine ⟨⟨hflow.woven.outer.fits, fun axis => ?_, hflow.woven.outer.far⟩,
    hflow.woven.paves.tile fun b hb => ⟨(hsolid b hb).isProper, hin b hb⟩, hsolid, fun i b hb => (hall i b hb).2⟩
  have hne : bs ≠ [] := by
    rw [← List.length_pos_iff, hflow.length, List.length_pos_iff]
    exact h.tile.ne_nil h.outer.covers_near
  obtain ⟨b, hb⟩ := List.exists_mem_of_ne_nil bs hne
  have hspan := (hsolid b hb).near_lt_far axis
  have hedges := (hin b hb).edges axis
  have hends := hflow.woven.outer.far axis
  omega

end Rect

theorem Scene.le_minAlong {scene : Scene} {i : Nat} {min : Size} (h : scene.mins[i]? = some min) (axis : Axis) :
    min.along axis ≤ scene.minAlong i axis := by
  simp only [minAlong, h]
  exact Int.le_max_left _ _

end Mosaic
