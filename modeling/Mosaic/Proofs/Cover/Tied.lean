import Mathlib.Logic.Relation
import Mosaic.Proofs.Cover.Carry

/-! Lines that are tied to the ends of a box. From one end of an exact cover to the other the spans of
regions follow on each other, through every region that has an area. A move of lines takes such a chain
along, so what is tied stays inside the box. Only where an empty region lies is not settled by the cover:
it is tied when it lies on the lines of others. -/
namespace Mosaic.Rect

variable {axis : Axis} {box box' r b s : Rect} {rects bs : List Rect} {m : Int → Int} {c d : Int} {p : Point}

/-- Spans of the rectangles follow on each other from one line of the axis to another. -/
def Leads (axis : Axis) (rects : List Rect) : Int → Int → Prop :=
  Relation.ReflTransGen fun c d => ∃ r ∈ rects, r.near axis = c ∧ r.far axis = d

theorem Leads.le (h : Leads axis rects c d) (hrects : ∀ r ∈ rects, r.near axis ≤ r.far axis) : c ≤ d := by
  induction h with
  | refl => exact Int.le_refl _
  | tail _ hstep ih =>
    obtain ⟨r, hr, rfl, rfl⟩ := hstep
    exact Int.le_trans ih (hrects r hr)

theorem Leads.map (h : Leads axis rects c d) (hm : MovedWith axis m rects bs) : Leads axis bs (m c) (m d) := by
  induction h with
  | refl => exact .refl
  | tail _ hstep ih =>
    obtain ⟨r, hr, rfl, rfl⟩ := hstep
    obtain ⟨i, hi⟩ := List.getElem?_of_mem hr
    obtain ⟨b, hb, hedges⟩ := forall₂_of_getElem? hm hi
    exact ih.tail ⟨b, List.mem_of_getElem? hb, hedges .near, hedges .far⟩

/-- Spans lead from the one end of the box to the rectangle, and from there to the other end. -/
structure Tied (axis : Axis) (box : Rect) (rects : List Rect) (r : Rect) : Prop where
  before : Leads axis rects (box.near axis) (r.near axis)
  behind : Leads axis rects (r.far axis) (box.far axis)

/-- The rectangle lies inside the box along the axis. -/
def Within (axis : Axis) (box r : Rect) : Prop := box.near axis ≤ r.near axis ∧ r.far axis ≤ box.far axis

theorem Tied.within (h : Tied axis box rects r) (hrects : ∀ r ∈ rects, r.near axis ≤ r.far axis) :
    Within axis box r :=
  ⟨h.before.le hrects, h.behind.le hrects⟩

theorem Tied.map (h : Tied axis box rects r) (hm : MovedWith axis m rects bs)
    (hbox : ∀ side, box'.edge axis side = m (box.edge axis side))
    (hr : ∀ side, b.edge axis side = m (r.edge axis side)) : Tied axis box' bs b := by
  have hboxNear : box'.near axis = m (box.near axis) := hbox .near
  have hboxFar : box'.far axis = m (box.far axis) := hbox .far
  have hnear : b.near axis = m (r.near axis) := hr .near
  have hfar : b.far axis = m (r.far axis) := hr .far
  constructor
  · rw [hboxNear, hnear]
    exact h.before.map hm
  · rw [hboxFar, hfar]
    exact h.behind.map hm

/-- Moving lines of one axis keeps rectangles tied along either axis. -/
theorem Tied.carry {other : Axis} (h : Tied other box rects r) (hm : List.Forall₂ (Carried axis m) rects bs)
    (hbox : Carried axis m box box') (hr : Carried axis m r b) : Tied other box' bs b := by
  rcases other.eq_or_eq_cross axis with rfl | rfl
  · exact h.map (movedWith_of_carried hm) hbox.edges hr.edges
  · exact h.map (movedWith_cross hm) hbox.across.edge hr.across.edge

theorem Tile.eq_of_covers (h : Tile box rects) (hp : box.Covers p) (hr : r ∈ rects) (hs : s ∈ rects)
    (hrp : r.Covers p) (hsp : s.Covers p) : r = s := by
  have hone := h.2 p hp
  rw [List.countP_eq_length_filter, List.length_eq_one_iff] at hone
  obtain ⟨t, ht⟩ := hone
  have hmem : ∀ u ∈ rects, u.Covers p → u = t := fun u hu hup =>
    List.mem_singleton.1 (ht ▸ List.mem_filter.2 ⟨hu, decide_eq_true hup⟩)
  exact (hmem r hr hrp).trans (hmem s hs hsp).symm

section

variable (ht : Tile box rects) (hr : r ∈ rects) (harea : r.HasArea)
include ht hr harea

/-- Beside a rectangle with an area lies another one, unless its edge is that of the box. -/
theorem Tile.exists_beside {side : Side} (hne : r.edge axis side ≠ box.edge axis side) :
    ∃ s ∈ rects, s.HasArea ∧ s.edge axis side.flip = r.edge axis side := by
  have hedges := ((encloses_iff axis box r).1 (ht.1 r hr).2).1
  have hspan := harea axis
  -- The cells of the row just beyond the edge and just before it tell the two apart.
  obtain ⟨beyond, last, hbeyond, hlast, hout, hmeet⟩ : ∃ beyond last,
      (box.near axis ≤ beyond ∧ beyond < box.far axis) ∧ (r.near axis ≤ last ∧ last < r.far axis) ∧
        ¬ (r.near axis ≤ beyond ∧ beyond < r.far axis) ∧
          ∀ s : Rect, s.near axis ≤ beyond ∧ beyond < s.far axis →
            ¬ (s.near axis ≤ last ∧ last < s.far axis) → s.edge axis side.flip = r.edge axis side := by
    cases side
    · simp only [edge, Side.flip] at hne ⊢
      exact ⟨r.near axis - 1, r.near axis, by omega, by omega, by omega, fun s hs hs' => by omega⟩
    · simp only [edge, Side.flip] at hne ⊢
      exact ⟨r.far axis, r.far axis - 1, by omega, by omega, by omega, fun s hs hs' => by omega⟩
  -- The row of the first cell runs through the rectangle, and so through the box.
  have hacross := ((encloses_iff axis box r).1 (ht.1 r hr).2).2
  have hcell : ∀ (t : Rect) c, t.Covers (axis.point c (r.near axis.cross)) ↔
      t.OnRow axis (r.near axis.cross) ∧ t.near axis ≤ c ∧ c < t.far axis := by
    intro t c
    rw [covers_iff axis, Axis.along_point, Axis.along_cross_point]
  have hrow : r.OnRow axis (r.near axis.cross) := ⟨Int.le_refl _, harea axis.cross⟩
  have hbox : box.OnRow axis (r.near axis.cross) :=
    ⟨hacross.1, Int.lt_of_lt_of_le hrow.2 hacross.2⟩
  obtain ⟨s, hs, hcover⟩ := ht.exists_covers ((hcell box beyond).2 ⟨hbox, hbeyond⟩)
  obtain ⟨hsrow, hsbeyond⟩ := (hcell s beyond).1 hcover
  refine ⟨s, hs, hcover.hasArea, hmeet s hsbeyond fun hslast => hout ?_⟩
  have hcovered : box.Covers (axis.point last (r.near axis.cross)) :=
    (hcell box last).2 ⟨hbox, by omega⟩
  obtain rfl := ht.eq_of_covers hcovered hr hs ((hcell r last).2 ⟨hrow, hlast⟩) ((hcell s last).2 ⟨hsrow, hslast⟩)
  exact hsbeyond

end

theorem Tile.leads_behind (ht : Tile box rects) (hr : r ∈ rects) (harea : r.HasArea) :
    Leads axis rects (r.far axis) (box.far axis) := by
  have hin := ((encloses_iff axis box r).1 (ht.1 r hr).2).1
  -- Each rectangle on the way leaves less of the box behind it.
  induction hn : (box.far axis - r.far axis).toNat using Nat.strong_induction_on generalizing r with
  | _ n ih =>
    by_cases hend : r.edge axis .far = box.edge axis .far
    · rw [show r.far axis = box.far axis from hend]
      exact .refl
    · obtain ⟨s, hs, hsarea, hnext⟩ := ht.exists_beside hr harea hend
      have hspan := hsarea axis
      have hsin := ((encloses_iff axis box s).1 (ht.1 s hs).2).1
      simp only [edge, Side.flip] at hend hnext
      exact .head ⟨s, hs, hnext, rfl⟩ (ih _ (by omega) hs hsarea hsin rfl)

theorem Tile.leads_before (ht : Tile box rects) (hr : r ∈ rects) (harea : r.HasArea) :
    Leads axis rects (box.near axis) (r.near axis) := by
  have hin := ((encloses_iff axis box r).1 (ht.1 r hr).2).1
  induction hn : (r.near axis - box.near axis).toNat using Nat.strong_induction_on generalizing r with
  | _ n ih =>
    by_cases hend : r.edge axis .near = box.edge axis .near
    · rw [show r.near axis = box.near axis from hend]
      exact .refl
    · obtain ⟨s, hs, hsarea, hnext⟩ := ht.exists_beside hr harea hend
      have hspan := hsarea axis
      have hsin := ((encloses_iff axis box s).1 (ht.1 s hs).2).1
      simp only [edge, Side.flip] at hend hnext
      exact .tail (ih _ (by omega) hs hsarea hsin rfl) ⟨s, hs, rfl, hnext⟩

/-- In an exact cover, every rectangle with an area is tied to the ends of the box. -/
theorem Tile.tied (ht : Tile box rects) (hr : r ∈ rects) (harea : r.HasArea) : Tied axis box rects r :=
  ⟨ht.leads_before hr harea, ht.leads_behind hr harea⟩

theorem Tile.tied_of_line (ht : Tile box rects) (hs : s ∈ rects) (harea : s.HasArea) (side : Side)
    (hr : ∀ other, r.edge axis other = s.edge axis side) : Tied axis box rects r := by
  have hnear : r.near axis = s.edge axis side := hr .near
  have hfar : r.far axis = s.edge axis side := hr .far
  have hspan : Leads axis rects (s.near axis) (s.far axis) := .single ⟨s, hs, rfl, rfl⟩
  constructor
  · rw [hnear]
    cases side
    · exact ht.leads_before hs harea
    · exact (ht.leads_before hs harea).trans hspan
  · rw [hfar]
    cases side
    · exact hspan.trans (ht.leads_behind hs harea)
    · exact ht.leads_behind hs harea

theorem Tile.leads (ht : Tile box rects) (hbox : box.Solid) : Leads axis rects (box.near axis) (box.far axis) := by
  obtain ⟨r, hr, hcover⟩ := ht.exists_covers hbox.covers_near
  have harea := hcover.hasArea
  exact (ht.leads_before hr harea).trans (.head ⟨r, hr, rfl, rfl⟩ (ht.leads_behind hr harea))

theorem Tile.exists_far (ht : Tile box rects) (hbox : box.Solid) (axis : Axis) :
    ∃ r ∈ rects, r.far axis = box.far axis := by
  rcases Relation.ReflTransGen.cases_tail (ht.leads hbox) with hends | ⟨c, -, r, hr, -, hfar⟩
  · exact absurd hends (Int.ne_of_gt (hbox.near_lt_far axis))
  · exact ⟨r, hr, hfar⟩

end Mosaic.Rect
