import Mathlib.Algebra.Order.Group.Unbundled.Int
import Mosaic.Edge.Grasp
import Mosaic.Proofs.Checked

/-! The lines under the pointer. Each is the far edge of some rectangle and none is that of the container,
and the pointer's offset is kept from each of them. -/
namespace Mosaic

theorem Coord.abs_eq_ok {a d : Int} (h : Coord.abs a = .ok d) : d = |a| := by
  unfold Coord.abs at h
  split at h
  · next hneg => rw [abs_of_neg hneg, (Coord.keep_eq_ok_iff.1 h).2]
  · next hpos =>
    cases h
    exact (abs_of_nonneg (by omega)).symm

namespace Grasp

variable {rects : List Rect} {container r : Rect} {pointer : Point} {t tolerance : Int} {axis : Axis}

/-- A line that may be offered: the far edge of some rectangle, but not of the container. -/
def IsOffered (rects : List Rect) (container : Rect) (axis : Axis) (line : Int) : Prop :=
  line ≠ container.far axis ∧ ∃ r ∈ rects, r.far axis = line

/-- Only offered lines have been found so far. -/
def Finds (rects : List Rect) (container : Rect) (best : Option Reach × Option Reach) : Prop :=
  (∀ found ∈ best.1, IsOffered rects container .x found.line) ∧
    ∀ found ∈ best.2, IsOffered rects container .y found.line

def distanceTo (pointer : Point) (axis : Axis) (r : Rect) : Int := |pointer.along axis - r.far axis|

/-- The far edge is no further than `t` from the pointer, is none of the container, and the pointer is no further than
`t` beyond its ends. -/
def IsWithin (container : Rect) (pointer : Point) (t : Int) (axis : Axis) (r : Rect) : Prop :=
  distanceTo pointer axis r ≤ t ∧ r.far axis ≠ container.far axis ∧
    r.near axis.cross - t ≤ pointer.along axis.cross ∧ pointer.along axis.cross ≤ r.far axis.cross + t

instance : Decidable (IsWithin container pointer t axis r) := inferInstanceAs (Decidable (_ ∧ _ ∧ _ ∧ _))

theorem reach?_eq_ite {found : Option Reach} (h : reach? container pointer t axis r = .ok found) :
    found = if IsWithin container pointer t axis r then some ⟨r.far axis, distanceTo pointer axis r⟩ else none := by
  obtain ⟨gap, hgap, h⟩ := Checked.bind_eq_ok.1 h
  obtain ⟨distance, hdistance, h⟩ := Checked.bind_eq_ok.1 h
  obtain ⟨-, rfl⟩ := Coord.sub_eq_ok_iff.1 hgap
  obtain rfl : distance = distanceTo pointer axis r := Coord.abs_eq_ok hdistance
  split at h
  · next hout =>
    rw [← Checked.pure_eq_ok.1 h, if_neg fun hwithin => ?_]
    exact hout.elim (fun hfar => absurd hwithin.1 (by omega)) hwithin.2.1
  · next hnear =>
    obtain ⟨hclose, hinner⟩ := not_or.1 hnear
    obtain ⟨first, hfirst, h⟩ := Checked.bind_eq_ok.1 h
    obtain ⟨-, rfl⟩ := Coord.sub_eq_ok_iff.1 hfirst
    split at h
    · next hbefore =>
      rw [← Checked.pure_eq_ok.1 h, if_neg fun hwithin => absurd hwithin.2.2.1 (by omega)]
    · obtain ⟨last, hlast, h⟩ := Checked.bind_eq_ok.1 h
      obtain ⟨-, rfl⟩ := Coord.add_eq_ok_iff.1 hlast
      split at h
      · next hafter =>
        rw [← Checked.pure_eq_ok.1 h, if_neg fun hwithin => absurd hwithin.2.2.2 (by omega)]
      · rw [← Checked.pure_eq_ok.1 h, if_pos ⟨by omega, hinner, by omega, by omega⟩]

theorem reach?_eq_ok (hr : r ∈ rects) {found : Option Reach}
    (h : reach? container pointer tolerance axis r = .ok found) :
    ∀ f ∈ found, IsOffered rects container axis f.line := by
  intro f hf
  rw [reach?_eq_ite h] at hf
  split at hf
  · next hwithin =>
    cases hf
    exact ⟨hwithin.2.1, r, hr, rfl⟩
  · cases hf

theorem mem_closer {best found : Option Reach} {f : Reach} (h : f ∈ closer best found) :
    f ∈ best ∨ f ∈ found := by
  unfold closer at h
  split at h
  · exact .inr h
  · exact .inl h
  · split at h
    · exact .inr h
    · exact .inl h

theorem Finds.consider (hr : r ∈ rects) {best found : Option Reach × Option Reach} (hbest : Finds rects container best)
    (h : consider container pointer tolerance best r = .ok found) : Finds rects container found := by
  obtain ⟨x, hx, h⟩ := Checked.bind_eq_ok.1 h
  obtain ⟨y, hy, h⟩ := Checked.bind_eq_ok.1 h
  cases Checked.pure_eq_ok.1 h
  constructor
  · intro f hf
    exact (mem_closer hf).elim (hbest.1 f) (reach?_eq_ok hr hx f)
  · intro f hf
    exact (mem_closer hf).elim (hbest.2 f) (reach?_eq_ok hr hy f)

theorem offsetFrom_eq_ok {place offset : Int} {line : Option Int} (h : offsetFrom place line = .ok offset) :
    offset = line.elim 0 (place - ·) := by
  cases line with
  | none =>
    cases h
    rfl
  | some line => exact (Coord.sub_eq_ok_iff.1 h).2.symm

/-- What is found under the pointer. -/
structure Located (rects : List Rect) (container : Rect) (pointer : Point) (g : Grasp) : Prop where
  offered : ∀ axis, ∀ line ∈ g.grip.along axis, IsOffered rects container axis line
  offset : ∀ axis, g.offset.along axis = (g.grip.along axis).elim 0 (pointer.along axis - ·)
  kind : g.kind = g.grip.kind

theorem mem_of_mem_offered {skip : Option Nat}
    (h : r ∈ rects.zipIdx.filterMap fun (s, i) => if skip = some i then none else some s) : r ∈ rects := by
  obtain ⟨⟨other, i⟩, hother, hskip⟩ := List.mem_filterMap.1 h
  have hmem : other ∈ rects := List.mem_of_getElem? (List.mem_zipIdx_iff_getElem?.1 hother)
  simp only at hskip
  split at hskip
  · cases hskip
  · cases hskip
    exact hmem

theorem locate_eq_ok {skip : Option Nat} {g : Grasp} (h : locate rects skip container pointer tolerance = .ok g) :
    Located rects container pointer g := by
  obtain ⟨⟨x, y⟩, hfound, h⟩ := Checked.bind_eq_ok.1 h
  obtain ⟨dx, hdx, h⟩ := Checked.bind_eq_ok.1 h
  obtain ⟨dy, hdy, h⟩ := Checked.bind_eq_ok.1 h
  cases Checked.pure_eq_ok.1 h
  have hfinds : Finds rects container (x, y) := by
    exact Checked.foldlM_invariant (fun r hr best found hbest hnext =>
      hbest.consider (mem_of_mem_offered hr) hnext) ⟨by simp, by simp⟩ hfound
  refine ⟨Axis.rec ?_ ?_, Axis.rec (offsetFrom_eq_ok hdx) (offsetFrom_eq_ok hdy), rfl⟩
  · intro line hline
    obtain ⟨f, hf, rfl⟩ := Option.map_eq_some_iff.1 hline
    exact hfinds.1 f hf
  · intro line hline
    obtain ⟨f, hf, rfl⟩ := Option.map_eq_some_iff.1 hline
    exact hfinds.2 f hf

end Grasp

end Mosaic
