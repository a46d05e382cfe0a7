import Mathlib.Data.List.Induction
import Mosaic.Proofs.Edge.Grasp

/-! On each axis the closest edge within reach of the pointer is found, and of equally close ones that of the first
rectangle. Nothing is found only where no edge is within reach. -/
namespace Mosaic.Grasp

variable {rects : List Rect} {skip : Option Nat} {container a r : Rect} {pointer : Point} {t tolerance : Int}
  {axis : Axis} {i : Nat} {best found : Option Reach}

/-- Position `i` is not skipped, and the rectangle there has its far edge within reach. -/
structure IsEligible (rects : List Rect) (skip : Option Nat) (container : Rect) (pointer : Point) (t : Int)
    (axis : Axis) (i : Nat) (r : Rect) : Prop where
  get : rects[i]? = some r
  kept : skip ≠ some i
  within : IsWithin container pointer t axis r

/-- No eligible edge is closer, and none before this one is as close. -/
structure IsClosest (rects : List Rect) (skip : Option Nat) (container : Rect) (pointer : Point) (t : Int)
    (axis : Axis) (i : Nat) (r : Rect) : Prop extends IsEligible rects skip container pointer t axis i r where
  least : ∀ j s, IsEligible rects skip container pointer t axis j s →
    distanceTo pointer axis r ≤ distanceTo pointer axis s
  first : ∀ j s, IsEligible rects skip container pointer t axis j s → j < i →
    distanceTo pointer axis r < distanceTo pointer axis s

/-- What is kept of the rectangles that have been considered. -/
inductive Keeps (rects : List Rect) (skip : Option Nat) (container : Rect) (pointer : Point) (t : Int) (axis : Axis) :
    Option Reach → Prop
  | nothing (h : ∀ i r, ¬ IsEligible rects skip container pointer t axis i r) :
    Keeps rects skip container pointer t axis none
  | closest {i : Nat} {r : Rect} (h : IsClosest rects skip container pointer t axis i r) :
    Keeps rects skip container pointer t axis (some ⟨r.far axis, distanceTo pointer axis r⟩)

theorem isEligible_concat : IsEligible (rects ++ [a]) skip container pointer t axis i r ↔
    IsEligible rects skip container pointer t axis i r ∨
      i = rects.length ∧ r = a ∧ skip ≠ some rects.length ∧ IsWithin container pointer t axis a := by
  constructor
  · rintro ⟨hget, hkept, hwithin⟩
    rcases Nat.lt_trichotomy i rects.length with hlt | rfl | hgt
    · exact .inl ⟨List.getElem?_append_left hlt ▸ hget, hkept, hwithin⟩
    · obtain rfl : a = r := by simpa using hget
      exact .inr ⟨rfl, rfl, hkept, hwithin⟩
    · rw [List.getElem?_eq_none (by rw [List.length_append]; exact hgt)] at hget
      cases hget
  · rintro (⟨hget, hkept, hwithin⟩ | ⟨rfl, rfl, hkept, hwithin⟩)
    · exact ⟨List.getElem?_append_left (List.getElem?_eq_some_iff.1 hget).1 ▸ hget, hkept, hwithin⟩
    · exact ⟨List.getElem?_concat_length, hkept, hwithin⟩

theorem IsEligible.lt_length (h : IsEligible rects skip container pointer t axis i r) : i < rects.length :=
  (List.getElem?_eq_some_iff.1 h.get).1

theorem isClosest_last (hkept : skip ≠ some rects.length) (hwithin : IsWithin container pointer t axis a)
    (h : ∀ j s, IsEligible rects skip container pointer t axis j s →
      distanceTo pointer axis a < distanceTo pointer axis s) :
    IsClosest (rects ++ [a]) skip container pointer t axis rects.length a := by
  refine ⟨isEligible_concat.2 (.inr ⟨rfl, rfl, hkept, hwithin⟩), fun j s hj => ?_, fun j s hj hlt => ?_⟩ <;>
    obtain hj | ⟨rfl, rfl, -⟩ := isEligible_concat.1 hj
  · exact (h j s hj).le
  · exact le_refl _
  · exact h j s hj
  · exact absurd hlt (Nat.lt_irrefl _)

theorem IsClosest.concat (h : IsClosest rects skip container pointer t axis i r)
    (ha : skip ≠ some rects.length → IsWithin container pointer t axis a →
      distanceTo pointer axis r ≤ distanceTo pointer axis a) :
    IsClosest (rects ++ [a]) skip container pointer t axis i r := by
  refine ⟨isEligible_concat.2 (.inl h.toIsEligible), fun j s hj => ?_, fun j s hj hlt => ?_⟩ <;>
    obtain hj | ⟨rfl, rfl, hkept, hwithin⟩ := isEligible_concat.1 hj
  · exact h.least j s hj
  · exact ha hkept hwithin
  · exact h.first j s hj hlt
  · exact absurd h.lt_length (Nat.lt_asymm hlt)

namespace Keeps

theorem pass (h : Keeps rects skip container pointer t axis best)
    (ha : skip ≠ some rects.length → ¬ IsWithin container pointer t axis a) :
    Keeps (rects ++ [a]) skip container pointer t axis best := by
  cases h with
  | nothing h =>
    refine .nothing fun i r hi => ?_
    obtain hi | ⟨-, -, hkept, hwithin⟩ := isEligible_concat.1 hi
    · exact h i r hi
    · exact ha hkept hwithin
  | closest h => exact .closest (h.concat fun hkept hwithin => absurd hwithin (ha hkept))

theorem take (h : Keeps rects skip container pointer t axis best) (hkept : skip ≠ some rects.length)
    (hwithin : IsWithin container pointer t axis a) :
    Keeps (rects ++ [a]) skip container pointer t axis
      (closer best (some ⟨a.far axis, distanceTo pointer axis a⟩)) := by
  cases h with
  | nothing h => exact .closest (isClosest_last hkept hwithin fun j s hj => absurd hj (h j s))
  | closest h =>
    rw [closer]
    split
    · next hcloser =>
      exact .closest (isClosest_last hkept hwithin fun j s hj => lt_of_lt_of_le hcloser (h.least j s hj))
    · next hfar => exact .closest (h.concat fun _ _ => not_lt.1 hfar)

theorem step (h : Keeps rects skip container pointer t axis best) (hkept : skip ≠ some rects.length)
    (hfound : reach? container pointer t axis a = .ok found) :
    Keeps (rects ++ [a]) skip container pointer t axis (closer best found) := by
  rw [reach?_eq_ite hfound]
  split
  · next hwithin => exact h.take hkept hwithin
  · next hout =>
    have hsame : closer best none = best := by cases best <;> rfl
    rw [hsame]
    exact h.pass fun _ => hout

theorem offered {found : Option Reach × Option Reach}
    (h : (rects.zipIdx.filterMap fun (r, i) => if skip = some i then none else some r).foldlM
      (consider container pointer t) (none, none) = .ok found) :
    Keeps rects skip container pointer t .x found.1 ∧ Keeps rects skip container pointer t .y found.2 := by
  induction rects using List.reverseRecOn generalizing found with
  | nil =>
    cases h
    have hnone : ∀ axis i r, ¬ IsEligible [] skip container pointer t axis i r := fun _ _ _ hnil => by cases hnil.get
    exact ⟨.nothing (hnone .x), .nothing (hnone .y)⟩
  | append_singleton rects a ih =>
    rw [List.zipIdx_append, List.filterMap_append, List.foldlM_append] at h
    obtain ⟨before, hbefore, h⟩ := Checked.bind_eq_ok.1 h
    obtain ⟨hx, hy⟩ := ih hbefore
    by_cases hskip : skip = some rects.length
    · obtain rfl : before = found := by simpa [hskip, Checked.pure_eq_ok] using h
      exact ⟨hx.pass fun hkept => absurd hskip hkept, hy.pass fun hkept => absurd hskip hkept⟩
    · have hlast : consider container pointer t before a = .ok found := by simpa [hskip] using h
      obtain ⟨x, hreachx, hlast⟩ := Checked.bind_eq_ok.1 hlast
      obtain ⟨y, hreachy, hlast⟩ := Checked.bind_eq_ok.1 hlast
      cases Checked.pure_eq_ok.1 hlast
      exact ⟨hx.step hskip hreachx, hy.step hskip hreachy⟩

end Keeps

theorem IsClosest.unique {j : Nat} {s : Rect} (hr : IsClosest rects skip container pointer t axis i r)
    (hs : IsClosest rects skip container pointer t axis j s) : r = s := by
  rcases Nat.lt_trichotomy i j with hlt | rfl | hgt
  · exact absurd (hs.first i r hr.toIsEligible hlt) (not_lt.2 (hr.least j s hs.toIsEligible))
  · exact Option.some.inj (hr.get.symm.trans hs.get)
  · exact absurd (hr.first j s hs.toIsEligible hgt) (not_lt.2 (hs.least i r hr.toIsEligible))

theorem Keeps.line_eq_some_iff (h : Keeps rects skip container pointer t axis best) {line : Int} :
    best.map (·.line) = some line ↔
      ∃ i r, IsClosest rects skip container pointer t axis i r ∧ r.far axis = line := by
  cases h with
  | nothing h => exact iff_of_false nofun fun ⟨i, r, hr, _⟩ => h i r hr.toIsEligible
  | closest h =>
    constructor
    · intro hline
      exact ⟨_, _, h, Option.some.inj hline⟩
    · rintro ⟨j, s, hs, rfl⟩
      rw [h.unique hs]
      rfl

theorem Keeps.line_eq_none_iff (h : Keeps rects skip container pointer t axis best) :
    best.map (·.line) = none ↔ ∀ i r, ¬ IsEligible rects skip container pointer t axis i r := by
  cases h with
  | nothing h => exact iff_of_true rfl h
  | closest h => exact iff_of_false nofun fun hnone => hnone _ _ h.toIsEligible

theorem keeps_locate {g : Grasp} (h : locate rects skip container pointer tolerance = .ok g) (axis : Axis) :
    ∃ best, Keeps rects skip container pointer (max tolerance 0) axis best ∧ g.grip.along axis = best.map (·.line) := by
  obtain ⟨⟨x, y⟩, hfound, h⟩ := Checked.bind_eq_ok.1 h
  obtain ⟨dx, -, h⟩ := Checked.bind_eq_ok.1 h
  obtain ⟨dy, -, h⟩ := Checked.bind_eq_ok.1 h
  cases Checked.pure_eq_ok.1 h
  have hkeeps := Keeps.offered hfound
  cases axis with
  | x => exact ⟨x, hkeeps.1, rfl⟩
  | y => exact ⟨y, hkeeps.2, rfl⟩

/-- On each axis the line is the closest eligible edge, and there is none where no edge is eligible. The pointer's
offset from the line is kept. -/
theorem locate_closest {g : Grasp} (h : locate rects skip container pointer tolerance = .ok g) (axis : Axis) :
    (∀ line, g.grip.along axis = some line ↔
      ∃ i r, IsClosest rects skip container pointer (max tolerance 0) axis i r ∧ r.far axis = line) ∧
    (g.grip.along axis = none ↔ ∀ i r, ¬ IsEligible rects skip container pointer (max tolerance 0) axis i r) ∧
    g.offset.along axis = (g.grip.along axis).elim 0 (pointer.along axis - ·) := by
  obtain ⟨best, hbest, halong⟩ := keeps_locate h axis
  refine ⟨fun line => ?_, ?_, (locate_eq_ok h).offset axis⟩
  · rw [halong, hbest.line_eq_some_iff]
  · rw [halong, hbest.line_eq_none_iff]

/-- Three columns, of which the one in the middle is as narrow as twice the tolerance. -/
def narrowMiddle : List Rect := [⟨0, 0, 10, 100⟩, ⟨10, 0, 4, 100⟩, ⟨14, 0, 86, 100⟩]

theorem locate_closest_narrowMiddle :
    locate narrowMiddle none ⟨0, 0, 100, 100⟩ ⟨12, 50⟩ 2 = .ok ⟨.vertical 10, ⟨2, 0⟩, .horizontal⟩ ∧
    (∃ i r, IsClosest narrowMiddle none ⟨0, 0, 100, 100⟩ ⟨12, 50⟩ 2 .x i r ∧ r.far .x = 10) ∧
    (∀ i r, ¬ IsEligible narrowMiddle none ⟨0, 0, 100, 100⟩ ⟨12, 50⟩ 2 .y i r) ∧
    locate narrowMiddle (some 0) ⟨0, 0, 100, 100⟩ ⟨12, 50⟩ 2 = .ok ⟨.vertical 14, ⟨-2, 0⟩, .horizontal⟩ ∧
    ∃ i r, IsClosest narrowMiddle (some 0) ⟨0, 0, 100, 100⟩ ⟨12, 50⟩ 2 .x i r ∧ r.far .x = 14 := by
  have hall : locate narrowMiddle none ⟨0, 0, 100, 100⟩ ⟨12, 50⟩ 2 = .ok ⟨.vertical 10, ⟨2, 0⟩, .horizontal⟩ := rfl
  have hskip : locate narrowMiddle (some 0) ⟨0, 0, 100, 100⟩ ⟨12, 50⟩ 2 = .ok ⟨.vertical 14, ⟨-2, 0⟩, .horizontal⟩ :=
    rfl
  exact ⟨hall, ((locate_closest hall .x).1 10).1 rfl, (locate_closest hall .y).2.1.1 rfl, hskip,
    ((locate_closest hskip .x).1 14).1 rfl⟩

end Mosaic.Grasp
