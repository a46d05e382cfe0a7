import Mosaic.Proofs.Cover.Hull

/-! The bounding box as the least of all rectangles around others. Two rectangles that lie in each other have the same
edges, but need not be equal: an extent that runs on past the last coordinate is cut off there, and the far edge does
not tell by how much. The bounding box is the only least rectangle that is not cut off, and it depends on nothing but
which rectangles it is taken of. -/
namespace Mosaic.Rect

variable {box v : Rect} {rects : List Rect}

/-- A least rectangle around others: they all lie in it, and it lies in every rectangle that they all lie in. -/
structure Least (u : Rect) (rects : List Rect) : Prop where
  fits : u.Fits
  proper : u.IsProper
  around : ∀ r ∈ rects, u.Encloses r
  within : ∀ w : Rect, w.Fits → w.IsProper → (∀ r ∈ rects, w.Encloses r) → w.Encloses u

/-- The least rectangles around others are those with the edges of their hull. -/
theorem Hull.least_iff (h : Hull box rects) :
    Least v rects ↔ (v.Fits ∧ v.IsProper) ∧ ∀ axis side, v.edge axis side = box.edge axis side := by
  rw [edge_eq_iff]
  constructor
  · intro hv
    exact ⟨⟨hv.fits, hv.proper⟩, h.encloses hv.around, hv.within box h.sharp.fits h.sharp.proper h.around⟩
  · rintro ⟨⟨hfits, hproper⟩, hvbox, hboxv⟩
    exact ⟨hfits, hproper, fun r hr => hvbox.trans (h.around r hr), fun w _ _ hw => (h.encloses hw).trans hboxv⟩

theorem Hull.least (h : Hull box rects) : Least box rects :=
  h.least_iff.2 ⟨⟨h.sharp.fits, h.sharp.proper⟩, fun _ _ => rfl⟩

/-- Rectangles that are not cut off and do not lie too far apart have a bounding box. It is a least rectangle around
them, and any other one has the same edges but is cut off there. The order of the rectangles does not matter, nor how
often each of them occurs. -/
theorem boundingBox_least (hne : rects ≠ []) (hrects : ∀ r ∈ rects, r.Sharp) (hspan : Spanned rects) :
    ∃ box, boundingBox rects = .ok (some box) ∧ box.Sharp ∧ Least box rects ∧
      (∀ v, Least v rects → (∀ axis side, v.edge axis side = box.edge axis side) ∧ (v.Sharp → v = box)) ∧
      ∀ others : List Rect, (∀ r, r ∈ others ↔ r ∈ rects) → boundingBox others = .ok (some box) := by
  obtain ⟨box, hbox⟩ := exists_boundingBox hne hrects hspan
  have hull : Hull box rects := boundingBox_hull hrects hbox
  refine ⟨box, hbox, hull.sharp, hull.least, fun v hv => ?only, fun others hsame => ?same⟩
  case only =>
    have hedges := (hull.least_iff.1 hv).2
    exact ⟨hedges, fun hsharp => ext_edges hedges hsharp hull.sharp⟩
  case same =>
    exact (hull.congr hsame).boundingBox_eq fun r hr => hrects r ((hsame r).1 hr)

/-- Two rectangles apart from each other, and one without extents to the left of them and below. -/
def scattered : List Rect := [⟨20, 0, 60, 5⟩, ⟨-5, 40, 0, 0⟩, ⟨30, -10, 10, 3⟩]

theorem boundingBox_least_scattered : boundingBox scattered = .ok (some ⟨-5, -10, 85, 50⟩) ∧
    Least ⟨-5, -10, 85, 50⟩ scattered ∧
      boundingBox [⟨-5, 40, 0, 0⟩, ⟨30, -10, 10, 3⟩, ⟨20, 0, 60, 5⟩, ⟨-5, 40, 0, 0⟩] =
        .ok (some ⟨-5, -10, 85, 50⟩) := by
  have hspan : ∀ axis, ∀ r ∈ scattered, ∀ s ∈ scattered, Coord.Fits (s.far axis - r.near axis) :=
    Axis.rec (by decide) (by decide)
  obtain ⟨box, hbox, -, hleast, -, hsame⟩ := boundingBox_least (by decide) (by decide)
    (fun r hr s hs axis => hspan axis r hr s hs)
  obtain rfl : box = ⟨-5, -10, 85, 50⟩ := Option.some.inj (Except.ok.inj (hbox.symm.trans rfl))
  refine ⟨hbox, hleast, hsame _ fun r => ?_⟩
  simp only [scattered, List.mem_cons, List.not_mem_nil, or_false]
  tauto

/-- Around two columns that end at the last coordinate lies a rectangle that runs on by one more cell. It is cut off
there, so it lies in every other one around them, the bounding box among them. -/
theorem not_least_unique : ¬ ∀ (rects : List Rect) (box v : Rect), rects ≠ [] → (∀ r ∈ rects, r.Sharp) →
    Spanned rects → boundingBox rects = .ok (some box) → Least v rects → v = box := by
  intro h
  have hsharp : ∀ r ∈ [⟨2147483547, 0, 50, 100⟩, ⟨2147483597, 0, 50, 100⟩], Sharp r := by decide
  have hull : Hull ⟨2147483547, 0, 100, 100⟩ _ := boundingBox_hull hsharp rfl
  have hleast : Least ⟨2147483547, 0, 101, 100⟩ _ := hull.least_iff.2 ⟨by decide, edge_eq_iff.2 (by decide)⟩
  exact absurd (h _ _ _ (List.cons_ne_nil _ _) hsharp (hull.spanned hsharp) rfl hleast) (by decide)

end Mosaic.Rect
