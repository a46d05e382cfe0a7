import Mosaic.Format.Snapshot
import Mosaic.Proofs.Plane.Span

/-! What is read from documents. A number is only taken for a coordinate within the range of coordinates, so
whatever a text says and whatever library reads it, the rectangles of a snapshot that is read hold coordinates. -/
namespace Mosaic

open Json

variable {lib : Library} {v : Value}

namespace Json.Library

variable {α : Type} {read : Value → Option α}

theorem fits_of_coord? {n : Int} (h : lib.coord? v = some n) : Coord.Fits n :=
  of_decide_eq_true (Option.filter_eq_some_iff.1 h).2

theorem forall_of_list? {P : α → Prop} (hread : ∀ v a, read v = some a → P a) {as : List α}
    (h : lib.list? read v = some as) : ∀ a ∈ as, P a := by
  obtain ⟨items, -, hitems⟩ := Option.bind_eq_some_iff.1 h
  clear h
  induction items generalizing as with
  | nil =>
    cases hitems
    exact nofun
  | cons item items ih =>
    rw [List.mapM_cons] at hitems
    obtain ⟨a, ha, hitems⟩ := Option.bind_eq_some_iff.1 hitems
    obtain ⟨rest, hrest, hitems⟩ := Option.bind_eq_some_iff.1 hitems
    cases hitems
    exact List.forall_mem_cons.2 ⟨hread item a ha, ih hrest⟩

end Json.Library

theorem Rect.fits_of_ofJson? {r : Rect} (h : Rect.ofJson? lib v = some r) : r.Fits := by
  obtain ⟨found, -, h⟩ := Option.bind_eq_some_iff.1 h
  split at h
  · obtain ⟨x, hx, h⟩ := Option.bind_eq_some_iff.1 h
    obtain ⟨y, hy, h⟩ := Option.bind_eq_some_iff.1 h
    obtain ⟨width, hwidth, h⟩ := Option.bind_eq_some_iff.1 h
    obtain ⟨height, hheight, h⟩ := Option.bind_eq_some_iff.1 h
    cases h
    exact ⟨Library.fits_of_coord? hx, Library.fits_of_coord? hy, Library.fits_of_coord? hwidth,
      Library.fits_of_coord? hheight⟩
  · cases h

namespace Snapshot

theorem Item.fits_of_ofJson? {i : Item} (h : Item.ofJson? lib v = some i) : i.bounds.Fits := by
  obtain ⟨found, -, h⟩ := Option.bind_eq_some_iff.1 h
  split at h
  · obtain ⟨id, -, h⟩ := Option.bind_eq_some_iff.1 h
    obtain ⟨r, hr, h⟩ := Option.bind_eq_some_iff.1 h
    obtain ⟨min, -, h⟩ := Option.bind_eq_some_iff.1 h
    obtain ⟨max, -, h⟩ := Option.bind_eq_some_iff.1 h
    cases h
    exact Rect.fits_of_ofJson? hr
  · cases h

theorem fits_of_ofJson? {s : Snapshot} (h : ofJson? lib v = some s) : ∀ i ∈ s.items, i.bounds.Fits := by
  obtain ⟨found, -, h⟩ := Option.bind_eq_some_iff.1 h
  split at h
  · obtain ⟨version, -, h⟩ := Option.bind_eq_some_iff.1 h
    obtain ⟨container, -, h⟩ := Option.bind_eq_some_iff.1 h
    obtain ⟨anchor, -, h⟩ := Option.bind_eq_some_iff.1 h
    obtain ⟨read, hread, h⟩ := Option.bind_eq_some_iff.1 h
    cases h
    exact Library.forall_of_list? (fun _ _ => Item.fits_of_ofJson?) hread
  · cases h

theorem fits_of_parse {text : String} {s : Snapshot} (h : parse lib text = .ok s) :
    ∀ i ∈ s.items, i.bounds.Fits := by
  unfold parse at h
  split at h
  · next hread =>
    cases h
    obtain ⟨v, -, hv⟩ := Option.bind_eq_some_iff.1 hread
    exact fits_of_ofJson? hv
  · cases h

end Snapshot

end Mosaic
