import Mosaic.Layout.Gesture
import Mosaic.Proofs.Edge.Grasp
import Mosaic.Proofs.Gives
import Mosaic.Proofs.Plane.Moderate

/-! How far from an edge the pointer may be if looking for lines is to be answered in every moderate container. The
tolerance is added to far edges, which may be larger than the pointer's place, so it has to leave room beside them.
Settings are accepted with larger ones. -/
namespace Mosaic

namespace Grasp

variable {rects : List Rect} {container r : Rect} {pointer : Point} {t : Int} {axis : Axis}

/-- The largest tolerance that leaves room beside the edges of moderate containers. -/
def safeTolerance : Int := 2 ^ 31 - 1 - 2 ^ 29

section

variable (ht : 0 ≤ t ∧ t ≤ safeTolerance) (hpointer : ∀ axis, Coord.Moderate (pointer.along axis))
include ht hpointer

theorem gives_reach? (hr : r.Reached) : (reach? container pointer t axis r).Gives fun _ => True := by
  have hplace := hpointer axis
  have hfar := hr.far axis
  have hnear' := hr.near axis.cross
  have hfar' := hr.far axis.cross
  simp only [Coord.Moderate, Coord.Reached, safeTolerance] at *
  refine (Coord.gives_sub (by unfold Coord.Fits; omega)).bind fun gap _ hgap => ?_
  refine (Coord.gives_abs (by unfold Coord.Fits; omega)).bind fun distance _ _ => ?_
  split
  · exact .pure trivial
  refine (Coord.gives_sub (by unfold Coord.Fits; omega)).bind fun first _ _ => ?_
  split
  · exact .pure trivial
  refine (Coord.gives_add (by unfold Coord.Fits; omega)).bind fun last _ _ => ?_
  split
  · exact .pure trivial
  · exact .pure trivial

theorem gives_consider {best : Option Reach × Option Reach} (hr : r.Reached) :
    (consider container pointer t best r).Gives fun _ => True :=
  (gives_reach? ht hpointer hr).bind fun _ _ _ => (gives_reach? ht hpointer hr).bind fun _ _ _ => .pure trivial

end

theorem gives_offsetFrom {place : Int} {line : Option Int} (h : ∀ l ∈ line, Coord.Fits (place - l)) :
    (offsetFrom place line).Gives fun _ => True := by
  cases line with
  | none => exact .pure trivial
  | some line => exact (Coord.gives_sub (h line rfl)).imp fun _ _ _ => trivial

/-- Lines are far edges of rectangles, so the pointer is never too far from them. -/
theorem gives_locate {skip : Option Nat} {tolerance : Int} (ht : tolerance ≤ safeTolerance)
    (hpointer : ∀ axis, Coord.Moderate (pointer.along axis)) (hrects : ∀ r ∈ rects, r.Reached) :
    (locate rects skip container pointer tolerance).Gives fun _ => True := by
  have ht : 0 ≤ max tolerance 0 ∧ max tolerance 0 ≤ safeTolerance := by
    unfold safeTolerance at *
    omega
  have hline : ∀ axis line, IsOffered rects container axis line → Coord.Fits (pointer.along axis - line) := by
    rintro axis line ⟨-, r, hr, rfl⟩
    have hplace := hpointer axis
    have hfar := (hrects r hr).far axis
    simp only [Coord.Moderate, Coord.Reached, Coord.Fits] at *
    omega
  refine (Checked.Gives.foldlM (I := Finds rects container) (fun r hr best hbest => ?_) ⟨by simp, by simp⟩).bind
    fun best _ hbest => ?_
  · have hmem := mem_of_mem_offered hr
    exact (gives_consider ht hpointer (hrects r hmem)).imp fun found hfound _ => hbest.consider hmem hfound
  refine (gives_offsetFrom fun line hmem => ?_).bind fun dx _ _ => ?_
  · obtain ⟨found, hfound, rfl⟩ := Option.map_eq_some_iff.1 hmem
    exact hline .x _ (hbest.1 found hfound)
  refine (gives_offsetFrom fun line hmem => ?_).bind fun dy _ _ => .pure trivial
  obtain ⟨found, hfound, rfl⟩ := Option.map_eq_some_iff.1 hmem
  exact hline .y _ (hbest.2 found hfound)

theorem fits_of_reach? {found : Option Reach} (h : reach? container pointer t axis r = .ok found)
    (hwithin : distanceTo pointer axis r ≤ t) (hinner : r.far axis ≠ container.far axis)
    (hstart : r.near axis.cross - t ≤ pointer.along axis.cross) : Coord.Fits (r.far axis.cross + t) := by
  obtain ⟨gap, hgap, h⟩ := Checked.bind_eq_ok.1 h
  obtain ⟨distance, hdistance, h⟩ := Checked.bind_eq_ok.1 h
  obtain ⟨-, rfl⟩ := Coord.sub_eq_ok_iff.1 hgap
  obtain rfl : distance = distanceTo pointer axis r := Coord.abs_eq_ok hdistance
  rw [if_neg (not_or.2 ⟨Int.not_lt.2 hwithin, hinner⟩)] at h
  obtain ⟨first, hfirst, h⟩ := Checked.bind_eq_ok.1 h
  obtain ⟨-, rfl⟩ := Coord.sub_eq_ok_iff.1 hfirst
  rw [if_neg (Int.not_lt.2 hstart)] at h
  obtain ⟨last, hlast, -⟩ := Checked.bind_eq_ok.1 h
  exact (Coord.add_eq_ok_iff.1 hlast).1

end Grasp

namespace Layout

variable {W : Type} {l : Layout W} {pointer : Point}

theorem exists_locate (hbox : l.bounds.Moderate) (ht : l.bounds.Tile l.store.bounds)
    (hpointer : ∀ axis, Coord.Moderate (pointer.along axis))
    (hsafe : l.settings.grabTolerance ≤ Grasp.safeTolerance) : ∃ g, l.locate pointer = .ok g :=
  (Grasp.gives_locate hsafe hpointer (hbox.reached_of_tile ht)).answered

theorem exists_handlePointer {event : PointerEvent} (hidle : l.gesture.phase = .idle)
    (hlocate : ∃ g, l.locate event.position = .ok g) : ∃ o, l.handlePointer event = .ok o := by
  obtain ⟨g, hg⟩ := hlocate
  have hhover : ∃ o, l.hover event.position = .ok o := by
    rw [hover, hg]
    exact ⟨_, rfl⟩
  have hpress : ∃ o, l.press event.position = .ok o := by
    rw [press, hg]
    by_cases hactive : g.IsActive
    · exact ⟨_, if_pos hactive⟩
    · exact ⟨_, if_neg hactive⟩
  have hreact : ∃ o, l.react event = .ok o := by
    obtain ⟨motion, position, held, modifiers⟩ := event
    unfold react
    rw [hidle]
    cases motion with
    | moved => exact hhover
    | leave => exact ⟨_, rfl⟩
    | down button =>
      dsimp only
      split
      · exact ⟨_, rfl⟩
      · exact hpress
    | drag button | up button =>
      dsimp only
      split
      · exact ⟨_, rfl⟩
      · exact ⟨_, rfl⟩
  obtain ⟨o, ho⟩ := hreact
  exact ⟨_, by rw [handlePointer, ho]; rfl⟩

/-- Two columns that lie as far out as moderate containers reach. -/
def distant (settings : Settings) : Layout Unit where
  settings := settings
  bounds := ⟨2 ^ 28, 2 ^ 28, 2 ^ 28, 2 ^ 28⟩
  store := ⟨[{ id := ⟨1⟩, widget := (), bounds := ⟨2 ^ 28, 2 ^ 28, 2 ^ 27, 2 ^ 28⟩ },
    { id := ⟨2⟩, widget := (), bounds := ⟨2 ^ 28 + 2 ^ 27, 2 ^ 28, 2 ^ 27, 2 ^ 28⟩ }], 3⟩

theorem distant_moderate {settings : Settings} : (distant settings).bounds.Moderate := by
  show Rect.Moderate ⟨2 ^ 28, 2 ^ 28, 2 ^ 28, 2 ^ 28⟩
  decide

theorem distant_tile (settings : Settings) : (distant settings).bounds.Tile (distant settings).store.bounds :=
  Rect.tile_beside .x (by decide) ⟨⟨rfl, rfl⟩, ⟨rfl, rfl⟩⟩ rfl rfl rfl

theorem tolerance_le_of_locate_distant {settings : Settings} {g : Grasp}
    (h : (distant settings).locate ⟨2 ^ 28, 2 ^ 28⟩ = .ok g) : settings.grabTolerance ≤ Grasp.safeTolerance := by
  by_contra hunsafe
  obtain ⟨best, hbest, -⟩ := Checked.bind_eq_ok.1 h
  have hskip : (if (distant settings).hasSizeRange then none else (distant settings).anchorPosition?) = none := by
    split <;> rfl
  rw [hskip] at hbest
  obtain ⟨_, _, hconsider⟩ := Checked.exists_of_mem_foldlM hbest ⟨2 ^ 28, 2 ^ 28, 2 ^ 27, 2 ^ 28⟩ (.head _)
  obtain ⟨_, hreach, -⟩ := Checked.bind_eq_ok.1 hconsider
  have hinner : Rect.far ⟨2 ^ 28, 2 ^ 28, 2 ^ 27, 2 ^ 28⟩ .x ≠ Rect.far ⟨2 ^ 28, 2 ^ 28, 2 ^ 28, 2 ^ 28⟩ .x := by decide
  have hdistance : Grasp.distanceTo ⟨2 ^ 28, 2 ^ 28⟩ .x ⟨2 ^ 28, 2 ^ 28, 2 ^ 27, 2 ^ 28⟩ = 2 ^ 27 := by decide
  have hend : Rect.far ⟨2 ^ 28, 2 ^ 28, 2 ^ 27, 2 ^ 28⟩ .y = 2 ^ 29 := by decide
  unfold Grasp.safeTolerance at hunsafe
  have hwithin : (2 : Int) ^ 27 ≤ max settings.grabTolerance 0 := by omega
  have hstart : (2 : Int) ^ 28 - max settings.grabTolerance 0 ≤ 2 ^ 28 := by omega
  have hfits := Grasp.fits_of_reach? hreach (hdistance ▸ hwithin) hinner hstart
  change Coord.Fits (Rect.far ⟨2 ^ 28, 2 ^ 28, 2 ^ 27, 2 ^ 28⟩ .y + max settings.grabTolerance 0) at hfits
  rw [hend] at hfits
  unfold Coord.Fits at hfits
  omega

/-- The tolerances with which looking for lines, and with it every event without a drag, is answered in every moderate
container. -/
theorem answers_iff_tolerance (settings : Settings) :
    (∀ (W : Type) (l : Layout W), l.settings = settings → l.bounds.Moderate → l.bounds.Tile l.store.bounds →
      ∀ pointer : Point, Coord.Moderate pointer.x ∧ Coord.Moderate pointer.y →
        (∃ g, l.locate pointer = .ok g) ∧ (l.gesture.phase = .idle →
          ∀ event : PointerEvent, event.position = pointer → ∃ o, l.handlePointer event = .ok o)) ↔
      settings.grabTolerance ≤ 2 ^ 31 - 1 - 2 ^ 29 := by
  constructor
  · intro h
    obtain ⟨⟨g, hg⟩, -⟩ := h Unit (distant settings) rfl distant_moderate (distant_tile settings)
      ⟨2 ^ 28, 2 ^ 28⟩ (by decide)
    exact tolerance_le_of_locate_distant hg
  · rintro hsafe W l rfl hbox ht pointer ⟨hx, hy⟩
    have hlocate := exists_locate hbox ht (Axis.rec hx hy) hsafe
    refine ⟨hlocate, fun hidle event hevent => ?_⟩
    subst hevent
    exact exists_handlePointer hidle hlocate

/-- Accepted settings can have a tolerance that cannot be added to an edge. -/
theorem not_answers_of_validate : ¬ ∀ (settings : Settings) (l : Layout Unit) (pointer : Point),
    settings.validate = .ok settings → l.settings = settings → l.bounds.Moderate → l.bounds.Tile l.store.bounds →
      Coord.Moderate pointer.x ∧ Coord.Moderate pointer.y → ∃ g, l.locate pointer = .ok g := by
  intro h
  have hcover : Rect.Tile ⟨0, 0, 100, 100⟩ [⟨0, 0, 50, 100⟩, ⟨50, 0, 50, 100⟩] :=
    Rect.tile_beside .x (by decide) ⟨⟨rfl, rfl⟩, ⟨rfl, rfl⟩⟩ rfl rfl rfl
  obtain ⟨g, hg⟩ := h { grabTolerance := 2147483647 }
    { settings := { grabTolerance := 2147483647 }
      bounds := ⟨0, 0, 100, 100⟩
      store := ⟨[{ id := ⟨1⟩, widget := (), bounds := ⟨0, 0, 50, 100⟩ },
        { id := ⟨2⟩, widget := (), bounds := ⟨50, 0, 50, 100⟩ }], 3⟩ } ⟨50, 50⟩ rfl rfl (by decide) hcover (by decide)
  cases hg

end Layout

end Mosaic
