import Mosaic.Proofs.Cover.Hull
import Mosaic.Proofs.Layout.Stages
import Mosaic.Proofs.Layout.Stretch

/-! Stretching twice. A container that has been stretched to a larger one and is shrunk back has its regions where they
were: the anchor is mapped along with all other edges, so the edges that followed the far edge of the container follow
it back. Where a far edge was cut off at the end of the coordinates, what was cut off is not found again. -/
namespace Mosaic

namespace Stretch

variable {s s' : Stretch} {old anchor anchor' target : Rect} {axis : Axis} {edge : Int}

theorem fits_limit (h : between old anchor target axis = .ok s) :
    Coord.Fits (anchor.far axis + (target.near axis - old.near axis)) ∧
      Coord.Fits (anchor.far axis + (target.near axis - old.near axis) + (target.extent axis - old.extent axis)) := by
  obtain ⟨shift, hshift, h⟩ := Checked.bind_eq_ok.1 h
  obtain ⟨growth, hgrowth, h⟩ := Checked.bind_eq_ok.1 h
  obtain ⟨moved, hmoved, h⟩ := Checked.bind_eq_ok.1 h
  obtain ⟨limit, hlimit, -⟩ := Checked.bind_eq_ok.1 h
  obtain ⟨-, rfl⟩ := Coord.sub_eq_ok_iff.1 hshift
  obtain ⟨-, rfl⟩ := Coord.sub_eq_ok_iff.1 hgrowth
  obtain ⟨hfits, rfl⟩ := Coord.add_eq_ok_iff.1 hmoved
  exact ⟨hfits, (Coord.add_eq_ok_iff.1 hlimit).1⟩

/-- Stretching a container to itself leaves all edges in it where they are. -/
theorem image_self (h : between old anchor old axis = .ok s) (hedge : old.near axis ≤ edge ∧ edge ≤ old.far axis) :
    s.image edge = edge := by
  obtain rfl := between_eq_ok h
  simp only [image]
  split
  · omega
  · omega

theorem fits_of_map (h : between old anchor target axis = .ok s) (hmap : ∃ v, s.map edge = .ok v) :
    old.near axis < edge → anchor.far axis ≤ edge →
      Coord.Fits (edge + (target.near axis - old.near axis) + (target.extent axis - old.extent axis)) := by
  obtain ⟨v, hv⟩ := hmap
  have hfits := (map_eq_ok hv).2
  obtain rfl := between_eq_ok h
  exact hfits

section

variable (h : between old anchor target axis = .ok s) (hold : old.Fits) (hextent : 0 < old.extent axis)
  (htarget : target.Fits) (hlarger : old.extent axis ≤ target.extent axis)
include h hold hextent htarget hlarger

/-- Growth moves an edge before the anchor's far edge along with the near edge of the container, and one from there on
along with the far edge. -/
theorem image_of_larger (hedge : old.near axis ≤ edge ∧ edge ≤ old.far axis)
    (hfits : old.near axis < edge → anchor.far axis ≤ edge →
      Coord.Fits (edge + (target.near axis - old.near axis) + (target.extent axis - old.extent axis))) :
    s.image edge = if edge ≤ old.near axis then target.near axis
      else if anchor.far axis ≤ edge then
        edge + (target.near axis - old.near axis) + (target.extent axis - old.extent axis)
      else edge + (target.near axis - old.near axis) := by
  have hlimit := fits_limit h
  have hnear := hold.near axis
  have hnear' := htarget.near axis
  obtain rfl := between_eq_ok h
  rw [Rect.far_eq old] at hedge
  simp only [image, Rect.far_eq target, Coord.Fits, Coord.saturate] at *
  split
  · rfl
  · next hpast =>
    split
    · next hfollows =>
      have hfits := hfits (Int.not_le.1 hpast) hfollows
      omega
    · omega

/-- Shrinking back takes each edge back to where it was, if the anchor went along with the edges, or if the containers
take its place. -/
theorem image_back (h' : between target anchor' old axis = .ok s')
    (hanchor : old.near axis ≤ anchor.far axis ∧ anchor.far axis ≤ old.far axis)
    (hanchor' : anchor'.far axis = s.image (anchor.far axis) ∨
      anchor.far axis = old.far axis ∧ anchor'.far axis = target.far axis)
    (hedge : old.near axis ≤ edge ∧ edge ≤ old.far axis) (hmap : ∃ v, s.map edge = .ok v) :
    s'.image (s.image edge) = edge := by
  have hfits := fits_of_map h hmap
  have hlimit := fits_limit h
  have hforth := image_of_larger h hold hextent htarget hlarger hedge hfits
  have hthreshold := image_of_larger h hold hextent htarget hlarger hanchor fun _ _ => hlimit.2
  have hreach : anchor.far axis + (target.near axis - old.near axis) + (target.extent axis - old.extent axis) ≤
      target.far axis := by
    have hnear := hold.near axis
    rw [Rect.far_eq old] at hanchor
    rw [Rect.far_eq target]
    simp only [Coord.Fits, Coord.saturate] at *
    omega
  obtain rfl := between_eq_ok h'
  rw [if_pos (Int.le_refl _)] at hthreshold
  rw [hthreshold] at hanchor'
  clear hfits hlimit hthreshold
  rw [hforth]
  simp only [image]
  by_cases hstart : edge ≤ old.near axis
  · rw [if_pos hstart, if_pos (Int.le_refl _)]
    omega
  rw [if_neg hstart]
  by_cases hfollows : anchor.far axis ≤ edge
  · -- The edge followed the far edge, and follows it back.
    rw [if_pos hfollows, if_neg (by omega)]
    rcases hanchor' with hanchor' | hends
    · split at hanchor'
      · rw [if_pos (by omega)]
        omega
      · rw [if_pos (by omega)]
        omega
    · split
      · omega
      · omega
  · rw [if_neg hfollows, if_neg (by omega)]
    rcases hanchor' with hanchor' | hends
    · rw [if_neg (by omega)] at hanchor'
      rw [if_neg (by omega)]
      omega
    · rw [if_neg (by omega)]
      omega

end

end Stretch

namespace Rect

variable {box r : Rect} {rs bs : List Rect}

theorem Sharp.edge_within (h : r.Sharp) (hin : box.Encloses r) (axis : Axis) (side : Side) :
    box.near axis ≤ r.edge axis side ∧ r.edge axis side ≤ box.far axis := by
  have hspan := h.near_le_far axis
  have hends := hin.edges axis
  cases side
  · exact ⟨hends.1, Int.le_trans hspan hends.2⟩
  · exact ⟨Int.le_trans hends.1 hspan, hends.2⟩

/-- Where the lines of both axes are left in place, so are the rectangles, unless they were cut off. -/
theorem eq_of_movedWith (hm : ∀ axis, ∃ m, MovedWith axis m rs bs ∧
      ∀ r ∈ rs, ∀ side, m (r.edge axis side) = r.edge axis side)
    (hrs : ∀ r ∈ rs, r.Sharp) (hbs : ∀ b ∈ bs, b.Sharp) : bs = rs := by
  obtain ⟨m, hmoved, -⟩ := hm .x
  refine List.ext_getElem hmoved.length_eq.symm fun i hb hr => ?_
  refine ext_edges (fun axis side => ?_) (hbs _ (List.getElem_mem hb)) (hrs _ (List.getElem_mem hr))
  obtain ⟨m, hmoved, hfixed⟩ := hm axis
  exact (hmoved.get hr hb side).trans (hfixed _ (List.getElem_mem hr) side)

end Rect

namespace Layout

variable {W : Type} {l l' l'' : Layout W} {target : Rect}

theorem Rearranged.anchor_far {axis : Axis} {m : Int → Int} (h : Rearranged l l')
    (hm : Rect.MovedWith axis m l.store.bounds l'.store.bounds) :
    (l'.anchorBounds?.getD l'.bounds).far axis = m ((l.anchorBounds?.getD l.bounds).far axis) ∨
      (l.anchorBounds?.getD l.bounds).far axis = l.bounds.far axis ∧
        (l'.anchorBounds?.getD l'.bounds).far axis = l'.bounds.far axis := by
  cases hanchor : l.anchorBounds? with
  | some anchor =>
    obtain ⟨anchor', hanchor', hedges⟩ := h.anchor_moved hm hanchor
    rw [hanchor']
    exact .inl (hedges .far)
  | none =>
    cases hanchor' : l'.anchorBounds? with
    | none => exact .inr ⟨rfl, rfl⟩
    | some anchor' =>
      obtain ⟨anchor, hsome, -⟩ := h.anchor_source hm hanchor'
      rw [hanchor] at hsome
      cases hsome

theorem anchor_far_within (hrects : ∀ r ∈ l.store.bounds, r.Sharp ∧ l.bounds.Encloses r)
    (hordered : l.bounds.near axis ≤ l.bounds.far axis) :
    l.bounds.near axis ≤ (l.anchorBounds?.getD l.bounds).far axis ∧
      (l.anchorBounds?.getD l.bounds).far axis ≤ l.bounds.far axis := by
  cases hanchor : l.anchorBounds? with
  | none => exact ⟨hordered, Int.le_refl _⟩
  | some anchor =>
    obtain ⟨hsharp, hinside⟩ := hrects anchor (mem_of_anchorBounds? hanchor)
    exact ⟨Int.le_trans (hinside.edges axis).1 (hsharp.near_le_far axis), (hinside.edges axis).2⟩

/-- Stretching to a container that is at least as large and back to the old one restores the regions. -/
theorem stretch_back (hbox : l.bounds.Fits) (hextent : ∀ axis, 0 < l.bounds.extent axis)
    (hrects : ∀ r ∈ l.store.bounds, r.Sharp ∧ l.bounds.Encloses r) (htarget : target.Fits)
    (hlarger : ∀ axis, l.bounds.extent axis ≤ target.extent axis) (h : l.stretch target = .ok l')
    (h' : l'.stretch l.bounds = .ok l'') : l''.bounds = l.bounds ∧ l''.store.bounds = l.store.bounds := by
  have hproper : l.bounds.IsProper := ⟨Int.le_of_lt (hextent .x), Int.le_of_lt (hextent .y)⟩
  have hordered := Rect.near_le_far hbox hproper
  have hordered' : ∀ axis, target.near axis ≤ target.far axis := Rect.near_le_far htarget
    ⟨Int.le_trans hproper.1 (hlarger .x), Int.le_trans hproper.2 (hlarger .y)⟩
  obtain ⟨hbounds, hsharp, hmoved⟩ :=
    stretch_moved h htarget hordered' fun r hr => ⟨(hrects r hr).1.fits, (hrects r hr).1.proper⟩
  obtain ⟨hbounds', hsharp', hmoved'⟩ :=
    stretch_moved h' hbox hordered fun r hr => ⟨(hsharp r hr).fits, (hsharp r hr).proper⟩
  refine ⟨hbounds', ?_⟩
  have hback : ∀ axis, ∃ m, Rect.MovedWith axis m l.store.bounds l''.store.bounds ∧
      ∀ r ∈ l.store.bounds, ∀ side, m (r.edge axis side) = r.edge axis side := by
    intro axis
    obtain ⟨s, hs, hm, hmap⟩ := hmoved axis
    obtain ⟨s', hs', hm', -⟩ := hmoved' axis
    rw [hbounds] at hs'
    have hanchor := (stretch_placed h).rearranged.anchor_far hm
    rw [hbounds] at hanchor
    refine ⟨_, hm.trans hm', fun r hr side => ?_⟩
    obtain ⟨hsharp, hinside⟩ := hrects r hr
    exact Stretch.image_back hs hbox (hextent axis) htarget (hlarger axis) hs'
      (anchor_far_within hrects (hordered axis)) hanchor (hsharp.edge_within hinside axis side) (hmap r hr side)
  exact Rect.eq_of_movedWith hback (fun r hr => (hrects r hr).1) hsharp'

theorem resize_to_area {o : Outcome W Rect} (hclassic : l.hasSizeRange = false)
    (harea : 0 < target.width ∧ 0 < target.height) (ho : l.resize target = .ok o) :
    (o.value = target ∧ o.layout.bounds = target) ∧
      ((l.bounds = target ∨ l.store.regions = []) ∧ o.layout.store = l.store ∨
        (l.bounds ≠ target ∧ l.store.regions ≠ []) ∧ l.stretch target = .ok o.layout) := by
  have hclamped : Rect.clamped target.x target.y target.width target.height = target :=
    Rect.IsProper.clamped_eq ⟨Int.le_of_lt harea.1, Int.le_of_lt harea.2⟩
  have hwide : (⟨target.x, target.y, max (max target.width 0) 1, max (max target.height 0) 1⟩ : Rect) = target := by
    have hmax (a : Int) (h : 0 < a) : max (max a 0) 1 = a := by omega
    rw [hmax _ harea.1, hmax _ harea.2]
  cases resize_eq_ok ho with
  | same hsame hlayout hvalue =>
    rw [hclamped] at hsame
    rw [hvalue, hlayout]
    exact ⟨⟨hsame.symm, hsame.symm⟩, .inl ⟨.inl hsame.symm, rfl⟩⟩
  | bare hempty hlayout hvalue =>
    rw [hvalue, hlayout]
    exact ⟨⟨hclamped, hclamped⟩, .inl ⟨.inr hempty, rfl⟩⟩
  | followed followed findings hranged =>
    rw [hclassic] at hranged
    cases hranged
  | stretched _ hstretch hvalue _ hmoves hfilled =>
    rw [hwide] at hstretch hvalue
    rw [hclamped] at hmoves
    obtain ⟨_, _, _, _, _, _, hlayout⟩ := stretch_eq_ok hstretch
    exact ⟨⟨hvalue, hlayout ▸ rfl⟩, .inr ⟨⟨Ne.symm hmoves, hfilled⟩, hstretch⟩⟩

/-- Without a size range, growth is undone by shrinking back, wherever the target lies and whatever the anchor is. The
container may be cut off at the end of the coordinates, the regions may not. -/
theorem resize_back {first back : Outcome W Rect} (hclassic : l.hasSizeRange = false) (hbox : l.bounds.Fits)
    (harea : 0 < l.bounds.width ∧ 0 < l.bounds.height)
    (hrects : ∀ r ∈ l.store.bounds, r.Sharp ∧ l.bounds.Encloses r) (htarget : target.Fits)
    (hlarger : l.bounds.width ≤ target.width ∧ l.bounds.height ≤ target.height)
    (hfirst : l.resize target = .ok first) (hback : first.layout.resize l.bounds = .ok back) :
    back.value = l.bounds ∧ back.layout.bounds = l.bounds ∧ back.layout.store.bounds = l.store.bounds := by
  have hmode : first.layout.hasSizeRange = false := by
    rw [hasSizeRange, (resize_rearranged hfirst).settings]
    exact hclassic
  obtain ⟨⟨-, hbounds⟩, hforth⟩ := resize_to_area hclassic
    ⟨Int.lt_of_lt_of_le harea.1 hlarger.1, Int.lt_of_lt_of_le harea.2 hlarger.2⟩ hfirst
  obtain ⟨⟨hvalue, hbounds'⟩, hundone⟩ := resize_to_area hmode harea hback
  refine ⟨hvalue, hbounds', ?_⟩
  rw [hbounds] at hundone
  rcases hforth with ⟨hidle, hstore⟩ | ⟨hbusy, hstretch⟩
  · rcases hundone with ⟨-, hstore'⟩ | ⟨hbusy', -⟩
    · rw [hstore', hstore]
    · rw [hstore] at hbusy'
      exact absurd hidle (not_or.2 ⟨hbusy'.1.symm, hbusy'.2⟩)
  · rcases hundone with ⟨hidle', -⟩ | ⟨-, hstretch'⟩
    · rcases hidle' with hsame | hempty
      · exact absurd hsame.symm hbusy.1
      · exact absurd ((resize_rearranged hfirst).regions_eq_nil_iff.1 hempty) hbusy.2
    · exact (stretch_back hbox (Axis.rec harea.1 harea.2) hrects htarget (Axis.rec hlarger.1 hlarger.2) hstretch
        hstretch').2

/-- Two columns with an empty one between them that is the anchor. -/
def hinged : Layout Unit where
  bounds := ⟨0, 0, 100, 50⟩
  store := ⟨[{ id := ⟨1⟩, widget := (), bounds := ⟨0, 0, 40, 50⟩ },
    { id := ⟨2⟩, widget := (), bounds := ⟨40, 0, 0, 50⟩ }, { id := ⟨3⟩, widget := (), bounds := ⟨40, 0, 60, 50⟩ }], 4⟩
  anchor := some ⟨2⟩

theorem resize_back_hinged : ∃ first back, hinged.resize ⟨-7, 3, 130, 60⟩ = .ok first ∧
    first.layout.store.bounds = [⟨-7, 3, 70, 60⟩, ⟨63, 3, 0, 60⟩, ⟨63, 3, 60, 60⟩] ∧
      first.layout.resize ⟨0, 0, 100, 50⟩ = .ok back ∧ back.layout.store.bounds = hinged.store.bounds := by
  obtain ⟨first, hfirst, hmoved, back, hback⟩ : ∃ first, hinged.resize ⟨-7, 3, 130, 60⟩ = .ok first ∧
      first.layout.store.bounds = [⟨-7, 3, 70, 60⟩, ⟨63, 3, 0, 60⟩, ⟨63, 3, 60, 60⟩] ∧
        ∃ back, first.layout.resize ⟨0, 0, 100, 50⟩ = .ok back := ⟨_, rfl, by decide, _, rfl⟩
  exact ⟨first, back, hfirst, hmoved, hback, (resize_back (l := hinged) rfl (by decide) (by decide) (by decide)
    (by decide) (by decide) hfirst hback).2.2⟩

/-- One region whose far edge is cut off at the end of the coordinates. -/
def cutOff : Layout Unit where
  bounds := ⟨2147483638, 0, 100, 10⟩
  store := ⟨[{ id := ⟨1⟩, widget := (), bounds := ⟨2147483638, 0, 100, 10⟩ }], 2⟩
  anchor := some ⟨1⟩

/-- What is cut off of a region is lost when the container is moved away and back. -/
theorem not_resize_back : ¬ ∀ (l : Layout Unit) (target : Rect) (first back : Outcome Unit Rect),
    l.hasSizeRange = false → l.bounds.Fits → 0 < l.bounds.width ∧ 0 < l.bounds.height →
    (∀ r ∈ l.store.bounds, (r.Fits ∧ r.IsProper) ∧ l.bounds.Encloses r) → target.Fits →
    l.bounds.width ≤ target.width ∧ l.bounds.height ≤ target.height → l.resize target = .ok first →
    first.layout.resize l.bounds = .ok back → back.layout.store.bounds = l.store.bounds := by
  intro h
  have hback := h cutOff ⟨0, 0, 100, 10⟩ _ _ rfl (by decide) (by decide) (by decide) (by decide) (by decide) rfl rfl
  exact absurd hback (by decide)

end Layout

end Mosaic
