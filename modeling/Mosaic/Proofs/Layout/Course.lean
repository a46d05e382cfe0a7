import Mosaic.Proofs.Layout.Follow

/-! Following a target where the regions cover a box that begins where the container does. The container
itself does not matter then: its far edges may be cut off at the end of the coordinates. -/
namespace Mosaic

namespace Rect

variable {r box : Rect} {rects : List Rect}

/-- The rectangle with its extents up to its far edges, where these are cut off. -/
def trimmed (r : Rect) : Rect := ⟨r.x, r.y, r.right - r.x, r.bottom - r.y⟩

theorem near_trimmed (r : Rect) (axis : Axis) : r.trimmed.near axis = r.near axis := by cases axis <;> rfl

theorem extent_trimmed (r : Rect) (axis : Axis) : r.trimmed.extent axis = r.far axis - r.near axis := by
  cases axis <;> rfl

theorem far_trimmed (r : Rect) (axis : Axis) : r.trimmed.far axis = r.far axis := by
  rw [far_eq, near_trimmed, extent_trimmed, Coord.saturate_add_sub _ (fits_far r axis)]

theorem solid_trimmed (h : r.Fits) (hspan : ∀ axis, r.near axis < r.far axis) : r.trimmed.Solid := by
  have hextent : ∀ axis, Coord.Fits (r.far axis - r.near axis) := by
    intro axis
    have hnear := h.near axis
    have hfits := h.extent axis
    have hlt := hspan axis
    rw [far_eq] at hlt ⊢
    unfold Coord.Fits Coord.saturate at *
    omega
  refine ⟨⟨h.1, h.2.1, hextent .x, hextent .y⟩, fun axis => ?_, fun axis => ?_⟩
  · have hlt := hspan axis
    rw [extent_trimmed]
    omega
  · rw [far_trimmed, near_trimmed, extent_trimmed]
    omega

/-- A cover does not depend on what is cut off. -/
theorem Tile.trimmed (h : box.Tile rects) : box.trimmed.Tile rects := by
  have hright : box.trimmed.right = box.right := far_trimmed box .x
  have hbottom : box.trimmed.bottom = box.bottom := far_trimmed box .y
  refine ⟨fun r hr => ⟨(h.1 r hr).1, ?_⟩, fun p hp => h.2 p ?_⟩
  · have hin := (h.1 r hr).2
    unfold Encloses at hin ⊢
    rwa [hright, hbottom]
  · unfold Covers at hp ⊢
    rwa [hright, hbottom] at hp

theorem Solid.trimmed_eq (h : r.Solid) : r.trimmed = r := by
  have hright : r.right = r.x + r.width := h.far .x
  have hbottom : r.bottom = r.y + r.height := h.far .y
  rw [trimmed, hright, hbottom, add_sub_cancel_left, add_sub_cancel_left]

end Rect

namespace Layout

variable {W : Type} {l : Layout W} {box target : Rect}

theorem hasPlace_trimmed {container : Rect} (htarget : target.Fits)
    (hmoved : ∀ axis, Coord.Fits (container.far axis + (target.near axis - container.near axis))) :
    HasPlace container.trimmed target := by
  refine ⟨htarget, fun axis => ?_⟩
  rw [Rect.extent_trimmed, ← add_sub_assoc, add_comm, add_sub_assoc]
  exact hmoved axis

/-- The course that following a target takes. Everything is moved along, the growth that is asked for is tried out,
the anchor gives way, the far lines take the box along, and the anchor gets what was gained. -/
structure Course (l : Layout W) (box target : Rect) (o : Outcome W Rect) (shifted : Layout W) (limits : Rect)
    (growth : Size) (inward corner outward : Aim) (first third : Outcome W Unit) (second : Outcome W Size) :
    Prop where
  shift_eq : l.shiftTo target = .ok shifted
  giveWay_eq : l.giveWay target = .ok first.layout
  solid : (movedTo box target).Solid
  tile : (movedTo box target).Tile shifted.store.bounds
  moved : Reflow l box shifted (movedTo box target)
  edges : ∀ axis, Rect.MovedWith axis (· + (target.near axis - box.near axis)) l.store.bounds shifted.store.bounds
  found : ∀ axis, FoundFeasible (shifted.scene limits) axis ((movedTo box target).far axis)
    (target.extent axis - box.extent axis) (growth.along axis)
  bounding : Bounding (movedTo box target) limits growth
  inward_eq : shifted.aimInward (movedTo box target) growth = .ok inward
  first_eq : shifted.commitAim inward limits = .ok first
  corner_at : ∀ axis, corner.AtCorner (movedTo box target) growth axis
  second_eq : first.layout.commitCorner (movedTo box target) growth corner limits = .ok second
  outward_eq : second.layout.aimOutward (movedTo box target) second.value = .ok outward
  third_eq : second.layout.commitAim outward limits = .ok third
  reflow : Reflow shifted (movedTo box target) third.layout (stretched (movedTo box target) second.value)
  gained : ∀ axis, Tried (growth.along axis) (second.value.along axis)
  within : ∀ axis, 0 ≤ second.value.along axis → ∀ b ∈ third.layout.store.bounds,
    Rect.Within axis (stretched (movedTo box target) second.value) b
  layout_eq : o.layout = { third.layout with bounds := stretched (movedTo box target) second.value }
  value_eq : o.value = o.layout.bounds

theorem exists_course (hnear : ∀ axis, box.near axis = l.bounds.near axis) (hbox : box.Solid)
    (hsharp : ∀ r ∈ l.store.bounds, r.Sharp) (ht : box.Tile l.store.bounds) (hplace : HasPlace box target)
    (hproper : target.IsProper) {o : Outcome W Rect} (ho : l.follow target = .ok o) :
    ∃ shifted limits growth inward corner outward first third second,
      Course l box target o shifted limits growth inward corner outward first third second := by
  cases follow_eq_ok ho with
  | bare hshift hnone =>
    obtain ⟨hsolid, htile, hflow, -⟩ := shiftTo_reflow hnear hbox hsharp ht hplace hshift
    rw [htile.boundingBox_eq hsolid hflow.woven.sharp] at hnone
    cases hnone
  | boxed shifted box' limits width height trace trace' inward corner outward first third second hshift hbox'
      hlimits hwidth hheight hinward hfirst hcorner hsecond houtward hthird hcovered hlayout hvalue =>
    have hgiven : l.giveWay target = .ok first.layout := by
      simp only [giveWay, hshift, hbox', hlimits, hwidth, hheight, hinward, hfirst, bind, Except.bind, pure,
        Except.pure]
    obtain ⟨hsolid, htile, hflow, hedges⟩ := shiftTo_reflow hnear hbox hsharp ht hplace hshift
    rw [htile.boundingBox_eq hsolid hflow.woven.sharp] at hbox'
    obtain rfl := Option.some.inj (Except.ok.inj hbox')
    obtain ⟨hfound, hb⟩ :=
      bounding_of_growths hsolid hflow.woven.sharp ⟨hplace.1, hproper⟩ hlimits hwidth hheight
    have hback : ∀ axis line, inward.held.along axis = some line →
        (⟨width, height⟩ : Size).along axis < 0 := by
      intro axis line hline
      rcases aimInward_eq_ok hinward axis with hnone | ⟨anchor, -, -, hshrinks, -⟩
      · rw [hnone] at hline
        cases hline
      · exact hshrinks
    have hahead : ∀ axis line, outward.held.along axis = some line → 0 < second.value.along axis := by
      intro axis line hline
      rcases aimOutward_eq_ok houtward axis with ⟨hnone, -⟩ | ⟨anchor, -, -, -, hgrows, -⟩
      · rw [hnone] at hline
        cases hline
      · exact hgrows
    have hat := atCorner_of_aims hcorner
    have hfits : (stretched (movedTo box target) second.value).Fits :=
      ⟨hsolid.fits.1, hsolid.fits.2.1, hcovered.1, hcovered.2⟩
    obtain ⟨hflow', hgained, hwithin⟩ := commits_reflow hsolid hflow.woven
      (fun axis r hr => (htile.1 r hr).2.edges axis) hb hfirst hsecond hthird hback hat hahead hfits
    rw [clamped_stretched hflow'.woven.outer.proper] at hlayout
    refine ⟨shifted, limits, ⟨width, height⟩, inward, corner, outward, first, third, second, hshift, hgiven, hsolid,
      htile, hflow, hedges, fun axis => ?_, hb, hinward, hfirst, hat, hsecond, houtward, hthird, hflow', hgained,
      hwithin, hlayout, hvalue⟩
    rw [← extent_movedTo box target]
    exact hfound axis

/-- The container is left at least as large as the target, and along an axis on which it does not shrink no region
comes to lie outside. -/
theorem Course.answer {shifted : Layout W} {limits : Rect} {growth : Size} {inward corner outward : Aim}
    {o : Outcome W Rect} {first third : Outcome W Unit} {second : Outcome W Size}
    (h : Course l box target o shifted limits growth inward corner outward first third second) :
    o.value = o.layout.bounds ∧ Reflow l box o.layout o.layout.bounds ∧ ∀ axis,
      o.layout.bounds.near axis = target.near axis ∧ target.extent axis ≤ o.layout.bounds.extent axis ∧
        (box.extent axis ≤ target.extent axis →
          ∀ b ∈ o.layout.store.bounds, Rect.Within axis o.layout.bounds b) := by
  have hall := h.moved.trans h.reflow
  refine ⟨h.value_eq, ?_, fun axis => ?_⟩
  · rw [h.layout_eq]
    exact ⟨hall.rearranged.rebound _, hall.rects⟩
  · obtain ⟨hforth, hless⟩ := (h.found axis).tried
    obtain ⟨hforth', hless'⟩ := h.gained axis
    have hsame := extent_movedTo box target axis
    rw [h.layout_eq]
    refine ⟨(near_stretched _ _ axis).trans (near_movedTo box target axis), ?_,
      fun hgrows => h.within axis (by omega)⟩
    simp only [extent_stretched]
    omega

theorem resize_follows (hranged : l.hasSizeRange = true) (hbox : l.bounds.trimmed.Solid)
    (ht : l.bounds.Tile l.store.bounds) {o : Outcome W Rect} (ho : l.resize target = .ok o) :
    (Rect.clamped target.x target.y target.width target.height = l.bounds ∧ o.layout = l ∧ o.value = l.bounds) ∨
      ∃ followed, l.follow (.clamped target.x target.y target.width target.height) = .ok followed ∧
        o.layout = followed.layout ∧ o.value = followed.value := by
  cases resize_eq_ok ho with
  | same hsame hlayout hvalue => exact .inl ⟨hsame, hlayout, hvalue⟩
  | bare hempty => exact absurd (List.map_eq_nil_iff.2 hempty) (ht.trimmed.ne_nil hbox.covers_near)
  | followed followed findings _ hfollow hlayout hvalue => exact .inr ⟨followed, hfollow, hlayout, hvalue⟩
  | stretched hclassic =>
    rw [hranged] at hclassic
    cases hclassic

/-- With a size range, a resize leaves the container at least as large as the target, too. -/
theorem resize_reflow (hranged : l.hasSizeRange = true) (hbox : l.bounds.Solid)
    (hsharp : ∀ r ∈ l.store.bounds, r.Sharp) (ht : l.bounds.Tile l.store.bounds)
    (hplace : HasPlace l.bounds target) {o : Outcome W Rect} (ho : l.resize target = .ok o) :
    Reflow l l.bounds o.layout o.layout.bounds ∧ ∀ axis, target.extent axis ≤ o.layout.bounds.extent axis ∧
      (l.bounds.extent axis ≤ target.extent axis →
        ∀ b ∈ o.layout.store.bounds, Rect.Within axis o.layout.bounds b) := by
  have hclamped := Rect.extent_clamped target
  rcases resize_follows hranged (hbox.trimmed_eq.symm ▸ hbox) ht ho with
    ⟨hsame, hlayout, -⟩ | ⟨followed, hfollow, hlayout, -⟩
  · rw [hlayout]
    refine ⟨.refl (ht.woven hbox hsharp), fun axis => ⟨?_, fun _ r hr => (ht.1 r hr).2.edges axis⟩⟩
    rw [← hsame, hclamped]
    exact Int.le_max_left _ _
  · obtain ⟨shifted, limits, growth, inward, corner, outward, first, third, second, h⟩ :=
      exists_course (fun _ => rfl) hbox hsharp ht hplace.clamped (Rect.isProper_clamped _ _ _ _) hfollow
    obtain ⟨-, hflow, hends⟩ := h.answer
    rw [hlayout]
    refine ⟨hflow, fun axis => ?_⟩
    obtain ⟨-, hextent, hwithin⟩ := hends axis
    rw [hclamped] at hextent hwithin
    exact ⟨by omega, fun hgrows => hwithin (by omega)⟩

end Layout

end Mosaic
