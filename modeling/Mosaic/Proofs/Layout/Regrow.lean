import Mosaic.Proofs.Layout.Course
import Mosaic.Proofs.Layout.Staged
import Mosaic.Proofs.Layout.Stretch

/-! A container that has been collapsed grows back. Without a size range it is left one cell wide. With
one it is held open by the minimums, and where all of them are zero its lines are merged for good. -/
namespace Mosaic.Layout

variable {W : Type} {l : Layout W} {target small large : Rect}

/-- The regions cover a container that has an area. Where lines are moved by cascades, each of them is
tied to the ends of the container. -/
structure Settled (l : Layout W) : Prop where
  container : l.bounds.Solid
  sharp : ∀ r ∈ l.store.bounds, r.Sharp
  tile : l.bounds.Tile l.store.bounds
  tied : l.hasSizeRange = true → ∀ r ∈ l.store.bounds, ∀ axis, Rect.Tied axis l.bounds l.store.bounds r

/-- Along each axis the target has an extent, or a region does that has to keep some of it. -/
def HeldOpen (l : Layout W) (target : Rect) : Prop :=
  ∀ axis, 0 < target.extent axis ∨
    ∃ i r, l.store.bounds[i]? = some r ∧ 0 < r.extent axis ∧ 0 < l.floor i axis

theorem Reflow.settled {l' : Layout W} {box : Rect} (hflow : Reflow l box l' l'.bounds)
    (htied : ∀ r ∈ l.store.bounds, ∀ axis, Rect.Tied axis box l.store.bounds r)
    (hextent : ∀ axis, 0 < l'.bounds.extent axis) : Settled l' := by
  have htied' : ∀ b ∈ l'.store.bounds, ∀ axis, Rect.Tied axis l'.bounds l'.store.bounds b := by
    intro b hb axis
    obtain ⟨i, hi⟩ := List.getElem?_of_mem hb
    obtain ⟨r, hr, -, hties⟩ := hflow.rects.source hi
    exact hties axis (htied r (List.mem_of_getElem? hr) axis)
  have hsharp := hflow.woven.sharp
  refine ⟨⟨hflow.woven.outer.fits, hextent, hflow.woven.outer.far⟩, hsharp, ?_, fun _ => htied'⟩
  refine hflow.woven.paves.tile fun b hb => ⟨(hsharp b hb).proper, Rect.encloses_of_edges fun axis => ?_⟩
  exact (htied' b hb axis).within (hflow.woven.ordered axis)

theorem Settled.resize (h : Settled l) (htarget : target.Fits)
    (hranged : l.hasSizeRange = true → HasPlace l.bounds target ∧ l.HeldOpen target)
    {o : Outcome W Rect} (ho : l.resize target = .ok o) :
    Settled o.layout ∧ ∀ axis, target.extent axis ≤ o.layout.bounds.extent axis := by
  have hmode : o.layout.hasSizeRange = l.hasSizeRange := by
    rw [hasSizeRange, (resize_rearranged ho).settings, hasSizeRange]
  cases hrange : l.hasSizeRange with
  | true =>
    obtain ⟨hplace, hopen⟩ := hranged hrange
    obtain ⟨hflow, hends⟩ := resize_reflow hrange h.container h.sharp h.tile hplace ho
    refine ⟨hflow.settled (h.tied hrange) fun axis => ?_, fun axis => (hends axis).1⟩
    rcases hopen axis with hasked | ⟨i, r, hr, hextent, hfloor⟩
    · exact Int.lt_of_lt_of_le hasked (hends axis).1
    · have hmem := List.mem_of_getElem? hr
      have hfar := (h.sharp r hmem).far axis
      exact hflow.rects.extent_pos hr (by omega) hfloor (h.tied hrange r hmem axis)
  | false =>
    obtain ⟨hsolid, hsharp, htile, hextent⟩ := resize_tile hrange h.container h.sharp h.tile htarget ho
    refine ⟨⟨hsolid, hsharp, htile, fun hno => ?_⟩, hextent⟩
    rw [hmode, hrange] at hno
    cases hno

/-- A resize, also to nothing, and a following one to an area leave the regions covering a container that
is as large as asked for. With a size range no region may be empty away from the lines of others, and an
axis along which nothing is asked for has to be held open by some minimum. -/
theorem resize_regrows {first second : Outcome W Rect} (hcontainer : l.bounds.Solid)
    (hsharp : ∀ r ∈ l.store.bounds, r.Sharp) (ht : l.bounds.Tile l.store.bounds)
    (hsmall : small.Fits) (hlarge : large.Fits) (harea : 0 < large.width ∧ 0 < large.height)
    (hranged : l.hasSizeRange = true →
      (∀ r ∈ l.store.bounds, ∀ axis, Rect.Tied axis l.bounds l.store.bounds r) ∧ l.HeldOpen small ∧
        HasPlace l.bounds small ∧ HasPlace first.layout.bounds large)
    (hfirst : l.resize small = .ok first) (hsecond : first.layout.resize large = .ok second) :
    second.layout.bounds.Solid ∧ second.layout.bounds.Tile second.layout.store.bounds ∧
      ∀ axis, large.extent axis ≤ second.layout.bounds.extent axis := by
  have hmode : first.layout.hasSizeRange = l.hasSizeRange := by
    rw [hasSizeRange, (resize_rearranged hfirst).settings, hasSizeRange]
  have hextent : ∀ axis, 0 < large.extent axis := Axis.rec harea.1 harea.2
  have hstart : Settled l := ⟨hcontainer, hsharp, ht, fun hrange => (hranged hrange).1⟩
  obtain ⟨hcollapsed, -⟩ := hstart.resize hsmall
    (fun hrange => ⟨(hranged hrange).2.2.1, (hranged hrange).2.1⟩) hfirst
  obtain ⟨hgrown, hends⟩ := hcollapsed.resize hlarge
    (fun hrange => ⟨(hranged (hmode ▸ hrange)).2.2.2, fun axis => .inl (hextent axis)⟩) hsecond
  exact ⟨hgrown.container, hgrown.tile, hends⟩

theorem folded_tied : ∀ r ∈ folded.store.bounds, ∀ axis, Rect.Tied axis folded.bounds folded.store.bounds r := by
  have ht : folded.bounds.Tile folded.store.bounds := Scene.foldedColumn_tile
  have hfirst : Rect.HasArea ⟨0, 0, 10, 10⟩ := Axis.rec (by decide) (by decide)
  have hlast : Rect.HasArea ⟨10, 0, 20, 10⟩ := Axis.rec (by decide) (by decide)
  intro r hr
  simp only [folded, RegionStore.bounds, List.map_cons, List.map_nil, List.mem_cons, List.not_mem_nil,
    or_false] at hr
  rcases hr with rfl | rfl | rfl
  · exact fun axis => ht.tied (by decide) hfirst
  · exact Axis.rec (ht.tied_of_line (by decide) hlast .near (Side.rec rfl rfl)) ⟨.refl, .refl⟩
  · exact fun axis => ht.tied (by decide) hlast

theorem resize_regrows_folded : ∃ first second, folded.resize ⟨0, 0, 0, 0⟩ = .ok first ∧
    first.layout.bounds = ⟨0, 0, 10, 6⟩ ∧ first.layout.resize ⟨5, 0, 20, 10⟩ = .ok second ∧
      second.layout.bounds = ⟨5, 0, 20, 10⟩ ∧ second.layout.bounds.Tile second.layout.store.bounds := by
  obtain ⟨first, hfirst, hcollapsed, second, hsecond, hbounds⟩ : ∃ first, folded.resize ⟨0, 0, 0, 0⟩ = .ok first ∧
      first.layout.bounds = ⟨0, 0, 10, 6⟩ ∧ ∃ second, first.layout.resize ⟨5, 0, 20, 10⟩ = .ok second ∧
        second.layout.bounds = ⟨5, 0, 20, 10⟩ := ⟨_, rfl, by decide, _, rfl, by decide⟩
  have hopen : folded.HeldOpen ⟨0, 0, 0, 0⟩ :=
    fun axis => .inr ⟨0, ⟨0, 0, 10, 10⟩, rfl, by cases axis <;> decide, by cases axis <;> decide⟩
  have hsmall : HasPlace folded.bounds ⟨0, 0, 0, 0⟩ := ⟨by decide, Axis.rec (by decide) (by decide)⟩
  have hlarge : HasPlace first.layout.bounds ⟨5, 0, 20, 10⟩ := by
    rw [hcollapsed]
    exact ⟨by decide, Axis.rec (by decide) (by decide)⟩
  refine ⟨first, second, hfirst, hcollapsed, hsecond, hbounds, ?_⟩
  exact (resize_regrows (by decide) (by decide) Scene.foldedColumn_tile (by decide) (by decide) (by decide)
    (fun _ => ⟨folded_tied, hopen, hsmall, hlarge⟩) hfirst hsecond).2.1

/-- Two columns that need not keep any of their extents. -/
def slack : Layout Unit where
  settings := { sizeRange := some ⟨0, 0⟩ }
  bounds := ⟨0, 0, 100, 100⟩
  store := ⟨[{ id := ⟨1⟩, widget := (), bounds := ⟨0, 0, 50, 100⟩ },
    { id := ⟨2⟩, widget := (), bounds := ⟨50, 0, 50, 100⟩ }], 3⟩

/-- Without minimums the columns are left without a width, and growing moves both of their lines. -/
theorem not_resize_regrows : ¬ ∀ (l : Layout Unit) (small large : Rect) (first second : Outcome Unit Rect),
    l.bounds.Solid → (∀ r ∈ l.store.bounds, r.Solid) → l.bounds.Tile l.store.bounds →
    small.Fits ∧ 0 ≤ small.height ∧ small.width = 0 → large.Solid → l.resize small = .ok first →
    first.layout.resize large = .ok second → second.layout.bounds.Tile second.layout.store.bounds := by
  intro h
  have htile : slack.bounds.Tile slack.store.bounds :=
    Rect.tile_beside .x (by decide) ⟨⟨rfl, rfl⟩, ⟨rfl, rfl⟩⟩ rfl rfl rfl
  have hregrown := h slack ⟨0, 0, 0, 100⟩ ⟨0, 0, 100, 100⟩ _ _ (by decide) (by decide) htile (by decide)
    (by decide) rfl rfl
  exact absurd (hregrown.2 ⟨0, 0⟩ (by decide)) (by decide)

end Mosaic.Layout
