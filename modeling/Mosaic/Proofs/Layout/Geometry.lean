import Mosaic.Layout.Resize
import Mosaic.Layout.Restore
import Mosaic.Proofs.Plane.Span
import Mosaic.Proofs.Region.Store

/-! The geometry of a layout is what a snapshot of it holds. Moves and resizes change nothing else,
and restoring a snapshot of the same regions gives that snapshot back. -/
namespace Mosaic.Layout

variable {W : Type} {l l' l'' : Layout W} {s : Snapshot} {held : Grip} {goal : Point}

theorem snapshot_bounds (l : Layout W) : l.snapshot.items.map (·.bounds) = l.store.bounds := by
  simp [snapshot, RegionStore.bounds]

theorem snapshot_ids (l : Layout W) : l.snapshot.items.map (·.id) = l.store.ids := by
  simp [snapshot, RegionStore.ids]

theorem anchorPosition?_eq (l : Layout W) :
    l.anchorPosition? = l.anchor.bind fun id => l.store.ids.findIdx? (· = id) := by
  simp [anchorPosition?, RegionStore.idxOf?, RegionStore.ids, List.findIdx?_map, Function.comp_def]

theorem anchorBounds?_eq (l : Layout W) :
    l.anchorBounds? = l.anchorPosition?.bind fun position => l.store.bounds[position]? := by
  cases hanchor : l.anchor with
  | none => simp [anchorBounds?, anchorPosition?, hanchor]
  | some id =>
    have hfind : l.store.get? id = (l.store.idxOf? id).bind (l.store.regions[·]?) :=
      List.find?_eq_bind_findIdx?_getElem?
    simp only [anchorBounds?, anchorPosition?, hanchor, Option.bind_eq_bind, Option.bind_some, hfind]
    cases l.store.idxOf? id with
    | none => rfl
    | some position =>
      rw [Option.bind_some, Option.bind_some, RegionStore.bounds, List.getElem?_map]
      cases l.store.regions[position]? <;> rfl

theorem bounds_anchorPosition {position : Nat} (h : l.anchorPosition? = some position) :
    ∃ anchor, l.store.bounds[position]? = some anchor ∧ l.anchorBounds? = some anchor := by
  obtain ⟨id, -, hid⟩ := Option.bind_eq_some_iff.1 h
  obtain ⟨hlt, -⟩ := List.findIdx?_eq_some_iff_getElem.1 hid
  have hget : l.store.bounds[position]? = some l.store.regions[position].bounds := by
    rw [RegionStore.bounds, List.getElem?_map, List.getElem?_eq_getElem hlt]
    rfl
  exact ⟨_, hget, by rw [anchorBounds?_eq, h]; exact hget⟩

theorem mem_of_anchorBounds? {anchor : Rect} (h : l.anchorBounds? = some anchor) : anchor ∈ l.store.bounds := by
  rw [anchorBounds?_eq] at h
  obtain ⟨position, -, hget⟩ := Option.bind_eq_some_iff.1 h
  exact List.mem_of_getElem? hget

/-- Only the container and the places of the regions differ. -/
structure Rearranged (l l' : Layout W) : Prop where
  settings : l'.settings = l.settings
  anchor : l'.anchor = l.anchor
  gesture : l'.gesture = l.gesture
  next : l'.store.next = l.store.next
  regions : ∀ {α : Type} (f : Region W → α), (∀ r bounds, f (r.place bounds) = f r) →
    l'.store.regions.map f = l.store.regions.map f

namespace Rearranged

theorem refl (l : Layout W) : Rearranged l l := ⟨rfl, rfl, rfl, rfl, fun _ _ => rfl⟩

theorem trans (h : Rearranged l l') (h' : Rearranged l' l'') : Rearranged l l'' :=
  ⟨h'.settings.trans h.settings, h'.anchor.trans h.anchor, h'.gesture.trans h.gesture,
    h'.next.trans h.next, fun f hf => (h'.regions f hf).trans (h.regions f hf)⟩

theorem place (l : Layout W) (rects : List Rect) (bounds : Rect) :
    Rearranged l { l with store := l.store.place rects, bounds } :=
  ⟨rfl, rfl, rfl, rfl, fun _ hf => RegionStore.map_place hf l.store rects⟩

theorem rebound (h : Rearranged l l') (bounds : Rect) : Rearranged l { l' with bounds } :=
  ⟨h.settings, h.anchor, h.gesture, h.next, h.regions⟩

theorem ids (h : Rearranged l l') : l'.store.ids = l.store.ids := by
  refine h.regions (·.id) fun r bounds => ?_
  obtain ⟨dirty, hr⟩ := r.place_eq bounds
  rw [hr]

theorem length_bounds (h : Rearranged l l') : l'.store.bounds.length = l.store.bounds.length := by
  simpa [RegionStore.ids, RegionStore.bounds] using congrArg List.length h.ids

theorem regions_eq_nil_iff (h : Rearranged l l') : l'.store.regions = [] ↔ l.store.regions = [] := by
  have hids : l'.store.regions.map (·.id) = l.store.regions.map (·.id) := h.ids
  rw [← List.map_eq_nil_iff (f := (·.id)), hids, List.map_eq_nil_iff]

theorem anchorPosition? (h : Rearranged l l') : l'.anchorPosition? = l.anchorPosition? := by
  rw [anchorPosition?_eq, h.anchor, h.ids, ← anchorPosition?_eq]

theorem minSizes (h : Rearranged l l') :
    l'.store.regions.map (·.minSize) = l.store.regions.map (·.minSize) := by
  refine h.regions (·.minSize) fun r bounds => ?_
  obtain ⟨dirty, hr⟩ := r.place_eq bounds
  rw [hr]

end Rearranged

/-- The regions were given bounds in one go, some or all of them. -/
def Placed (l l' : Layout W) : Prop := ∃ rects bounds, l' = { l with store := l.store.place rects, bounds }

namespace Placed

theorem rebound (l : Layout W) (bounds : Rect) : Placed l { l with bounds } :=
  ⟨[], bounds, by rw [RegionStore.place_nil]⟩

theorem refl (l : Layout W) : Placed l l := rebound l l.bounds

theorem write (l : Layout W) (plan : Plan) : Placed l (l.write plan) := ⟨plan.patch.rects, l.bounds, rfl⟩

theorem rearranged (h : Placed l l') : Rearranged l l' := by
  obtain ⟨rects, bounds, rfl⟩ := h
  exact .place l rects bounds

theorem eq_self (h : Placed l l') (hbounds : l'.bounds = l.bounds) (hrects : l'.store.bounds = l.store.bounds) :
    l' = l := by
  obtain ⟨rects, bounds, rfl⟩ := h
  obtain rfl : bounds = l.bounds := hbounds
  exact congrArg (fun store => { l with store }) (RegionStore.place_eq_self hrects)

end Placed

theorem write_rearranged (l : Layout W) (plan : Plan) : Rearranged l (l.write plan) :=
  (Placed.write l plan).rearranged

theorem commitWithin_eq_ok {limits : Rect} {o : Outcome W Grip}
    (h : l.commitWithin held goal limits = .ok o) : ∃ plan trace,
      (l.scene limits).planFrom held goal {} = .ok (plan, trace) ∧ o.value = plan.achieved ∧
        o.layout = l.write plan := by
  obtain ⟨planned, hplanned, h⟩ := Checked.bind_eq_ok.1 h
  obtain ⟨⟨plan, trace⟩, hplan, hp⟩ := Checked.bind_eq_ok.1 hplanned
  cases Checked.pure_eq_ok.1 hp
  cases Checked.pure_eq_ok.1 h
  exact ⟨plan, trace, hplan, rfl, rfl⟩

theorem commitLinesWithin_eq_ok {limits : Rect} {o : Outcome W Grip}
    (h : l.commitLinesWithin held goal limits = .ok o) : ∃ plan trace,
      (l.scene limits).planLines held goal {} = .ok (plan, trace) ∧ o.value = plan.achieved ∧
        o.layout = l.write plan := by
  obtain ⟨⟨plan, trace⟩, hplan, h⟩ := Checked.bind_eq_ok.1 h
  cases Checked.pure_eq_ok.1 h
  exact ⟨plan, trace, hplan, rfl, rfl⟩

theorem drag_commits {o : Outcome W Grip} (h : l.drag held goal = .ok o) :
    ∃ moved, l.commitWithin held goal l.bounds = .ok moved ∧ o.value = moved.value ∧ o.layout = moved.layout := by
  obtain ⟨moved, hmoved, h⟩ := Checked.bind_eq_ok.1 h
  cases Checked.pure_eq_ok.1 h
  exact ⟨moved, hmoved, rfl, rfl⟩

theorem drag_eq_ok {o : Outcome W Grip} (h : l.drag held goal = .ok o) : ∃ plan trace,
    (l.scene l.bounds).planFrom held goal {} = .ok (plan, trace) ∧ o.layout = l.write plan := by
  obtain ⟨moved, hmoved, -, hlayout⟩ := drag_commits h
  obtain ⟨plan, trace, hplan, -, hwritten⟩ := commitWithin_eq_ok hmoved
  exact ⟨plan, trace, hplan, hlayout.trans hwritten⟩

theorem move_commits {o : Outcome W Grip} (h : l.move held goal = .ok o) :
    ∃ moved, l.commitWithin held goal l.bounds = .ok moved ∧ o.value = moved.value ∧ o.layout = moved.layout := by
  obtain ⟨moved, hmoved, h⟩ := Checked.bind_eq_ok.1 h
  refine ⟨moved, hmoved, ?_⟩
  split at h
  · obtain ⟨findings, -, h⟩ := Checked.bind_eq_ok.1 h
    cases Checked.pure_eq_ok.1 h
    exact ⟨rfl, rfl⟩
  · obtain ⟨findings, -, h⟩ := Checked.bind_eq_ok.1 h
    cases Checked.pure_eq_ok.1 h
    exact ⟨rfl, rfl⟩

theorem move_eq_ok {o : Outcome W Grip} (h : l.move held goal = .ok o) : ∃ plan trace,
    (l.scene l.bounds).planFrom held goal {} = .ok (plan, trace) ∧ o.layout = l.write plan := by
  obtain ⟨moved, hmoved, -, hlayout⟩ := move_commits h
  obtain ⟨plan, trace, hplan, -, hwritten⟩ := commitWithin_eq_ok hmoved
  exact ⟨plan, trace, hplan, hlayout.trans hwritten⟩

theorem drag_placed {o : Outcome W Grip} (h : l.drag held goal = .ok o) : Placed l o.layout := by
  obtain ⟨plan, trace, -, hlayout⟩ := drag_eq_ok h
  exact hlayout ▸ .write l plan

theorem drag_rearranged {o : Outcome W Grip} (h : l.drag held goal = .ok o) : Rearranged l o.layout :=
  (drag_placed h).rearranged

theorem container_drag {o : Outcome W Grip} (h : l.drag held goal = .ok o) : o.layout.bounds = l.bounds := by
  obtain ⟨plan, trace, -, hlayout⟩ := drag_eq_ok h
  rw [hlayout]
  rfl

theorem move_placed {o : Outcome W Grip} (h : l.move held goal = .ok o) : Placed l o.layout := by
  obtain ⟨plan, trace, -, hlayout⟩ := move_eq_ok h
  exact hlayout ▸ .write l plan

theorem move_rearranged {o : Outcome W Grip} (h : l.move held goal = .ok o) : Rearranged l o.layout :=
  (move_placed h).rearranged

theorem container_move {o : Outcome W Grip} (h : l.move held goal = .ok o) : o.layout.bounds = l.bounds := by
  obtain ⟨plan, trace, -, hlayout⟩ := move_eq_ok h
  rw [hlayout]
  rfl

/-- A patch is refused, which leaves the layout as it is, or it is written as a whole. -/
theorem applyPatch_cases {patch : Patch} {o : Outcome W (Except LayoutError (List RegionId))}
    (h : l.applyPatch patch = .ok o) : (∃ e, o = { value := .error e, layout := l }) ∨
      let placed := { l with store := l.store.place patch.rects }
      o = { value := .ok (placed.store.changedSince l.store.bounds), layout := placed } := by
  unfold applyPatch at h
  split at h
  · cases h
    exact .inl ⟨_, rfl⟩
  · obtain ⟨report, -, h⟩ := Checked.bind_eq_ok.1 h
    split at h
    · cases h
      exact .inl ⟨_, rfl⟩
    · cases h
      exact .inr rfl

theorem applyPatch_placed {patch : Patch} {o : Outcome W (Except LayoutError (List RegionId))}
    (h : l.applyPatch patch = .ok o) : Placed l o.layout := by
  rcases applyPatch_cases h with ⟨e, rfl⟩ | rfl
  · exact .refl l
  · exact ⟨patch.rects, l.bounds, rfl⟩

theorem applyPatch_rearranged {patch : Patch} {o : Outcome W (Except LayoutError (List RegionId))}
    (h : l.applyPatch patch = .ok o) : Rearranged l o.layout := (applyPatch_placed h).rearranged

theorem container_applyPatch {patch : Patch} {o : Outcome W (Except LayoutError (List RegionId))}
    (h : l.applyPatch patch = .ok o) : o.layout.bounds = l.bounds := by
  rcases applyPatch_cases h with ⟨e, rfl⟩ | rfl
  · rfl
  · rfl

theorem stretch_eq_ok {target : Rect} (h : l.stretch target = .ok l') : ∃ x y rects,
    Stretch.between l.bounds (l.anchorBounds?.getD l.bounds) target .x = .ok x ∧
      Stretch.between l.bounds (l.anchorBounds?.getD l.bounds) target .y = .ok y ∧
        l.store.bounds.mapM (x.mapRect y) = .ok rects ∧
          l' = { l with store := l.store.place rects, bounds := target } := by
  obtain ⟨x, hx, h⟩ := Checked.bind_eq_ok.1 h
  obtain ⟨y, hy, h⟩ := Checked.bind_eq_ok.1 h
  obtain ⟨rects, hrects, h⟩ := Checked.bind_eq_ok.1 h
  exact ⟨x, y, rects, hx, hy, hrects, (Checked.pure_eq_ok.1 h).symm⟩

theorem stretch_placed {target : Rect} (h : l.stretch target = .ok l') : Placed l l' := by
  obtain ⟨x, y, rects, -, -, -, hl'⟩ := stretch_eq_ok h
  exact ⟨rects, target, hl'⟩

/-- What a resize comes to: nothing, as there is nothing to do or no region, or it follows the target with
cascades, or it stretches the regions. -/
inductive Resizes (l : Layout W) (target : Rect) (o : Outcome W Rect) : Prop
  | same (hsame : Rect.clamped target.x target.y target.width target.height = l.bounds)
      (hlayout : o.layout = l) (hvalue : o.value = l.bounds)
      (hjournal : o.journal =
        Entry.under (.resize (.clamped target.x target.y target.width target.height)) [])
  | bare (hempty : l.store.regions = [])
      (hlayout : o.layout = { l with bounds := .clamped target.x target.y target.width target.height })
      (hvalue : o.value = o.layout.bounds)
      (hjournal : o.journal =
        Entry.under (.resize (.clamped target.x target.y target.width target.height)) [])
  | followed (followed : Outcome W Rect) (findings : List Entry) (hranged : l.hasSizeRange = true)
      (hfollow : l.follow (.clamped target.x target.y target.width target.height) = .ok followed)
      (hlayout : o.layout = followed.layout) (hvalue : o.value = followed.value)
      (hfindings : followed.layout.revalidate = .ok findings)
      (hjournal : o.journal =
        Entry.under (.resize (.clamped target.x target.y target.width target.height))
          (followed.journal ++ findings ++
            [⟨none, .resized followed.value (.clamped target.x target.y target.width target.height)⟩]))
      (hmoves : Rect.clamped target.x target.y target.width target.height ≠ l.bounds)
      (hfilled : l.store.regions ≠ [])
  | stretched (hclassic : l.hasSizeRange = false)
      (hstretch : l.stretch ⟨target.x, target.y, max (max target.width 0) 1,
        max (max target.height 0) 1⟩ = .ok o.layout)
      (hvalue : o.value = ⟨target.x, target.y, max (max target.width 0) 1, max (max target.height 0) 1⟩)
      (hjournal : o.journal =
        Entry.under (.resize (.clamped target.x target.y target.width target.height))
          [⟨none, .resized o.value (.clamped target.x target.y target.width target.height)⟩])
      (hmoves : Rect.clamped target.x target.y target.width target.height ≠ l.bounds)
      (hfilled : l.store.regions ≠ [])

theorem resize_eq_ok {target : Rect} {o : Outcome W Rect} (h : l.resize target = .ok o) :
    Resizes l target o := by
  simp only [resize] at h
  split at h
  · next hsame =>
    obtain ⟨same, hpure, h⟩ := Checked.bind_eq_ok.1 h
    cases Checked.pure_eq_ok.1 hpure
    cases Checked.pure_eq_ok.1 h
    exact .same hsame rfl hsame rfl
  · next hmoves =>
    split at h
    · next hempty =>
      obtain ⟨bare, hbare, h⟩ := Checked.bind_eq_ok.1 h
      cases Checked.pure_eq_ok.1 hbare
      cases Checked.pure_eq_ok.1 h
      exact .bare hempty rfl rfl rfl
    · next hfilled =>
      split at h
      · next hrange =>
        obtain ⟨followed, hfollow, h⟩ := Checked.bind_eq_ok.1 h
        obtain ⟨findings, hfindings, h⟩ := Checked.bind_eq_ok.1 h
        obtain ⟨noted, hnoted, h⟩ := Checked.bind_eq_ok.1 h
        cases Checked.pure_eq_ok.1 hnoted
        cases Checked.pure_eq_ok.1 h
        exact .followed followed findings hrange hfollow rfl rfl hfindings rfl hmoves hfilled
      · next hrange =>
        obtain ⟨stretched, hstretch, h⟩ := Checked.bind_eq_ok.1 h
        obtain ⟨noted, hnoted, h⟩ := Checked.bind_eq_ok.1 h
        cases Checked.pure_eq_ok.1 hnoted
        cases Checked.pure_eq_ok.1 h
        exact .stretched (Bool.eq_false_iff.2 hrange) hstretch rfl rfl hmoves hfilled

theorem resize_empty (hempty : l.store.regions = []) {target : Rect} {o : Outcome W Rect}
    (h : l.resize target = .ok o) : o.value = .clamped target.x target.y target.width target.height ∧
      o.layout = { l with bounds := o.value } := by
  simp only [resize, if_pos hempty] at h
  split at h
  · next hsame =>
    cases h
    simp only [hsame, Outcome.under, and_self]
  · cases h
    exact ⟨rfl, rfl⟩

theorem regions_ne_nil (hbox : l.bounds.Solid) (ht : l.bounds.Tile l.store.bounds) : l.store.regions ≠ [] :=
  fun hempty => ht.ne_nil hbox.covers_near (List.map_eq_nil_iff.2 hempty)

theorem shiftTo_placed {target : Rect} (h : l.shiftTo target = .ok l') : Placed l l' := by
  obtain ⟨dx, -, h⟩ := Checked.bind_eq_ok.1 h
  obtain ⟨dy, -, h⟩ := Checked.bind_eq_ok.1 h
  split at h
  · cases Checked.pure_eq_ok.1 h
    exact .refl l
  · cases Checked.pure_eq_ok.1 h
    exact ⟨_, _, rfl⟩

theorem commitAim_placed {aim : Aim} {limits : Rect} {o : Outcome W Unit}
    (h : l.commitAim aim limits = .ok o) : Placed l o.layout := by
  unfold commitAim at h
  split at h
  · cases h
    exact .refl l
  · obtain ⟨moved, hmoved, h⟩ := Checked.bind_eq_ok.1 h
    cases Checked.pure_eq_ok.1 h
    obtain ⟨plan, trace, -, -, hlayout⟩ := commitWithin_eq_ok hmoved
    exact hlayout ▸ .write l plan

/-- How much an axis has grown: as much as its line has moved, or as planned where no line was held. -/
def grown (far growth : Int) : Option Int → Int
  | some line => line - far
  | none => growth

private theorem exists_grown {α : Type} {line : Option Int} {far growth : Int} {k : Int → Checked α}
    {a : α} (h : (match line with
      | some line => Coord.sub line far >>= k
      | none => pure growth >>= k) = .ok a) : k (grown far growth line) = .ok a := by
  cases line with
  | none => exact h
  | some line =>
    obtain ⟨gap, hgap, h⟩ := Checked.bind_eq_ok.1 h
    obtain ⟨-, rfl⟩ := Coord.sub_eq_ok_iff.1 hgap
    exact h

theorem commitCorner_eq_ok {box limits : Rect} {growth : Size} {aim : Aim} {o : Outcome W Size}
    (h : l.commitCorner box growth aim limits = .ok o) :
    (aim.held.IsEmpty ∧ o.layout = l ∧ o.value = growth) ∨ ∃ plan trace,
      (l.scene limits).planLines aim.held aim.goal {} = .ok (plan, trace) ∧ o.layout = l.write plan ∧
        o.value = ⟨grown (box.far .x) growth.width plan.achieved.x,
          grown (box.far .y) growth.height plan.achieved.y⟩ := by
  unfold commitCorner at h
  split at h
  · next hempty =>
    cases h
    exact .inl ⟨hempty, rfl, rfl⟩
  · obtain ⟨moved, hmoved, h⟩ := Checked.bind_eq_ok.1 h
    obtain ⟨plan, trace, hplan, hvalue, hlayout⟩ := commitLinesWithin_eq_ok hmoved
    have h := exists_grown (exists_grown h)
    cases Checked.pure_eq_ok.1 h
    exact .inr ⟨plan, trace, hplan, hlayout, by rw [hvalue]⟩

theorem commitCorner_placed {box limits : Rect} {growth : Size} {aim : Aim} {o : Outcome W Size}
    (h : l.commitCorner box growth aim limits = .ok o) : Placed l o.layout := by
  rcases commitCorner_eq_ok h with ⟨-, hlayout, -⟩ | ⟨plan, trace, -, hlayout, -⟩
  · exact hlayout ▸ .refl l
  · exact hlayout ▸ .write l plan

/-- How the anchor is to give way, if there is one. -/
def aimInward (l : Layout W) (box : Rect) (growth : Size) : Checked Aim :=
  match l.anchorPosition? with
  | none => .ok (.start ⟨0, 0⟩)
  | some position =>
    let anchor := l.store.bounds[position]?.getD .zero
    let min := l.mins[position]?.getD .zero
    Axis.all.foldlM (aimAnchorInward anchor box min growth) (.start ⟨anchor.right, anchor.bottom⟩)

def aimOutward (l : Layout W) (box : Rect) (growth : Size) : Checked Aim :=
  match l.anchorBounds? with
  | none => .ok (.start ⟨0, 0⟩)
  | some anchor =>
    Axis.all.foldlM (aimAnchorOutward anchor box growth) (.start ⟨anchor.right, anchor.bottom⟩)

/-- The layout once the anchor has given way to a target. The far lines are still to be moved then. -/
def giveWay (l : Layout W) (target : Rect) : Checked (Layout W) := do
  let l ← l.shiftTo target
  match ← Rect.boundingBox l.store.bounds with
  | none => return l
  | some box =>
    let limits ← box.union (.clamped box.x box.y target.width target.height)
    let scene := l.scene limits
    let (width, trace) ← feasibleGrowth scene box ⟨target.width - box.width, target.height - box.height⟩ .x {}
    let (height, _) ← feasibleGrowth scene box ⟨width, target.height - box.height⟩ .y trace
    let inward ← l.aimInward box ⟨width, height⟩
    return (← l.commitAim inward limits).layout

/-- What following a target goes through: everything is moved along and, unless there are no regions,
the anchor gives way, the far lines take the box along, and the anchor gets what is gained. -/
inductive Follows (l : Layout W) (target : Rect) (o : Outcome W Rect) : Prop
  | bare (hshift : l.shiftTo target = .ok o.layout) (hbox : Rect.boundingBox o.layout.store.bounds = .ok none)
      (hjournal : o.journal = [])
  | boxed (shifted : Layout W) (box limits : Rect) (width height : Int) (trace trace' : Trace)
      (inward corner outward : Aim) (first third : Outcome W Unit) (second : Outcome W Size)
      (hshift : l.shiftTo target = .ok shifted)
      (hbox : Rect.boundingBox shifted.store.bounds = .ok (some box))
      (hlimits : box.union (.clamped box.x box.y target.width target.height) = .ok limits)
      (hwidth : feasibleGrowth (shifted.scene limits) box
        ⟨target.width - box.width, target.height - box.height⟩ .x {} = .ok (width, trace))
      (hheight : feasibleGrowth (shifted.scene limits) box ⟨width, target.height - box.height⟩ .y trace =
        .ok (height, trace'))
      (hinward : shifted.aimInward box ⟨width, height⟩ = .ok inward)
      (hfirst : shifted.commitAim inward limits = .ok first)
      (hcorner : Axis.all.foldlM (aimCorner box ⟨width, height⟩) (.start ⟨box.right, box.bottom⟩) =
        .ok corner)
      (hsecond : first.layout.commitCorner box ⟨width, height⟩ corner limits = .ok second)
      (houtward : second.layout.aimOutward box second.value = .ok outward)
      (hthird : second.layout.commitAim outward limits = .ok third)
      (hcovered : Coord.Fits (box.width + second.value.width) ∧
        Coord.Fits (box.height + second.value.height))
      (hlayout : o.layout = { third.layout with
        bounds := .clamped box.x box.y (box.width + second.value.width)
          (box.height + second.value.height) })
      (hvalue : o.value = o.layout.bounds)
      (hjournal : o.journal =
        Entry.ofHops trace'.hops.reverse ++ first.journal ++ second.journal ++ third.journal)

theorem follow_eq_ok {target : Rect} {o : Outcome W Rect} (h : l.follow target = .ok o) :
    Follows l target o := by
  obtain ⟨shifted, hshift, h⟩ := Checked.bind_eq_ok.1 h
  obtain ⟨box?, hbox, h⟩ := Checked.bind_eq_ok.1 h
  cases box? with
  | none =>
    cases Checked.pure_eq_ok.1 h
    exact .bare hshift hbox rfl
  | some box =>
    simp -zeta only at h
    obtain ⟨askedW, hw, h⟩ := Checked.bind_eq_ok.1 h
    obtain ⟨askedH, hh, h⟩ := Checked.bind_eq_ok.1 h
    obtain ⟨-, rfl⟩ := Coord.sub_eq_ok_iff.1 hw
    obtain ⟨-, rfl⟩ := Coord.sub_eq_ok_iff.1 hh
    obtain ⟨limits, hlimits, h⟩ := Checked.bind_eq_ok.1 h
    obtain ⟨⟨width, trace⟩, hwidth, h⟩ := Checked.bind_eq_ok.1 h
    obtain ⟨⟨height, trace'⟩, hheight, h⟩ := Checked.bind_eq_ok.1 h
    extract_lets growth onward at h
    obtain ⟨inward, hinward, h⟩ : ∃ inward, shifted.aimInward box growth = .ok inward ∧
        onward inward = .ok o := by
      split at h
      · next hnone => exact ⟨.start ⟨0, 0⟩, by rw [aimInward, hnone], h⟩
      · next hposition =>
        obtain ⟨inward, haims, h⟩ := Checked.bind_eq_ok.1 h
        exact ⟨inward, by rw [aimInward, hposition]; exact haims, h⟩
    obtain ⟨first, hfirst, h⟩ := Checked.bind_eq_ok.1 h
    obtain ⟨corner, hcorner, h⟩ := Checked.bind_eq_ok.1 h
    obtain ⟨second, hsecond, h⟩ := Checked.bind_eq_ok.1 h
    extract_lets last at h
    obtain ⟨outward, houtward, h⟩ : ∃ outward, second.layout.aimOutward box second.value = .ok outward ∧
        last outward = .ok o := by
      split at h
      · next hnone => exact ⟨.start ⟨0, 0⟩, by rw [aimOutward, hnone], h⟩
      · next hanchor =>
        obtain ⟨outward, haims, h⟩ := Checked.bind_eq_ok.1 h
        exact ⟨outward, by rw [aimOutward, hanchor]; exact haims, h⟩
    obtain ⟨third, hthird, h⟩ := Checked.bind_eq_ok.1 h
    obtain ⟨coveredW, hcoveredW, h⟩ := Checked.bind_eq_ok.1 h
    obtain ⟨coveredH, hcoveredH, h⟩ := Checked.bind_eq_ok.1 h
    obtain ⟨hfitsW, rfl⟩ := Coord.add_eq_ok_iff.1 hcoveredW
    obtain ⟨hfitsH, rfl⟩ := Coord.add_eq_ok_iff.1 hcoveredH
    cases Checked.pure_eq_ok.1 h
    exact .boxed shifted box limits width height trace trace' inward corner outward first third second
      hshift hbox hlimits hwidth hheight hinward hfirst hcorner hsecond houtward hthird ⟨hfitsW, hfitsH⟩ rfl
      rfl rfl

theorem follow_rearranged {target : Rect} {o : Outcome W Rect} (h : l.follow target = .ok o) :
    Rearranged l o.layout := by
  cases follow_eq_ok h with
  | bare hshift => exact (shiftTo_placed hshift).rearranged
  | boxed shifted box limits width height trace trace' inward corner outward first third second hshift _ _
      _ _ _ hfirst _ hsecond _ hthird _ hlayout =>
    have hmoved := ((shiftTo_placed hshift).rearranged.trans (commitAim_placed hfirst).rearranged).trans
      ((commitCorner_placed hsecond).rearranged.trans (commitAim_placed hthird).rearranged)
    exact hlayout ▸ hmoved.rebound _

theorem resize_rearranged {target : Rect} {o : Outcome W Rect} (h : l.resize target = .ok o) :
    Rearranged l o.layout := by
  cases resize_eq_ok h with
  | same hsame hlayout => exact hlayout ▸ .refl l
  | bare hempty hlayout => exact hlayout ▸ (Rearranged.refl l).rebound _
  | followed followed findings hranged hfollow hlayout => exact hlayout ▸ follow_rearranged hfollow
  | stretched hclassic hstretch => exact (stretch_placed hstretch).rearranged

private theorem item_restoreRegion {r : Region W} {i : Snapshot.Item} (h : s.item? r.id = some i)
    (hid : i.id = r.id) : (⟨(restoreRegion s r).id, (restoreRegion s r).bounds,
      (restoreRegion s r).minSize, (restoreRegion s r).maxSize⟩ : Snapshot.Item) = i := by
  obtain ⟨id, bounds, minSize, maxSize⟩ := i
  obtain ⟨dirty, hplace⟩ := r.place_eq bounds
  obtain rfl : id = r.id := hid
  simp [restoreRegion, h, hplace]

private theorem items_restoreRegion {items : List Snapshot.Item} {rs : List (Region W)}
    (hids : items.map (·.id) = rs.map (·.id)) (hitems : ∀ i ∈ items, s.item? i.id = some i) :
    (rs.map (restoreRegion s)).map (fun r => (⟨r.id, r.bounds, r.minSize, r.maxSize⟩ : Snapshot.Item)) =
      items := by
  induction items generalizing rs with
  | nil =>
    rw [List.map_eq_nil_iff.1 hids.symm]
    rfl
  | cons i items ih =>
    cases rs with
    | nil => cases hids
    | cons r rs =>
      obtain ⟨hid, hids⟩ := List.cons.inj hids
      replace hid : i.id = r.id := hid
      have hi := hitems i List.mem_cons_self
      rw [List.map_cons, List.map_cons, ih hids fun j hj => hitems j (List.mem_cons_of_mem _ hj)]
      rw [item_restoreRegion (hid ▸ hi) hid]

/-- Restoring a snapshot of the same regions, in their order, gives its geometry. -/
theorem snapshot_withSnapshot (hversion : s.version = Snapshot.supportedVersion)
    (hids : s.items.map (·.id) = l.store.ids) (hnodup : l.store.ids.Nodup) :
    (l.withSnapshot s).snapshot = s := by
  have hitems := items_restoreRegion hids fun i hi =>
    find?_of_nodup (hids ▸ hnodup) hi
  obtain ⟨version, container, anchor, items⟩ := s
  obtain rfl : version = Snapshot.supportedVersion := hversion
  exact congrArg (Snapshot.mk Snapshot.supportedVersion container anchor) hitems

theorem ids_withSnapshot (l : Layout W) (s : Snapshot) : (l.withSnapshot s).store.ids = l.store.ids := by
  simp only [withSnapshot, RegionStore.ids, List.map_map]
  refine List.map_congr_left fun r _ => ?_
  simp only [Function.comp, restoreRegion]
  split
  · rfl
  · next i _ =>
    obtain ⟨dirty, hplace⟩ := r.place_eq i.bounds
    rw [hplace]

/-- A snapshot is refused, which leaves the layout as it is, or it fits and the check finds no errors in its items,
and then all of it is put back. -/
theorem restore_cases {o : Outcome W (Except LayoutError (List RegionId))} (h : l.restore s = .ok o) :
    (∃ e, o = { value := .error e, layout := l }) ∨
      let changed := (l.withSnapshot s).store.changedSince l.store.bounds
      o = {
        value := .ok changed
        layout := l.withSnapshot s
        journal := [{ note := .restored s.fingerprint changed.length }] } ∧
      l.mismatch? s = none ∧ ∃ report,
        Cover.check s.container (s.items.map fun i => { id := i.id, bounds := i.bounds }) = .ok report ∧
          ¬ report.HasErrors := by
  unfold restore at h
  split at h
  · cases h
    exact .inl ⟨_, rfl⟩
  · next hmismatch =>
    obtain ⟨report, hcheck, h⟩ := Checked.bind_eq_ok.1 h
    split at h
    · cases h
      exact .inl ⟨_, rfl⟩
    · next hclear =>
      cases h
      exact .inr ⟨rfl, hmismatch, report, hcheck, hclear⟩

theorem restore_accepts {o : Outcome W (Except LayoutError (List RegionId))} {changed : List RegionId}
    (h : l.restore s = .ok o) (hvalue : o.value = .ok changed) :
    l.mismatch? s = none ∧ o.layout = l.withSnapshot s ∧
      changed = o.layout.store.changedSince l.store.bounds ∧ ∃ report,
      Cover.check s.container (s.items.map fun i => { id := i.id, bounds := i.bounds }) = .ok report ∧
        ¬ report.HasErrors := by
  rcases restore_cases h with ⟨e, rfl⟩ | ⟨rfl, hmismatch, hclear⟩
  · cases hvalue
  · cases hvalue
    exact ⟨hmismatch, rfl, rfl, hclear⟩

/-- A snapshot fits when it names the regions there are and no others. -/
theorem mismatch?_eq_none_iff : l.mismatch? s = none ↔ s.version = Snapshot.supportedVersion ∧
    (∀ i ∈ s.items, i.id ∈ l.store.ids) ∧ (∀ id ∈ l.store.ids, ∃ i, s.item? id = some i) ∧
      ∀ id, s.anchor = some id → id ∈ l.store.ids := by
  have hknown : (s.items.map (·.id)).find? (!l.store.contains ·) = none ↔ ∀ i ∈ s.items, i.id ∈ l.store.ids := by
    simp [List.find?_eq_none, RegionStore.contains_iff]
  have hnamed : (l.store.ids.find? fun id => (s.item? id).isNone) = none ↔
      ∀ id ∈ l.store.ids, ∃ i, s.item? id = some i := by
    simp [List.find?_eq_none, ← Option.ne_none_iff_exists']
  have hanchor : (s.anchor.filter (!l.store.contains ·)).map SnapshotError.unknownRegion = none ↔
      ∀ id, s.anchor = some id → id ∈ l.store.ids := by
    simp [Option.filter_eq_none_iff, RegionStore.contains_iff]
  rw [← hknown, ← hnamed, ← hanchor]
  unfold mismatch?
  split
  · next hversion => simp [hversion]
  · next hversion =>
    rw [Classical.not_not] at hversion
    split
    · next heq => simp [heq]
    · next heq =>
      split
      · next heq' => simp [heq']
      · next heq' => simp [hversion, heq, heq']

theorem restore_eq_ok {o : Outcome W (Except LayoutError (List RegionId))} {changed : List RegionId}
    (h : l.restore s = .ok o) (hvalue : o.value = .ok changed) :
    s.version = Snapshot.supportedVersion ∧ o.layout = l.withSnapshot s ∧
      changed = o.layout.store.changedSince l.store.bounds := by
  obtain ⟨hmismatch, hlayout, hchanged, -⟩ := restore_accepts h hvalue
  exact ⟨(mismatch?_eq_none_iff.1 hmismatch).1, hlayout, hchanged⟩

theorem gesture_restore {o : Outcome W (Except LayoutError (List RegionId))} (h : l.restore s = .ok o) :
    o.layout.gesture = l.gesture := by
  rcases restore_cases h with ⟨e, rfl⟩ | ⟨rfl, -⟩
  · rfl
  · rfl

end Mosaic.Layout
