import Mosaic.Layout.Move

/-! Resizing the container. Without a size range every edge is mapped to a new place: edges at or
past the anchor's far edge follow the far edge of the container. With one, lines are moved by
cascades, so the container shrinks no further than the minimums allow. -/
namespace Mosaic

/-- How the edges of one axis are mapped. -/
structure Stretch where
  oldNear : Int
  shift : Int
  growth : Int
  /-- Edges from here on follow the container's far edge. -/
  threshold : Int
  /-- Where the threshold goes; no edge before it is mapped past it. -/
  limit : Int
  near : Int
  far : Int
deriving DecidableEq

namespace Stretch

def between (old anchor target : Rect) (axis : Axis) : Checked Stretch := do
  let shift ← Coord.sub (target.near axis) (old.near axis)
  let growth ← Coord.sub (target.extent axis) (old.extent axis)
  let threshold := anchor.far axis
  let limit ← Coord.add (← Coord.add threshold shift) growth
  return ⟨old.near axis, shift, growth, threshold, limit, target.near axis, target.far axis⟩

/-- The new place of an edge. The near edge stays near, also when the anchor ends there. -/
def map (s : Stretch) (edge : Int) : Checked Int :=
  if edge ≤ s.oldNear then .ok s.near
  else do
    let moved ← Coord.add edge s.shift
    let mapped ← if s.threshold ≤ edge then Coord.add moved s.growth else pure (min moved s.limit)
    return max s.near (min mapped (max s.far s.near))

def mapRect (x y : Stretch) (r : Rect) : Checked Rect := do
  let left ← x.map r.x
  let top ← y.map r.y
  let right ← x.map r.right
  let bottom ← y.map r.bottom
  Rect.ofEdges left top right bottom

end Stretch

namespace Layout

variable {W : Type}

/-- Lines to move, and the point to move them to. -/
structure Aim where
  held : Grip
  goal : Point

namespace Aim

def start (goal : Point) : Aim := ⟨.none, goal⟩

def set (aim : Aim) (line goal : Int) : Axis → Aim
  | .x => ⟨aim.held.set line .x, { aim.goal with x := goal }⟩
  | .y => ⟨aim.held.set line .y, { aim.goal with y := goal }⟩

end Aim

/-- Gives every region the bounds between its mapped edges. -/
def stretch (l : Layout W) (target : Rect) : Checked (Layout W) := do
  let anchor := l.anchorBounds?.getD l.bounds
  let x ← Stretch.between l.bounds anchor target .x
  let y ← Stretch.between l.bounds anchor target .y
  let rects ← l.store.bounds.mapM (x.mapRect y)
  return { l with store := l.store.place rects, bounds := target }

/-- Moves the container and all regions so that its near edges are those of the target. -/
def shiftTo (l : Layout W) (target : Rect) : Checked (Layout W) := do
  let dx ← Coord.sub target.x l.bounds.x
  let dy ← Coord.sub target.y l.bounds.y
  if dx = 0 ∧ dy = 0 then return l
  else return { l with
    store := l.store.place (l.store.bounds.map (·.translate dx dy))
    bounds := l.bounds.translate dx dy }

/-- How much the far line of an axis can follow a growth; only a negative one is tried out. -/
def feasibleGrowth (scene : Scene) (box : Rect) (growth : Size) (axis : Axis) (trace : Trace) :
    Checked (Int × Trace) :=
  if growth.along axis < 0 then do
    let far := box.far axis
    let (reached, trace) ← scene.probeLine axis far (← Coord.add far (growth.along axis)) trace
    return (← Coord.sub reached far, trace)
  else .ok (growth.along axis, trace)

/-- Before the container shrinks, the anchor gives up what it has above its minimum. -/
def aimAnchorInward (anchor box : Rect) (min growth : Size) (aim : Aim) (axis : Axis) :
    Checked Aim :=
  if growth.along axis < 0 ∧ anchor.far axis < box.far axis then do
    let floor ← Coord.add (anchor.near axis) (min.along axis)
    let wanted := max (← Coord.add (anchor.far axis) (growth.along axis)) floor
    return if wanted < anchor.far axis then aim.set (anchor.far axis) wanted axis else aim
  else .ok aim

/-- The far lines of the regions go along with the container. -/
def aimCorner (box : Rect) (growth : Size) (aim : Aim) (axis : Axis) : Checked Aim :=
  if growth.along axis = 0 then .ok aim
  else do return aim.set (box.far axis) (← Coord.add (box.far axis) (growth.along axis)) axis

/-- What the container has grown by goes to the anchor. -/
def aimAnchorOutward (anchor box : Rect) (growth : Size) (aim : Aim) (axis : Axis) : Checked Aim :=
  if 0 < growth.along axis ∧ anchor.far axis < box.far axis then do
    return aim.set (anchor.far axis) (← Coord.add (anchor.far axis) (growth.along axis)) axis
  else .ok aim

def commitAim (l : Layout W) (aim : Aim) (limits : Rect) : Checked (Outcome W Unit) :=
  if aim.held.IsEmpty then .ok { value := (), layout := l }
  else do
    let o ← l.commitWithin aim.held aim.goal limits
    return { o with value := () }

/-- Moves the far lines, and answers how much they were moved. -/
def commitCorner (l : Layout W) (box : Rect) (growth : Size) (aim : Aim) (limits : Rect) :
    Checked (Outcome W Size) :=
  if aim.held.IsEmpty then .ok { value := growth, layout := l }
  else do
    let o ← l.commitLinesWithin aim.held aim.goal limits
    let width ← match o.value.x with
      | some line => Coord.sub line (box.far .x)
      | none => pure growth.width
    let height ← match o.value.y with
      | some line => Coord.sub line (box.far .y)
      | none => pure growth.height
    return { o with value := ⟨width, height⟩ }

/-- Follows the target with cascades and answers the container that the regions now cover. -/
def follow (l : Layout W) (target : Rect) : Checked (Outcome W Rect) := do
  let l ← l.shiftTo target
  match ← Rect.boundingBox l.store.bounds with
  | none => return { value := target, layout := l }
  | some box =>
    let width ← Coord.sub target.width box.width
    let height ← Coord.sub target.height box.height
    let limits ← box.union (.clamped box.x box.y target.width target.height)
    let scene := l.scene limits
    let (width, trace) ← feasibleGrowth scene box ⟨width, height⟩ .x {}
    let (height, trace) ← feasibleGrowth scene box ⟨width, height⟩ .y trace
    let growth : Size := ⟨width, height⟩
    let inward ← match l.anchorPosition? with
      | none => pure (Aim.start ⟨0, 0⟩)
      | some position =>
        let anchor := l.store.bounds[position]?.getD .zero
        let min := l.mins[position]?.getD .zero
        Axis.all.foldlM (aimAnchorInward anchor box min growth) (.start ⟨anchor.right, anchor.bottom⟩)
    let first ← l.commitAim inward limits
    let corner ← Axis.all.foldlM (aimCorner box growth) (.start ⟨box.right, box.bottom⟩)
    let second ← first.layout.commitCorner box growth corner limits
    let outward ← match second.layout.anchorBounds? with
      | none => pure (Aim.start ⟨0, 0⟩)
      | some anchor =>
        Axis.all.foldlM (aimAnchorOutward anchor box second.value)
          (.start ⟨anchor.right, anchor.bottom⟩)
    let third ← second.layout.commitAim outward limits
    let covered : Rect :=
      .clamped box.x box.y (← Coord.add box.width second.value.width)
        (← Coord.add box.height second.value.height)
    return {
      value := covered
      layout := { third.layout with bounds := covered }
      journal := Entry.ofHops trace.hops.reverse ++
        first.journal ++ second.journal ++ third.journal }

/-- Resizes the container and answers the bounds it took. With a size range these can be larger than
asked for. -/
def resize (l : Layout W) (target : Rect) : Checked (Outcome W Rect) := do
  let target := Rect.clamped target.x target.y target.width target.height
  let o : Outcome W Rect ←
    if target = l.bounds then pure { value := target, layout := l }
    else if l.store.regions = [] then
      pure { value := target, layout := { l with bounds := target } }
    else if l.hasSizeRange then do
      let o ← l.follow target
      let findings ← o.layout.revalidate
      pure { o with journal := o.journal ++ findings ++ [{ note := .resized o.value target }] }
    else do
      -- A zero extent would merge every edge line on its axis.
      let wide := { target with width := max target.width 1, height := max target.height 1 }
      let stretched ← l.stretch wide
      pure { value := wide, layout := stretched, journal := [{ note := .resized wide target }] }
  return o.under (.resize target)

end Layout

end Mosaic
