import Mosaic.Cover.Report

/-! Checking that regions cover a container exactly and keep to their sizes. Cover is not tested
cell by cell: the bounding box, the sum of the areas and the pairwise overlaps decide it. -/
namespace Mosaic

def Rect.describe (r : Rect) : String :=
  "Rect \x7b x: " ++ toString r.x ++ ", y: " ++ toString r.y ++ ", width: " ++ toString r.width ++
    ", height: " ++ toString r.height ++ " \x7d"

def Size.describe (s : Size) : String :=
  "Size \x7b width: " ++ toString s.width ++ ", height: " ++ toString s.height ++ " \x7d"

/-- A region as the check sees it. -/
structure Placement where
  id : RegionId
  bounds : Rect
  min : Option Size := none
  max : Option Size := none
deriving DecidableEq

namespace Cover

/-- The bounding box and the total area must be those of the container. -/
def coverIssues (container : Rect) (placements : List Placement) : Checked (List Issue) := do
  let rects := placements.map (·.bounds)
  let box := (← Rect.boundingBox rects).getD .zero
  let area ← (rects.map (·.area)).foldlM Area.add 0
  if box = container ∧ area = container.area then return []
  else return [{
    kind := .coverMismatch, severity := .error
    message := "regions cover " ++ box.describe ++ " with area " ++ toString area ++
      ", container is " ++ container.describe ++ " with area " ++ toString container.area }]

def boundsIssues (container : Rect) (p : Placement) : List Issue :=
  if container.Encloses p.bounds then []
  else [{
    kind := .outOfBounds, severity := .error, region := some p.id
    message := p.bounds.describe ++ " extends outside " ++ container.describe }]

def overlapIssue? (p q : Placement) : Checked (Option Issue) := do
  let shared ← p.bounds.intersection? q.bounds
  return shared.map fun r => {
    kind := .overlap, severity := .error, region := some p.id, related := some q.id
    message := "regions share " ++ r.describe }

/-- Each region must lie in the container and share no area with a later one. -/
def placeIssues (container : Rect) : List Placement → Checked (List Issue)
  | [] => .ok []
  | p :: rest => do
    let shared ← rest.mapM (overlapIssue? p)
    return boundsIssues container p ++ shared.filterMap id ++ (← placeIssues container rest)

/-- The minimums along `axis` of the regions that the line at `cross` runs through, added up. -/
def needed (placements : List Placement) (axis : Axis) (cross : Int) : Int :=
  ((placements.filter fun p => 0 < p.bounds.extent axis ∧ p.bounds.near axis.cross ≤ cross ∧
      cross < p.bounds.far axis.cross).map
    fun p => p.min.elim 0 (·.along axis)).foldr (· + ·) 0

/-- Some line through the container needs more than its extent. Only the near edges of regions are
tried: behind such an edge no further region begins before the next one. -/
def tooSmall (container : Rect) (placements : List Placement) : Bool :=
  Axis.all.any fun axis =>
    ((placements.filter fun p => 0 < p.bounds.extent axis.cross).map
      (·.bounds.near axis.cross)).any fun cross =>
        container.extent axis < needed placements axis cross

/-- A minimum binds along the axes on which the region has an extent; a maximum is only advice. -/
def sizeIssues (short : Bool) (p : Placement) : List Issue :=
  let size := p.bounds.size
  let below := match p.min with
    | some min =>
      if (0 < size.width ∧ size.width < min.width) ∨
          (0 < size.height ∧ size.height < min.height) then
        [{
          kind := .belowMinimum, severity := if short then .warning else .error, region := some p.id
          message := "size " ++ size.describe ++ " is below minimum " ++ min.describe }]
      else []
    | none => []
  let above := match p.max with
    | some max =>
      if max.width < size.width ∨ max.height < size.height then
        [{
          kind := .aboveMaximum, severity := .warning, region := some p.id
          message := "size " ++ size.describe ++ " is above maximum " ++ max.describe }]
      else []
    | none => []
  below ++ above

/-- The findings on regions in a container. Without regions there are none. Where the container is
too small for the minimums, a region below its minimum is only a warning. -/
def check (container : Rect) (placements : List Placement) : Checked Report :=
  if placements = [] then .ok {}
  else do
    let cover ← coverIssues container placements
    let places ← placeIssues container placements
    let short := tooSmall container placements
    return { issues := cover ++ places ++ placements.flatMap (sizeIssues short), tooSmall := short }

end Cover

end Mosaic
