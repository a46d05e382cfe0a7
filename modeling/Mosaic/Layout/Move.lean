import Mosaic.Layout.Basic

/-! Moving lines of a layout. A plan is made against the bounds as they are and then written in one
step, so no move is left half done. -/
namespace Mosaic.Layout

variable {W : Type}

/-- The present bounds and minimums, with a rectangle that stops all moves. -/
def scene (l : Layout W) (limits : Rect) : Scene where
  rects := l.store.bounds
  mins := l.mins
  bounds := limits

def write (l : Layout W) (plan : Plan) : Layout W :=
  { l with store := l.store.place plan.patch.rects }

/-- The plan that moves held lines inside the limits. Nothing is moved yet. -/
def planWithin (l : Layout W) (held : Grip) (goal : Point) (limits : Rect) :
    Checked (Outcome W Plan) := do
  let (plan, trace) ← (l.scene limits).planFrom held goal {}
  return { value := plan, layout := l, journal := Entry.ofHops trace.hops.reverse }

def plan (l : Layout W) (held : Grip) (goal : Point) : Checked (Outcome W Plan) :=
  l.planWithin held goal l.bounds

/-- Moves held lines inside the limits as far as the minimums allow, and answers where they are. -/
def commitWithin (l : Layout W) (held : Grip) (goal : Point) (limits : Rect) :
    Checked (Outcome W Grip) := do
  let o ← l.planWithin held goal limits
  return { value := o.value.achieved, layout := l.write o.value, journal := o.journal }

/-- Moves held lines, also those on the limits themselves. -/
def commitLinesWithin (l : Layout W) (held : Grip) (goal : Point) (limits : Rect) :
    Checked (Outcome W Grip) := do
  let (plan, trace) ← (l.scene limits).planLines held goal {}
  return {
    value := plan.achieved, layout := l.write plan, journal := Entry.ofHops trace.hops.reverse }

def revalidate (l : Layout W) : Checked (List Entry) := do return Entry.ofReport (← l.report)

/-- Moves held lines while the drag goes on. -/
def drag (l : Layout W) (held : Grip) (goal : Point) : Checked (Outcome W Grip) := do
  return (← l.commitWithin held goal l.bounds).under (.drag held goal)

/-- Moves held lines for good. With a size range the layout is checked afterward. -/
def move (l : Layout W) (held : Grip) (goal : Point) : Checked (Outcome W Grip) := do
  let o ← l.commitWithin held goal l.bounds
  let findings ← if l.hasSizeRange then o.layout.revalidate else pure []
  return { o with journal := o.journal ++ findings }.under (.move held goal)

/-- Gives the regions the bounds of a patch, if it has one for each and they cover the container.
Answers the regions that changed. -/
def applyPatch (l : Layout W) (patch : Patch) :
    Checked (Outcome W (Except LayoutError (List RegionId))) :=
  if patch.rects.length ≠ l.store.size then
    .ok { value := .error (.patchLength l.store.size patch.rects.length), layout := l }
  else do
    let report ← Cover.check l.bounds
      ((l.store.regions.zip patch.rects).map fun (r, bounds) => { id := r.id, bounds })
    if report.HasErrors then
      return { value := .error (.rejectedPatch report.issues.length), layout := l }
    else
      let placed := { l with store := l.store.place patch.rects }
      return { value := .ok (placed.store.changedSince l.store.bounds), layout := placed }

end Mosaic.Layout
