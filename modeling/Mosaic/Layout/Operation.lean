import Mosaic.Layout.Gesture

/-! All that can be done to a layout, as data, and what comes of doing one thing after another. -/
namespace Mosaic

inductive Operation (W : Type)
  | addRegion (widget : W) (bounds : Rect)
  | removeRegion (id : RegionId)
  | setWidget (id : RegionId) (widget : W)
  | setAnchor (id : RegionId)
  | clearAnchor
  | enableSizeRange (minWidth minHeight : Int)
  | disableSizeRange
  | setMinSize (id : RegionId) (size : Size)
  | setMaxSize (id : RegionId) (size : Size)
  | syncMinSizes (preferred : W → Option Size)
  | takeDirty
  | applyPatch (patch : Patch)
  | drag (held : Grip) (goal : Point)
  | move (held : Grip) (goal : Point)
  | resize (target : Rect)
  | restore (snapshot : Snapshot)
  | handlePointer (event : PointerEvent)
  | handle (event : Event)
  | cancelDrag

namespace Outcome

variable {W α β : Type}

def silent (o : Outcome W α) : Outcome W Unit := { o with value := () }

/-- Puts what happened before in front. -/
def after (o : Outcome W α) (before : Outcome W β) : Outcome W α :=
  { o with journal := before.journal ++ o.journal, calls := before.calls ++ o.calls }

end Outcome

namespace Layout

variable {W : Type}

def changedTo (l : Layout W) : Outcome W Unit := { value := (), layout := l }

def perform (l : Layout W) : Operation W → Checked (Outcome W Unit)
  | .addRegion widget bounds => do return (← l.addRegion widget bounds).2.changedTo
  | .removeRegion id => .ok (l.removeRegion id).silent
  | .setWidget id widget => .ok (l.setWidget id widget).changedTo
  | .setAnchor id => .ok (l.setAnchor id).changedTo
  | .clearAnchor => .ok l.clearAnchor.changedTo
  | .enableSizeRange minWidth minHeight => .ok (l.enableSizeRange minWidth minHeight).silent
  | .disableSizeRange => .ok l.disableSizeRange.changedTo
  | .setMinSize id size => .ok (l.setMinSize id size).changedTo
  | .setMaxSize id size => .ok (l.setMaxSize id size).changedTo
  | .syncMinSizes preferred => .ok (l.syncMinSizes preferred).changedTo
  | .takeDirty => .ok l.takeDirty.2.changedTo
  | .applyPatch patch => do return (← l.applyPatch patch).silent
  | .drag held goal => do return (← l.drag held goal).silent
  | .move held goal => do return (← l.move held goal).silent
  | .resize target => do return (← l.resize target).silent
  | .restore snapshot => do return (← l.restore snapshot).silent
  | .handlePointer event => do return (← l.handlePointer event).silent
  | .handle event => do return (← l.handle event).silent
  | .cancelDrag => do return (← l.cancelDrag).silent

/-- Does one thing after another, up to an overflow. -/
def run (l : Layout W) : List (Operation W) → Checked (Outcome W Unit)
  | [] => .ok l.changedTo
  | op :: ops => do
    let first ← l.perform op
    return (← run first.layout ops).after first

theorem run_cons (l : Layout W) (op : Operation W) (ops : List (Operation W)) :
    l.run (op :: ops) = do
      let first ← l.perform op
      return (← first.layout.run ops).after first := rfl

end Layout

end Mosaic
