import Mosaic.Cascade.Plan
import Mosaic.Cover.Check
import Mosaic.Gesture.Phase
import Mosaic.Host
import Mosaic.Journal.Entry
import Mosaic.Region.Store
import Mosaic.Settings
import Mosaic.Snapshot.Fingerprint

/-! Layouts: a container whose regions are meant to cover it exactly. -/
namespace Mosaic

structure Layout (W : Type) where
  settings : Settings := {}
  bounds : Rect
  store : RegionStore W := {}
  /-- The region that takes up changes of the container's size. -/
  anchor : Option RegionId := none
  gesture : Gesture := {}
deriving DecidableEq

/-- What an operation answers, with the layout it leaves, the journal entries it makes and the calls
it makes to the host. -/
structure Outcome (W α : Type) where
  value : α
  layout : Layout W
  journal : List Entry := []
  calls : List HostCall := []

def Outcome.under {W α : Type} (o : Outcome W α) (task : Task) : Outcome W α :=
  { o with journal := Entry.under task o.journal }

namespace Layout

variable {W : Type}

/-- A layout without regions. -/
def create (bounds : Rect) (settings : Settings) : Except SettingsError (Layout W) := do
  return { settings := ← settings.validate, bounds }

def region? (l : Layout W) (id : RegionId) : Option (Region W) := l.store.get? id

def anchorBounds? (l : Layout W) : Option Rect := do return (← l.store.get? (← l.anchor)).bounds

def anchorPosition? (l : Layout W) : Option Nat := do l.store.idxOf? (← l.anchor)

/-- Adds a region. A container that is empty takes on the bounding box of the regions. -/
def addRegion (l : Layout W) (widget : W) (bounds : Rect) : Checked (RegionId × Layout W) := do
  let (id, store) := l.store.insert widget bounds
  let box ←
    if l.bounds.IsEmpty then do pure ((← Rect.boundingBox store.bounds).getD bounds)
    else pure l.bounds
  return (id, { l with store, bounds := box })

/-- Breaks off an active drag without undoing it. -/
def abandonDrag (l : Layout W) : Outcome W Unit :=
  match l.gesture.phase.grasp? with
  | none => { value := (), layout := l }
  | some grasp =>
    let idle := { l.gesture with phase := .idle, pressed := none }
    let effect := .canceled (some grasp.grip) .regionRemoved false
    { value := ()
      layout := { l with gesture := idle.record l.gesture.phase effect }
      journal := [{ note := .stepped (idle.transition l.gesture.phase effect) }] }

/-- Takes a region out and answers its widget. A drag ends, as its lines may be gone. -/
def removeRegion (l : Layout W) (id : RegionId) : Outcome W (Option W) :=
  match l.store.get? id with
  | none => { value := none, layout := l }
  | some r =>
    let anchor := if l.anchor = some id then none else l.anchor
    let o := abandonDrag { l with store := l.store.erase id, anchor }
    { o with value := some r.widget }

/-- Makes a region the anchor, if it is there. -/
def setAnchor (l : Layout W) (id : RegionId) : Layout W :=
  if l.store.contains id then { l with anchor := some id } else l

def clearAnchor (l : Layout W) : Layout W := { l with anchor := none }

/-- From now on no region is moved below its minimum. -/
def enableSizeRange (l : Layout W) (minWidth minHeight : Int) : Outcome W (Except SettingsError Unit) :=
  match Settings.validate { l.settings with sizeRange := some ⟨minWidth, minHeight⟩ } with
  | .ok settings => { value := .ok (), layout := { l with settings } }
  | .error e => { value := .error e, layout := l }

def disableSizeRange (l : Layout W) : Layout W :=
  { l with settings := { l.settings with sizeRange := none } }

def hasSizeRange (l : Layout W) : Bool := l.settings.sizeRange.isSome

def setMinSize (l : Layout W) (id : RegionId) (size : Size) : Layout W :=
  { l with store := l.store.setMinSize id (some size.clamped) }

/-- Gives a region a maximum, which is only reported on. -/
def setMaxSize (l : Layout W) (id : RegionId) (size : Size) : Layout W :=
  { l with store := l.store.setMaxSize id (some size) }

def setWidget (l : Layout W) (id : RegionId) (widget : W) : Layout W :=
  { l with store := l.store.setWidget id widget }

/-- Takes over the minimums that the host reports for widgets. -/
def syncMinSizes (l : Layout W) (preferred : W → Option Size) : Layout W :=
  let hints := l.store.regions.filterMap fun r => (preferred r.widget).map (r.id, ·)
  hints.foldl (fun l (id, size) => l.setMinSize id size) l

/-- The regions whose bounds changed since the last call. -/
def takeDirty (l : Layout W) : List RegionId × Layout W :=
  (l.store.dirtyIds, { l with store := l.store.clean })

/-- The minimums in force, in the order of the regions. -/
def mins (l : Layout W) : List Size :=
  match l.settings.sizeRange with
  | some range => l.store.regions.map fun r => r.minSize.getD range.min
  | none => l.store.regions.map fun _ => .zero

/-- The regions as the check sees them. Minimums count only where they are in force. -/
def placements (l : Layout W) : List Placement :=
  l.store.regions.map fun r => {
    id := r.id, bounds := r.bounds
    min := l.settings.sizeRange.map fun range => r.minSize.getD range.min
    max := r.maxSize }

def report (l : Layout W) : Checked Report := Cover.check l.bounds l.placements

/-- The lines under the pointer. Without a size range those of the anchor are not offered. -/
def locate (l : Layout W) (pointer : Point) : Checked Grasp :=
  Grasp.locate l.store.bounds (if l.hasSizeRange then none else l.anchorPosition?) l.bounds pointer
    l.settings.grabTolerance

def snapshot (l : Layout W) : Snapshot where
  version := Snapshot.supportedVersion
  container := l.bounds
  anchor := l.anchor
  items := l.store.regions.map fun r => ⟨r.id, r.bounds, r.minSize, r.maxSize⟩

def boundsCalls (l : Layout W) (ids : List RegionId) : List HostCall :=
  ids.filterMap fun id => (l.store.get? id).map fun r => .setBounds id r.bounds

end Layout

end Mosaic
