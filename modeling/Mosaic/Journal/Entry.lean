import Mosaic.Cascade.Scene
import Mosaic.Cover.Report
import Mosaic.Gesture.Phase
import Mosaic.Layout.Error

/-! What a layout notes down while it works. -/
namespace Mosaic

/-- Work that is announced, and within which other notes are made. -/
inductive Task
  | drag (held : Grip) (goal : Point)
  | move (held : Grip) (goal : Point)
  | resize (target : Rect)
deriving DecidableEq

inductive Note
  | started (task : Task)
  | hop (hop : Hop)
  | resized (achieved requested : Rect)
  | violated (report : Report)
  | finding (issue : Issue)
  | stepped (transition : Transition)
  | restored (fingerprint : UInt64) (changed : Nat)
  | restoreFailed (error : LayoutError)
deriving DecidableEq

structure Entry where
  /-- The work within which the note was made. -/
  task : Option Task := none
  note : Note
deriving DecidableEq

namespace Entry

/-- Announces the task and files the entries under it. -/
def under (task : Task) (entries : List Entry) : List Entry :=
  { note := .started task } :: entries.map fun e => { e with task := some task }

def ofHops (hops : List Hop) : List Entry := hops.map fun h => { note := .hop h }

/-- A report that is not clean is noted as a whole and finding by finding. -/
def ofReport (report : Report) : List Entry :=
  if report.IsClean then []
  else { note := .violated report } :: report.issues.map fun i => { note := .finding i }

end Entry

end Mosaic
