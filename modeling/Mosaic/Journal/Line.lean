import Mosaic.Cover.Check
import Mosaic.Journal.Entry
import Mosaic.Text.Quoted

/-! The lines of a journal as a reader sees them: a level, a message and named values. -/
namespace Mosaic

inductive Level | trace | debug | info | warn | error deriving DecidableEq

def Level.name : Level → String
  | .trace => "TRACE"
  | .debug => "DEBUG"
  | .info => "INFO"
  | .warn => "WARN"
  | .error => "ERROR"

def Axis.describe : Axis → String
  | .x => "X"
  | .y => "Y"

def Side.describe : Side → String
  | .near => "Near"
  | .far => "Far"

def describeOption {α : Type} (describe : α → String) : Option α → String
  | none => "None"
  | some a => "Some(" ++ describe a ++ ")"

def Task.name : Task → String
  | .drag _ _ => "tile.drag_intersection"
  | .move _ _ => "tile.move_intersection"
  | .resize _ => "tile.resize_container"

def Task.values : Task → List (String × String)
  | .drag held goal | .move held goal =>
    [("from_x", describeOption toString held.x), ("from_y", describeOption toString held.y),
      ("to_x", toString goal.x), ("to_y", toString goal.y)]
  | .resize target =>
    [("x", toString target.x), ("y", toString target.y), ("width", toString target.width),
      ("height", toString target.height)]

/-- A line of the journal. A task is announced by its name, anything else has a message. -/
structure Line where
  level : Level
  isTask : Bool := false
  message : String
  /-- The name of the task within which the line was written. -/
  task : Option String := none
  values : List (String × String)

/-- The line of an entry. The phases and the effect of a transition are not spelled out in it. -/
def Entry.line (e : Entry) : Line :=
  let task := e.task.map Task.name
  match e.note with
  | .started t => { level := .debug, isTask := true, message := t.name, values := t.values }
  | .hop h => {
      level := .trace, message := "cascade hop", task
      values := [("axis", h.axis.describe), ("side", h.side.describe), ("edge", toString h.line),
        ("requested", toString h.requested), ("pushed", toString h.pushed)] }
  | .resized achieved requested => {
      level := .debug, message := "container resized", task
      values := [("achieved", achieved.describe), ("requested", requested.describe)] }
  | .violated r => {
      level := .warn, message := "tile invariants violated after commit", task
      values := [("issues", toString r.issues.length), ("errors", toString (decide r.HasErrors)),
        ("container_too_small", toString r.tooSmall)] }
  | .finding i => {
      level := .debug, message := i.message, task
      values := [("code", i.kind.describe), ("region", describeOption RegionId.describe i.region)] }
  | .stepped t => {
      level := .debug, message := "drag transition", task
      values := [("transition_id", toString t.number)] }
  | .restored fingerprint changed => {
      level := .debug, message := "tile snapshot restored", task
      values := [("state_hash", toString fingerprint), ("changed", toString changed)] }
  | .restoreFailed e => {
      level := .warn, message := "could not restore pre-drag geometry", task
      values := [("err", e.message)] }

def defaultFilter : String := "tessera=info"

inductive JournalError
  | invalidFilter (directive reason : String)
  | alreadySet
deriving DecidableEq

def JournalError.message : JournalError → String
  | .invalidFilter directive reason =>
    "invalid log filter " ++ Text.Quoted.quote directive ++ ": " ++ reason
  | .alreadySet => "a global tracing subscriber is already set"

end Mosaic
