import Mosaic.Edge.Grasp
import Mosaic.Snapshot.Basic

/-! The life of a drag: pressed on an edge it is armed, by motion it becomes dragging, and release
or a break ends it. Each step is numbered and kept. -/
namespace Mosaic

inductive Phase
  | idle
  /-- Pressed on an edge; `limits` is where the lines may be dragged. -/
  | armed (grasp : Grasp) (origin : Point) (limits : Rect)
  | dragging (grasp : Grasp) (origin current : Point) (limits : Rect)
deriving DecidableEq

namespace Phase

def grasp? : Phase → Option Grasp
  | .idle => none
  | .armed grasp _ _ | .dragging grasp _ _ _ => some grasp

def isActive (p : Phase) : Bool := p.grasp?.isSome

end Phase

inductive CancelReason | focusLost | captureLost | requested | regionRemoved | containerResized
deriving DecidableEq

inductive IdleReason
  | notDragging
  | alreadyDragging
  | noEdge
  | wrongButton
  /-- There was no memory to move the lines. Records can hold it; no step here gives it. -/
  | commitFailed
deriving DecidableEq

/-- What a step did. -/
inductive Effect
  | hovered (kind : GripKind)
  | left
  | armed (target : Grip) (origin : Point)
  | dragged (target : Grip) (requested : Point) (achieved : Grip)
  | committed (target achieved : Grip)
  /-- Released before anything moved. -/
  | released (target : Grip)
  | canceled (target : Option Grip) (reason : CancelReason) (restored : Bool)
  | nothing (reason : IdleReason)
deriving DecidableEq

structure Transition where
  number : Nat
  before : Phase
  after : Phase
  effect : Effect
deriving DecidableEq

def Transition.lastNumber : Nat := 18446744073709551615

structure Gesture where
  phase : Phase := .idle
  /-- The cursor last asked for. -/
  cursor : Cursor := .default
  /-- How many steps there were. -/
  count : Nat := 0
  last : Option Transition := none
  /-- The geometry when the drag began, if a break restores it. -/
  pressed : Option Snapshot := none
deriving DecidableEq

namespace Gesture

/-- The number of the next step; the largest one repeats. -/
def nextNumber (g : Gesture) : Nat := min (g.count + 1) Transition.lastNumber

/-- The step from `before` to the present phase. -/
def transition (g : Gesture) (before : Phase) (effect : Effect) : Transition :=
  ⟨g.nextNumber, before, g.phase, effect⟩

def record (g : Gesture) (before : Phase) (effect : Effect) : Gesture :=
  { g with count := g.nextNumber, last := some (g.transition before effect) }

end Gesture

end Mosaic
