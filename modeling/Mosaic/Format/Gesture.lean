import Mosaic.Format.Snapshot
import Mosaic.Gesture.Phase

/-! The documents of drag phases, effects and transitions. -/
namespace Mosaic

open Json

variable (lib : Library)

namespace Phase

def toJson : Phase → Value
  | .idle => .ofVariant "state" "idle" []
  | .armed grasp origin limits =>
    .ofVariant "state" "armed"
      [("session", grasp.toJson), ("origin", origin.toJson), ("limits", limits.toJson)]
  | .dragging grasp origin current limits =>
    .ofVariant "state" "dragging"
      [("session", grasp.toJson), ("origin", origin.toJson), ("current", current.toJson),
        ("limits", limits.toJson)]

def ofJson? (room : Nat) (v : Value) : Option Phase := do
  let (name, body) ← lib.variant? "state" room v
  match name with
  | "idle" =>
    lib.noFields? body
    return .idle
  | "armed" =>
    match ← lib.fields? [.required "session", .required "origin", .required "limits"] body with
    | [some grasp, some origin, some limits] =>
      return .armed (← Grasp.ofJson? lib .kept grasp) (← Point.ofJson? lib origin)
        (← Rect.ofJson? lib limits)
    | _ => none
  | "dragging" =>
    let declared :=
      [.required "session", .required "origin", .required "current", .required "limits"]
    match ← lib.fields? declared body with
    | [some grasp, some origin, some current, some limits] =>
      return .dragging (← Grasp.ofJson? lib .kept grasp) (← Point.ofJson? lib origin)
        (← Point.ofJson? lib current) (← Rect.ofJson? lib limits)
    | _ => none
  | _ => none

end Phase

namespace CancelReason

def all : List CancelReason :=
  [.focusLost, .captureLost, .requested, .regionRemoved, .containerResized]

def name : CancelReason → String
  | .focusLost => "focus_lost"
  | .captureLost => "capture_lost"
  | .requested => "programmatic"
  | .regionRemoved => "region_removed"
  | .containerResized => "container_resized"

def toJson (r : CancelReason) : Value := .ofString r.name

def ofJson? : Source → Value → Option CancelReason := lib.choice? all name

end CancelReason

namespace IdleReason

def all : List IdleReason := [.notDragging, .alreadyDragging, .noEdge, .wrongButton, .commitFailed]

def name : IdleReason → String
  | .notDragging => "idle_without_active_drag"
  | .alreadyDragging => "active_drag_already_in_progress"
  | .noEdge => "no_edge_under_pointer"
  | .wrongButton => "button_mismatch"
  | .commitFailed => "commit_failed"

def toJson (r : IdleReason) : Value := .ofString r.name

def ofJson? : Source → Value → Option IdleReason := lib.choice? all name

end IdleReason

namespace Effect

def toJson : Effect → Value
  | .hovered kind => .ofVariant "effect" "hovered" [("cursor", kind.toJson)]
  | .left => .ofVariant "effect" "left" []
  | .armed target origin =>
    .ofVariant "effect" "armed" [("target", target.toJson), ("origin", origin.toJson)]
  | .dragged target requested achieved =>
    .ofVariant "effect" "dragged"
      [("target", target.toJson), ("requested", requested.toJson), ("achieved", achieved.toJson)]
  | .committed target achieved =>
    .ofVariant "effect" "committed" [("target", target.toJson), ("achieved", achieved.toJson)]
  | .released target => .ofVariant "effect" "released" [("target", target.toJson)]
  | .canceled target reason restored =>
    .ofVariant "effect" "canceled"
      [("target", .ofOption Grip.toJson target), ("reason", reason.toJson),
        ("restored", .bool restored)]
  | .nothing reason => .ofVariant "effect" "noop" [("reason", reason.toJson)]

def ofJson? (room : Nat) (v : Value) : Option Effect := do
  let (name, body) ← lib.variant? "effect" room v
  match name with
  | "hovered" =>
    match ← lib.fields? [.required "cursor"] body with
    | [some kind] => return .hovered (← GripKind.ofJson? lib .kept kind)
    | _ => none
  | "left" =>
    lib.noFields? body
    return .left
  | "armed" =>
    match ← lib.fields? [.required "target", .required "origin"] body with
    | [some target, some origin] =>
      return .armed (← Grip.ofJson? lib target) (← Point.ofJson? lib origin)
    | _ => none
  | "dragged" =>
    match ← lib.fields? [.required "target", .required "requested", .required "achieved"] body with
    | [some target, some requested, some achieved] =>
      return .dragged (← Grip.ofJson? lib target) (← Point.ofJson? lib requested)
        (← Grip.ofJson? lib achieved)
    | _ => none
  | "committed" =>
    match ← lib.fields? [.required "target", .required "achieved"] body with
    | [some target, some achieved] =>
      return .committed (← Grip.ofJson? lib target) (← Grip.ofJson? lib achieved)
    | _ => none
  | "released" =>
    match ← lib.fields? [.required "target"] body with
    | [some target] => return .released (← Grip.ofJson? lib target)
    | _ => none
  | "canceled" =>
    match ← lib.fields? [.optional "target", .required "reason", .required "restored"] body with
    | [target, some reason, some restored] =>
      return .canceled (← target.mapM (Grip.ofJson? lib)) (← CancelReason.ofJson? lib .kept reason)
        (← lib.bool? restored)
    | _ => none
  | "noop" =>
    match ← lib.fields? [.required "reason"] body with
    | [some reason] => return .nothing (← IdleReason.ofJson? lib .kept reason)
    | _ => none
  | _ => none

end Effect

namespace Transition

def toJson (t : Transition) : Value :=
  .fields [
    ("transition_id", .ofInt t.number),
    ("from", t.before.toJson),
    ("to", t.after.toJson),
    ("effect", t.effect.toJson)]

/-- The parts of a transition are nested one level deeper than the transition itself. -/
def ofJson? (v : Value) : Option Transition := do
  let room := Value.maxDepth - 1
  let declared :=
    [.required "transition_id", .required "from", .required "to", .required "effect"]
  match ← lib.fields? declared v with
  | [some number, some before, some after, some effect] =>
    return ⟨← lib.natUpTo? lastNumber number, ← Phase.ofJson? lib room before,
      ← Phase.ofJson? lib room after, ← Effect.ofJson? lib room effect⟩
  | _ => none

end Transition

end Mosaic
