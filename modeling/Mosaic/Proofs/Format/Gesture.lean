import Mosaic.Format.Gesture
import Mosaic.Proofs.Format.Plane

/-! Steps of a drag are read back from what is written for them. Each kind of phase and of effect is a variant, whose
name is found among its fields and whose other fields are found by their own names. -/
namespace Mosaic

open Json

variable {lib : Library} (hlib : lib.Lawful) {room : Nat}

namespace Phase

/-- All numbers of a phase are coordinates. -/
def Fits : Phase → Prop
  | .idle => True
  | .armed grasp origin limits => grasp.Fits ∧ origin.Fits ∧ limits.Fits
  | .dragging grasp origin current limits => grasp.Fits ∧ origin.Fits ∧ current.Fits ∧ limits.Fits

/-- A phase is three levels deep, as the lines are part of what is held. -/
theorem plain_toJson {p : Phase} (h : p.Fits) : p.toJson.Plain (room + 3) := by
  cases p with
  | idle => exact .fields (by simp) (by simp [Value.Plain.string])
  | armed grasp origin limits =>
    obtain ⟨hgrasp, horigin, hlimits⟩ := h
    exact .fields (by simp) (by simp [Value.Plain.string, Grasp.plain_toJson hgrasp, Point.plain_toJson horigin,
      Rect.plain_toJson hlimits])
  | dragging grasp origin current limits =>
    obtain ⟨hgrasp, horigin, hcurrent, hlimits⟩ := h
    exact .fields (by simp) (by simp [Value.Plain.string, Grasp.plain_toJson hgrasp, Point.plain_toJson horigin,
      Point.plain_toJson hcurrent, Rect.plain_toJson hlimits])

include hlib in
theorem ofJson?_toJson {p : Phase} (h : p.Fits) : ofJson? lib (room + 3) p.toJson = some p := by
  have hplain : p.toJson.Plain (room + 3) := plain_toJson h
  cases p with
  | idle =>
    rw [ofJson?, toJson, hlib.variant?_ofVariant _ _ _ _ hplain]
    simp [hlib.noFields?_fields]
  | armed grasp origin limits =>
    obtain ⟨hgrasp, horigin, hlimits⟩ := h
    rw [ofJson?, toJson, hlib.variant?_ofVariant _ _ _ _ hplain]
    simp [hlib.fields?_fields, List.lookup_cons, Grasp.ofJson?_toJson hlib hgrasp,
      Point.ofJson?_toJson hlib horigin, Rect.ofJson?_toJson hlib hlimits]
  | dragging grasp origin current limits =>
    obtain ⟨hgrasp, horigin, hcurrent, hlimits⟩ := h
    rw [ofJson?, toJson, hlib.variant?_ofVariant _ _ _ _ hplain]
    simp [hlib.fields?_fields, List.lookup_cons, Grasp.ofJson?_toJson hlib hgrasp,
      Point.ofJson?_toJson hlib horigin, Point.ofJson?_toJson hlib hcurrent, Rect.ofJson?_toJson hlib hlimits]

end Phase

namespace CancelReason

include hlib in
theorem ofJson?_toJson (r : CancelReason) (source : Source) : ofJson? lib source r.toJson = some r :=
  hlib.choice?_ofString (by decide) (by cases r <;> decide) source

end CancelReason

namespace IdleReason

include hlib in
theorem ofJson?_toJson (r : IdleReason) (source : Source) : ofJson? lib source r.toJson = some r :=
  hlib.choice?_ofString (by decide) (by cases r <;> decide) source

end IdleReason

namespace Effect

def Fits : Effect → Prop
  | .hovered _ | .left | .nothing _ => True
  | .armed target origin => target.Fits ∧ origin.Fits
  | .dragged target requested achieved => target.Fits ∧ requested.Fits ∧ achieved.Fits
  | .committed target achieved => target.Fits ∧ achieved.Fits
  | .released target => target.Fits
  | .canceled target _ _ => ∀ g ∈ target, g.Fits

theorem plain_toJson {e : Effect} (h : e.Fits) : e.toJson.Plain (room + 2) := by
  cases e with
  | hovered kind => exact .fields (by simp) (by simp [Value.Plain.string, GripKind.toJson])
  | left => exact .fields (by simp) (by simp [Value.Plain.string])
  | armed target origin =>
    obtain ⟨htarget, horigin⟩ := h
    exact .fields (by simp) (by simp [Value.Plain.string, Grip.plain_toJson htarget, Point.plain_toJson horigin])
  | dragged target requested achieved =>
    obtain ⟨htarget, hrequested, hachieved⟩ := h
    exact .fields (by simp) (by simp [Value.Plain.string, Grip.plain_toJson htarget, Point.plain_toJson hrequested,
      Grip.plain_toJson hachieved])
  | committed target achieved =>
    obtain ⟨htarget, hachieved⟩ := h
    exact .fields (by simp) (by simp [Value.Plain.string, Grip.plain_toJson htarget, Grip.plain_toJson hachieved])
  | released target =>
    replace h : target.Fits := h
    exact .fields (by simp) (by simp [Value.Plain.string, Grip.plain_toJson h])
  | canceled target reason restored =>
    have htarget : (Value.ofOption Grip.toJson target).Plain (room + 1) :=
      Value.plain_ofOption fun g hg => Grip.plain_toJson (h g hg)
    exact .fields (by simp) (by simp [Value.Plain.string, Value.Plain.bool, htarget, CancelReason.toJson])
  | nothing reason => exact .fields (by simp) (by simp [Value.Plain.string, IdleReason.toJson])

include hlib in
theorem ofJson?_toJson {e : Effect} (h : e.Fits) : ofJson? lib (room + 2) e.toJson = some e := by
  have hplain : e.toJson.Plain (room + 2) := plain_toJson h
  cases e with
  | hovered kind =>
    rw [ofJson?, toJson, hlib.variant?_ofVariant _ _ _ _ hplain]
    simp [hlib.fields?_fields, GripKind.ofJson?_toJson hlib]
  | left =>
    rw [ofJson?, toJson, hlib.variant?_ofVariant _ _ _ _ hplain]
    simp [hlib.noFields?_fields]
  | armed target origin =>
    obtain ⟨htarget, horigin⟩ := h
    rw [ofJson?, toJson, hlib.variant?_ofVariant _ _ _ _ hplain]
    simp [hlib.fields?_fields, List.lookup_cons, Grip.ofJson?_toJson hlib htarget,
      Point.ofJson?_toJson hlib horigin]
  | dragged target requested achieved =>
    obtain ⟨htarget, hrequested, hachieved⟩ := h
    rw [ofJson?, toJson, hlib.variant?_ofVariant _ _ _ _ hplain]
    simp [hlib.fields?_fields, List.lookup_cons, Grip.ofJson?_toJson hlib htarget,
      Point.ofJson?_toJson hlib hrequested, Grip.ofJson?_toJson hlib hachieved]
  | committed target achieved =>
    obtain ⟨htarget, hachieved⟩ := h
    rw [ofJson?, toJson, hlib.variant?_ofVariant _ _ _ _ hplain]
    simp [hlib.fields?_fields, List.lookup_cons, Grip.ofJson?_toJson hlib htarget,
      Grip.ofJson?_toJson hlib hachieved]
  | released target =>
    replace h : target.Fits := h
    rw [ofJson?, toJson, hlib.variant?_ofVariant _ _ _ _ hplain]
    simp [hlib.fields?_fields, Grip.ofJson?_toJson hlib h]
  | canceled target reason restored =>
    have htarget : (target.map Grip.toJson).mapM (Grip.ofJson? lib) = some target :=
      mapM_map fun g hg => Grip.ofJson?_toJson hlib (h g hg)
    rw [ofJson?, toJson, hlib.variant?_ofVariant _ _ _ _ hplain]
    simp [hlib.fields?_fields, List.lookup_cons, Field.take?_optional Grip.isNull_toJson, htarget,
      CancelReason.ofJson?_toJson hlib, hlib.bool?_bool]
  | nothing reason =>
    rw [ofJson?, toJson, hlib.variant?_ofVariant _ _ _ _ hplain]
    simp [hlib.fields?_fields, IdleReason.ofJson?_toJson hlib]

end Effect

namespace Transition

structure Fits (t : Transition) : Prop where
  number : t.number ≤ lastNumber
  before : t.before.Fits
  after : t.after.Fits
  effect : t.effect.Fits

include hlib in
theorem ofJson?_toJson {t : Transition} (h : t.Fits) : ofJson? lib t.toJson = some t := by
  have hbefore : Phase.ofJson? lib (Value.maxDepth - 1) t.before.toJson = some t.before :=
    Phase.ofJson?_toJson hlib h.before
  have hafter : Phase.ofJson? lib (Value.maxDepth - 1) t.after.toJson = some t.after :=
    Phase.ofJson?_toJson hlib h.after
  have heffect : Effect.ofJson? lib (Value.maxDepth - 1) t.effect.toJson = some t.effect :=
    Effect.ofJson?_toJson hlib h.effect
  simp [ofJson?, toJson, hlib.fields?_fields, List.lookup_cons, hlib.natUpTo?_ofInt h.number (by decide),
    hbefore, hafter, heffect]

theorem plain_toJson {t : Transition} (h : t.Fits) : t.toJson.Plain (room + 4) := by
  have heffect : t.effect.toJson.Plain (room + 3) := Effect.plain_toJson h.effect
  exact .fields (by simp) (by simp [Value.plain_ofNat (Nat.le_trans h.number (by decide)), Phase.plain_toJson h.before,
    Phase.plain_toJson h.after, heffect])

end Transition

end Mosaic
