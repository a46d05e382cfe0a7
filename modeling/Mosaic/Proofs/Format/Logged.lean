import Mosaic.Format.Host
import Mosaic.Format.Report
import Mosaic.Proofs.Format.Gesture
import Mosaic.Proofs.Format.Snapshot

/-! What is noted down while a layout is used is read back from its text in one line: the steps of drags, the calls to
the host and the reports of checks, with whatever messages they hold. -/
namespace Mosaic

open Json

variable {lib : Library} (hlib : lib.Lawful) {room : Nat}

namespace Notice

include hlib in
theorem ofJson?_toJson (n : Notice) (source : Source) : ofJson? lib source n.toJson = some n :=
  hlib.choice?_ofString (by decide) (by cases n <;> decide) source

end Notice

namespace HostCall

def Fits : HostCall → Prop
  | .setBounds region bounds => region.number ≤ RegionId.last ∧ bounds.Fits
  | .setCursor _ | .notify _ => True

theorem plain_toJson {c : HostCall} (h : c.Fits) : c.toJson.Plain (room + 2) := by
  cases c with
  | setBounds region bounds =>
    obtain ⟨hregion, hbounds⟩ := h
    exact .fields (by simp) (by simp [Value.Plain.string, RegionId.plain_toJson hregion, Rect.plain_toJson hbounds])
  | setCursor cursor => exact .fields (by simp) (by simp [Value.Plain.string, Cursor.toJson])
  | notify notice => exact .fields (by simp) (by simp [Value.Plain.string, Notice.toJson])

include hlib in
theorem ofJson?_toJson {c : HostCall} (h : c.Fits) : ofJson? lib c.toJson = some c := by
  have hplain : c.toJson.Plain Value.maxDepth := plain_toJson h
  cases c with
  | setBounds region bounds =>
    obtain ⟨hregion, hbounds⟩ := h
    rw [ofJson?, toJson, hlib.variant?_ofVariant _ _ _ _ hplain]
    simp [hlib.fields?_fields, List.lookup_cons, RegionId.ofJson?_toJson hlib hregion,
      Rect.ofJson?_toJson hlib hbounds]
  | setCursor cursor =>
    rw [ofJson?, toJson, hlib.variant?_ofVariant _ _ _ _ hplain]
    simp [hlib.fields?_fields, Cursor.ofJson?_toJson hlib]
  | notify notice =>
    rw [ofJson?, toJson, hlib.variant?_ofVariant _ _ _ _ hplain]
    simp [hlib.fields?_fields, Notice.ofJson?_toJson hlib]

end HostCall

namespace Severity

include hlib in
theorem ofJson?_toJson (s : Severity) : ofJson? lib s.toJson = some s :=
  hlib.choice?_ofString (by decide) (by cases s <;> decide) .direct

end Severity

namespace IssueKind

include hlib in
theorem ofJson?_toJson (k : IssueKind) : ofJson? lib k.toJson = some k :=
  hlib.choice?_ofString (by decide) (by cases k <;> decide) .direct

end IssueKind

namespace Issue

structure Fits (i : Issue) : Prop where
  region : ∀ id ∈ i.region, id.number ≤ RegionId.last
  related : ∀ id ∈ i.related, id.number ≤ RegionId.last

include hlib in
theorem ofJson?_toJson {i : Issue} (h : i.Fits) : ofJson? lib i.toJson = some i := by
  have hregion : (i.region.map RegionId.toJson).mapM (RegionId.ofJson? lib) = some i.region :=
    mapM_map fun id hid => RegionId.ofJson?_toJson hlib (h.region id hid)
  have hrelated : (i.related.map RegionId.toJson).mapM (RegionId.ofJson? lib) = some i.related :=
    mapM_map fun id hid => RegionId.ofJson?_toJson hlib (h.related id hid)
  simp [ofJson?, toJson, hlib.fields?_fields, List.lookup_cons, Field.take?_optional RegionId.isNull_toJson,
    IssueKind.ofJson?_toJson hlib, Severity.ofJson?_toJson hlib, hregion, hrelated, hlib.string?_ofString]

theorem plain_toJson {i : Issue} (h : i.Fits) : i.toJson.Plain (room + 1) := by
  have hregion : (Value.ofOption RegionId.toJson i.region).Plain room :=
    Value.plain_ofOption fun id hid => RegionId.plain_toJson (h.region id hid)
  have hrelated : (Value.ofOption RegionId.toJson i.related).Plain room :=
    Value.plain_ofOption fun id hid => RegionId.plain_toJson (h.related id hid)
  exact .fields (by simp) (by simp [Value.Plain.string, IssueKind.toJson, Severity.toJson, hregion, hrelated])

end Issue

namespace Report

/-- The numbers of the regions are in the range of their type. Nothing is said about the messages. -/
def Fits (r : Report) : Prop := ∀ i ∈ r.issues, i.Fits

include hlib in
theorem ofJson?_toJson {r : Report} (h : r.Fits) : ofJson? lib r.toJson = some r := by
  have hissues : lib.list? (Issue.ofJson? lib) (.list (r.issues.map Issue.toJson)) = some r.issues :=
    hlib.list?_map fun i hi => Issue.ofJson?_toJson hlib (h i hi)
  simp [ofJson?, toJson, hlib.fields?_fields, List.lookup_cons, hissues, hlib.bool?_bool]

theorem plain_toJson {r : Report} (h : r.Fits) : r.toJson.Plain (room + 3) := by
  have hissues : (Value.list (r.issues.map Issue.toJson)).Plain (room + 2) :=
    .list (List.forall_mem_map.2 fun i hi => Issue.plain_toJson (h i hi))
  exact .fields (by simp) (by simp [hissues, Value.Plain.bool])

end Report

/-- Whatever library is used, as long as it keeps the laws, a text in one line is written for each step of a drag, each
call to the host and each report of a check, and they are read back from it. -/
theorem parse?_compact_logged (hlib : lib.Lawful) :
    (∀ t : Transition, t.Fits → ∃ text, lib.compact t.toJson = .ok text ∧
        (lib.parse? text).bind (Transition.ofJson? lib) = some t) ∧
      (∀ c : HostCall, c.Fits → ∃ text, lib.compact c.toJson = .ok text ∧
        (lib.parse? text).bind (HostCall.ofJson? lib) = some c) ∧
      ∀ r : Report, r.Fits → ∃ text, lib.compact r.toJson = .ok text ∧
        (lib.parse? text).bind (Report.ofJson? lib) = some r := by
  refine ⟨fun t h => ?_, fun c h => ?_, fun r h => ?_⟩
  · exact hlib.exists_compact (Transition.plain_toJson h) (Transition.ofJson?_toJson hlib h)
  · exact hlib.exists_compact (HostCall.plain_toJson h) (HostCall.ofJson?_toJson hlib h)
  · exact hlib.exists_compact (Report.plain_toJson h) (Report.ofJson?_toJson hlib h)

/-- Numbers at the ends of their ranges, a drag that held no line, and a message of quotes, backslashes, control
characters and a character beyond the first plane. -/
theorem parse?_compact_logged_ends :
    let t : Transition := {
      number := 18446744073709551615
      before := .dragging ⟨⟨none, some (-2147483648)⟩, ⟨0, 2147483647⟩, .vertical⟩ ⟨2147483647, -1⟩ ⟨-2147483648, 0⟩
        ⟨-2147483648, 2147483647, -1, 0⟩
      after := .idle
      effect := .canceled (some .none) .containerResized true }
    let c : HostCall := .setBounds ⟨18446744073709551615⟩ ⟨-2147483648, 2147483647, -1, 0⟩
    let r : Report := ⟨[⟨.overlap, .error, some ⟨0⟩, some ⟨18446744073709551615⟩, "\"\\/\x00\x08\x0c\n\r\t\x1f\x7f😀"⟩,
      { kind := .aboveMaximum, severity := .warning, message := "" }], true⟩
    let lib := Library.standard
    lib.Lawful ∧
      (t.Fits ∧ ∃ text, lib.compact t.toJson = .ok text ∧
        (lib.parse? text).bind (Transition.ofJson? lib) = some t) ∧
      (c.Fits ∧ ∃ text, lib.compact c.toJson = .ok text ∧ (lib.parse? text).bind (HostCall.ofJson? lib) = some c) ∧
      r.Fits ∧ ∃ text, lib.compact r.toJson = .ok text ∧ (lib.parse? text).bind (Report.ofJson? lib) = some r := by
  intro t c r lib
  have ht : t.Fits := by
    refine ⟨by decide, ⟨⟨⟨nofun, ?_⟩, ⟨by decide, by decide⟩⟩, ⟨by decide, by decide⟩, ⟨by decide, by decide⟩, by decide⟩,
      trivial, ?_⟩
    · exact fun line hline => Option.mem_some.1 hline ▸ by decide
    · exact fun g hg => Option.mem_some.1 hg ▸ ⟨nofun, nofun⟩
  have hc : c.Fits := ⟨by decide, by decide⟩
  have hr : r.Fits := by
    intro i hi
    simp only [r, List.mem_cons, List.not_mem_nil, or_false] at hi
    obtain rfl | rfl := hi
    · exact ⟨fun _ hid => Option.mem_some.1 hid ▸ by decide, fun _ hid => Option.mem_some.1 hid ▸ by decide⟩
    · exact ⟨nofun, nofun⟩
  obtain ⟨hsteps, hcalls, hreports⟩ := parse?_compact_logged Library.standard_lawful
  exact ⟨Library.standard_lawful, ⟨ht, hsteps t ht⟩, ⟨hc, hcalls c hc⟩, hr, hreports r hr⟩

end Mosaic
