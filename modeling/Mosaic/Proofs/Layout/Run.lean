import Mathlib.Logic.Relation
import Mosaic.Layout.Operation
import Mosaic.Proofs.Layout.Gesture

/-! Runs of a layout: whatever a user or a host does to it, in any order, and regions that are split
in two. A property of the geometry that single steps keep holds all along a run. -/
namespace Mosaic

/-- What a user or a host can do to a layout without adding or removing regions. The container is
only resized to targets that `R` allows for it. -/
def Operation.IsInteraction {W : Type} (R : Rect → Rect → Prop) (l : Layout W) : Operation W → Prop
  | .setAnchor _ | .clearAnchor | .takeDirty | .drag _ _ | .move _ _ | .handlePointer _ |
    .cancelDrag => True
  | .resize target => R l.bounds target
  | .handle event => ∀ target, event = .resize target →
    ∀ first, l.breakOff = .ok first → R first.layout.bounds target
  | _ => False

namespace Layout

variable {W : Type} {R : Rect → Rect → Prop} {G : Settings → Snapshot → Prop}
  {Part : Settings → Rect → Prop} {l l' : Layout W}

/-- One turn of a run: an interaction, or a region is removed and two regions that cover it are
added. There have to be identifiers left for them. -/
inductive Turn (R : Rect → Rect → Prop) (Part : Settings → Rect → Prop) : Layout W → Layout W → Prop
  | interact (l : Layout W) (op : Operation W) (o : Outcome W Unit) (hop : op.IsInteraction R l)
      (h : l.perform op = .ok o) : Turn R Part l o.layout
  | split (l : Layout W) (id : RegionId) (r : Region W) (first second : W) (a b : Rect)
      (o : Outcome W Unit) (hr : l.store.get? id = some r) (hcover : r.bounds.Tile [a, b])
      (ha : a.Fits ∧ Part l.settings a) (hb : b.Fits ∧ Part l.settings b)
      (hnext : l.store.next + 1 < RegionId.last)
      (h : l.run [.removeRegion id, .addRegion first a, .addRegion second b] = .ok o) :
      Turn R Part l o.layout

/-- Splitting a region keeps the property of the geometry. -/
structure Splitting (Part : Settings → Rect → Prop) (G : Settings → Snapshot → Prop) : Prop where
  container : ∀ settings s, G settings s → ¬ s.container.IsEmpty
  split : ∀ settings s s' i rest idA idB a b, G settings s → s.items.Perm (i :: rest) →
    s'.container = s.container → s'.items = rest ++ [⟨idA, a, none, none⟩, ⟨idB, b, none, none⟩] →
      i.bounds.Tile [a, b] → a.Fits ∧ Part settings a → b.Fits ∧ Part settings b → G settings s'

theorem Sound.takeDirty (h : Sound G l) : Sound G l.takeDirty.2 := by
  have hsnapshot : l.takeDirty.2.snapshot = l.snapshot := by
    simp [Layout.takeDirty, snapshot, RegionStore.clean]
  have hids : l.takeDirty.2.store.ids = l.store.ids := l.store.ids_clean
  refine ⟨hsnapshot ▸ h.geometry, ⟨hids ▸ h.store.nodup, ?_⟩, h.idle, ?_⟩
  · rw [hids]
    exact h.store.below
  · rw [hids]
    exact h.pressed

theorem Sound.perform (hG : Lasting W R G) (h : Sound G l) {op : Operation W} (hop : op.IsInteraction R l)
    {o : Outcome W Unit} (ho : l.perform op = .ok o) : Sound G o.layout := by
  cases op with
  | setAnchor id =>
    cases ho
    change Sound G (l.setAnchor id)
    unfold Layout.setAnchor
    split
    · exact h.setAnchor hG (some id)
    · exact h
  | clearAnchor =>
    cases ho
    exact h.setAnchor hG none
  | takeDirty =>
    cases ho
    exact h.takeDirty
  | drag held goal =>
    obtain ⟨moved, hmoved, rfl⟩ := Checked.map_eq_ok.1 ho
    exact (h.drag hG hmoved).1
  | move held goal =>
    obtain ⟨moved, hmoved, rfl⟩ := Checked.map_eq_ok.1 ho
    exact h.move hG hmoved
  | resize target =>
    obtain ⟨resized, hresized, rfl⟩ := Checked.map_eq_ok.1 ho
    exact h.resize hG hop hresized
  | handlePointer event =>
    obtain ⟨handled, hhandled, rfl⟩ := Checked.map_eq_ok.1 ho
    exact h.handlePointer hG hhandled
  | handle event =>
    obtain ⟨handled, hhandled, rfl⟩ := Checked.map_eq_ok.1 ho
    exact h.handle hG hop hhandled
  | cancelDrag =>
    obtain ⟨canceled, hcanceled, rfl⟩ := Checked.map_eq_ok.1 ho
    exact h.cancel (cancel_eq_ok hcanceled)
  | _ => exact hop.elim

theorem removeRegion_eq (hidle : l.gesture.phase.grasp? = none → l.gesture.pressed = none) {id : RegionId}
    {r : Region W} (hr : l.store.get? id = some r) :
    ∃ anchor gesture, (l.removeRegion id).layout = { l with store := l.store.erase id, anchor, gesture } ∧
      gesture.phase.grasp? = none ∧ gesture.pressed = none := by
  simp only [removeRegion, hr, abandonDrag]
  split
  · next hnone => exact ⟨_, l.gesture, rfl, hnone, hidle hnone⟩
  · exact ⟨_, _, rfl, rfl, rfl⟩

theorem addRegion_eq_ok {widget : W} {bounds : Rect} {added : RegionId × Layout W}
    (h : l.addRegion widget bounds = .ok added) (hne : ¬ l.bounds.IsEmpty) :
    added.2 = { l with store := (l.store.insert widget bounds).2 } := by
  simp only [addRegion, if_neg hne] at h
  obtain ⟨box, hbox, h⟩ := Checked.bind_eq_ok.1 h
  cases Checked.pure_eq_ok.1 hbox
  cases Checked.pure_eq_ok.1 h
  rfl

theorem run_split_eq_ok {id : RegionId} {first second : W} {a b : Rect} {o : Outcome W Unit}
    (h : l.run [.removeRegion id, .addRegion first a, .addRegion second b] = .ok o) :
    ∃ addedA addedB, (l.removeRegion id).layout.addRegion first a = .ok addedA ∧
      addedA.2.addRegion second b = .ok addedB ∧ o.layout = addedB.2 := by
  obtain ⟨removed, hremoved, h⟩ := Checked.bind_eq_ok.1 h
  cases hremoved
  obtain ⟨afterA, hrunA, rfl⟩ := Checked.map_eq_ok.1 h
  obtain ⟨placedA, hplacedA, h⟩ := Checked.bind_eq_ok.1 hrunA
  obtain ⟨addedA, hA, rfl⟩ := Checked.map_eq_ok.1 hplacedA
  obtain ⟨afterB, hrunB, rfl⟩ := Checked.map_eq_ok.1 h
  obtain ⟨placedB, hplacedB, h⟩ := Checked.bind_eq_ok.1 hrunB
  obtain ⟨addedB, hB, rfl⟩ := Checked.map_eq_ok.1 hplacedB
  obtain ⟨last, hlast, rfl⟩ := Checked.map_eq_ok.1 h
  cases hlast
  exact ⟨addedA, addedB, hA, hB, rfl⟩

theorem Sound.split (hS : Splitting Part G) (h : Sound G l) {id : RegionId} {r : Region W}
    (hr : l.store.get? id = some r) {first second : W} {a b : Rect} (hcover : r.bounds.Tile [a, b])
    (ha : a.Fits ∧ Part l.settings a) (hb : b.Fits ∧ Part l.settings b)
    (hnext : l.store.next + 1 < RegionId.last) {o : Outcome W Unit}
    (ho : l.run [.removeRegion id, .addRegion first a, .addRegion second b] = .ok o) :
    Sound G o.layout := by
  have harea := hS.container l.settings l.snapshot h.geometry
  obtain ⟨addedA, addedB, hA, hB, hlayout⟩ := run_split_eq_ok ho
  obtain ⟨anchor, gesture, hremoved, hidle, hpressed⟩ := removeRegion_eq h.idle hr
  rw [hremoved] at hA
  have hA := addRegion_eq_ok hA harea
  rw [hA] at hB
  have hB := addRegion_eq_ok hB harea
  rw [hlayout, hB]
  have hperm := RegionStore.perm_erase hr
  have hfirst := (h.store.erase id).insert (Nat.lt_of_succ_lt hnext) first a
  refine ⟨?_, hfirst.insert ?_ second b, fun _ => hpressed, fun s hs => ?_⟩
  · refine hS.split l.settings l.snapshot _ _ _ ⟨l.store.next⟩ ⟨((l.store.erase id).insert first a).2.next⟩
      a b h.geometry (hperm.map _) rfl ?_ hcover ha hb
    simp [snapshot, RegionStore.insert, RegionStore.erase]
  · change min (l.store.next + 1) RegionId.last < RegionId.last
    omega
  · rw [hpressed] at hs
    cases hs

/-- What single steps keep, a run keeps. -/
theorem Sound.turn (hG : Lasting W R G) (hS : Splitting Part G) (h : Sound G l) (ht : Turn R Part l l') :
    Sound G l' := by
  cases ht with
  | interact op o hop ho => exact h.perform hG hop ho
  | split id r first second a b o hr hcover ha hb hnext ho => exact h.split hS hr hcover ha hb hnext ho

theorem Sound.run (hG : Lasting W R G) (hS : Splitting Part G) (h : Sound G l)
    (hrun : Relation.ReflTransGen (Turn R Part) l l') : Sound G l' := by
  induction hrun with
  | refl => exact h
  | tail _ ht ih => exact ih.turn hG hS ht

end Layout

end Mosaic
