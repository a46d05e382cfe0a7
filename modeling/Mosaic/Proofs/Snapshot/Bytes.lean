import Mathlib.Algebra.Order.Group.Unbundled.Int
import Mathlib.Algebra.Order.Ring.Int
import Mosaic.Proofs.Format.Snapshot
import Mosaic.Snapshot.Fingerprint

/-! The bytes of a snapshot determine it. Every part tells by itself where it ends: numbers are of fixed width, and a
size or an anchor is announced. So the parts are found one after the other, and the items are cut off one by one, to
the last byte. -/
namespace Mosaic.Snapshot

/-! ### Parts that tell where they end -/

/-- From what is written for a good value, whatever comes behind it, the value and the rest can be told. -/
def SelfDelimiting {α : Type} (good : α → Prop) (write : α → List UInt8) : Prop :=
  ∀ ⦃a b : α⦄ ⦃rest rest' : List UInt8⦄, good a → good b → write a ++ rest = write b ++ rest' → a = b ∧ rest = rest'

namespace SelfDelimiting

variable {α : Type} {good : α → Prop} {write : α → List UInt8}

theorem option (h : SelfDelimiting good write) {writeOption : Option α → List UInt8} (hnone : writeOption none = [0])
    (hsome : ∀ a, writeOption (some a) = 1 :: write a) : SelfDelimiting (fun o => ∀ a ∈ o, good a) writeOption := by
  intro o o' rest rest' ho ho' heq
  cases o with
  | none =>
    cases o' with
    | none =>
      rw [hnone] at heq
      exact ⟨rfl, (List.cons.inj heq).2⟩
    | some b =>
      rw [hnone, hsome] at heq
      exact absurd (List.cons.inj heq).1 (by decide)
  | some a =>
    cases o' with
    | none =>
      rw [hnone, hsome] at heq
      exact absurd (List.cons.inj heq).1 (by decide)
    | some b =>
      rw [hsome, hsome] at heq
      obtain ⟨rfl, hrest⟩ := h (ho a rfl) (ho' b rfl) (List.cons.inj heq).2
      exact ⟨rfl, hrest⟩

/-- A list is cut into its items from the front, to its end, as no item takes no byte. -/
theorem flatMap_inj (h : SelfDelimiting good write) (hne : ∀ a, write a ≠ []) {as bs : List α} (has : ∀ a ∈ as, good a)
    (hbs : ∀ b ∈ bs, good b) (heq : as.flatMap write = bs.flatMap write) : as = bs := by
  induction as generalizing bs with
  | nil =>
    cases bs with
    | nil => rfl
    | cons b bs => exact absurd (List.append_eq_nil_iff.1 heq.symm).1 (hne b)
  | cons a as ih =>
    cases bs with
    | nil => exact absurd (List.append_eq_nil_iff.1 heq).1 (hne a)
    | cons b bs =>
      obtain ⟨ha, hrest⟩ := List.forall_mem_cons.1 has
      obtain ⟨hb, hrest'⟩ := List.forall_mem_cons.1 hbs
      rw [List.flatMap_cons, List.flatMap_cons] at heq
      obtain ⟨hfirst, heq⟩ := h ha hb heq
      rw [hfirst, ih hrest hrest' heq]

end SelfDelimiting

/-! ### Numbers -/

/-- The lowest bytes of two numbers are the same only if the numbers are congruent. -/
theorem dvd_sub_of_littleEndian_eq {n : Nat} {v w : Int} (h : littleEndian n v = littleEndian n w) :
    (256 : Int) ^ n ∣ v - w := by
  induction n generalizing v w with
  | zero => exact Int.one_dvd _
  | succ n ih =>
    obtain ⟨hfirst, hrest⟩ := List.cons.inj h
    have hbyte : v % 256 = w % 256 := by
      have hnat := congrArg UInt8.toNat hfirst
      rw [UInt8.toNat_ofNat', UInt8.toNat_ofNat'] at hnat
      omega
    have hsub : v - w = 256 * (v / 256 - w / 256) := by omega
    rw [hsub, pow_succ']
    exact Int.mul_dvd_mul_left 256 (ih hrest)

/-- Numbers in a range that is no longer than the bytes can tell are told by them. -/
theorem selfDelimiting_littleEndian (n : Nat) (least : Int) :
    SelfDelimiting (fun v => least ≤ v ∧ v < least + 256 ^ n) (littleEndian n) := by
  intro v w rest rest' hv hw heq
  obtain ⟨hbytes, hrest⟩ := List.append_inj heq (by rw [length_littleEndian, length_littleEndian])
  have hzero : v - w = 0 :=
    Int.eq_zero_of_abs_lt_dvd (dvd_sub_of_littleEndian_eq hbytes) (abs_lt.2 ⟨by omega, by omega⟩)
  exact ⟨by omega, hrest⟩

theorem selfDelimiting_coord : SelfDelimiting Coord.Fits (littleEndian 4) := by
  intro v w rest rest' hv hw heq
  obtain ⟨hleast, hgreatest⟩ := hv
  obtain ⟨hleast', hgreatest'⟩ := hw
  exact selfDelimiting_littleEndian 4 (-2147483648) ⟨by omega, by omega⟩ ⟨by omega, by omega⟩ heq

theorem selfDelimiting_natUpTo {n last : Nat} (hlast : last < 256 ^ n) :
    SelfDelimiting (fun k : Nat => k ≤ last) (fun k => littleEndian n k) := by
  intro k l rest rest' hk hl heq
  have hbound : ((256 : Nat) ^ n : Nat) = (256 : Int) ^ n := by push_cast; rfl
  obtain ⟨hkl, hrest⟩ := selfDelimiting_littleEndian n 0 ⟨by omega, by omega⟩ ⟨by omega, by omega⟩ heq
  exact ⟨by omega, hrest⟩

theorem selfDelimiting_id : SelfDelimiting (fun id : RegionId => id.number ≤ RegionId.last)
    (fun id => littleEndian 8 id.number) := by
  rintro ⟨k⟩ ⟨l⟩ rest rest' hk hl heq
  obtain ⟨rfl, hrest⟩ := selfDelimiting_natUpTo (by decide) hk hl heq
  exact ⟨rfl, hrest⟩

/-! ### The parts of a snapshot -/

theorem selfDelimiting_rectBytes : SelfDelimiting Rect.Fits rectBytes := by
  intro r r' rest rest' hr hr' heq
  obtain ⟨hx, hy, hwidth, hheight⟩ := hr
  obtain ⟨hx', hy', hwidth', hheight'⟩ := hr'
  simp only [rectBytes, List.append_assoc] at heq
  obtain ⟨x_eq, heq⟩ := selfDelimiting_coord hx hx' heq
  obtain ⟨y_eq, heq⟩ := selfDelimiting_coord hy hy' heq
  obtain ⟨width_eq, heq⟩ := selfDelimiting_coord hwidth hwidth' heq
  obtain ⟨height_eq, heq⟩ := selfDelimiting_coord hheight hheight' heq
  exact ⟨(Rect.mk.injEq ..).mpr ⟨x_eq, y_eq, width_eq, height_eq⟩, heq⟩

theorem selfDelimiting_sizeBytes : SelfDelimiting (fun o : Option Size => ∀ s ∈ o, s.Fits) sizeBytes := by
  have hsize : SelfDelimiting Size.Fits fun s => littleEndian 4 s.width ++ littleEndian 4 s.height := by
    intro s s' rest rest' hs hs' heq
    simp only [List.append_assoc] at heq
    obtain ⟨width_eq, heq⟩ := selfDelimiting_coord hs.width hs'.width heq
    obtain ⟨height_eq, heq⟩ := selfDelimiting_coord hs.height hs'.height heq
    exact ⟨(Size.mk.injEq ..).mpr ⟨width_eq, height_eq⟩, heq⟩
  exact hsize.option rfl fun _ => rfl

theorem selfDelimiting_anchorBytes :
    SelfDelimiting (fun o : Option RegionId => ∀ id ∈ o, id.number ≤ RegionId.last) anchorBytes :=
  selfDelimiting_id.option rfl fun _ => rfl

theorem selfDelimiting_itemBytes : SelfDelimiting Item.Fits itemBytes := by
  intro i i' rest rest' hi hi' heq
  simp only [itemBytes, List.append_assoc] at heq
  obtain ⟨id_eq, heq⟩ := selfDelimiting_id hi.id hi'.id heq
  obtain ⟨bounds_eq, heq⟩ := selfDelimiting_rectBytes hi.bounds hi'.bounds heq
  obtain ⟨minSize_eq, heq⟩ := selfDelimiting_sizeBytes hi.minSize hi'.minSize heq
  obtain ⟨maxSize_eq, heq⟩ := selfDelimiting_sizeBytes hi.maxSize hi'.maxSize heq
  exact ⟨(Item.mk.injEq ..).mpr ⟨id_eq, bounds_eq, minSize_eq, maxSize_eq⟩, heq⟩

theorem itemBytes_ne_nil (i : Item) : itemBytes i ≠ [] := by simp [itemBytes, littleEndian]

/-- Different snapshots have different bytes. -/
theorem bytes_inj {s t : Snapshot} (hs : s.Fits) (ht : t.Fits) : s.bytes = t.bytes ↔ s = t := by
  refine ⟨fun heq => ?_, congrArg bytes⟩
  simp only [bytes, List.append_assoc] at heq
  obtain ⟨version_eq, heq⟩ := selfDelimiting_natUpTo (by decide) hs.version ht.version heq
  obtain ⟨container_eq, heq⟩ := selfDelimiting_rectBytes hs.container ht.container heq
  obtain ⟨anchor_eq, heq⟩ := selfDelimiting_anchorBytes hs.anchor ht.anchor heq
  -- The count need not be read, as the items take up all bytes that are left.
  obtain ⟨-, heq⟩ := List.append_inj heq (by rw [length_littleEndian, length_littleEndian])
  have items_eq := selfDelimiting_itemBytes.flatMap_inj itemBytes_ne_nil hs.items ht.items heq
  exact (Snapshot.mk.injEq ..).mpr ⟨version_eq, container_eq, anchor_eq, items_eq⟩

/-- A least size and a largest size of the same extents take equally many bytes, but not the same ones. -/
theorem bytes_inj_sizes :
    let s : Snapshot := ⟨1, ⟨0, 0, 10, 10⟩, none, [⟨⟨1⟩, ⟨0, 0, 10, 10⟩, some ⟨4, 4⟩, none⟩]⟩
    let t : Snapshot := ⟨1, ⟨0, 0, 10, 10⟩, none, [⟨⟨1⟩, ⟨0, 0, 10, 10⟩, none, some ⟨4, 4⟩⟩]⟩
    s.Fits ∧ t.Fits ∧ s.bytes.length = t.bytes.length ∧ s.bytes ≠ t.bytes := by
  intro s t
  have hs : s.Fits := by
    refine ⟨by decide, by decide, nofun, List.forall_mem_singleton.2 ⟨by decide, by decide, ?_, nofun⟩⟩
    exact fun _ hsize => Option.mem_some.1 hsize ▸ ⟨by decide, by decide⟩
  have ht : t.Fits := by
    refine ⟨by decide, by decide, nofun, List.forall_mem_singleton.2 ⟨by decide, by decide, nofun, ?_⟩⟩
    exact fun _ hsize => Option.mem_some.1 hsize ▸ ⟨by decide, by decide⟩
  exact ⟨hs, ht, rfl, fun heq => absurd ((bytes_inj hs ht).1 heq) (by decide)⟩

end Mosaic.Snapshot
