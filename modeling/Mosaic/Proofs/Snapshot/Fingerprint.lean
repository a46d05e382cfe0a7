import Mathlib.Algebra.Order.Ring.Int
import Mosaic.Snapshot.Fingerprint

/-! The fingerprint beside the published hash FNV-1a of 64 bits, over the numbers of a snapshot one behind the other. It
is that hash with another multiplier, which is the prime only up to its lower half. So the lower half of a fingerprint is
that of the published hash, and the upper one is not. -/
namespace Mosaic.Snapshot

/-! ### The published hash -/

/-- The FNV-1a hash of 64 bits of a list of bytes. Each byte changes the lowest bits of the word by an exclusive or, and
then the word is multiplied. -/
def fnv1a (prime : Nat) (bytes : List Nat) : Nat :=
  bytes.foldl (fun word byte => (word ^^^ byte) * prime % 2 ^ 64) 0xcbf29ce484222325

def fnvPrime : Nat := 2 ^ 40 + 0x1b3

/-- The published value for the letter a. -/
example : fnv1a fnvPrime [0x61] = 0xaf63dc4c8601ec8c := by decide

/-- The lowest bits of a word come from those of the word before it, of the byte and of the multiplier. -/
theorem xor_mul_mod_two_pow {k : Nat} (hk : k ≤ 64) (word byte p : Nat) :
    (word ^^^ byte) * p % 2 ^ 64 % 2 ^ k = (word % 2 ^ k ^^^ byte % 2 ^ k) * (p % 2 ^ k) % 2 ^ k := by
  rw [Nat.mod_mod_of_dvd _ (Nat.pow_dvd_pow 2 hk), Nat.mul_mod, Nat.xor_mod_two_pow]

theorem fnv1a_mod_two_pow {k p q : Nat} (hk : k ≤ 64) (hpq : p % 2 ^ k = q % 2 ^ k) (bytes : List Nat) :
    fnv1a p bytes % 2 ^ k = fnv1a q bytes % 2 ^ k := by
  refine List.foldl_rel (r := fun v w => v % 2 ^ k = w % 2 ^ k) rfl fun byte _ v w hvw => ?_
  rw [xor_mul_mod_two_pow hk, xor_mul_mod_two_pow hk, hvw, hpq]

/-! ### The numbers of a snapshot -/

/-- Numbers to be hashed, each with the number of bytes that it takes. -/
abbrev Fields := List (Nat × Int)

def octets (n : Nat) (v : Int) : List Nat := (List.range n).map fun k => (v / 256 ^ k % 256).toNat

def Fields.octets (fields : Fields) : List Nat := fields.flatMap fun (n, v) => Snapshot.octets n v

def rectFields (r : Rect) : Fields := [(4, r.x), (4, r.y), (4, r.width), (4, r.height)]

def optionFields {α : Type} (fields : α → Fields) : Option α → Fields
  | none => [(1, 0)]
  | some a => (1, 1) :: fields a

def sizeFields (s : Size) : Fields := [(4, s.width), (4, s.height)]

def idFields (id : RegionId) : Fields := [(8, id.number)]

def itemFields (i : Item) : Fields :=
  idFields i.id ++ rectFields i.bounds ++ optionFields sizeFields i.minSize ++ optionFields sizeFields i.maxSize

/-- The numbers of a snapshot in the order in which they are hashed. -/
def fields (s : Snapshot) : Fields :=
  [(2, (s.version : Int))] ++ rectFields s.container ++ optionFields idFields s.anchor ++
    [(8, (s.items.length : Int))] ++ s.items.flatMap itemFields

theorem map_toNat_littleEndian (n : Nat) (v : Int) : (littleEndian n v).map UInt8.toNat = octets n v := by
  induction n generalizing v with
  | zero => rfl
  | succ n ih =>
    have hfirst : (UInt8.ofNat (v % 256).toNat).toNat = (v % 256).toNat := by
      rw [UInt8.toNat_ofNat']
      omega
    have hrest : ∀ k : Nat, v / 256 / 256 ^ k = v / 256 ^ (k + 1) := fun k => by
      rw [pow_succ', Int.ediv_ediv_of_nonneg (by decide)]
    simp [littleEndian, octets, List.range_succ_eq_map, hfirst, ih, hrest, Function.comp_def]

theorem map_toNat_number (n : Nat) (v : Int) : (littleEndian n v).map UInt8.toNat = Fields.octets [(n, v)] := by
  simp [Fields.octets, map_toNat_littleEndian]

theorem octets_append (fields others : Fields) : Fields.octets (fields ++ others) = fields.octets ++ others.octets :=
  List.flatMap_append

theorem map_toNat_rectBytes (r : Rect) : (rectBytes r).map UInt8.toNat = (rectFields r).octets := by
  simp [rectBytes, rectFields, Fields.octets, map_toNat_littleEndian]

theorem map_toNat_optionBytes {α : Type} {write : α → List UInt8} {optionBytes : Option α → List UInt8}
    {fields : α → Fields} (hnone : optionBytes none = [0]) (hsome : ∀ a, optionBytes (some a) = 1 :: write a)
    (hwrite : ∀ a, (write a).map UInt8.toNat = (fields a).octets) (o : Option α) :
    (optionBytes o).map UInt8.toNat = (optionFields fields o).octets := by
  cases o with
  | none =>
    rw [hnone]
    rfl
  | some a =>
    rw [hsome, List.map_cons, hwrite]
    rfl

theorem map_toNat_sizeBytes (o : Option Size) : (sizeBytes o).map UInt8.toNat = (optionFields sizeFields o).octets :=
  map_toNat_optionBytes rfl (fun _ => rfl) (by simp [sizeFields, Fields.octets, map_toNat_littleEndian]) o

theorem map_toNat_anchorBytes (o : Option RegionId) :
    (anchorBytes o).map UInt8.toNat = (optionFields idFields o).octets :=
  map_toNat_optionBytes rfl (fun _ => rfl) (fun id => map_toNat_number 8 id.number) o

theorem map_toNat_itemBytes (i : Item) : (itemBytes i).map UInt8.toNat = (itemFields i).octets := by
  simp only [itemBytes, itemFields, idFields, List.map_append, octets_append, map_toNat_number, map_toNat_rectBytes,
    map_toNat_sizeBytes]

/-- The bytes of a snapshot are those of its numbers. -/
theorem map_toNat_bytes (s : Snapshot) : s.bytes.map UInt8.toNat = s.fields.octets := by
  have hitems : (s.items.flatMap itemBytes).map UInt8.toNat = Fields.octets (s.items.flatMap itemFields) := by
    simp only [List.map_flatMap, map_toNat_itemBytes, Fields.octets, List.flatMap_assoc]
  simp only [bytes, fields, List.map_append, octets_append, hitems, map_toNat_number, map_toNat_rectBytes,
    map_toNat_anchorBytes]

/-! ### The fingerprint -/

theorem toNat_mix (word : UInt64) (byte : UInt8) :
    (mix word byte).toNat = (word.toNat ^^^ byte.toNat) * (2 ^ 32 + 0x1b3) % 2 ^ 64 := by
  rw [mix, UInt64.toNat_mul, UInt64.toNat_xor, UInt8.toNat_toUInt64]
  rfl

theorem toNat_fingerprint (s : Snapshot) : s.fingerprint.toNat = fnv1a (2 ^ 32 + 0x1b3) s.fields.octets := by
  rw [← map_toNat_bytes, fnv1a, List.foldl_map]
  exact (List.foldl_hom UInt64.toNat fun word byte => (toNat_mix word byte).symm).symm

/-- A fingerprint is hashed like the published hash of the same bytes, from the same basis, but multiplied by another
number. In its lower half it is the published hash all the same. -/
theorem fingerprint_eq_fnv1a (s : Snapshot) :
    s.fingerprint.toNat = fnv1a (2 ^ 32 + 0x1b3) s.fields.octets ∧
      s.fingerprint.toNat % 2 ^ 32 = fnv1a fnvPrime s.fields.octets % 2 ^ 32 := by
  refine ⟨toNat_fingerprint s, ?_⟩
  rw [toNat_fingerprint]
  exact fnv1a_mod_two_pow (by decide) (by decide) s.fields.octets

/-- The fingerprint of an empty square is not the published hash of its bytes. -/
theorem not_fingerprint_eq_fnv1a : ¬ ∀ s : Snapshot, s.fingerprint.toNat = fnv1a fnvPrime s.fields.octets := by
  intro h
  have hsquare := h { container := ⟨0, 0, 10, 10⟩, items := [] }
  revert hsquare
  decide +kernel

end Mosaic.Snapshot
