import Mathlib.Data.Int.ModEq
import Mathlib.Data.Nat.Bitwise
import Mosaic.Proofs.Snapshot.Bytes
import Mosaic.Proofs.Snapshot.Fingerprint

/-! A snapshot with one coordinate changed has another fingerprint. The four bytes of a coordinate lead from one word to
different words if they differ, as the multiplier spreads each of them too far for the others to make up for it. What is
taken in behind them keeps different words different, as the multiplier is odd. -/
namespace Mosaic

/-- One coordinate of the rectangle is another one. -/
inductive Rect.Altered : Rect → Rect → Prop
  | x {r : Rect} {v : Int} (h : r.x ≠ v) : Altered r { r with x := v }
  | y {r : Rect} {v : Int} (h : r.y ≠ v) : Altered r { r with y := v }
  | width {r : Rect} {v : Int} (h : r.width ≠ v) : Altered r { r with width := v }
  | height {r : Rect} {v : Int} (h : r.height ≠ v) : Altered r { r with height := v }

inductive Size.Altered : Size → Size → Prop
  | width {s : Size} {v : Int} (h : s.width ≠ v) : Altered s { s with width := v }
  | height {s : Size} {v : Int} (h : s.height ≠ v) : Altered s { s with height := v }

/-- One coordinate of the item is another one: of its bounds, or of a size that it has. -/
inductive Snapshot.Item.Altered : Snapshot.Item → Snapshot.Item → Prop
  | bounds {i : Snapshot.Item} {r : Rect} (h : i.bounds.Altered r) : Altered i { i with bounds := r }
  | minSize {i : Snapshot.Item} {a b : Size} (ha : i.minSize = some a) (h : a.Altered b) :
    Altered i { i with minSize := some b }
  | maxSize {i : Snapshot.Item} {a b : Size} (ha : i.maxSize = some a) (h : a.Altered b) :
    Altered i { i with maxSize := some b }

/-- One coordinate of the snapshot is another one: of its container, or of one of its items. -/
inductive Snapshot.Altered : Snapshot → Snapshot → Prop
  | container {s : Snapshot} {r : Rect} (h : s.container.Altered r) : Altered s { s with container := r }
  | item {s : Snapshot} {before after : List Snapshot.Item} {i j : Snapshot.Item}
    (hi : s.items = before ++ i :: after) (h : i.Altered j) : Altered s { s with items := before ++ j :: after }

namespace Snapshot

/-! ### Taking in bytes -/

def absorb (word byte : Nat) : Nat := (word ^^^ byte) * (2 ^ 32 + 0x1b3) % 2 ^ 64

theorem absorb_lt (word byte : Nat) : absorb word byte < 2 ^ 64 := Nat.mod_lt _ (by decide)

/-- How much a byte changes the word before it is multiplied. -/
def drift (word byte : Nat) : Int := ((word ^^^ byte : Nat) : Int) - word

/-- A byte changes nothing but the lowest byte of the word. -/
theorem drift_bounded (word : Nat) {byte : Nat} (h : byte < 256) :
    -255 ≤ drift word byte ∧ drift word byte ≤ 255 := by
  have hhigh : (word ^^^ byte) / 2 ^ 8 = word / 2 ^ 8 := by
    rw [Nat.xor_div_two_pow, Nat.div_eq_of_lt h, Nat.xor_zero]
  unfold drift
  omega

theorem drift_inj {word a b : Nat} (h : drift word a = drift word b) : a = b := by
  have hword : word ^^^ a = word ^^^ b := by
    unfold drift at h
    omega
  exact Nat.xor_right_injective hword

/-- Being odd, the multiplier can be cancelled. -/
theorem modEq_zero_of_mul {a : Int} (h : a * (2 ^ 32 + 0x1b3) ≡ 0 [ZMOD 2 ^ 64]) : a ≡ 0 [ZMOD 2 ^ 64] := by
  have hcoprime : Int.gcd (2 ^ 64) (2 ^ 32 + 0x1b3) = 1 := by decide
  rw [← Int.zero_mul (2 ^ 32 + 0x1b3)] at h
  have hcancel := h.cancel_right_div_gcd (by decide)
  rwa [hcoprime, Nat.cast_one, Int.ediv_one] at hcancel

theorem absorb_sub (v w a b : Nat) : (absorb v a : Int) - absorb w b ≡
    ((v : Int) - w + (drift v a - drift w b)) * (2 ^ 32 + 0x1b3) [ZMOD 2 ^ 64] := by
  have hword : ∀ word byte, (absorb word byte : Int) ≡ (word + drift word byte) * (2 ^ 32 + 0x1b3) [ZMOD 2 ^ 64] := by
    intro word byte
    have hsum : (word : Int) + drift word byte = (word ^^^ byte : Nat) := by
      unfold drift
      omega
    rw [hsum, absorb]
    push_cast
    exact Int.mod_modEq _ _
  have hsub := (hword v a).sub (hword w b)
  rw [← Int.sub_mul] at hsub
  have hsplit : (v : Int) + drift v a - (w + drift w b) = v - w + (drift v a - drift w b) := by omega
  rwa [hsplit] at hsub

/-- Different words are different after a byte that both take in. -/
theorem absorb_inj {v w byte : Nat} (hv : v < 2 ^ 64) (hw : w < 2 ^ 64) (hbyte : byte < 256)
    (h : absorb v byte = absorb w byte) : v = w := by
  have hlt : ∀ {word : Nat}, word < 2 ^ 64 → word ^^^ byte < 2 ^ 64 := fun hword =>
    Nat.xor_lt_two_pow hword (Nat.lt_trans hbyte (by decide))
  have hmod : (v ^^^ byte) * (2 ^ 32 + 0x1b3) ≡ (w ^^^ byte) * (2 ^ 32 + 0x1b3) [MOD 2 ^ 64] := h
  have hxor := (hmod.cancel_right_of_coprime (by decide)).eq_of_lt_of_lt (hlt hv) (hlt hw)
  exact Nat.xor_left_injective hxor

theorem foldl_absorb_inj {bytes : List Nat} (hbytes : ∀ b ∈ bytes, b < 256) {v w : Nat} (hv : v < 2 ^ 64)
    (hw : w < 2 ^ 64) (h : bytes.foldl absorb v = bytes.foldl absorb w) : v = w := by
  induction bytes generalizing v w with
  | nil => exact h
  | cons b bytes ih =>
    obtain ⟨hb, hrest⟩ := List.forall_mem_cons.1 hbytes
    exact absorb_inj hv hw hb (ih hrest (absorb_lt v b) (absorb_lt w b) h)

theorem foldl_absorb_lt (bytes : List Nat) {word : Nat} (h : word < 2 ^ 64) : bytes.foldl absorb word < 2 ^ 64 := by
  induction bytes generalizing word with
  | nil => exact h
  | cons b bytes ih => exact ih (absorb_lt word b)

/-- Four small numbers do not cancel out when they are multiplied up one after the other: the powers of the multiplier
up to the third lie too far apart, in both halves of a word. -/
theorem eq_zero_of_spread {d e f g : Int} (hd : -510 ≤ d ∧ d ≤ 510) (he : -510 ≤ e ∧ e ≤ 510)
    (hf : -510 ≤ f ∧ f ≤ 510) (hg : -510 ≤ g ∧ g ≤ 510)
    (h : ((d * (2 ^ 32 + 0x1b3) + e) * (2 ^ 32 + 0x1b3) + f) * (2 ^ 32 + 0x1b3) + g ≡ 0 [ZMOD 2 ^ 64]) :
    d = 0 ∧ e = 0 ∧ f = 0 ∧ g = 0 := by
  obtain ⟨k, hk⟩ := Int.modEq_zero_iff_dvd.1 h
  -- The two halves of the word, as far as they do not exceed it.
  have hhalves : 2 ^ 32 * (567675 * d + 870 * e + f) + (82312875 * d + 189225 * e + 435 * f + g) =
      2 ^ 64 * (k - (2 ^ 32 + 1305) * d - e) := by omega
  obtain ⟨upper, hupper⟩ : ∃ upper, 567675 * d + 870 * e + f = upper := ⟨_, rfl⟩
  obtain ⟨lower, hlower⟩ : ∃ lower, 82312875 * d + 189225 * e + 435 * f + g = lower := ⟨_, rfl⟩
  obtain ⟨m, hm⟩ : ∃ m, k - (2 ^ 32 + 1305) * d - e = m := ⟨_, rfl⟩
  rw [hupper, hlower, hm] at hhalves
  obtain ⟨carry, hcarry⟩ : ∃ carry, lower = 2 ^ 32 * carry := ⟨2 ^ 32 * m - upper, by omega⟩
  have hcarried : upper = -carry := by omega
  have hd : d = 0 := by omega
  have he : e = 0 := by omega
  omega

/-- Different blocks of four bytes lead from one word to different words. -/
theorem block_inj {word a b c d a' b' c' d' : Nat} (hbytes : ∀ x ∈ [a, b, c, d, a', b', c', d'], x < 256)
    (h : [a, b, c, d].foldl absorb word = [a', b', c', d'].foldl absorb word) :
    [a, b, c, d] = [a', b', c', d'] := by
  simp only [List.forall_mem_cons] at hbytes
  obtain ⟨ha, hb, hc, hd, ha', hb', hc', hd', -⟩ := hbytes
  have hfold : ∀ (f : Nat → Nat → Nat) (w x y z u : Nat), [x, y, z, u].foldl f w = f (f (f (f w x) y) z) u :=
    fun _ _ _ _ _ _ => rfl
  rw [hfold, hfold] at h
  have hsmall : ∀ {v w x y : Nat}, x < 256 → y < 256 → -510 ≤ drift v x - drift w y ∧ drift v x - drift w y ≤ 510 := by
    intro v w x y hx hy
    have hdrift := drift_bounded v hx
    have hdrift' := drift_bounded w hy
    omega
  have hfirst := absorb_sub word word a a'
  have hsecond := absorb_sub (absorb word a) (absorb word a') b b'
  have hthird := absorb_sub (absorb (absorb word a) b) (absorb (absorb word a') b') c c'
  have hlast := absorb_sub (absorb (absorb (absorb word a) b) c) (absorb (absorb (absorb word a') b') c') d d'
  rw [Int.sub_self, Int.zero_add] at hfirst
  rw [h, Int.sub_self] at hlast
  have hsecond := hsecond.trans ((hfirst.add_right _).mul_right _)
  have hthird := hthird.trans ((hsecond.add_right _).mul_right _)
  have hspread := modEq_zero_of_mul (hlast.trans ((hthird.add_right _).mul_right _)).symm
  obtain ⟨hdriftA, hdriftB, hdriftC, hdriftD⟩ :=
    eq_zero_of_spread (hsmall ha ha') (hsmall hb hb') (hsmall hc hc') (hsmall hd hd') hspread
  -- As long as the bytes are the same, so are the words that the next ones are taken into.
  obtain rfl := drift_inj (Int.sub_eq_zero.1 hdriftA)
  obtain rfl := drift_inj (Int.sub_eq_zero.1 hdriftB)
  obtain rfl := drift_inj (Int.sub_eq_zero.1 hdriftC)
  obtain rfl := drift_inj (Int.sub_eq_zero.1 hdriftD)
  rfl

/-! ### The numbers of a snapshot -/

/-- One number of four bytes is another one. -/
def Fields.Altered (fields others : Fields) : Prop :=
  ∃ before after v w, Coord.Fits v ∧ Coord.Fits w ∧ v ≠ w ∧ fields = before ++ (4, v) :: after ∧
    others = before ++ (4, w) :: after

theorem Fields.Altered.append_left {fields others : Fields} (h : fields.Altered others) (before : Fields) :
    Fields.Altered (before ++ fields) (before ++ others) := by
  obtain ⟨first, last, v, w, hv, hw, hne, rfl, rfl⟩ := h
  exact ⟨before ++ first, last, v, w, hv, hw, hne, by simp, by simp⟩

theorem Fields.Altered.append_right {fields others : Fields} (h : fields.Altered others) (after : Fields) :
    Fields.Altered (fields ++ after) (others ++ after) := by
  obtain ⟨first, last, v, w, hv, hw, hne, rfl, rfl⟩ := h
  exact ⟨first, last ++ after, v, w, hv, hw, hne, by simp, by simp⟩

theorem octets_lt {n : Nat} {v : Int} : ∀ b ∈ octets n v, b < 256 := by
  intro b hb
  obtain ⟨k, -, rfl⟩ := List.mem_map.1 hb
  omega

theorem octets_fields_lt {fields : Fields} : ∀ b ∈ fields.octets, b < 256 := by
  intro b hb
  obtain ⟨⟨n, v⟩, -, hb⟩ := List.mem_flatMap.1 hb
  exact octets_lt b hb

theorem octets_coord_inj {v w : Int} (hv : Coord.Fits v) (hw : Coord.Fits w) (h : octets 4 v = octets 4 w) : v = w := by
  rw [← map_toNat_littleEndian, ← map_toNat_littleEndian] at h
  have hbytes : littleEndian 4 v = littleEndian 4 w := List.map_injective_iff.2 (fun _ _ => UInt8.toNat.inj) h
  have hends : littleEndian 4 v ++ [] = littleEndian 4 w ++ [] := by rw [hbytes]
  exact (selfDelimiting_coord hv hw hends).1

/-- Numbers of which one of four bytes is another one are hashed to different words. -/
theorem fnv1a_ne {fields others : Fields} (h : fields.Altered others) :
    fnv1a (2 ^ 32 + 0x1b3) fields.octets ≠ fnv1a (2 ^ 32 + 0x1b3) others.octets := by
  obtain ⟨before, after, v, w, hv, hw, hne, rfl, rfl⟩ := h
  intro heq
  obtain ⟨word, hword⟩ : ∃ word, (Fields.octets before).foldl absorb 0xcbf29ce484222325 = word := ⟨_, rfl⟩
  have hlt : word < 2 ^ 64 := hword ▸ foldl_absorb_lt _ (by decide)
  have hsplit : ∀ u, fnv1a (2 ^ 32 + 0x1b3) (Fields.octets (before ++ (4, u) :: after)) =
      (Fields.octets after).foldl absorb ((octets 4 u).foldl absorb word) := by
    intro u
    have hcons : Fields.octets ((4, u) :: after) = octets 4 u ++ Fields.octets after := rfl
    rw [octets_append, hcons, ← hword, ← List.foldl_append, ← List.foldl_append]
    rfl
  rw [hsplit, hsplit] at heq
  have hblocks := foldl_absorb_inj octets_fields_lt (foldl_absorb_lt _ hlt) (foldl_absorb_lt _ hlt) heq
  have hbytes : ∀ b ∈ octets 4 v ++ octets 4 w, b < 256 := fun b hb =>
    (List.mem_append.1 hb).elim (octets_lt b) (octets_lt b)
  exact hne (octets_coord_inj hv hw (block_inj hbytes hblocks))

/-! ### Parts of a snapshot -/

theorem altered_rectFields {r r' : Rect} (h : r.Altered r') (hr : r.Fits) (hr' : r'.Fits) :
    (rectFields r).Altered (rectFields r') := by
  obtain ⟨hx, hy, hwidth, hheight⟩ := hr
  obtain ⟨hx', hy', hwidth', hheight'⟩ := hr'
  cases h with
  | x hne => exact ⟨[], [(4, r.y), (4, r.width), (4, r.height)], _, _, hx, hx', hne, rfl, rfl⟩
  | y hne => exact ⟨[(4, r.x)], [(4, r.width), (4, r.height)], _, _, hy, hy', hne, rfl, rfl⟩
  | width hne => exact ⟨[(4, r.x), (4, r.y)], [(4, r.height)], _, _, hwidth, hwidth', hne, rfl, rfl⟩
  | height hne => exact ⟨[(4, r.x), (4, r.y), (4, r.width)], [], _, _, hheight, hheight', hne, rfl, rfl⟩

theorem altered_sizeFields {s s' : Size} (h : s.Altered s') (hs : s.Fits) (hs' : s'.Fits) :
    (sizeFields s).Altered (sizeFields s') := by
  cases h with
  | width hne => exact ⟨[], [(4, s.height)], _, _, hs.width, hs'.width, hne, rfl, rfl⟩
  | height hne => exact ⟨[(4, s.width)], [], _, _, hs.height, hs'.height, hne, rfl, rfl⟩

theorem altered_optionFields {s s' : Size} (h : s.Altered s') (hs : s.Fits) (hs' : s'.Fits) :
    (optionFields sizeFields (some s)).Altered (optionFields sizeFields (some s')) :=
  (altered_sizeFields h hs hs').append_left [(1, 1)]

theorem altered_itemFields {i j : Item} (h : i.Altered j) (hi : i.Fits) (hj : j.Fits) :
    (itemFields i).Altered (itemFields j) := by
  cases h with
  | bounds h =>
    have hbounds := altered_rectFields h hi.bounds hj.bounds
    exact ((hbounds.append_left _).append_right _).append_right _
  | minSize ha h =>
    have hsize := altered_optionFields h (hi.minSize _ ha) (hj.minSize _ rfl)
    rw [itemFields, ha]
    exact (hsize.append_left _).append_right _
  | maxSize ha h =>
    have hsize := altered_optionFields h (hi.maxSize _ ha) (hj.maxSize _ rfl)
    rw [itemFields, ha]
    exact hsize.append_left _

theorem altered_fields {s t : Snapshot} (h : s.Altered t) (hs : s.Fits) (ht : t.Fits) :
    s.fields.Altered t.fields := by
  cases h with
  | container h =>
    have hcontainer := altered_rectFields h hs.container ht.container
    exact (((hcontainer.append_left _).append_right _).append_right _).append_right _
  | @item before after i j hi h =>
    have hitem := altered_itemFields h (hs.items i (by simp [hi])) (ht.items j (by simp))
    have hcount : (before ++ j :: after).length = s.items.length := by simp [hi]
    have hitems : Fields.Altered ((before ++ i :: after).flatMap itemFields)
        ((before ++ j :: after).flatMap itemFields) := by
      rw [List.flatMap_append, List.flatMap_append, List.flatMap_cons, List.flatMap_cons]
      exact (hitem.append_right _).append_left _
    rw [Snapshot.fields, Snapshot.fields, hcount, hi]
    exact hitems.append_left _

/-- Changing one coordinate of a snapshot changes its fingerprint. -/
theorem fingerprint_ne_of_altered {s t : Snapshot} (h : s.Altered t) (hs : s.Fits) (ht : t.Fits) :
    s.fingerprint ≠ t.fingerprint := by
  intro heq
  have hwords := congrArg UInt64.toNat heq
  rw [toNat_fingerprint, toNat_fingerprint] at hwords
  exact fnv1a_ne (altered_fields h hs ht) hwords

/-- A least size of another width tells a snapshot apart. -/
theorem fingerprint_ne_of_altered_minSize :
    let s : Snapshot := ⟨1, ⟨0, 0, 10, 10⟩, none, [⟨⟨1⟩, ⟨0, 0, 10, 10⟩, some ⟨4, 4⟩, none⟩]⟩
    let t : Snapshot := ⟨1, ⟨0, 0, 10, 10⟩, none, [⟨⟨1⟩, ⟨0, 0, 10, 10⟩, some ⟨5, 4⟩, none⟩]⟩
    s.Altered t ∧ s.Fits ∧ t.Fits ∧ s.fingerprint ≠ t.fingerprint := by
  intro s t
  have hsize : Size.Altered ⟨4, 4⟩ ⟨5, 4⟩ := .width (by decide)
  have halt : s.Altered t :=
    @Snapshot.Altered.item s [] [] ⟨⟨1⟩, ⟨0, 0, 10, 10⟩, some ⟨4, 4⟩, none⟩ _ rfl (.minSize rfl hsize)
  have hfits : ∀ width, Coord.Fits width →
      Snapshot.Fits ⟨1, ⟨0, 0, 10, 10⟩, none, [⟨⟨1⟩, ⟨0, 0, 10, 10⟩, some ⟨width, 4⟩, none⟩]⟩ := by
    intro width hwidth
    have hbox : Rect.Fits ⟨0, 0, 10, 10⟩ := by decide
    have hversion : 1 ≤ lastVersion := by decide
    have hid : 1 ≤ RegionId.last := by decide
    have hheight : Coord.Fits 4 := by decide
    refine ⟨hversion, hbox, nofun, List.forall_mem_singleton.2 ⟨hid, hbox, ?_, nofun⟩⟩
    exact fun _ hsize => Option.mem_some.1 hsize ▸ ⟨hwidth, hheight⟩
  have hs : s.Fits := hfits 4 (by decide)
  have ht : t.Fits := hfits 5 (by decide)
  exact ⟨halt, hs, ht, fingerprint_ne_of_altered halt hs ht⟩

end Snapshot

end Mosaic
