import Mosaic.Snapshot.Basic

/-! A fingerprint of a snapshot: its fields are written as bytes, and the bytes are mixed one by one
into a 64-bit word. -/
namespace Mosaic.Snapshot

/-- The `n` lowest bytes of a number in two's complement, the lowest first. -/
def littleEndian : Nat → Int → List UInt8
  | 0, _ => []
  | n + 1, v => UInt8.ofNat (v % 256).toNat :: littleEndian n (v / 256)

theorem length_littleEndian (n : Nat) (v : Int) : (littleEndian n v).length = n := by
  induction n generalizing v with
  | zero => rfl
  | succ n ih => simp [littleEndian, ih]

def rectBytes (r : Rect) : List UInt8 :=
  littleEndian 4 r.x ++ littleEndian 4 r.y ++ littleEndian 4 r.width ++ littleEndian 4 r.height

/-- A size is announced by a one, its absence by a zero. -/
def sizeBytes : Option Size → List UInt8
  | none => [0]
  | some s => 1 :: (littleEndian 4 s.width ++ littleEndian 4 s.height)

def anchorBytes : Option RegionId → List UInt8
  | none => [0]
  | some id => 1 :: littleEndian 8 id.number

def itemBytes (i : Item) : List UInt8 :=
  littleEndian 8 i.id.number ++ rectBytes i.bounds ++ sizeBytes i.minSize ++ sizeBytes i.maxSize

def bytes (s : Snapshot) : List UInt8 :=
  littleEndian 2 s.version ++ rectBytes s.container ++ anchorBytes s.anchor ++
    littleEndian 8 s.items.length ++ s.items.flatMap itemBytes

def offsetBasis : UInt64 := 0xcbf29ce484222325

def multiplier : UInt64 := 0x1000001b3

def mix (word : UInt64) (byte : UInt8) : UInt64 := (word ^^^ byte.toUInt64) * multiplier

def fingerprint (s : Snapshot) : UInt64 := s.bytes.foldl mix offsetBasis

end Mosaic.Snapshot
