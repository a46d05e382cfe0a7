import Mosaic.Plane.Rect

/-! Regions: a widget with its place and the sizes it should keep to. -/
namespace Mosaic

/-- Identifiers are handed out in increasing order, starting with one, and never twice. -/
structure RegionId where
  number : Nat
deriving DecidableEq

namespace RegionId

def last : Nat := 18446744073709551615

/-- Zero identifies no region. -/
def ofNat? (n : Nat) : Option RegionId := if n = 0 then none else some ⟨n⟩

def describe (id : RegionId) : String := "RegionId(" ++ toString id.number ++ ")"

end RegionId

structure Region (W : Type) where
  id : RegionId
  widget : W
  bounds : Rect
  minSize : Option Size := none
  maxSize : Option Size := none
  /-- The bounds changed since the host last asked. -/
  dirty : Bool := true
deriving DecidableEq

/-- Gives the region new bounds, and marks it when they differ from the old ones. -/
def Region.place {W : Type} (r : Region W) (bounds : Rect) : Region W :=
  if r.bounds = bounds then r else { r with bounds, dirty := true }

end Mosaic
