/-! Sets of characters given by closed ranges of code points. -/
namespace Mosaic.Text

abbrev CharRanges := List (Nat × Nat)

namespace CharRanges

def holds (rs : CharRanges) (c : Char) : Bool :=
  rs.any fun (first, last) => first ≤ c.toNat && c.toNat ≤ last

end CharRanges

end Mosaic.Text
