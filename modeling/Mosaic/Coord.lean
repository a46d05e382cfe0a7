/-! Coordinates are integers that a host keeps in 32 bits. An exact result outside that range is
refused and names the operation that left it; saturating sums are cut off at the range's ends. -/
namespace Mosaic

/-- The operation whose exact result did not fit, or the stack of calls. -/
inductive Overflow | add | sub | mul | neg | stack deriving DecidableEq

def Overflow.message : Overflow → String
  | .add => "attempt to add with overflow"
  | .sub => "attempt to subtract with overflow"
  | .mul => "attempt to multiply with overflow"
  | .neg => "attempt to negate with overflow"
  | .stack => "stack overflow"

abbrev Checked := Except Overflow

namespace Coord

/-- The integers that a coordinate can hold. -/
def Fits (v : Int) : Prop := -2147483648 ≤ v ∧ v ≤ 2147483647

instance (v : Int) : Decidable (Fits v) := inferInstanceAs (Decidable (_ ∧ _))

/-- The exact result of `op`, if a coordinate can hold it. -/
def keep (op : Overflow) (v : Int) : Checked Int := if Fits v then .ok v else .error op

def add (a b : Int) : Checked Int := keep .add (a + b)

def sub (a b : Int) : Checked Int := keep .sub (a - b)

def mul (a b : Int) : Checked Int := keep .mul (a * b)

/-- The magnitude; only the least coordinate has none. -/
def abs (a : Int) : Checked Int := if a < 0 then keep .neg (-a) else .ok a

def saturate (v : Int) : Int := max (-2147483648) (min v 2147483647)

def satAdd (a b : Int) : Int := saturate (a + b)

theorem keep_eq_ok_iff {op : Overflow} {v r : Int} : keep op v = .ok r ↔ Fits v ∧ v = r := by
  unfold keep; split <;> simp_all

theorem saturate_of_fits {v : Int} (h : Fits v) : saturate v = v := by
  unfold Fits at h; unfold saturate; omega

theorem fits_saturate (v : Int) : Fits (saturate v) := by
  unfold Fits saturate; omega

end Coord

namespace Area

/-- Areas are summed in 64 bits. -/
def Fits (v : Int) : Prop := -9223372036854775808 ≤ v ∧ v ≤ 9223372036854775807

instance (v : Int) : Decidable (Fits v) := inferInstanceAs (Decidable (_ ∧ _))

def add (a b : Int) : Checked Int := if Fits (a + b) then .ok (a + b) else .error .add

end Area

end Mosaic
