/-! The two axes of the plane, with points and sizes read along them. -/
namespace Mosaic

inductive Axis | x | y deriving DecidableEq

namespace Axis

def all : List Axis := [.x, .y]

def cross : Axis → Axis
  | .x => .y
  | .y => .x

@[simp] theorem cross_cross (a : Axis) : a.cross.cross = a := by cases a <;> rfl

def extentName : Axis → String
  | .x => "width"
  | .y => "height"

end Axis

structure Point where
  x : Int
  y : Int
deriving DecidableEq

def Point.along (p : Point) : Axis → Int
  | .x => p.x
  | .y => p.y

structure Size where
  width : Int
  height : Int
deriving DecidableEq

namespace Size

def zero : Size := ⟨0, 0⟩

def along (s : Size) : Axis → Int
  | .x => s.width
  | .y => s.height

/-- Negative extents become zero. -/
def clamped (s : Size) : Size := ⟨max s.width 0, max s.height 0⟩

end Size

end Mosaic
