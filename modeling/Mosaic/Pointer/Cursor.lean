/-! The shapes that a host can be asked to give to the pointer. -/
namespace Mosaic

inductive Cursor | default | resizeH | resizeV | move deriving DecidableEq

/-- Every shape but the normal one announces that something can be dragged. -/
def Cursor.announcesResize (c : Cursor) : Bool := c != .default

end Mosaic
