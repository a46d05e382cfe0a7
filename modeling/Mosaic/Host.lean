import Mosaic.Pointer.Cursor
import Mosaic.Region.Basic

/-! What a layout asks of the program it is part of. -/
namespace Mosaic

/-- Why the host is notified: a drag moved edges, or ended with a change. -/
inductive Notice | dragged | changed deriving DecidableEq

inductive HostCall
  | setBounds (region : RegionId) (bounds : Rect)
  | setCursor (cursor : Cursor)
  | notify (notice : Notice)
deriving DecidableEq

namespace HostCall

def notice? : HostCall → Option Notice
  | .notify n => some n
  | _ => none

def cursor? : HostCall → Option Cursor
  | .setCursor c => some c
  | _ => none

def boundsOf? (id : RegionId) : HostCall → Option Rect
  | .setBounds region bounds => if region = id then some bounds else none
  | _ => none

def lastBounds? (calls : List HostCall) (id : RegionId) : Option Rect :=
  (calls.filterMap (boundsOf? id)).getLast?

end HostCall

end Mosaic
