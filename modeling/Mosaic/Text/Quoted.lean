import Mosaic.Text.Joining
import Mosaic.Text.Unseen

/-! Texts in quotes for messages: quotes, backslashes and characters that cannot be seen by themselves
are escaped. -/
namespace Mosaic.Text.Quoted

/-- A character that is not drawn, or not apart from the one before it. -/
def isHidden (c : Char) : Bool := unseen.holds c || joining.holds c

def escape (c : Char) : List Char :=
  if c = '\x00' then ['\\', '0']
  else if c = '\t' then ['\\', 't']
  else if c = '\n' then ['\\', 'n']
  else if c = '\r' then ['\\', 'r']
  else if c = '"' then ['\\', '"']
  else if c = '\\' then ['\\', '\\']
  else if isHidden c then '\\' :: 'u' :: '\x7b' :: (Nat.toDigits 16 c.toNat ++ ['\x7d'])
  else [c]

def quote (s : String) : String := String.ofList ('"' :: (s.toList.flatMap escape ++ ['"']))

end Mosaic.Text.Quoted
