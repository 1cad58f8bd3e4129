import Stencil.Text.Case
import Stencil.Text.DisplayTable

/-!
# Quoted texts

A text in double quotes as it stands inside a printed list or mapping and in a log field. Quotes and
backslashes are escaped, the common controls have their short escapes, and a character that would be
invisible, or would attach itself to its neighbour, is written by its code point.
-/

namespace Stencil.Text

/-- Whether a character is shown as it is inside a quoted text. -/
def isShown (c : Char) : Bool :=
  if c.toNat < 0x7F then 0x20 ≤ c.toNat
  else !(inRanges DisplayTable.graphemeExtendRanges c.toNat
    || inRanges DisplayTable.invisibleRanges c.toNat)

/-- A character as it is written inside a quoted text. -/
def quotedChar (c : Char) : List Char :=
  if c = '"' then ['\\', '"']
  else if c = '\\' then ['\\', '\\']
  else if c = '\n' then ['\\', 'n']
  else if c = '\r' then ['\\', 'r']
  else if c = '\t' then ['\\', 't']
  else if c.toNat = 0 then ['\\', '0']
  else if isShown c then [c]
  else ['\\', 'u', '\x7b'] ++ Nat.toDigits 16 c.toNat ++ ['\x7d']

/-- A text in double quotes. -/
def quoted (s : String) : String :=
  String.ofList ('"' :: s.toList.flatMap quotedChar ++ ['"'])

end Stencil.Text
