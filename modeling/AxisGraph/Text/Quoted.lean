import AxisGraph.Text.GraphemeExtend
import AxisGraph.Text.Unprintable

/-!
Quoted text: a string between double quotes, in which every character that would be invisible, would
join its neighbour or would end the text is written as an escape.
-/

namespace AxisGraph.Text

/-- Lowercase hexadecimal digits without leading zeros. -/
def hexadecimal (n : Nat) : List Char :=
  Nat.toDigits 16 n

/-- The written form of a character inside quoted text. -/
def escaped (c : Char) : List Char :=
  if c = '\x00' then ['\\', '0']
  else if c = '\t' then ['\\', 't']
  else if c = '\n' then ['\\', 'n']
  else if c = '\r' then ['\\', 'r']
  else if c = '"' then ['\\', '"']
  else if c = '\\' then ['\\', '\\']
  else if isGraphemeExtend c || isUnprintable c then
    ['\\', 'u', '\x7b'] ++ hexadecimal c.toNat ++ ['\x7d']
  else [c]

def quoted (text : String) : String :=
  String.ofList (['"'] ++ text.toList.flatMap escaped ++ ['"'])

end AxisGraph.Text
