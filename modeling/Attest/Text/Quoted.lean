import Attest.Text.Hex
import Attest.Text.Printable

/-! Quoted text: between single quotes, or between double quotes when the text holds a single quote
and no double one, with a backslash before the delimiter and the backslash, and with the code points
of unprintable characters. -/

namespace Attest.Text.Quoted

def delimiter (cs : List Char) : Char :=
  if cs.contains '\'' && !cs.contains '"' then '"' else '\''

/-- How one character is written between delimiters `q`. -/
def escape (q c : Char) : List Char :=
  if c = q || c = '\\' then ['\\', c]
  else if c = '\n' then ['\\', 'n']
  else if c = '\r' then ['\\', 'r']
  else if c = '\t' then ['\\', 't']
  else if isPrintable c then [c]
  else if c.toNat < 0x100 then '\\' :: 'x' :: hex 2 c.toNat
  else if c.toNat < 0x10000 then '\\' :: 'u' :: hex 4 c.toNat
  else '\\' :: 'U' :: hex 8 c.toNat

/-- A text between its delimiters. -/
def encode (cs : List Char) : List Char :=
  let q := delimiter cs
  q :: cs.flatMap (escape q) ++ [q]

end Attest.Text.Quoted

namespace Attest.Text

/-- A text between quotes, with everything that has no printed form written as an escape. -/
def quote (s : String) : String := String.ofList (Quoted.encode s.toList)

end Attest.Text
