import BuildPool.Text.Blank
import BuildPool.Text.Hex

/-!
# Escaped text

A text in quotes on one line, for messages. Quotes, backslashes and line ends are escaped by a
backslash, and what does not show by its number.
-/

namespace BuildPool.Text

/-- Whether a character has no shape of its own: control characters, and all blanks but the
space. -/
def isShapeless (c : Char) : Bool :=
  let n := c.toNat
  n < 0x20 || (0x7f ≤ n && n < 0xa0) || (c != ' ' && isBlankChar c)

def escapedChar (c : Char) : List Char :=
  if c == '"' then ['\\', '"']
  else if c == '\\' then ['\\', '\\']
  else if c == '\n' then ['\\', 'n']
  else if c == '\r' then ['\\', 'r']
  else if c == '\t' then ['\\', 't']
  else if c.toNat == 0 then ['\\', '0']
  else if isShapeless c then ['\\', 'u', '\x7b'] ++ Nat.toDigits 16 c.toNat ++ ['\x7d']
  else [c]

def escaped (text : String) : String :=
  "\"" ++ String.ofList (text.toList.flatMap escapedChar) ++ "\""

end BuildPool.Text
