import BuildPool.Text.Hex
import BuildPool.Text.Utf8

/-!
# Percent encoding

In a path or query a percent sign with two hexadecimal digits stands for a byte; any other percent
sign stands for itself. In a query a plus sign stands for a blank.
-/

namespace BuildPool.Text

/-- The bytes of a text, with those that are written in hexadecimal. -/
def percentDecode : List Char → List UInt8
  | [] => []
  | '%' :: a :: b :: rest =>
    match hexValue? a, hexValue? b with
    | some x, some y => UInt8.ofNat (16 * x + y) :: percentDecode rest
    | _, _ => utf8 "%" ++ percentDecode (a :: b :: rest)
  | c :: rest => utf8 (String.singleton c) ++ percentDecode rest

/-- The text of a part of a path; none if its bytes are no text. -/
def decodePathPart? (part : String) : Option String := ofUtf8? (percentDecode part.toList)

/-- The text of a name or value of a query. -/
def decodeFormPart (part : List Char) : String :=
  ofUtf8 (percentDecode (part.map fun c => if c == '+' then ' ' else c))

end BuildPool.Text
