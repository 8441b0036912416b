import BuildPool.Json.Basic

/-!
# Writing JSON text

Two forms: compact, without blanks, and indented by two blanks for each level. Strings escape the
quote, the backslash and the control characters, and nothing else.
-/

namespace BuildPool.Json

open BuildPool.Number

/-! ## Strings and numbers -/

def hexDigit (n : Nat) : Char := if n < 10 then Char.ofNat (48 + n) else Char.ofNat (87 + n)

def escapeChar (c : Char) : List Char :=
  if c == '"' then ['\\', '"']
  else if c == '\\' then ['\\', '\\']
  else if c == '\x08' then ['\\', 'b']
  else if c == '\x0c' then ['\\', 'f']
  else if c == '\n' then ['\\', 'n']
  else if c == '\r' then ['\\', 'r']
  else if c == '\t' then ['\\', 't']
  else if c.toNat < 0x20 then
    ['\\', 'u', '0', '0', hexDigit (c.toNat / 16), hexDigit (c.toNat % 16)]
  else [c]

def quote (text : String) : String :=
  "\"" ++ String.ofList (text.toList.flatMap escapeChar) ++ "\""

def decimalText (d : Decimal) : String :=
  (if d.negative then "-" else "") ++ toString d.whole ++
    (if d.fraction.isEmpty then "" else "." ++ String.ofList d.fraction) ++
    match d.exponent with
    | none => ""
    | some e => "e" ++ toString e

/-! ## The compact form -/

mutual

def compact : Json → String
  | .null => "null"
  | .bool true => "true"
  | .bool false => "false"
  | .int n => toString n
  | .decimal d => decimalText d
  | .string text => quote text
  | .array [] => "[]"
  | .array (item :: rest) => "[" ++ item.compact ++ compactItems rest
  | .object [] => "\x7b\x7d"
  | .object ((name, value) :: rest) =>
    "\x7b" ++ quote name ++ ":" ++ value.compact ++ compactMembers rest
  | .garbled => "null"

def compactItems : List Json → String
  | [] => "]"
  | item :: rest => "," ++ item.compact ++ compactItems rest

def compactMembers : List (String × Json) → String
  | [] => "\x7d"
  | (name, value) :: rest => "," ++ quote name ++ ":" ++ value.compact ++ compactMembers rest

end

/-! ## The indented form -/

/-- A new line with two blanks for each level. -/
def newLine (level : Nat) : String := "\n" ++ String.ofList (List.replicate (2 * level) ' ')

mutual

def indented (level : Nat) : Json → String
  | .array (item :: rest) =>
    "[" ++ newLine (level + 1) ++ item.indented (level + 1) ++ indentedItems level rest
  | .object ((name, value) :: rest) =>
    "\x7b" ++ newLine (level + 1) ++ quote name ++ ": " ++ value.indented (level + 1) ++
      indentedMembers level rest
  | j => j.compact

def indentedItems (level : Nat) : List Json → String
  | [] => newLine level ++ "]"
  | item :: rest =>
    "," ++ newLine (level + 1) ++ item.indented (level + 1) ++ indentedItems level rest

def indentedMembers (level : Nat) : List (String × Json) → String
  | [] => newLine level ++ "\x7d"
  | (name, value) :: rest =>
    "," ++ newLine (level + 1) ++ quote name ++ ": " ++ value.indented (level + 1) ++
      indentedMembers level rest

end

def pretty (j : Json) : String := j.indented 0

end BuildPool.Json
