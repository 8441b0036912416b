import BuildPool.Json.Basic

/-!
# Reading JSON text

A reader takes a value off the front of a list of characters and gives back the rest. `none` means
that the text is not JSON. The readers of nested values carry a bound on the number of steps, and
every step uses up at least one character, so the length of the text is enough.
-/

namespace BuildPool.Json

open BuildPool.Number

/-! ## Blanks, words and numerals -/

def isSpace (c : Char) : Bool := c == ' ' || c == '\n' || c == '\t' || c == '\r'

def skipSpaces (chars : List Char) : List Char := chars.dropWhile isSpace

/-- The rest behind a word that stands in front. -/
def afterWord? : List Char → List Char → Option (List Char)
  | [], chars => some chars
  | _ :: _, [] => none
  | w :: word, c :: chars => if w == c then afterWord? word chars else none

def spanDigits (chars : List Char) : List Char × List Char := chars.span Char.isDigit

/-- The digits before the point: one zero, or digits that do not start with one. -/
def readWhole (chars : List Char) : Option (List Char × List Char) :=
  match spanDigits chars with
  | ([], _) => none
  | ('0' :: _ :: _, _) => none
  | (digits, rest) => some (digits, rest)

/-- The digits after a point, at least one if there is a point. -/
def readFraction : List Char → Option (Option (List Char) × List Char)
  | '.' :: chars =>
    match spanDigits chars with
    | ([], _) => none
    | (digits, rest) => some (some digits, rest)
  | chars => some (none, chars)

/-- The power of ten, at least one digit if it is announced. -/
def readExponent (chars : List Char) : Option (Option Int × List Char) :=
  match chars with
  | [] => some (none, [])
  | c :: rest =>
    if c == 'e' || c == 'E' then
      let (negative, rest) := match rest with
        | '-' :: rest => (true, rest)
        | '+' :: rest => (false, rest)
        | _ => (false, rest)
      match spanDigits rest with
      | ([], _) => none
      | (digits, rest) =>
        let n : Int := ofDigits digits
        some (some (if negative then -n else n), rest)
    else some (none, chars)

/-- A whole number, or a numeral with a fraction or an exponent. Minus zero is no whole number. -/
def numeral (negative : Bool) (whole : Nat) (fraction : Option (List Char))
    (exponent : Option Int) : Json :=
  match fraction, exponent with
  | none, none =>
    if negative then if whole == 0 then .decimal ⟨true, 0, [], none⟩ else .int (-whole)
    else .int whole
  | _, _ => .decimal ⟨negative, whole, fraction.getD [], exponent⟩

def readNumber (chars : List Char) : Option (Json × List Char) := do
  let (negative, chars) := match chars with
    | '-' :: rest => (true, rest)
    | _ => (false, chars)
  let (whole, chars) ← readWhole chars
  let (fraction, chars) ← readFraction chars
  let (exponent, chars) ← readExponent chars
  some (numeral negative (ofDigits whole) fraction exponent, chars)

/-! ## Strings -/

def hexValue? (c : Char) : Option Nat :=
  if '0' ≤ c && c ≤ '9' then some (c.toNat - '0'.toNat)
  else if 'a' ≤ c && c ≤ 'f' then some (c.toNat - 'a'.toNat + 10)
  else if 'A' ≤ c && c ≤ 'F' then some (c.toNat - 'A'.toNat + 10)
  else none

def readHex4 : List Char → Option (Nat × List Char)
  | a :: b :: c :: d :: rest => do
    let a ← hexValue? a
    let b ← hexValue? b
    let c ← hexValue? c
    let d ← hexValue? d
    some (((a * 16 + b) * 16 + c) * 16 + d, rest)
  | _ => none

def escape? : Char → Option Char
  | '"' => some '"'
  | '\\' => some '\\'
  | '/' => some '/'
  | 'b' => some '\x08'
  | 'f' => some '\x0c'
  | 'n' => some '\n'
  | 'r' => some '\r'
  | 't' => some '\t'
  | _ => none

/-- A character of a string, or one half of a surrogate pair. -/
inductive Piece
  | char (c : Char)
  | half (unit : Nat)
deriving DecidableEq, Repr

def isLead (unit : Nat) : Bool := 0xd800 ≤ unit && unit < 0xdc00

def isTrail (unit : Nat) : Bool := 0xdc00 ≤ unit && unit < 0xe000

def pieceOfUnit (unit : Nat) : Piece :=
  if isLead unit || isTrail unit then .half unit else .char (Char.ofNat unit)

/-- The pieces of a string up to its closing quote, the last one first. -/
def readPieces : Nat → List Piece → List Char → Option (List Piece × List Char)
  | 0, _, _ => none
  | _, _, [] => none
  | fuel + 1, acc, c :: rest =>
    if c == '"' then some (acc, rest)
    else if c == '\\' then
      match rest with
      | 'u' :: rest =>
        match readHex4 rest with
        | some (unit, rest) => readPieces fuel (pieceOfUnit unit :: acc) rest
        | none => none
      | e :: rest =>
        match escape? e with
        | some c => readPieces fuel (.char c :: acc) rest
        | none => none
      | [] => none
    else if c.toNat < 0x20 then none
    else readPieces fuel (.char c :: acc) rest

/-- Joins the pieces, given from the last to the first. A half needs its other half beside it. -/
def joinPieces : List Piece → List Char → Option (List Char)
  | [], acc => some acc
  | .char c :: rest, acc => joinPieces rest (c :: acc)
  | .half trail :: .half lead :: rest, acc =>
    if isTrail trail && isLead lead then
      joinPieces rest (Char.ofNat (0x10000 + (lead - 0xd800) * 0x400 + (trail - 0xdc00)) :: acc)
    else none
  | .half _ :: _, _ => none

/-- A string behind its opening quote; no text if a half stands alone. -/
def readString (chars : List Char) : Option (Option String × List Char) :=
  (readPieces (chars.length + 1) [] chars).map fun (pieces, rest) =>
    ((joinPieces pieces []).map String.ofList, rest)

/-! ## Values -/

/-- What the members of an object amount to, when the names may denote no text. -/
def ofMembers (members : List (Option String × Json)) : Json :=
  match members.mapM fun (name, value) => name.map (·, value) with
  | some members => .object members
  | none => .garbled

mutual

def readValue : Nat → List Char → Option (Json × List Char)
  | 0, _ => none
  | fuel + 1, chars =>
    match skipSpaces chars with
    | [] => none
    | '"' :: rest =>
      (readString rest).map fun (text, rest) => ((text.map Json.string).getD .garbled, rest)
    | '[' :: rest =>
      match skipSpaces rest with
      | ']' :: rest => some (.array [], rest)
      | rest => (readItems fuel rest).map fun (items, rest) => (.array items, rest)
    | '{' :: rest =>
      match skipSpaces rest with
      | '}' :: rest => some (.object [], rest)
      | rest => (readMembers fuel rest).map fun (members, rest) => (ofMembers members, rest)
    | 't' :: rest => (afterWord? ['r', 'u', 'e'] rest).map (.bool true, ·)
    | 'f' :: rest => (afterWord? ['a', 'l', 's', 'e'] rest).map (.bool false, ·)
    | 'n' :: rest => (afterWord? ['u', 'l', 'l'] rest).map (.null, ·)
    | c :: rest => readNumber (c :: rest)

/-- The items of an array, at least one, and its closing bracket. -/
def readItems : Nat → List Char → Option (List Json × List Char)
  | 0, _ => none
  | fuel + 1, chars =>
    match readValue fuel chars with
    | none => none
    | some (item, rest) =>
      match skipSpaces rest with
      | ']' :: rest => some ([item], rest)
      | ',' :: rest => (readItems fuel rest).map fun (items, rest) => (item :: items, rest)
      | _ => none

/-- The members of an object, at least one, and its closing brace. -/
def readMembers : Nat → List Char → Option (List (Option String × Json) × List Char)
  | 0, _ => none
  | fuel + 1, chars =>
    match skipSpaces chars with
    | '"' :: rest =>
      match readString rest with
      | none => none
      | some (name, rest) =>
        match skipSpaces rest with
        | ':' :: rest =>
          match readValue fuel rest with
          | none => none
          | some (value, rest) =>
            match skipSpaces rest with
            | '}' :: rest => some ([(name, value)], rest)
            | ',' :: rest =>
              (readMembers fuel rest).map fun (members, rest) => ((name, value) :: members, rest)
            | _ => none
        | _ => none
    | _ => none

end

/-- The value that a text writes, with blanks around it and nothing else. -/
def ofText? (text : String) : Option Json :=
  let chars := text.toList
  match readValue (2 * chars.length + 2) chars with
  | some (value, rest) => if (skipSpaces rest).isEmpty then some value else none
  | none => none

end BuildPool.Json
