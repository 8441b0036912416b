import BuildPool.Text.Split

/-!
# Media types

A body counts as JSON if its media type is `application/json` or has the suffix `+json`, in any case
and with any parameters that are well formed.
-/

namespace BuildPool.Api

/-- The characters of a token, by which types, subtypes and parameters are named. -/
def isTokenChar (c : Char) : Bool :=
  c.isAlphanum || "!#$%&'*+-.^_|~".toList.contains c || c.toNat == 0x60

/-- A character that may stand between quotes. A quote among them can only be the first. -/
def isQuotedChar (c : Char) : Bool := 0x20 ≤ c.toNat && c.toNat ≤ 0x7e

def isToken (chars : List Char) : Bool := !chars.isEmpty && chars.all isTokenChar

/-! ## Parameters -/

/-- What follows the closing quote of a value: blanks, and the next parameters if there are any. -/
def afterQuoted? (chars : List Char) : Option (List Char) :=
  match chars.dropWhile (· == ' ') with
  | [] => some []
  | ';' :: rest => some rest
  | _ => none

/-- What follows a parameter; none if it is not well formed. -/
def afterParameter? (chars : List Char) : Option (List Char) :=
  match chars.span isTokenChar with
  | ([], _) => none
  | (_, '=' :: '"' :: c :: rest) =>
    match rest.span fun c => isQuotedChar c && c != '"' with
    | (_, '"' :: rest) => if isQuotedChar c then afterQuoted? rest else none
    | _ => none
  | (_, '=' :: rest) =>
    match rest.span isTokenChar with
    | (_, []) => some []
    | (_ :: _, ';' :: rest) => some rest
    | _ => none
  | _ => none

def parametersOk : Nat → List Char → Bool
  | 0, chars => chars.isEmpty
  | _, [] => true
  | fuel + 1, ' ' :: rest => parametersOk fuel rest
  | fuel + 1, chars =>
    match afterParameter? chars with
    | some rest => parametersOk fuel rest
    | none => false

/-! ## Types -/

/-- A subtype before its last plus sign and after it. A plus sign in front does not count. -/
def splitSuffix (subtype : List Char) : List Char × Option (List Char) :=
  match subtype.reverse.span (· != '+') with
  | (suffix, '+' :: c :: before) => ((c :: before).reverse, some suffix.reverse)
  | _ => (subtype, none)

def json : List Char := ['j', 's', 'o', 'n']

/-- Whether a subtype names JSON, as a whole or on one side of its last plus sign. -/
def namesJson (subtype : List Char) : Bool :=
  let (base, suffix) := splitSuffix subtype
  base == json || suffix == some json

def isJsonType (mediaType : String) : Bool :=
  let (essence, parameters) := Text.cut ';' mediaType.toList
  let (type, subtype) := Text.cut '/' essence
  match subtype with
  | none => false
  | some subtype =>
    let parameters := parameters.getD []
    isToken type && isToken subtype && parametersOk (parameters.length + 1) parameters &&
      String.ofList (type.map Char.toLower) == "application" &&
      namesJson (subtype.map Char.toLower)

end BuildPool.Api
