import BuildPool.CommandLine.Help

/-!
# Reading arguments

The value of an option follows in the same argument or in the next one. What is given as the next
argument is judged only when the argument after it makes sense. Two dashes end the options, and a
command ends the arguments of the program itself.
-/

namespace BuildPool.CommandLine

open BuildPool.Text

/-! ## Complaints -/

inductive Complaint
  /-- There is no such option, or no place for such an operand. -/
  | unexpected (arg : String)
  | unknownCommand (name : String)
  /-- A flag has a value. -/
  | excessValue (flag value : String)
  /-- An option that may stand once stands twice. -/
  | repeated (option : String)
  | missingValue (option : String)
  | badValue (option value reason : String)
  | missing
  /-- They ask for a text about the program instead. -/
  | inquiry (text : String)
deriving DecidableEq, Repr

/-- What a complaint says, with emphasis. Advice that follows it is left out. -/
def Complaint.words : Complaint → String
  | unexpected arg => "unexpected argument '" ++ yellow arg ++ "' found"
  | unknownCommand name => "unrecognized subcommand '" ++ yellow name ++ "'"
  | excessValue flag value =>
    "unexpected value '" ++ yellow value ++ "' for '" ++ bold flag ++
      "' found; no more were expected"
  | repeated option => "the argument '" ++ yellow option ++ "' cannot be used multiple times"
  | missingValue option =>
    "a value is required for '" ++ bold option ++ "' but none was supplied"
  | badValue option value reason =>
    "invalid value '" ++ yellow value ++ "' for '" ++ bold option ++ "': " ++ reason
  | missing => "the following required arguments were not provided:"
  | inquiry _ => ""

/-- The message about refused arguments, as it is written where there is no terminal. A sequence
that the arguments leave open goes on in what stands behind them. -/
def Complaint.message (c : Complaint) : String :=
  plainText ("error: " ++ c.words ++ "\n\nFor more information, try '" ++ bold "--help" ++ "'.\n")

/-- What was read. Options stand in their order, flags with an empty value. -/
structure Parsed where
  values : List (String × String) := []
  operands : List String := []
  /-- The command with the arguments behind it. -/
  command : Option (String × List String) := none

namespace Parsed

def value? (p : Parsed) (name : String) : Option String := p.values.lookup name

def has (p : Parsed) (name : String) : Bool := (p.value? name).isSome

/-- The values of a repeated option, in order. -/
def valuesOf (p : Parsed) (name : String) : List String :=
  (p.values.filter (·.1 == name)).map Prod.snd

end Parsed

/-! ## Taking options -/

/-- What was read so far, and an option that was not judged, with its value if it has one by now. -/
structure Reading where
  parsed : Parsed := {}
  pending : Option (Opt × Option String) := none

namespace Reading

def take (r : Reading) (o : Opt) (value : String) : Except Complaint Reading :=
  if !o.repeatable && r.parsed.has o.name then .error (.repeated o.title)
  else match o.objection value with
    | some reason => .error (.badValue o.title value reason)
    | none => .ok { r with parsed.values := r.parsed.values ++ [(o.name, value)] }

def settle (r : Reading) : Except Complaint Reading :=
  match r.pending with
  | none => .ok r
  | some (o, none) => .error (.missingValue o.title)
  | some (o, some value) => { r with pending := none }.take o value

/-- A question about the program, behind what was read. -/
def ask {α : Type} (r : Reading) (g : Grammar) (question : Inquiry) : Except Complaint α := do
  let _ ← r.settle
  .error (.inquiry (g.answer question))

end Reading

/-! ## Forms of arguments -/

inductive Form
  | separator
  | long (name : String) (value : Option String)
  | letters (chars : List Char)
  | plain
deriving DecidableEq, Repr

def splitEquals (chars : List Char) : String × Option String :=
  (String.ofList (chars.takeWhile (· != '=')),
    match chars.dropWhile (· != '=') with
    | [] => none
    | _ :: value => some (String.ofList value))

/-- The form of an argument. A single dash is plain. -/
def formOf (arg : String) : Form :=
  match arg.toList with
  | ['-', '-'] => .separator
  | '-' :: '-' :: rest => let (name, value) := splitEquals rest; .long name value
  | '-' :: c :: rest => .letters (c :: rest)
  | _ => .plain

/-! ## Reading arguments -/

namespace Grammar

/-- Reads a long name, perhaps with a value. The option that is answered waits for its value. -/
def readLong (g : Grammar) (name : String) (value : Option String) (r : Reading) :
    Except Complaint (Option Opt × Reading) := do
  match g.named? name, value with
  | none, none =>
    match g.inquiryNamed? name with
    | some question => r.ask g question
    | none => .error (.unexpected ("--" ++ name))
  | none, some value =>
    if (g.inquiryNamed? name).isSome then .error (.excessValue ("--" ++ name) value)
    else .error (.unexpected ("--" ++ name))
  | some o, none =>
    let r ← r.settle
    if o.isFlag then return (none, ← r.take o "")
    else return (some o, { r with pending := some (o, none) })
  | some o, some value =>
    if o.isFlag then .error (.excessValue o.title value)
    else return (none, ← (← r.settle).take o value)

/-- Reads letters: flags, and perhaps an option at the end with what follows as its value. -/
def readLetters (g : Grammar) : List Char → Reading → Except Complaint (Option Opt × Reading)
  | [], r => .ok (none, r)
  | c :: rest, r => do
    match g.lettered? c with
    | none =>
      match g.inquiryLettered? c with
      | some question => r.ask g question
      | none => .error (.unexpected (String.ofList ['-', c]))
    | some o =>
      let r ← r.settle
      if o.isFlag then g.readLetters rest (← r.take o "")
      else match rest with
        | [] => return (some o, { r with pending := some (o, none) })
        | '=' :: value => return (none, ← r.take o (String.ofList value))
        | value => return (none, ← r.take o (String.ofList value))

/-- What is wrong with an operand for which there is no place. -/
def surplus (g : Grammar) (arg : String) : Complaint :=
  if g.commands.isEmpty || g.hasCommand arg then .unexpected arg else .unknownCommand arg

/-- Reads an operand, if there is one to come. -/
def readOperand (g : Grammar) (arg : String) (r : Reading) : Except Complaint Reading := do
  if r.parsed.operands.length < g.operands.length then
    let r ← r.settle
    return { r with parsed.operands := r.parsed.operands ++ [arg] }
  else .error (g.surplus arg)

/-- What an argument is where it stands. -/
inductive Role
  | valueOf (o : Opt)
  | command
  | separator
  | other

/-- The role of an argument. An option that awaits its value takes what does not look like an
option. -/
def roleOf (g : Grammar) (awaiting : Option Opt) (arg : String) : Role :=
  match awaiting, formOf arg with
  | some o, form => if o.dashed || form == .plain then .valueOf o
    else if form == .separator then .separator else .other
  | none, form => if g.hasCommand arg then .command
    else if form == .separator then .separator else .other

/-- Reads an argument that is an option or an operand. The option that is answered waits for its
value. -/
def readOne (g : Grammar) (arg : String) (r : Reading) : Except Complaint (Option Opt × Reading) :=
  match formOf arg with
  | .long name value => g.readLong name value r
  | .letters chars => g.readLetters chars r
  | _ => (g.readOperand arg r).map ((none, ·))

/-- Reads arguments up to a command or their end. -/
def readAll (g : Grammar) : List String → Option Opt → Reading → Except Complaint Reading
  | [], _, r => .ok r
  | arg :: rest, awaiting, r =>
    match g.roleOf awaiting arg with
    | .valueOf o => g.readAll rest none { r with pending := some (o, some arg) }
    | .command => .ok { r with parsed.command := some (arg, rest) }
    | .separator => rest.foldlM (fun r arg => g.readOperand arg r) r
    | .other => do
      let (awaiting, r) ← g.readOne arg r
      g.readAll rest awaiting r

/-- Whether everything that has to be given is there. -/
def isComplete (g : Grammar) (p : Parsed) : Bool :=
  g.required.all p.has && p.operands.length == g.operands.length &&
    (g.commands.isEmpty || p.command.isSome)

/-- Judges what still waits at the end, and whether anything is missing. -/
def finish (g : Grammar) (r : Reading) : Except Complaint Parsed := do
  let r ← r.settle
  if g.isComplete r.parsed then return r.parsed else .error .missing

/-- Reads the arguments of a program up to the command. -/
def readFront (g : Grammar) (args : List String) : Except Complaint Reading :=
  g.readAll args none {}

/-- Reads the arguments of a program or command without commands of its own. -/
def read (g : Grammar) (args : List String) : Except Complaint Parsed := do
  g.finish (← g.readFront args)

end Grammar

end BuildPool.CommandLine
