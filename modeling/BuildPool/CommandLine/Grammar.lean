/-!
# The grammar of arguments

A program declares options, flags, operands and commands, and says what each of them is for. Options
have a long name and may have a letter.
-/

namespace BuildPool.CommandLine

/-- An option, or a flag if it takes no value. -/
structure Opt where
  name : String
  letter : Option Char := none
  /-- How the value is called in messages. A flag has none. -/
  valueName : Option String := none
  repeatable : Bool := false
  /-- Whether the next argument is the value even if it begins with a dash. -/
  dashed : Bool := false
  /-- Why a value is refused, if it is. -/
  objection : String → Option String := fun _ => none
  purpose : String := ""
  /-- Where the value comes from if the option is not given. -/
  remarks : List String := []

namespace Opt

def isFlag (o : Opt) : Bool := o.valueName.isNone

/-- An option as messages call it. -/
def title (o : Opt) : String :=
  "--" ++ o.name ++
    match o.valueName with
    | none => ""
    | some value => " <" ++ value ++ ">"

end Opt

/-- Why a value cannot be read, if it cannot. -/
def objectionOf {α : Type} (read : String → Except String α) (value : String) : Option String :=
  match read value with
  | .ok _ => none
  | .error reason => some reason

structure Operand where
  name : String
  purpose : String
  /-- Whether any number of them may be given. -/
  isOpen : Bool := false

def Operand.title (o : Operand) : String :=
  if o.isOpen then "[" ++ o.name ++ "]..." else "<" ++ o.name ++ ">"

/-- A flag that asks something about the program. -/
inductive Inquiry
  | help
  | version
deriving DecidableEq, Repr

def Inquiry.toOpt : Inquiry → Opt
  | help => { name := "help", letter := some 'h', purpose := "Print help" }
  | version => { name := "version", letter := some 'V', purpose := "Print version" }

structure Grammar where
  title : String := ""
  purpose : String := ""
  options : List Opt := []
  /-- The options that have to be given. -/
  required : List String := []
  /-- All operands have to be given. -/
  operands : List Operand := []
  /-- The commands with their purposes, if one of them has to be given. -/
  commands : List (String × String) := []
  inquiries : List Inquiry := [.help]
  version : String := ""

namespace Grammar

def named? (g : Grammar) (name : String) : Option Opt := g.options.find? (·.name == name)

def lettered? (g : Grammar) (c : Char) : Option Opt := g.options.find? (·.letter == some c)

def inquiryNamed? (g : Grammar) (name : String) : Option Inquiry :=
  g.inquiries.find? (·.toOpt.name == name)

def inquiryLettered? (g : Grammar) (c : Char) : Option Inquiry :=
  g.inquiries.find? (·.toOpt.letter == some c)

def hasCommand (g : Grammar) (name : String) : Bool := g.commands.any (·.1 == name)

end Grammar

end BuildPool.CommandLine
