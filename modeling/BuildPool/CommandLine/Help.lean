import BuildPool.CommandLine.Grammar
import BuildPool.Text.Column
import BuildPool.Text.Terminal

/-!
# Help

What a program says about itself: its purpose, the form of its arguments, and a table of commands,
operands and options. Purposes stand beside the names, or below them if the names leave too little
room.
-/

namespace BuildPool.CommandLine

open BuildPool.Text

def pageWidth : Nat := 100

/-! ## The form of the arguments -/

/-- Whether there is an option that may be left out. -/
def Grammar.hasChoice (g : Grammar) : Bool := g.options.any fun o => !g.required.contains o.name

def Grammar.usage (g : Grammar) : String :=
  String.intercalate " " ([g.title] ++ (if g.hasChoice then ["[OPTIONS]"] else []) ++
    ((g.options.filter fun o => g.required.contains o.name).map Opt.title) ++
    g.operands.map Operand.title ++ (if g.commands.isEmpty then [] else ["<COMMAND>"]))

/-! ## Rows -/

/-- A row of a table: a name, and what it is for. -/
structure HelpRow where
  name : String
  purpose : String
  remarks : List String := []

/-- The words behind the name. -/
def HelpRow.words (r : HelpRow) : List String :=
  (String.intercalate " " (r.purpose :: r.remarks.map fun t => "[" ++ t ++ "]")).splitOn " "

/-- How long the words are without the blank between purpose and remarks. -/
def HelpRow.length (r : HelpRow) : Nat :=
  r.purpose.length + (String.intercalate " " (r.remarks.map fun t => "[" ++ t ++ "]")).length

/-- Fills lines with words as far as the width allows; `line` is what stands in the line so far. -/
def fillLines (width : Nat) (line : String) : List String → List String
  | [] => [line]
  | word :: rest =>
    if width < line.length + 1 + word.length then line :: fillLines width word rest
    else fillLines width (line ++ " " ++ word) rest

def fill (width : Nat) : List String → List String
  | [] => []
  | word :: rest => fillLines width word rest

/-- Lines below each other, all but the first one indented. -/
def hang (indent : Nat) (lines : List String) : String :=
  String.intercalate ("\n" ++ blanks indent) lines

/-- How far the purposes are indented that stand below the names. -/
def lowIndent : Nat := 10

/-- A row with the purpose at a column, or below the name if there is no column. -/
def HelpRow.render (column : Option Nat) (r : HelpRow) : String :=
  match column with
  | some column =>
    padRight column r.name ++ hang column (fill (pageWidth - column) r.words)
  | none =>
    r.name ++ "\n" ++ blanks lowIndent ++ hang lowIndent (fill (pageWidth - lowIndent) r.words)

/-- Whether the purpose of a row would be squeezed if it began at a column. -/
def HelpRow.isSqueezed (column : Nat) (r : HelpRow) : Bool :=
  pageWidth * 2 < 5 * column && pageWidth - column < r.length

/-! ## Tables -/

/-- A table under a heading. It has no column if a row would be squeezed in it. -/
def table (heading : String) (rows : List HelpRow) : List String :=
  if rows.isEmpty then []
  else
    let column := rows.foldl (fun n r => max n r.name.length) 0 + 2
    let place := if rows.any (·.isSqueezed (column + 4)) then none else some column
    [heading ++ ":\n" ++ String.intercalate "\n" (rows.map (·.render place))]

def commandRow : String × String → HelpRow
  | (name, purpose) => ⟨"  " ++ name, purpose, []⟩

def Operand.row (o : Operand) : HelpRow := ⟨"  " ++ o.title, o.purpose, []⟩

/-- An option with its letter, or with room for one. -/
def Opt.row (o : Opt) : HelpRow where
  name :=
    (match o.letter with
      | some c => "  -" ++ String.singleton c ++ ", "
      | none => "      ") ++ o.title
  purpose := o.purpose
  remarks := o.remarks

def Grammar.helpText (g : Grammar) : String :=
  String.intercalate "\n\n" ([g.purpose, "Usage: " ++ g.usage] ++
    table "Commands" (g.commands.map commandRow) ++
    table "Arguments" (g.operands.map Operand.row) ++
    table "Options" ((g.options ++ g.inquiries.map Inquiry.toOpt).map Opt.row)) ++ "\n"

/-- The answer to a question about the program, as it is written where there is no terminal. -/
def Grammar.answer (g : Grammar) : Inquiry → String
  | .help => plainText g.helpText
  | .version => g.title ++ " " ++ g.version ++ "\n"

end BuildPool.CommandLine
