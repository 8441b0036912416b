/-!
# Columns

Texts filled up with blanks to the width of a column. A text that is wider stays as it is. Width is
counted in characters.
-/

namespace BuildPool.Text

def blanks (count : Nat) : String := String.ofList (List.replicate count ' ')

def padRight (width : Nat) (text : String) : String := text ++ blanks (width - text.length)

def padLeft (width : Nat) (text : String) : String := blanks (width - text.length) ++ text

/-- A line of the same character. -/
def rule (c : Char) (width : Nat) : String := String.ofList (List.replicate width c)

theorem length_padRight (width : Nat) (text : String) :
    (padRight width text).length = max text.length width := by
  simp [padRight, blanks]; omega

theorem length_padLeft (width : Nat) (text : String) :
    (padLeft width text).length = max text.length width := by
  simp [padLeft, blanks]; omega

end BuildPool.Text
