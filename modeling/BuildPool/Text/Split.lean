/-!
# Splitting

Cutting a text at a character.
-/

namespace BuildPool.Text

/-- The parts between the separators, one more than there are separators. -/
def splitAt (separator : Char) : List Char → List (List Char)
  | [] => [[]]
  | c :: rest =>
    if c == separator then [] :: splitAt separator rest
    else match splitAt separator rest with
      | [] => [[c]]
      | part :: parts => (c :: part) :: parts

/-- What stands before the first separator and after it, if there is one. -/
def cut (separator : Char) : List Char → List Char × Option (List Char)
  | [] => ([], none)
  | c :: rest =>
    if c == separator then ([], some rest)
    else
      let (before, after) := cut separator rest
      (c :: before, after)

theorem splitAt_ne_nil (separator : Char) (chars : List Char) : splitAt separator chars ≠ [] := by
  cases chars with
  | nil => simp [splitAt]
  | cons c rest =>
    simp only [splitAt]
    split
    · simp
    · split <;> simp

end BuildPool.Text
