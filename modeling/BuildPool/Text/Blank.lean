/-!
# Blank text

A text is blank when nothing is left of it after trimming. The blank characters are those with
the Unicode property `White_Space`.
-/

namespace BuildPool.Text

/-- The characters with the Unicode property `White_Space`. -/
def isBlankChar (c : Char) : Bool :=
  let n := c.toNat
  (0x9 ≤ n && n ≤ 0xd) || n == 0x20 || n == 0x85 || n == 0xa0 || n == 0x1680 ||
    (0x2000 ≤ n && n ≤ 0x200a) || n == 0x2028 || n == 0x2029 || n == 0x202f || n == 0x205f ||
    n == 0x3000

/-- A text with no character that shows. -/
def isBlank (text : String) : Bool := text.toList.all isBlankChar

/-- Drops the blank characters in front. -/
def trimStart (chars : List Char) : List Char := chars.dropWhile isBlankChar

theorem isBlank_empty : isBlank "" = true := rfl

theorem trimStart_eq_nil_iff (chars : List Char) :
    trimStart chars = [] ↔ chars.all isBlankChar = true := by
  induction chars with
  | nil => simp [trimStart]
  | cons c rest ih =>
    simp only [trimStart] at ih ⊢
    cases h : isBlankChar c <;> simp [h, ih]

/-- Nothing is left of a blank text after trimming, and only of a blank one. -/
theorem isBlank_iff (text : String) : isBlank text = true ↔ trimStart text.toList = [] :=
  (trimStart_eq_nil_iff text.toList).symm

end BuildPool.Text
