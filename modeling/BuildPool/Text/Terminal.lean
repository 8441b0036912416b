import BuildPool.Text.Utf8

/-!
# Text without a terminal

A terminal acts on control sequences instead of showing them. `plainText` is what is left of a text
without them, and without control characters other than blanks: a machine reads the text as a
terminal does, and keeps what is shown.
-/

namespace BuildPool.Text

/-! ## Where a terminal stands -/

/-- What a terminal is in the middle of. -/
inductive Stance
  | ground
  | escape
  /-- An escape sequence with characters that come before its last one. -/
  | escapeLong
  /-- A control sequence, which parameters may belong to. -/
  | control
  /-- The beginning of a device string. -/
  | deviceEntry
  | deviceParameters
  | deviceLong
  /-- What a device string holds. -/
  | deviceContent
  /-- A command to the system around the terminal, such as a title. -/
  | systemCommand
  /-- A string of another kind, which has no effect. -/
  | message
deriving DecidableEq, Repr

def isBetween (low high : Char) (c : Char) : Bool := low ≤ c && c ≤ high

/-- The characters that may stand before the last one of a sequence. -/
def isIntermediate : Char → Bool := isBetween ' ' '/'

/-- The character that a byte `9c` belongs to may end a string. -/
def endsString (c : Char) : Bool := (utf8 (String.singleton c)).contains 0x9c

/-- What a character behind an escape begins. -/
def afterEscape (c : Char) : Stance :=
  if isIntermediate c then .escapeLong
  else match c with
    | 'P' => .deviceEntry
    | '[' => .control
    | ']' => .systemCommand
    | 'X' | '^' | '_' => .message
    | _ => if isBetween '0' '~' c then .ground else .escape

/-- The stance in the head of a device string, where nothing ends it. -/
def inDeviceHead (stance : Stance) (c : Char) : Stance :=
  if isIntermediate c then .deviceLong
  else if isBetween '0' '?' c then
    match stance with
    | .deviceEntry => .deviceParameters
    | .deviceParameters => if c ≤ ';' then .deviceParameters else .deviceContent
    | _ => .deviceContent
  else if isBetween '@' '~' c then .deviceContent
  else stance

/-- The stance after a character. Three control characters count everywhere. -/
def Stance.next (stance : Stance) (c : Char) : Stance :=
  if c == '\x1b' then .escape
  else if c == '\x18' || c == '\x1a' then .ground
  else match stance with
    | .ground => .ground
    | .escape => afterEscape c
    | .escapeLong => if isBetween '0' '~' c then .ground else stance
    | .control => if isBetween '@' '~' c then .ground else stance
    | .deviceEntry | .deviceParameters | .deviceLong => inDeviceHead stance c
    | .deviceContent | .message => if endsString c then .ground else stance
    | .systemCommand => if c == '\x07' then .ground else stance

/-! ## What is shown -/

/-- The control characters that only move to another place. -/
def isMovement (c : Char) : Bool := c == '\t' || c == '\n' || c == '\x0c' || c == '\r'

/-- Whether a character is shown, or moves to another place, when nothing else is going on. -/
def isShown (c : Char) : Bool := (' ' ≤ c && c != '\x7f') || isMovement c

/-- Whether a character is shown in the middle of something. -/
def Stance.shows (stance : Stance) (c : Char) : Bool :=
  match stance with
  | .ground => isShown c
  | .escape | .escapeLong | .control => isMovement c
  | _ => false

/-- The reader of a text: whether it is in a stretch that is shown, and where the terminal stands. A
movement inside a sequence begins such a stretch, and the sequence goes on behind it. -/
structure PlainReader where
  inStretch : Bool := false
  stance : Stance := .ground

/-- Reads a character, and says whether to keep it. -/
def PlainReader.read (r : PlainReader) (c : Char) : Bool × PlainReader :=
  if r.inStretch && isShown c then
    (true, { r with stance := if c ≤ '~' then r.stance else .ground })
  else
    let shown := !r.inStretch && r.stance.shows c
    (shown, ⟨shown, r.stance.next c⟩)

/-- What is kept of some characters. -/
def plainFrom (r : PlainReader) : List Char → List Char
  | [] => []
  | c :: rest =>
    match r.read c with
    | (true, r) => c :: plainFrom r rest
    | (false, r) => plainFrom r rest

/-- A text as it is written where there is no terminal. -/
def plainText (text : String) : String := String.ofList (plainFrom {} text.toList)

/-! ## Emphasis -/

def bold (text : String) : String := "\x1b[1m" ++ text ++ "\x1b[0m"

def yellow (text : String) : String := "\x1b[33m" ++ text ++ "\x1b[0m"

/-! ## Laws -/

/-- Only what can be shown is kept. -/
theorem isShown_of_mem_plainFrom {c : Char} {chars : List Char} {r : PlainReader}
    (h : c ∈ plainFrom r chars) : isShown c = true := by
  induction chars generalizing r with
  | nil => simp [plainFrom] at h
  | cons d rest ih =>
    simp only [plainFrom] at h
    split at h
    · next r' hread =>
      rcases List.mem_cons.1 h with rfl | h
      · simp only [PlainReader.read] at hread
        split at hread
        · next hshown => exact (Bool.and_eq_true_iff.1 hshown).2
        · simp only [Prod.mk.injEq, Bool.and_eq_true] at hread
          obtain ⟨⟨_, hshows⟩, _⟩ := hread
          revert hshows
          cases r.stance <;> simp_all [Stance.shows, isShown]
      · exact ih h
    · exact ih h

/-- A text without control characters is left as it is. -/
theorem plainFrom_eq_self {chars : List Char} {stretch : Bool}
    (h : ∀ c ∈ chars, isShown c = true) : plainFrom ⟨stretch, .ground⟩ chars = chars := by
  induction chars generalizing stretch with
  | nil => rfl
  | cons c rest ih =>
    have hc := h c (by simp)
    have ih' := fun stretch => @ih stretch fun d hd => h d (by simp [hd])
    cases stretch with
    | true => simp [plainFrom, PlainReader.read, hc, ih']
    | false =>
      have hnext : Stance.ground.next c = .ground := by
        simp only [Stance.next]
        split
        · next he => simp_all [isShown, isMovement]
        · split <;> rfl
      simp [plainFrom, PlainReader.read, Stance.shows, hc, hnext, ih']

end BuildPool.Text
