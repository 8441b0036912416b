import BuildPool.Proofs.Json.Numerals

/-!
# JSON text is read as it is written

Both written forms are one form with blanks in its gaps, and blanks are skipped. So a value is read
back from either form, if its strings denote texts and its decimals show that they are decimals.
-/

namespace BuildPool.Json

open BuildPool.Number

/-! ## Strings -/

theorem hexValue?_hexDigit : ∀ n < 16, hexValue? (hexDigit n) = some n := by decide

/-- A character is escaped by a letter or by its number, or it stands for itself. -/
theorem escapeChar_cases (c : Char) :
    (∃ e, escapeChar c = ['\\', e] ∧ e ≠ 'u' ∧ escape? e = some c) ∨
    (c.toNat < 0x20 ∧ escapeChar c =
      ['\\', 'u', '0', '0', hexDigit (c.toNat / 16), hexDigit (c.toNat % 16)]) ∨
    (escapeChar c = [c] ∧ c ≠ '"' ∧ c ≠ '\\' ∧ ¬ c.toNat < 0x20) := by
  unfold escapeChar
  iterate 7
    split
    · rename_i h
      obtain rfl := eq_of_beq h
      exact .inl ⟨_, rfl, by decide, rfl⟩
  split
  · rename_i hcontrol
    exact .inr (.inl ⟨hcontrol, rfl⟩)
  · rename_i hquote hbackslash _ _ _ _ _ hplain
    exact .inr (.inr ⟨rfl, by simpa using hquote, by simpa using hbackslash, hplain⟩)

theorem pieceOfUnit_toNat {c : Char} (h : c.toNat < 0x20) : pieceOfUnit c.toNat = .char c := by
  have hlead : isLead c.toNat = false := by
    rw [isLead, Bool.and_eq_false_iff, decide_eq_false_iff_not]
    omega
  have htrail : isTrail c.toNat = false := by
    rw [isTrail, Bool.and_eq_false_iff, decide_eq_false_iff_not]
    omega
  rw [pieceOfUnit, hlead, htrail, Bool.or_self, if_neg Bool.false_ne_true, Char.ofNat_toNat]

theorem readHex4_control {n : Nat} (h : n < 0x20) (rest : List Char) :
    readHex4 ('0' :: '0' :: hexDigit (n / 16) :: hexDigit (n % 16) :: rest) = some (n, rest) := by
  have hzero : hexValue? '0' = some 0 := rfl
  have hhigh := hexValue?_hexDigit (n / 16) (by omega)
  have hlow := hexValue?_hexDigit (n % 16) (by omega)
  have hvalue : ((0 * 16 + 0) * 16 + n / 16) * 16 + n % 16 = n := by omega
  simp only [readHex4, hzero, hhigh, hlow, Option.bind_eq_bind, Option.bind_some, hvalue]

/-- One character of a text, behind its escape. -/
theorem readPieces_escapeChar (c : Char) (fuel : Nat) (acc : List Piece) (rest : List Char) :
    readPieces (fuel + 1) acc (escapeChar c ++ rest) = readPieces fuel (.char c :: acc) rest := by
  rcases escapeChar_cases c with ⟨e, heq, hu, he⟩ | ⟨hcontrol, heq⟩ | ⟨heq, hquote, hslash, hplain⟩
  · rw [heq]
    simp only [List.cons_append, List.nil_append, readPieces, he]
    rfl
  · rw [heq]
    simp [readPieces, readHex4_control hcontrol, pieceOfUnit_toNat hcontrol]
  · rw [heq]
    simp [readPieces, hquote, hslash, hplain]

theorem readPieces_flatMap (chars : List Char) (fuel : Nat) (hfuel : chars.length < fuel)
    (acc : List Piece) (rest : List Char) :
    readPieces fuel acc (chars.flatMap escapeChar ++ '"' :: rest) =
      some ((chars.map Piece.char).reverse ++ acc, rest) := by
  induction chars generalizing fuel acc with
  | nil =>
    obtain ⟨fuel, rfl⟩ := Nat.exists_eq_add_one_of_ne_zero (Nat.ne_of_gt hfuel)
    rfl
  | cons c tail ih =>
    obtain ⟨fuel, rfl⟩ := Nat.exists_eq_add_one_of_ne_zero (Nat.ne_zero_of_lt hfuel)
    rw [List.flatMap_cons, List.append_assoc, readPieces_escapeChar,
      ih fuel (Nat.lt_of_succ_lt_succ hfuel), List.map_cons, List.reverse_cons, List.append_assoc]
    rfl

theorem joinPieces_chars (chars acc : List Char) :
    joinPieces (chars.map Piece.char) acc = some (chars.reverse ++ acc) := by
  induction chars generalizing acc with
  | nil => rfl
  | cons c tail ih => rw [List.map_cons, joinPieces, ih, List.reverse_cons, List.append_assoc]; rfl

theorem length_le_flatMap_escapeChar (chars : List Char) :
    chars.length ≤ (chars.flatMap escapeChar).length := by
  induction chars with
  | nil => exact Nat.le_refl _
  | cons c tail ih =>
    have hpos : 1 ≤ (escapeChar c).length := by
      rcases escapeChar_cases c with ⟨e, heq, -⟩ | ⟨-, heq⟩ | ⟨heq, -⟩
      all_goals
        rw [heq]
        simp
    rw [List.flatMap_cons, List.length_append, List.length_cons]
    omega

/-- A text behind its opening quote. -/
theorem readString_escaped (text : String) (rest : List Char) :
    readString (text.toList.flatMap escapeChar ++ '"' :: rest) = some (some text, rest) := by
  have hlength := length_le_flatMap_escapeChar text.toList
  have hpieces := readPieces_flatMap text.toList
    ((text.toList.flatMap escapeChar ++ '"' :: rest).length + 1)
    (by rw [List.length_append]; omega) [] rest
  have hjoined : joinPieces (text.toList.map Piece.char).reverse [] = some text.toList := by
    rw [← List.map_reverse, joinPieces_chars, List.reverse_reverse, List.append_nil]
  simp only [readString, hpieces, Option.map_some, List.append_nil, hjoined, String.ofList_toList]

def quotedChars (text : String) : List Char := '"' :: (text.toList.flatMap escapeChar ++ ['"'])

theorem quote_toList (text : String) : (quote text).toList = quotedChars text := by
  simp only [quote, String.toList_append, String.toList_ofList, String.reduceToList,
    quotedChars, List.cons_append, List.nil_append]

/-! ## One form for both -/

/-- What stands between the parts of a value: in front of an item or a closing bracket by level,
and behind a colon. -/
structure Layout where
  gap : Nat → List Char
  colon : List Char

def Blanks (chars : List Char) : Prop := ∀ c ∈ chars, isSpace c = true

structure Layout.Blank (layout : Layout) : Prop where
  gap : ∀ level, Blanks (layout.gap level)
  colon : Blanks layout.colon

mutual

def written (layout : Layout) (level : Nat) : Json → List Char
  | .array (item :: rest) =>
    '[' :: (layout.gap (level + 1) ++
      (item.written layout (level + 1) ++ writtenItems layout level rest))
  | .object ((name, value) :: rest) =>
    '{' :: (layout.gap (level + 1) ++ (quotedChars name ++ ':' :: (layout.colon ++
      (value.written layout (level + 1) ++ writtenMembers layout level rest))))
  | j => j.compact.toList

def writtenItems (layout : Layout) (level : Nat) : List Json → List Char
  | [] => layout.gap level ++ [']']
  | item :: rest =>
    ',' :: (layout.gap (level + 1) ++
      (item.written layout (level + 1) ++ writtenItems layout level rest))

def writtenMembers (layout : Layout) (level : Nat) : List (String × Json) → List Char
  | [] => layout.gap level ++ ['}']
  | (name, value) :: rest =>
    ',' :: (layout.gap (level + 1) ++ (quotedChars name ++ ':' :: (layout.colon ++
      (value.written layout (level + 1) ++ writtenMembers layout level rest))))

end

def compactLayout : Layout := ⟨fun _ => [], []⟩

def indentedLayout : Layout := ⟨fun level => (newLine level).toList, [' ']⟩

theorem blank_compactLayout : compactLayout.Blank where
  gap _ := List.forall_mem_nil _
  colon := List.forall_mem_nil _

theorem newLine_toList (level : Nat) :
    (newLine level).toList = '\n' :: List.replicate (2 * level) ' ' := by
  simp only [newLine, String.toList_append, String.toList_ofList, String.reduceToList,
    List.cons_append, List.nil_append]

theorem blank_indentedLayout : indentedLayout.Blank where
  gap level := by
    intro c hc
    simp only [indentedLayout, newLine_toList] at hc
    rcases List.mem_cons.1 hc with rfl | hc
    · rfl
    · rw [List.eq_of_mem_replicate hc]
      rfl
  colon := by
    intro c hc
    rw [List.mem_singleton.1 hc]
    rfl

mutual

theorem compact_toList : ∀ (j : Json) (level : Nat),
    j.compact.toList = j.written compactLayout level
  | .array (item :: rest), level => by
    simp only [compact, written, compactLayout, String.toList_append, String.reduceToList,
      List.cons_append, List.nil_append]
    rw [compact_toList item (level + 1), compactItems_toList rest level]
    rfl
  | .object ((name, value) :: rest), level => by
    simp only [compact, written, compactLayout, String.toList_append, String.reduceToList,
      List.cons_append, List.nil_append, List.append_assoc, quote_toList]
    rw [compact_toList value (level + 1), compactMembers_toList rest level]
    rfl
  | .null, _ | .bool _, _ | .int _, _ | .decimal _, _ | .string _, _ | .array [], _
  | .object [], _ | .garbled, _ => by simp only [written]

theorem compactItems_toList : ∀ (items : List Json) (level : Nat),
    (compactItems items).toList = writtenItems compactLayout level items
  | [], _ => rfl
  | item :: rest, level => by
    simp only [compactItems, writtenItems, compactLayout, String.toList_append,
      String.reduceToList, List.cons_append, List.nil_append]
    rw [compact_toList item (level + 1), compactItems_toList rest level]
    rfl

theorem compactMembers_toList : ∀ (members : List (String × Json)) (level : Nat),
    (compactMembers members).toList = writtenMembers compactLayout level members
  | [], _ => rfl
  | (name, value) :: rest, level => by
    simp only [compactMembers, writtenMembers, compactLayout, String.toList_append,
      String.reduceToList, List.cons_append, List.nil_append, List.append_assoc, quote_toList]
    rw [compact_toList value (level + 1), compactMembers_toList rest level]
    rfl

end

mutual

theorem indented_toList : ∀ (j : Json) (level : Nat),
    (j.indented level).toList = j.written indentedLayout level
  | .array (item :: rest), level => by
    simp only [indented, written, indentedLayout, String.toList_append, String.reduceToList,
      List.cons_append, List.nil_append, List.append_assoc]
    rw [indented_toList item (level + 1), indentedItems_toList rest level]
    rfl
  | .object ((name, value) :: rest), level => by
    simp only [indented, written, indentedLayout, String.toList_append, String.reduceToList,
      List.cons_append, List.nil_append, List.append_assoc, quote_toList]
    rw [indented_toList value (level + 1), indentedMembers_toList rest level]
    rfl
  | .null, _ | .bool _, _ | .int _, _ | .decimal _, _ | .string _, _ | .array [], _
  | .object [], _ | .garbled, _ => by simp only [indented, written]

theorem indentedItems_toList : ∀ (items : List Json) (level : Nat),
    (indentedItems level items).toList = writtenItems indentedLayout level items
  | [], level => by
    simp only [indentedItems, writtenItems, indentedLayout, String.toList_append,
      String.reduceToList]
  | item :: rest, level => by
    simp only [indentedItems, writtenItems, indentedLayout, String.toList_append,
      String.reduceToList, List.cons_append, List.nil_append, List.append_assoc]
    rw [indented_toList item (level + 1), indentedItems_toList rest level]
    rfl

theorem indentedMembers_toList : ∀ (members : List (String × Json)) (level : Nat),
    (indentedMembers level members).toList = writtenMembers indentedLayout level members
  | [], level => by
    simp only [indentedMembers, writtenMembers, indentedLayout, String.toList_append,
      String.reduceToList]
  | (name, value) :: rest, level => by
    simp only [indentedMembers, writtenMembers, indentedLayout, String.toList_append,
      String.reduceToList, List.cons_append, List.nil_append, List.append_assoc, quote_toList]
    rw [indented_toList value (level + 1), indentedMembers_toList rest level]
    rfl

end

/-! ## Reading -/

mutual

/-- A value that its text tells: every string denotes a text, and every decimal shows that it is
one. -/
def Writable : Json → Prop
  | .garbled => False
  | .decimal d => d.Plain
  | .array items => WritableItems items
  | .object members => WritableMembers members
  | .null | .bool _ | .int _ | .string _ => True

def WritableItems : List Json → Prop
  | [] => True
  | item :: rest => item.Writable ∧ WritableItems rest

def WritableMembers : List (String × Json) → Prop
  | [] => True
  | (_, value) :: rest => value.Writable ∧ WritableMembers rest

end

/-- What a value can begin with. -/
def Begins (c : Char) : Prop := isSpace c = false ∧ c ≠ ']' ∧ c ≠ '}'

theorem skipSpaces_blanks {blanks : List Char} (h : Blanks blanks) {c : Char}
    (hc : isSpace c = false) (rest : List Char) :
    skipSpaces (blanks ++ c :: rest) = c :: rest := by
  rw [skipSpaces, List.dropWhile_append_of_pos h, List.dropWhile_cons_of_neg (by simp [hc])]

theorem isSpace_of_isDigit {c : Char} (h : c.isDigit = true) : isSpace c = false := by
  cases hspace : isSpace c with
  | false => rfl
  | true =>
    simp only [isSpace, Bool.or_eq_true, beq_iff_eq] at hspace
    rcases hspace with ((rfl | rfl) | rfl) | rfl <;> cases h

theorem begins_of_isDigit {c : Char} (h : c.isDigit = true) : Begins c :=
  ⟨isSpace_of_isDigit h, ne_of_isDigit h (by decide), ne_of_isDigit h (by decide)⟩

theorem intChars_eq_cons (n : Int) :
    ∃ c rest, intChars n = c :: rest ∧ (c = '-' ∨ c.isDigit = true) := by
  unfold intChars
  split
  · exact ⟨'-', _, rfl, .inl rfl⟩
  · obtain ⟨c, rest, heq, hdigit⟩ := digitsOf_eq_cons n.natAbs
    exact ⟨c, rest, heq, .inr hdigit⟩

theorem decimalText_eq_cons (d : Decimal) :
    ∃ c rest, (decimalText d).toList = c :: rest ∧ (c = '-' ∨ c.isDigit = true) := by
  rw [decimalText_toList]
  cases d.negative with
  | true => exact ⟨'-', _, rfl, .inl rfl⟩
  | false =>
    obtain ⟨c, rest, heq, hdigit⟩ := digitsOf_eq_cons d.whole
    exact ⟨c, _, by rw [heq]; rfl, .inr hdigit⟩

theorem begins_of_numeral {c : Char} (h : c = '-' ∨ c.isDigit = true) : Begins c := by
  rcases h with rfl | h
  · exact ⟨rfl, by decide, by decide⟩
  · exact begins_of_isDigit h

/-- The reader goes by the first character, and takes a sign or a digit for a number. -/
theorem readValue_numeral {c : Char} (h : c = '-' ∨ c.isDigit = true) {blanks : List Char}
    (hblanks : Blanks blanks) (fuel : Nat) (rest : List Char) :
    readValue (fuel + 1) (blanks ++ c :: rest) = readNumber (c :: rest) := by
  have hne : ∀ d : Char, d ≠ '-' → d.isDigit = false → c ≠ d := by
    rintro d hminus hdigit rfl
    rcases h with rfl | h
    · exact hminus rfl
    · rw [h] at hdigit
      cases hdigit
  have hquote := hne '"' (by decide) (by decide)
  have hbracket := hne '[' (by decide) (by decide)
  have hbrace := hne '{' (by decide) (by decide)
  have htrue := hne 't' (by decide) (by decide)
  have hfalse := hne 'f' (by decide) (by decide)
  have hnull := hne 'n' (by decide) (by decide)
  rw [readValue, skipSpaces_blanks hblanks (begins_of_numeral h).1]
  simp only

variable {layout : Layout}

theorem written_eq_cons (layout : Layout) (j : Json) (level : Nat) :
    ∃ c rest, j.written layout level = c :: rest ∧ Begins c := by
  cases j with
  | int n =>
    obtain ⟨c, rest, heq, hc⟩ := intChars_eq_cons n
    refine ⟨c, rest, ?_, begins_of_numeral hc⟩
    rw [written, compact, toList_toString_int, heq]
    all_goals simp
  | decimal d =>
    obtain ⟨c, rest, heq, hc⟩ := decimalText_eq_cons d
    refine ⟨c, rest, ?_, begins_of_numeral hc⟩
    rw [written, compact, heq]
    all_goals simp
  | string text =>
    refine ⟨'"', text.toList.flatMap escapeChar ++ ['"'], ?_, rfl, by decide, by decide⟩
    rw [written, compact, quote_toList, quotedChars]
    all_goals simp
  | bool b => cases b <;> exact ⟨_, _, rfl, rfl, by decide, by decide⟩
  | array items => cases items <;> exact ⟨_, _, rfl, rfl, by decide, by decide⟩
  | object members => cases members <;> exact ⟨_, _, rfl, rfl, by decide, by decide⟩
  | null => exact ⟨_, _, rfl, rfl, by decide, by decide⟩
  | garbled => exact ⟨_, _, rfl, rfl, by decide, by decide⟩

/-- The items of an array behind its opening bracket and the gap there. -/
def itemsText (layout : Layout) (level : Nat) : List Json → List Char
  | [] => []
  | item :: rest => item.written layout (level + 1) ++ writtenItems layout level rest

/-- The members of an object behind its opening brace and the gap there. -/
def membersText (layout : Layout) (level : Nat) : List (String × Json) → List Char
  | [] => []
  | (name, value) :: rest => quotedChars name ++ ':' :: (layout.colon ++
      (value.written layout (level + 1) ++ writtenMembers layout level rest))

/-- Members that were read with names that denote texts. -/
def named (members : List (String × Json)) : List (Option String × Json) :=
  members.map fun (name, value) => (some name, value)

theorem ofMembers_named (members : List (String × Json)) :
    ofMembers (named members) = .object members := by
  have hnames : (named members).mapM (fun m => m.1.map (·, m.2)) = some members := by
    induction members with
    | nil => rfl
    | cons m rest ih =>
      rw [named] at ih
      rw [named, List.map_cons, List.mapM_cons, ih]
      rfl
  rw [ofMembers, hnames]

/-- The reader starts behind blanks. -/
theorem readValue_blanks {blanks : List Char} (h : Blanks blanks) {c : Char}
    (hc : isSpace c = false) (fuel : Nat) (rest : List Char) :
    readValue (fuel + 1) (blanks ++ c :: rest) = readValue (fuel + 1) (c :: rest) := by
  have hskip := skipSpaces_blanks (List.forall_mem_nil _) hc rest
  rw [List.nil_append] at hskip
  rw [readValue, readValue, skipSpaces_blanks h hc, hskip]

theorem endsNumeral_blanks {blanks : List Char} (h : Blanks blanks) {c : Char}
    (hc : c.isDigit = false ∧ c ≠ '.' ∧ c ≠ 'e' ∧ c ≠ 'E') (rest : List Char) :
    EndsNumeral (blanks ++ c :: rest) := by
  cases blanks with
  | nil => exact endsNumeral_cons hc rest
  | cons b tail =>
    refine endsNumeral_cons ?_ _
    have hspace := h b List.mem_cons_self
    simp only [isSpace, Bool.or_eq_true, beq_iff_eq] at hspace
    rcases hspace with ((rfl | rfl) | rfl) | rfl <;> decide

/-- What follows an item is a comma, or the gap and the closing bracket. -/
theorem endsNumeral_writtenItems (hlayout : layout.Blank) (level : Nat) (items : List Json)
    (rest : List Char) : EndsNumeral (writtenItems layout level items ++ rest) := by
  cases items with
  | nil =>
    rw [writtenItems, List.append_assoc]
    exact endsNumeral_blanks (hlayout.gap level) (by decide) rest
  | cons item tail => exact endsNumeral_cons (by decide) _

theorem endsNumeral_writtenMembers (hlayout : layout.Blank) (level : Nat)
    (members : List (String × Json)) (rest : List Char) :
    EndsNumeral (writtenMembers layout level members ++ rest) := by
  cases members with
  | nil =>
    rw [writtenMembers, List.append_assoc]
    exact endsNumeral_blanks (hlayout.gap level) (by decide) rest
  | cons m tail => exact endsNumeral_cons (by decide) _

/-- A value takes a step to read. -/
theorem exists_fuel {j : Json} {level fuel : Nat}
    (h : 2 * (j.written layout level).length ≤ fuel) : ∃ n, fuel = n + 1 := by
  obtain ⟨c, rest, heq, -⟩ := written_eq_cons layout j level
  rw [heq, List.length_cons] at h
  exact Nat.exists_eq_add_one_of_ne_zero (by omega)

/-! ### Single values -/

section

variable {blanks rest : List Char} (hblanks : Blanks blanks) (fuel : Nat)

include hblanks

theorem readValue_int (n : Int) (hrest : EndsNumeral rest) :
    readValue (fuel + 1) (blanks ++ (intChars n ++ rest)) = some (.int n, rest) := by
  obtain ⟨c, chars, hcons, hc⟩ := intChars_eq_cons n
  rw [hcons, List.cons_append, readValue_numeral hc hblanks, ← List.cons_append, ← hcons,
    readNumber_intChars n hrest]

theorem readValue_decimal {d : Decimal} (hplain : d.Plain) (hrest : EndsNumeral rest) :
    readValue (fuel + 1) (blanks ++ ((decimalText d).toList ++ rest)) =
      some (.decimal d, rest) := by
  obtain ⟨c, chars, hcons, hc⟩ := decimalText_eq_cons d
  rw [hcons, List.cons_append, readValue_numeral hc hblanks, ← List.cons_append, ← hcons,
    readNumber_decimalText hplain hrest]

theorem readValue_string (text : String) :
    readValue (fuel + 1) (blanks ++ (quotedChars text ++ rest)) = some (.string text, rest) := by
  rw [quotedChars, List.cons_append, readValue, skipSpaces_blanks hblanks rfl]
  simp only [List.append_assoc, List.cons_append, List.nil_append, readString_escaped,
    Option.map_some, Option.getD_some]

/-- An array with items is read if its items are read behind its bracket. -/
theorem readValue_array (hlayout : layout.Blank) {level : Nat} {item : Json} {tail : List Json}
    (hitems : readItems fuel (itemsText layout level (item :: tail) ++ rest) =
      some (item :: tail, rest)) :
    readValue (fuel + 1) (blanks ++ ((Json.array (item :: tail)).written layout level ++ rest)) =
      some (.array (item :: tail), rest) := by
  obtain ⟨c, chars, hcons, hspace, hbracket, -⟩ := written_eq_cons layout item (level + 1)
  simp only [itemsText, hcons, List.cons_append, List.append_assoc] at hitems
  rw [written, List.cons_append, readValue, skipSpaces_blanks hblanks rfl]
  simp only [List.append_assoc, hcons, List.cons_append]
  rw [skipSpaces_blanks (hlayout.gap _) hspace]
  split
  · rename_i hclosed
    exact absurd (List.cons.inj hclosed).1 hbracket
  · rw [hitems]
    rfl

/-- An object with members is read if its members are read behind its brace. -/
theorem readValue_object (hlayout : layout.Blank) {level : Nat} {name : String} {value : Json}
    {tail : List (String × Json)}
    (hmembers : readMembers fuel (membersText layout level ((name, value) :: tail) ++ rest) =
      some (named ((name, value) :: tail), rest)) :
    readValue (fuel + 1)
        (blanks ++ ((Json.object ((name, value) :: tail)).written layout level ++ rest)) =
      some (.object ((name, value) :: tail), rest) := by
  simp only [membersText, quotedChars, List.cons_append, List.append_assoc] at hmembers
  rw [written, List.cons_append, readValue, skipSpaces_blanks hblanks rfl]
  simp only [quotedChars, List.append_assoc, List.cons_append, List.nil_append]
  rw [skipSpaces_blanks (hlayout.gap _) rfl]
  split
  · rename_i hclosed
    exact absurd (List.cons.inj hclosed).1 (by decide)
  · rw [List.nil_append] at hmembers
    rw [hmembers, Option.map_some, ofMembers_named]

end

/-! ### Items and members -/

section

variable {blanks rest : List Char} {level fuel : Nat}

/-- Behind an item follow the closing bracket or, behind a comma, more items. -/
theorem readItems_cons (hlayout : layout.Blank) {item : Json} {tail : List Json}
    (hitem : readValue fuel (blanks ++ (item.written layout (level + 1) ++
      (writtenItems layout level tail ++ rest))) =
        some (item, writtenItems layout level tail ++ rest))
    (htail : tail ≠ [] → readItems fuel (layout.gap (level + 1) ++
      (itemsText layout level tail ++ rest)) = some (tail, rest)) :
    readItems (fuel + 1) (blanks ++ (itemsText layout level (item :: tail) ++ rest)) =
      some (item :: tail, rest) := by
  rw [itemsText, List.append_assoc, readItems, hitem]
  cases tail with
  | nil =>
    simp only [writtenItems, List.append_assoc]
    rw [List.cons_append, skipSpaces_blanks (hlayout.gap level) rfl]
    rfl
  | cons next tail =>
    have hitems := htail (List.cons_ne_nil _ _)
    have hcomma := skipSpaces_blanks (List.forall_mem_nil _) (c := ',') rfl
      (layout.gap (level + 1) ++ (itemsText layout level (next :: tail) ++ rest))
    simp only [writtenItems, itemsText, List.cons_append, List.append_assoc,
      List.nil_append] at hcomma hitems ⊢
    rw [hcomma]
    simp only [hitems, Option.map_some]

/-- Behind a member follow the closing brace or, behind a comma, more members. -/
theorem readMembers_cons (hlayout : layout.Blank) (hblanks : Blanks blanks) {name : String}
    {value : Json} {tail : List (String × Json)}
    (hvalue : readValue fuel (layout.colon ++ (value.written layout (level + 1) ++
      (writtenMembers layout level tail ++ rest))) =
        some (value, writtenMembers layout level tail ++ rest))
    (htail : tail ≠ [] → readMembers fuel (layout.gap (level + 1) ++
      (membersText layout level tail ++ rest)) = some (named tail, rest)) :
    readMembers (fuel + 1) (blanks ++ (membersText layout level ((name, value) :: tail) ++ rest)) =
      some (named ((name, value) :: tail), rest) := by
  have hcolon := skipSpaces_blanks (List.forall_mem_nil _) (c := ':') rfl
    (layout.colon ++ (value.written layout (level + 1) ++
      (writtenMembers layout level tail ++ rest)))
  rw [List.nil_append] at hcolon
  simp only [membersText, quotedChars, List.append_assoc, List.cons_append, List.nil_append]
  rw [readMembers, skipSpaces_blanks hblanks rfl]
  simp only [readString_escaped, hcolon, hvalue]
  cases tail with
  | nil =>
    simp only [writtenMembers, List.append_assoc]
    rw [List.cons_append, skipSpaces_blanks (hlayout.gap level) rfl]
    rfl
  | cons next tail =>
    have hmembers := htail (List.cons_ne_nil _ _)
    have hcomma := skipSpaces_blanks (List.forall_mem_nil _) (c := ',') rfl
      (layout.gap (level + 1) ++ (membersText layout level (next :: tail) ++ rest))
    simp only [writtenMembers, membersText, List.cons_append, List.append_assoc,
      List.nil_append] at hcomma hmembers ⊢
    rw [hcomma]
    simp only [hmembers, Option.map_some]
    rfl

theorem length_writtenItems_pos (layout : Layout) (level : Nat) (items : List Json) :
    0 < (writtenItems layout level items).length := by
  cases items with
  | nil => rw [writtenItems, List.length_append]; exact Nat.succ_pos _
  | cons item tail => exact Nat.succ_pos _

theorem length_writtenMembers_pos (layout : Layout) (level : Nat)
    (members : List (String × Json)) : 0 < (writtenMembers layout level members).length := by
  cases members with
  | nil => rw [writtenMembers, List.length_append]; exact Nat.succ_pos _
  | cons m tail => exact Nat.succ_pos _

end

/-! ### Values in values -/

-- The fuel is twice the length, so that an item can be followed by its comma.
mutual

/-- A value is read with the text behind it, if this does not go on with a numeral. -/
theorem readValue_written (hlayout : layout.Blank) : ∀ (j : Json) (level fuel : Nat)
    (blanks rest : List Char), j.Writable → Blanks blanks → EndsNumeral rest →
    2 * (j.written layout level).length ≤ fuel →
    readValue fuel (blanks ++ (j.written layout level ++ rest)) = some (j, rest)
  | .null, level, fuel, blanks, rest, _, hblanks, _, hfuel => by
    obtain ⟨fuel, rfl⟩ := exists_fuel hfuel
    exact readValue_blanks hblanks rfl fuel _
  | .bool b, level, fuel, blanks, rest, _, hblanks, _, hfuel => by
    obtain ⟨fuel, rfl⟩ := exists_fuel hfuel
    cases b with
    | true => exact readValue_blanks hblanks rfl fuel _
    | false => exact readValue_blanks hblanks rfl fuel _
  | .int n, level, fuel, blanks, rest, _, hblanks, hrest, hfuel => by
    obtain ⟨fuel, rfl⟩ := exists_fuel hfuel
    have hwritten : (Json.int n).written layout level = intChars n := toList_toString_int n
    rw [hwritten]
    exact readValue_int hblanks fuel n hrest
  | .decimal d, level, fuel, blanks, rest, hplain, hblanks, hrest, hfuel => by
    obtain ⟨fuel, rfl⟩ := exists_fuel hfuel
    exact readValue_decimal hblanks fuel hplain hrest
  | .string text, level, fuel, blanks, rest, _, hblanks, _, hfuel => by
    obtain ⟨fuel, rfl⟩ := exists_fuel hfuel
    have hwritten : (Json.string text).written layout level = quotedChars text :=
      quote_toList text
    rw [hwritten]
    exact readValue_string hblanks fuel text
  | .array [], level, fuel, blanks, rest, _, hblanks, _, hfuel => by
    obtain ⟨fuel, rfl⟩ := exists_fuel hfuel
    exact readValue_blanks hblanks rfl fuel _
  | .object [], level, fuel, blanks, rest, _, hblanks, _, hfuel => by
    obtain ⟨fuel, rfl⟩ := exists_fuel hfuel
    exact readValue_blanks hblanks rfl fuel _
  | .array (item :: tail), level, fuel, blanks, rest, hwritable, hblanks, _, hfuel => by
    obtain ⟨fuel, rfl⟩ := exists_fuel hfuel
    have hshort : 2 * (itemsText layout level (item :: tail)).length ≤ fuel + 1 := by
      simp only [written, List.length_cons, List.length_append] at hfuel
      simp only [itemsText, List.length_append]
      omega
    have hitems := readItems_written hlayout (item :: tail) (List.cons_ne_nil _ _) level fuel []
      rest hwritable (List.forall_mem_nil _) hshort
    exact readValue_array hblanks fuel hlayout hitems
  | .object ((name, value) :: tail), level, fuel, blanks, rest, hwritable, hblanks, _,
      hfuel => by
    obtain ⟨fuel, rfl⟩ := exists_fuel hfuel
    have hshort : 2 * (membersText layout level ((name, value) :: tail)).length ≤ fuel + 1 := by
      simp only [written, List.length_cons, List.length_append] at hfuel
      simp only [membersText, List.length_cons, List.length_append]
      omega
    have hmembers := readMembers_written hlayout ((name, value) :: tail) (List.cons_ne_nil _ _)
      level fuel [] rest hwritable (List.forall_mem_nil _) hshort
    exact readValue_object hblanks fuel hlayout hmembers
  | .garbled, _, _, _, _, hwritable, _, _, _ => hwritable.elim

theorem readItems_written (hlayout : layout.Blank) : ∀ (items : List Json), items ≠ [] →
    ∀ (level fuel : Nat) (blanks rest : List Char), WritableItems items → Blanks blanks →
    2 * (itemsText layout level items).length ≤ fuel + 1 →
    readItems fuel (blanks ++ (itemsText layout level items ++ rest)) = some (items, rest)
  | [], hne, _, _, _, _, _, _, _ => absurd rfl hne
  | item :: tail, _, level, fuel, blanks, rest, hwritable, hblanks, hfuel => by
    obtain ⟨hitem, htail⟩ := hwritable
    have hend := length_writtenItems_pos layout level tail
    simp only [itemsText, List.length_append] at hfuel
    obtain ⟨fuel, rfl⟩ := Nat.exists_eq_add_one_of_ne_zero (n := fuel) (by
      obtain ⟨c, chars, hcons, -⟩ := written_eq_cons layout item (level + 1)
      rw [hcons, List.length_cons] at hfuel
      omega)
    refine readItems_cons hlayout (readValue_written hlayout item (level + 1) fuel blanks _ hitem
      hblanks (endsNumeral_writtenItems hlayout level tail rest) (by omega)) fun hne => ?_
    have hshort : 2 * (itemsText layout level tail).length ≤ fuel + 1 := by
      cases tail with
      | nil => exact Nat.zero_le _
      | cons next tail =>
        simp only [writtenItems, List.length_cons, List.length_append] at hfuel
        simp only [itemsText, List.length_append]
        omega
    exact readItems_written hlayout tail hne level fuel _ rest htail (hlayout.gap _) hshort

theorem readMembers_written (hlayout : layout.Blank) : ∀ (members : List (String × Json)),
    members ≠ [] → ∀ (level fuel : Nat) (blanks rest : List Char), WritableMembers members →
    Blanks blanks → 2 * (membersText layout level members).length ≤ fuel + 1 →
    readMembers fuel (blanks ++ (membersText layout level members ++ rest)) =
      some (named members, rest)
  | [], hne, _, _, _, _, _, _, _ => absurd rfl hne
  | (name, value) :: tail, _, level, fuel, blanks, rest, hwritable, hblanks, hfuel => by
    obtain ⟨hvalue, htail⟩ := hwritable
    have hend := length_writtenMembers_pos layout level tail
    simp only [membersText, List.length_cons, List.length_append] at hfuel
    obtain ⟨fuel, rfl⟩ := Nat.exists_eq_add_one_of_ne_zero (n := fuel) (by omega)
    refine readMembers_cons hlayout hblanks (readValue_written hlayout value (level + 1) fuel
      layout.colon _ hvalue hlayout.colon (endsNumeral_writtenMembers hlayout level tail rest)
      (by omega)) fun hne => ?_
    have hshort : 2 * (membersText layout level tail).length ≤ fuel + 1 := by
      cases tail with
      | nil => exact Nat.zero_le _
      | cons next tail =>
        simp only [writtenMembers, List.length_cons, List.length_append] at hfuel
        simp only [membersText, List.length_cons, List.length_append]
        omega
    exact readMembers_written hlayout tail hne level fuel _ rest htail (hlayout.gap _) hshort

end

/-! ## Whole texts -/

theorem readValue_text (hlayout : layout.Blank) {j : Json} (hj : j.Writable) (level : Nat)
    {text : String} (htext : text.toList = j.written layout level) :
    readValue (2 * text.toList.length + 2) text.toList = some (j, []) := by
  have hread := readValue_written hlayout j level (2 * text.toList.length + 2) [] [] hj
    (List.forall_mem_nil _) (fun c hc => by cases hc) (by rw [htext]; omega)
  rw [List.nil_append, List.append_nil, ← htext] at hread
  exact hread

theorem ofText?_written (hlayout : layout.Blank) {j : Json} (hj : j.Writable) (level : Nat)
    {text : String} (htext : text.toList = j.written layout level) : ofText? text = some j := by
  simp only [ofText?, readValue_text hlayout hj level htext]
  rfl

theorem ofText?_compact {j : Json} (hj : j.Writable) : ofText? j.compact = some j :=
  ofText?_written blank_compactLayout hj 0 (compact_toList j 0)

theorem ofText?_pretty {j : Json} (hj : j.Writable) : ofText? j.pretty = some j :=
  ofText?_written blank_indentedLayout hj 0 (indented_toList j 0)

end BuildPool.Json
