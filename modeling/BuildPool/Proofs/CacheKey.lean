import Mathlib.Tactic
import BuildPool.CacheKey

/-!
# What a cache key says of a build

The bytes behind a key are those of a text: the project, the task and the options, with a zero
character between them, and with an equals sign between the name and the value of an option. So the
key knows the inputs up to where these characters stand. It cannot tell an equals sign in a name
from the one behind it, nor a zero character in an input from the end of the input.
-/

namespace BuildPool

open BuildPool.Text

/-! ## The text behind the bytes -/

def optionText (option : String × String) : List Char :=
  option.1.toList ++ '=' :: option.2.toList

/-- The project, the task and the options, in order of their names. -/
def inputTexts (project task : String) (options : Dictionary) : List (List Char) :=
  project.toList :: task.toList :: options.toList.map optionText

/-- The inputs, cut also where they hold a zero character themselves. -/
def keyPieces (project task : String) (options : Dictionary) : List (List Char) :=
  (inputTexts project task options).flatMap (List.splitOn '\x00')

theorem utf8_ofList_append (a b : List Char) :
    utf8 (String.ofList (a ++ b)) = utf8 (String.ofList a) ++ utf8 (String.ofList b) := by
  rw [String.ofList_append, utf8_append]

theorem utf8_zero : utf8 (String.ofList ['\x00']) = [0] := by
  rw [utf8_eq]
  decide +kernel

theorem utf8_zero_cons (chars : List Char) :
    utf8 (String.ofList ('\x00' :: chars)) = 0 :: utf8 (String.ofList chars) := by
  have happend := utf8_ofList_append ['\x00'] chars
  rw [utf8_zero] at happend
  exact happend

theorem optionBytes_eq (option : String × String) :
    optionBytes option = utf8 (String.ofList ('\x00' :: optionText option)) := by
  have hequals : '=' :: option.2.toList = "=".toList ++ option.2.toList := rfl
  rw [utf8_zero_cons, optionText, hequals, utf8_ofList_append, utf8_ofList_append]
  simp only [String.ofList_toList, optionBytes, List.cons_append, List.append_assoc]

theorem flatMap_optionBytes (entries : List (String × String)) :
    entries.flatMap optionBytes =
      utf8 (String.ofList ((entries.map optionText).flatMap ('\x00' :: ·))) := by
  induction entries with
  | nil => exact (utf8_eq "").symm
  | cons option rest ih =>
    rw [List.flatMap_cons, ih, optionBytes_eq, ← utf8_ofList_append]
    rfl

theorem intercalate_cons_eq {α : Type} (sep : α) (first : List α) (rest : List (List α)) :
    [sep].intercalate (first :: rest) = first ++ rest.flatMap (sep :: ·) := by
  induction rest generalizing first with
  | nil => simp
  | cons second rest ih =>
    rw [List.intercalate_cons_cons, ih, List.flatMap_cons, List.append_assoc]
    rfl

theorem keyBytes_eq_utf8 (project task : String) (options : Dictionary) :
    keyBytes project task options =
      utf8 (String.ofList (['\x00'].intercalate (inputTexts project task options))) := by
  rw [inputTexts, intercalate_cons_eq, List.flatMap_cons, utf8_ofList_append, List.cons_append,
    utf8_zero_cons, utf8_ofList_append, ← flatMap_optionBytes]
  simp only [String.ofList_toList, keyBytes, List.append_assoc, List.cons_append]

/-! ## Cutting -/

/-- A text that was joined falls into the pieces of its parts. -/
theorem splitOn_intercalate_eq {α : Type} [DecidableEq α] (sep : α) (parts : List (List α))
    (hparts : parts ≠ []) :
    List.splitOn sep ([sep].intercalate parts) = parts.flatMap (List.splitOn sep) := by
  induction parts with
  | nil => exact absurd rfl hparts
  | cons first rest ih =>
    cases rest with
    | nil => simp
    | cons second rest =>
      rw [List.intercalate_cons_cons, List.append_assoc, List.singleton_append,
        List.splitOn_append_cons_self, ih (List.cons_ne_nil _ _)]
      rfl

theorem intercalate_eq_iff {α : Type} [DecidableEq α] (sep : α) {parts parts' : List (List α)}
    (hparts : parts ≠ []) (hparts' : parts' ≠ []) :
    [sep].intercalate parts = [sep].intercalate parts' ↔
      parts.flatMap (List.splitOn sep) = parts'.flatMap (List.splitOn sep) := by
  rw [← splitOn_intercalate_eq sep parts hparts, ← splitOn_intercalate_eq sep parts' hparts']
  refine ⟨congrArg _, fun h => ?_⟩
  have hjoined := congrArg [sep].intercalate h
  rwa [List.intercalate_splitOn, List.intercalate_splitOn] at hjoined

theorem keyBytes_eq_iff {project task project' task' : String} {options options' : Dictionary} :
    keyBytes project task options = keyBytes project' task' options' ↔
      keyPieces project task options = keyPieces project' task' options' := by
  rw [keyBytes_eq_utf8, keyBytes_eq_utf8, utf8_inj, String.ofList_inj]
  exact intercalate_eq_iff '\x00' (List.cons_ne_nil _ _) (List.cons_ne_nil _ _)

/-! ## Inputs without separators -/

/-- Nothing in these inputs looks like one of the characters between them. -/
structure Separable (project task : String) (options : Dictionary) : Prop where
  project : '\x00' ∉ project.toList
  task : '\x00' ∉ task.toList
  names : ∀ option ∈ options.items, '\x00' ∉ option.1.toList ∧ '=' ∉ option.1.toList
  values : ∀ option ∈ options.items, '\x00' ∉ option.2.toList

theorem zero_not_mem_optionText {option : String × String} (hname : '\x00' ∉ option.1.toList)
    (hvalue : '\x00' ∉ option.2.toList) : '\x00' ∉ optionText option := by
  have hequals : '\x00' ≠ '=' := by decide
  simp only [optionText, List.mem_append, List.mem_cons, hname, hequals, hvalue, or_self,
    not_false_eq_true]

theorem Separable.keyPieces_eq {project task : String} {options : Dictionary}
    (h : Separable project task options) :
    keyPieces project task options = inputTexts project task options := by
  have hcut : ∀ text ∈ inputTexts project task options, List.splitOn '\x00' text = [text] := by
    intro text htext
    apply List.splitOn_eq_singleton
    rcases List.mem_cons.1 htext with rfl | htext
    · exact h.project
    · rcases List.mem_cons.1 htext with rfl | htext
      · exact h.task
      · obtain ⟨option, hoption, rfl⟩ := List.mem_map.1 htext
        exact zero_not_mem_optionText (h.names option hoption).1 (h.values option hoption)
  rw [keyPieces, List.flatMap_congr hcut, List.flatMap_singleton']

theorem optionText_inj {option option' : String × String} (hname : '=' ∉ option.1.toList)
    (hname' : '=' ∉ option'.1.toList) (h : optionText option = optionText option') :
    option = option' := by
  have hsplit := congrArg (List.splitOn '=') h
  rw [optionText, optionText, List.splitOn_append_cons_self_of_not_mem hname,
    List.splitOn_append_cons_self_of_not_mem hname'] at hsplit
  have hfirst := (List.cons.inj hsplit).1
  have hsecond : option.2.toList = option'.2.toList := by
    rw [optionText, optionText, hfirst] at h
    exact (List.cons.inj (List.append_cancel_left h)).2
  exact Prod.ext (String.toList_inj.1 hfirst) (String.toList_inj.1 hsecond)

theorem map_optionText_inj {entries entries' : List (String × String)}
    (hnames : ∀ option ∈ entries, '=' ∉ option.1.toList)
    (hnames' : ∀ option ∈ entries', '=' ∉ option.1.toList)
    (h : entries.map optionText = entries'.map optionText) : entries = entries' := by
  induction entries generalizing entries' with
  | nil => exact (List.map_eq_nil_iff.1 h.symm).symm
  | cons option rest ih =>
    cases entries' with
    | nil => cases h
    | cons option' rest' =>
      obtain ⟨hhead, htail⟩ := List.cons.inj h
      have hoption := optionText_inj (hnames _ List.mem_cons_self) (hnames' _ List.mem_cons_self)
        hhead
      have hrest := ih (fun o ho => hnames o (List.mem_cons_of_mem _ ho))
        (fun o ho => hnames' o (List.mem_cons_of_mem _ ho)) htail
      rw [hoption, hrest]

theorem Separable.keyBytes_eq_iff {project task project' task' : String}
    {options options' : Dictionary} (h : Separable project task options)
    (h' : Separable project' task' options') :
    keyBytes project task options = keyBytes project' task' options' ↔
      project = project' ∧ task = task' ∧ options = options' := by
  rw [BuildPool.keyBytes_eq_iff, h.keyPieces_eq, h'.keyPieces_eq]
  constructor
  · intro heq
    obtain ⟨hproject, heq⟩ := List.cons.inj heq
    obtain ⟨htask, hoptions⟩ := List.cons.inj heq
    have hitems := map_optionText_inj (fun o ho => (h.names o ho).2)
      (fun o ho => (h'.names o ho).2) hoptions
    exact ⟨String.toList_inj.1 hproject, String.toList_inj.1 htask, Catalog.ext hitems⟩
  · rintro ⟨rfl, rfl, rfl⟩
    rfl

/-! ## Keys -/

theorem hexByte_length (b : UInt8) : (hexByte b).length = 2 :=
  hexPadded_length_of_lt ((Nat.length_toDigits_le_iff (by decide) (by decide)).2 b.toNat_lt)

/-- The byte that two digits write. -/
def byteOfHex (digits : List Char) : UInt8 :=
  .ofNat (digits.foldl (fun n c => n * 16 + (hexValue? c).getD 0) 0)

theorem byteOfHex_hexByte (b : UInt8) : byteOfHex (hexByte b) = b := by
  have hall : ∀ n : Fin 256, byteOfHex (hexPadded 2 n) = UInt8.ofNat n := by decide +kernel
  have hb := hall ⟨b.toNat, b.toNat_lt⟩
  rwa [UInt8.ofNat_toNat] at hb

theorem hexByte_inj {a b : UInt8} (h : hexByte a = hexByte b) : a = b := by
  rw [← byteOfHex_hexByte a, h, byteOfHex_hexByte]

theorem flatMap_hexByte_inj {bytes bytes' : List UInt8}
    (h : bytes.flatMap hexByte = bytes'.flatMap hexByte) : bytes = bytes' := by
  induction bytes generalizing bytes' with
  | nil =>
    cases bytes' with
    | nil => rfl
    | cons b rest =>
      have hlength := congrArg List.length h
      simp only [List.flatMap_nil, List.flatMap_cons, List.length_append, hexByte_length,
        List.length_nil] at hlength
      omega
  | cons b rest ih =>
    cases bytes' with
    | nil =>
      have hlength := congrArg List.length h
      simp only [List.flatMap_nil, List.flatMap_cons, List.length_append, hexByte_length,
        List.length_nil] at hlength
      omega
    | cons b' rest' =>
      rw [List.flatMap_cons, List.flatMap_cons] at h
      obtain ⟨hhead, htail⟩ := List.append_inj h (by rw [hexByte_length, hexByte_length])
      rw [hexByte_inj hhead, ih htail]

theorem hexOfBytes_inj {bytes bytes' : List UInt8} :
    hexOfBytes bytes = hexOfBytes bytes' ↔ bytes = bytes' :=
  ⟨fun h => flatMap_hexByte_inj (String.ofList_inj.1 h), congrArg _⟩

/-! ## Builds -/

namespace Build

/-- The bytes behind the cache key of a build. -/
def keyBytes (b : Build) : List UInt8 := BuildPool.keyBytes b.project b.task b.options

def keyPieces (b : Build) : List (List Char) := BuildPool.keyPieces b.project b.task b.options

def Separable (b : Build) : Prop := BuildPool.Separable b.project b.task b.options

/-- Two builds are made from the same. -/
structure SameInputs (a b : Build) : Prop where
  project : a.project = b.project
  task : a.task = b.task
  options : ∀ name, a.options.find? name = b.options.find? name

theorem cacheKey_eq (b : Build) : b.cacheKey = hexOfBytes (Digest.sha256 b.keyBytes) := rfl

theorem sameInputs_iff {a b : Build} :
    a.SameInputs b ↔ a.project = b.project ∧ a.task = b.task ∧ a.options = b.options := by
  constructor
  · exact fun h => ⟨h.project, h.task, Catalog.ext_find? h.options⟩
  · exact fun ⟨hproject, htask, hoptions⟩ => ⟨hproject, htask, fun name => by rw [hoptions]⟩

theorem cacheKey_eq_of_submission {a b : Build} (h : a.submission = b.submission) :
    a.cacheKey = b.cacheKey := by
  simp only [submission, Prod.mk.injEq] at h
  rw [cacheKey, cacheKey, h.2.1, h.2.2.1, h.2.2.2.2.2.1]

theorem cacheEnabled_eq_of_submission {a b : Build} (h : a.submission = b.submission) :
    a.cacheEnabled = b.cacheEnabled := by
  simp only [submission, Prod.mk.injEq] at h
  exact h.2.2.2.2.1

/-- What the cache keys of two builds say of their inputs. -/
structure KeyTells (a b : Build) : Prop where
  /-- The bytes are the same for just the builds with the same pieces. -/
  exact : a.keyBytes = b.keyBytes ↔ a.keyPieces = b.keyPieces
  /-- It does not matter in which order the options came. -/
  inputs : a.SameInputs b → a.keyBytes = b.keyBytes ∧ a.cacheKey = b.cacheKey
  separable : a.Separable → b.Separable → (a.keyBytes = b.keyBytes ↔ a.SameInputs b)
  /-- Builds whose bytes the hash tells apart have the same key only with the same bytes. -/
  key : (Digest.sha256 a.keyBytes = Digest.sha256 b.keyBytes → a.keyBytes = b.keyBytes) →
    (a.cacheKey = b.cacheKey ↔ a.keyBytes = b.keyBytes)

theorem keyTells (a b : Build) : KeyTells a b := by
  constructor
  case exact => exact keyBytes_eq_iff
  case inputs =>
    intro h
    obtain ⟨hproject, htask, hoptions⟩ := sameInputs_iff.1 h
    have hbytes : a.keyBytes = b.keyBytes := by
      rw [keyBytes, keyBytes, hproject, htask, hoptions]
    exact ⟨hbytes, by rw [cacheKey_eq, cacheKey_eq, hbytes]⟩
  case separable => exact fun ha hb => (ha.keyBytes_eq_iff hb).trans sameInputs_iff.symm
  case key =>
    intro hhash
    rw [cacheKey_eq, cacheKey_eq, hexOfBytes_inj]
    exact ⟨hhash, congrArg _⟩

/-- Two builds with one option each: the equals sign is once in the value and once in the name. -/
def equalsInValue : Build :=
  .ofRequest { project := "p", task := "t", options := .ofList [("x", "y=z")] } ⟨"a"⟩ 1 ⟨0, 0⟩

def equalsInName : Build :=
  .ofRequest { project := "p", task := "t", options := .ofList [("x=y", "z")] } ⟨"b"⟩ 2 ⟨0, 0⟩

theorem not_sameInputs_of_keyBytes_eq :
    ¬ ∀ a b : Build, a.keyBytes = b.keyBytes ↔ a.SameInputs b := by
  intro hall
  have hpieces : equalsInValue.keyPieces = equalsInName.keyPieces := by decide +kernel
  have hsame := (hall equalsInValue equalsInName).1 (keyBytes_eq_iff.2 hpieces)
  have hoption := hsame.options "x"
  revert hoption
  decide +kernel

end Build

end BuildPool
