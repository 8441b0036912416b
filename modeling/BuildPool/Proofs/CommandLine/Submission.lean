import BuildPool.CommandLine.Command
import BuildPool.Proofs.Number.Whole
import BuildPool.Proofs.Wire.Builds

/-!
# Submissions

How a submission gets from the arguments of the client to the pool. Every value was judged before it
was taken, so nothing that is given is left out, and of options with one name the last counts.
-/

namespace BuildPool.CommandLine

open BuildPool.Json BuildPool.Number

/-! ## What was read -/

/-- Every value was judged by an option of the grammar, and so is the one that waits. -/
structure Reading.Judged (g : Grammar) (r : Reading) : Prop where
  values : ∀ entry ∈ r.parsed.values, ∃ o ∈ g.options, o.name = entry.1 ∧ o.objection entry.2 = none
  pending : ∀ o value, r.pending = some (o, value) → o ∈ g.options

/-- One reading goes on from another, with values that were judged, in front of any command. -/
structure Reading.Extends (g : Grammar) (r r' : Reading) : Prop where
  judged : r'.Judged g
  command : r'.parsed.command = r.parsed.command

namespace Reading

variable {g : Grammar} {r r' r'' : Reading} {o : Opt} {value : String}

theorem Extends.trans (h : Extends g r r') (h' : Extends g r' r'') : Extends g r r'' :=
  ⟨h'.judged, h'.command.trans h.command⟩

theorem Judged.extends_self (h : r.Judged g) : Extends g r r := ⟨h, rfl⟩

theorem Judged.extends_pending (h : r.Judged g) (ho : o ∈ g.options) (value : Option String) :
    Extends g r { r with pending := some (o, value) } where
  judged := ⟨h.values, by rintro o' v ⟨⟩; exact ho⟩
  command := rfl

theorem Judged.extends_take (h : r.Judged g) (ho : o ∈ g.options)
    (htake : r.take o value = .ok r') : Extends g r r' := by
  unfold take at htake
  split at htake
  · cases htake
  · split at htake
    · cases htake
    · rename_i hobjection
      cases htake
      refine ⟨⟨?_, h.pending⟩, rfl⟩
      intro entry hentry
      rcases List.mem_append.1 hentry with hold | hnew
      · exact h.values entry hold
      · rw [List.mem_singleton.1 hnew]
        exact ⟨o, ho, rfl, hobjection⟩

theorem Judged.extends_settle (h : r.Judged g) (hsettle : r.settle = .ok r') :
    Extends g r r' := by
  unfold settle at hsettle
  split at hsettle
  · cases hsettle
    exact h.extends_self
  · cases hsettle
  · rename_i o value hpending
    have hidle : Judged g { r with pending := none } := ⟨h.values, nofun⟩
    have htaken := hidle.extends_take (h.pending o _ hpending) hsettle
    exact ⟨htaken.judged, htaken.command⟩

theorem ask_ne_ok {α : Type} {a : α} (r : Reading) (g : Grammar) (question : Inquiry) :
    r.ask g question ≠ Except.ok a := by
  unfold ask
  cases r.settle with
  | error c => nofun
  | ok r => nofun

end Reading

namespace Grammar

open Reading

variable {g : Grammar} {r r' : Reading} {awaiting : Option Opt} {args : List String}

theorem extends_readLong {name : String} {value : Option String} (h : r.Judged g)
    (hread : g.readLong name value r = .ok (awaiting, r')) :
    Extends g r r' ∧ ∀ o ∈ awaiting, o ∈ g.options := by
  unfold readLong at hread
  split at hread
  · split at hread
    · exact absurd hread (ask_ne_ok _ _ _)
    · cases hread
  · split at hread
    · cases hread
    · cases hread
  · rename_i o hname
    have ho : o ∈ g.options := List.mem_of_find?_eq_some hname
    obtain ⟨settled, hsettle, hread⟩ := Refusal.of_bind_eq_ok hread
    have hsettled := h.extends_settle hsettle
    split at hread
    · obtain ⟨taken, htake, hread⟩ := Refusal.of_bind_eq_ok hread
      cases hread
      exact ⟨hsettled.trans (hsettled.judged.extends_take ho htake), nofun⟩
    · cases hread
      exact ⟨hsettled.trans (hsettled.judged.extends_pending ho none), by rintro o' ⟨⟩; exact ho⟩
  · rename_i o value hname
    have ho : o ∈ g.options := List.mem_of_find?_eq_some hname
    split at hread
    · cases hread
    · obtain ⟨settled, hsettle, hread⟩ := Refusal.of_bind_eq_ok hread
      obtain ⟨taken, htake, hread⟩ := Refusal.of_bind_eq_ok hread
      cases hread
      have hsettled := h.extends_settle hsettle
      exact ⟨hsettled.trans (hsettled.judged.extends_take ho htake), nofun⟩

theorem extends_readLetters {chars : List Char} (h : r.Judged g)
    (hread : g.readLetters chars r = .ok (awaiting, r')) :
    Extends g r r' ∧ ∀ o ∈ awaiting, o ∈ g.options := by
  induction chars generalizing r with
  | nil =>
    cases hread
    exact ⟨h.extends_self, nofun⟩
  | cons c rest ih =>
    unfold readLetters at hread
    split at hread
    · split at hread
      · exact absurd hread (ask_ne_ok _ _ _)
      · cases hread
    · rename_i o hletter
      have ho : o ∈ g.options := List.mem_of_find?_eq_some hletter
      obtain ⟨settled, hsettle, hread⟩ := Refusal.of_bind_eq_ok hread
      have hsettled := h.extends_settle hsettle
      split at hread
      · obtain ⟨taken, htake, hread⟩ := Refusal.of_bind_eq_ok hread
        have htaken := hsettled.judged.extends_take ho htake
        obtain ⟨hrest, hawaiting⟩ := ih htaken.judged hread
        exact ⟨hsettled.trans (htaken.trans hrest), hawaiting⟩
      · split at hread
        · cases hread
          exact ⟨hsettled.trans (hsettled.judged.extends_pending ho none),
            by rintro o' ⟨⟩; exact ho⟩
        · obtain ⟨taken, htake, hread⟩ := Refusal.of_bind_eq_ok hread
          cases hread
          exact ⟨hsettled.trans (hsettled.judged.extends_take ho htake), nofun⟩
        · obtain ⟨taken, htake, hread⟩ := Refusal.of_bind_eq_ok hread
          cases hread
          exact ⟨hsettled.trans (hsettled.judged.extends_take ho htake), nofun⟩

theorem extends_readOperand {arg : String} (h : r.Judged g)
    (hread : g.readOperand arg r = .ok r') : Extends g r r' := by
  unfold readOperand at hread
  split at hread
  · obtain ⟨settled, hsettle, hread⟩ := Refusal.of_bind_eq_ok hread
    cases hread
    have hsettled := h.extends_settle hsettle
    exact ⟨⟨hsettled.judged.values, hsettled.judged.pending⟩, hsettled.command⟩
  · cases hread

theorem extends_readOperands (h : r.Judged g)
    (hread : args.foldlM (fun r arg => g.readOperand arg r) r = .ok r') : Extends g r r' := by
  induction args generalizing r with
  | nil =>
    cases hread
    exact h.extends_self
  | cons arg rest ih =>
    rw [List.foldlM_cons] at hread
    obtain ⟨next, hnext, hread⟩ := Refusal.of_bind_eq_ok hread
    have hextends := extends_readOperand h hnext
    exact hextends.trans (ih hextends.judged hread)

theorem extends_readOne {arg : String} (h : r.Judged g)
    (hread : g.readOne arg r = .ok (awaiting, r')) :
    Extends g r r' ∧ ∀ o ∈ awaiting, o ∈ g.options := by
  unfold readOne at hread
  split at hread
  · exact extends_readLong h hread
  · exact extends_readLetters h hread
  · cases hnext : g.readOperand arg r with
    | error c =>
      rw [hnext] at hread
      cases hread
    | ok next =>
      rw [hnext] at hread
      cases hread
      exact ⟨extends_readOperand h hnext, nofun⟩

/-- Only what awaits a value gets one. -/
theorem awaiting_of_roleOf {arg : String} {o : Opt} (h : g.roleOf awaiting arg = .valueOf o) :
    awaiting = some o := by
  unfold roleOf at h
  split at h
  · split at h
    · cases h
      rfl
    · split at h <;> cases h
  · split at h
    · cases h
    · split at h <;> cases h

/-- The values are judged, and a command stands among the arguments with its own behind it. -/
theorem judged_readAll (h : r.Judged g) (hawaiting : ∀ o ∈ awaiting, o ∈ g.options)
    (hcommand : r.parsed.command = none) (hread : g.readAll args awaiting r = .ok r') :
    r'.Judged g ∧ ∀ name rest, r'.parsed.command = some (name, rest) →
      ∃ front, args = front ++ name :: rest := by
  induction args generalizing awaiting r with
  | nil =>
    cases hread
    refine ⟨h, fun name rest hname => ?_⟩
    rw [hcommand] at hname
    cases hname
  | cons arg rest ih =>
    have hbehind : (∃ r'', Extends g r r'' ∧ ∃ awaiting', (∀ o ∈ awaiting', o ∈ g.options) ∧
        g.readAll rest awaiting' r'' = .ok r') → r'.Judged g ∧ ∀ name rest',
          r'.parsed.command = some (name, rest') →
            ∃ front, arg :: rest = front ++ name :: rest' := by
      rintro ⟨r'', hextends, awaiting', hawaiting', hrest⟩
      obtain ⟨hjudged, hfront⟩ :=
        ih hextends.judged hawaiting' (hextends.command.trans hcommand) hrest
      refine ⟨hjudged, fun name rest' hname => ?_⟩
      obtain ⟨front, rfl⟩ := hfront name rest' hname
      exact ⟨arg :: front, rfl⟩
    unfold readAll at hread
    split at hread
    · rename_i o hrole
      have ho : o ∈ g.options := hawaiting o (awaiting_of_roleOf hrole)
      exact hbehind ⟨_, h.extends_pending ho (some arg), none, nofun, hread⟩
    · cases hread
      refine ⟨⟨h.values, h.pending⟩, ?_⟩
      rintro name rest' ⟨⟩
      exact ⟨[], rfl⟩
    · have hextends := extends_readOperands h hread
      refine ⟨hextends.judged, fun name rest' hname => ?_⟩
      rw [hextends.command, hcommand] at hname
      cases hname
    · obtain ⟨⟨awaiting', r''⟩, hone, hread⟩ := Refusal.of_bind_eq_ok hread
      obtain ⟨hextends, hawaiting'⟩ := extends_readOne h hone
      exact hbehind ⟨r'', hextends, awaiting', hawaiting', hread⟩

theorem judged_readFront (hread : g.readFront args = .ok r) :
    r.Judged g ∧ ∀ name rest, r.parsed.command = some (name, rest) →
      ∃ front, args = front ++ name :: rest :=
  judged_readAll ⟨List.forall_mem_nil _, by rintro o value ⟨⟩⟩ (by rintro o ⟨⟩) rfl hread

/-- All that has to be given is given, and every value was judged. -/
theorem judged_read {p : Parsed} (hread : g.read args = .ok p) :
    (∀ entry ∈ p.values, ∃ o ∈ g.options, o.name = entry.1 ∧ o.objection entry.2 = none) ∧
      g.isComplete p = true := by
  obtain ⟨r, hfront, hread⟩ := Refusal.of_bind_eq_ok hread
  obtain ⟨settled, hsettle, hread⟩ := Refusal.of_bind_eq_ok hread
  have hsettled := (judged_readFront hfront).1.extends_settle hsettle
  split at hread
  · rename_i hcomplete
    cases hread
    exact ⟨hsettled.judged.values, hcomplete⟩
  · cases hread

end Grammar

/-! ## The request -/

theorem ok_of_objectionOf {α : Type} {read : String → Except String α} {text : String}
    (h : objectionOf read text = none) : ∃ a, read text = .ok a := by
  unfold objectionOf at h
  split at h
  · rename_i a ha
    exact ⟨a, ha⟩
  · cases h

/-- What the arguments of a submission say. -/
structure Asked (p : Parsed) (project task : String) (priority : Int32) (cache : Bool)
    (options : List (String × String)) : Prop where
  project : p.value? "project" = some project
  task : p.value? "task" = some task
  priority : (p.value? "priority").elim (priority = 0) fun text => readPriority text = .ok priority
  cache : p.has "cache" = cache
  options : (p.valuesOf "option").mapM readOption = .ok options

/-- A request with these values. Of options with one name the last counts. -/
structure Carries (q : Request) (project task : String) (priority : Int32) (cache : Bool)
    (options : List (String × String)) : Prop where
  project : q.project = project
  task : q.task = task
  priority : q.priority = priority
  cache : q.cacheEnabled = cache
  options : ∀ name, q.options.find? name = options.reverse.find? (·.1 == name)

variable {p : Parsed} {project task : String} {priority : Int32} {cache : Bool}
  {options : List (String × String)}

theorem find?_ofList_texts (name : String) :
    (Catalog.ofList options : Dictionary).find? name = options.reverse.find? (·.1 == name) := by
  rw [Catalog.ofList, Catalog.find?_foldl_insert, Catalog.find?_empty, Option.or_none]

theorem filterMap_of_mapM {texts : List String} (h : texts.mapM readOption = .ok options) :
    texts.filterMap (fun text => (readOption text).toOption) = options := by
  induction texts generalizing options with
  | nil =>
    cases h
    rfl
  | cons text rest ih =>
    rw [List.mapM_cons] at h
    obtain ⟨entry, hentry, h⟩ := Refusal.of_bind_eq_ok h
    obtain ⟨more, hmore, h⟩ := Refusal.of_bind_eq_ok h
    cases h
    rw [List.filterMap_cons, hentry]
    exact congrArg (entry :: ·) (ih hmore)

theorem Asked.carries (h : Asked p project task priority cache options) :
    Carries (requestOf p) project task priority cache options where
  project := by rw [requestOf, h.project]; rfl
  task := by rw [requestOf, h.task]; rfl
  priority := by
    have hpriority := h.priority
    simp only [requestOf, valueAs]
    cases htext : p.value? "priority" with
    | none =>
      rw [htext] at hpriority
      exact hpriority.symm
    | some text =>
      rw [htext] at hpriority
      exact congrArg (fun e => (Except.toOption e).getD 0) hpriority
  cache := h.cache
  options name := by
    rw [← find?_ofList_texts, ← filterMap_of_mapM h.options]
    rfl

theorem exists_mapM {texts : List String}
    (h : ∀ text ∈ texts, ∃ entry, readOption text = .ok entry) :
    ∃ options, texts.mapM readOption = .ok options := by
  induction texts with
  | nil => exact ⟨[], rfl⟩
  | cons text rest ih =>
    obtain ⟨⟨entry, hentry⟩, hrest⟩ := List.forall_mem_cons.1 h
    obtain ⟨options, hoptions⟩ := ih hrest
    refine ⟨entry :: options, ?_⟩
    rw [List.mapM_cons, hentry, hoptions]
    rfl

/-- The options of a submission have different names. -/
theorem objection_eq {o o' : Opt} {name : String} (ho : o ∈ submitForm.grammar.options)
    (hname : o.name = name) (hnamed : submitForm.grammar.named? name = some o') :
    o.objection = o'.objection := by
  have hdistinct : (submitForm.grammar.options.map Opt.name).Nodup := by decide
  have hfound := List.find?_some hnamed
  have hsame : o.name = o'.name := hname.trans (beq_iff_eq.1 hfound).symm
  rw [List.inj_on_of_nodup_map hdistinct ho (List.mem_of_find?_eq_some hnamed) hsame]

theorem mem_of_lookup {values : List (String × String)} {name text : String}
    (h : values.lookup name = some text) : (name, text) ∈ values := by
  obtain ⟨front, back, rfl, -⟩ := List.lookup_eq_some_iff.1 h
  exact List.mem_append_right _ List.mem_cons_self

/-- Whatever arguments of a submission are accepted, they say what to submit. -/
theorem exists_asked {args : List String} (h : submitForm.grammar.read args = .ok p) :
    ∃ project task priority options, Asked p project task priority (p.has "cache") options := by
  obtain ⟨hjudged, hcomplete⟩ := Grammar.judged_read h
  have hrequired : p.has "project" = true ∧ p.has "task" = true := by
    have hall : ["project", "task"].all p.has = true :=
      (Bool.and_eq_true_iff.1 (Bool.and_eq_true_iff.1 hcomplete).1).1
    simpa using hall
  obtain ⟨project, hproject⟩ := Option.isSome_iff_exists.1 hrequired.1
  obtain ⟨task, htask⟩ := Option.isSome_iff_exists.1 hrequired.2
  have hoptions : ∀ text ∈ p.valuesOf "option", ∃ entry, readOption text = .ok entry := by
    intro text htext
    obtain ⟨⟨name, value⟩, hentry, rfl⟩ := List.mem_map.1 htext
    obtain ⟨hmem, hname⟩ := List.mem_filter.1 hentry
    obtain ⟨o, ho, hsame, hobjection⟩ := hjudged _ hmem
    rw [objection_eq ho (hsame.trans (beq_iff_eq.1 hname)) rfl] at hobjection
    exact ok_of_objectionOf hobjection
  obtain ⟨options, hoptions⟩ := exists_mapM hoptions
  cases hpriority : p.value? "priority" with
  | none =>
    exact ⟨project, task, 0, options, hproject, htask, by rw [hpriority]; rfl, rfl, hoptions⟩
  | some text =>
    obtain ⟨o, ho, hsame, hobjection⟩ := hjudged _ (mem_of_lookup hpriority)
    rw [objection_eq ho hsame rfl] at hobjection
    obtain ⟨priority, hread⟩ := ok_of_objectionOf hobjection
    exact ⟨project, task, priority, options, hproject, htask, by rw [hpriority]; exact hread, rfl,
      hoptions⟩

theorem of_commandOf_eq_submit {environment : Option String} {name : String} {args : List String}
    {request : Request} (h : commandOf environment name args = .ok (.submit request)) :
    name = "submit" ∧ ∃ p, submitForm.grammar.read args = .ok p ∧ request = requestOf p := by
  unfold commandOf at h
  split at h
  · obtain ⟨p, hp, h⟩ := Refusal.of_bind_eq_ok h
    cases h
    exact ⟨rfl, p, hp, rfl⟩
  · obtain ⟨p, -, h⟩ := Refusal.of_bind_eq_ok h
    cases h
  · obtain ⟨p, -, h⟩ := Refusal.of_bind_eq_ok h
    cases h
  · obtain ⟨p, -, h⟩ := Refusal.of_bind_eq_ok h
    cases h
  · obtain ⟨p, -, h⟩ := Refusal.of_bind_eq_ok h
    cases h
  · obtain ⟨p, -, h⟩ := Refusal.of_bind_eq_ok h
    cases h
  · cases h

/-- Every submission that the client makes of its arguments carries just what they say. -/
theorem carries_of_ofArgs {environment : Option String} {args : List String} {i : Invocation}
    {request : Request} (h : Invocation.ofArgs environment args = .ok i)
    (hsubmit : i.command = .submit request) :
    ∃ front rest p project task priority options, args = front ++ "submit" :: rest ∧
      submitForm.grammar.read rest = .ok p ∧
      Asked p project task priority (p.has "cache") options ∧
      Carries request project task priority (p.has "cache") options := by
  obtain ⟨r, hfront, h⟩ := Refusal.of_bind_eq_ok h
  split at h
  · rename_i name rest hcommand
    obtain ⟨command, hcommandOf, h⟩ := Refusal.of_bind_eq_ok h
    obtain ⟨q, -, h⟩ := Refusal.of_bind_eq_ok h
    cases h
    dsimp only at hsubmit
    rw [hsubmit] at hcommandOf
    obtain ⟨rfl, p, hp, rfl⟩ := of_commandOf_eq_submit hcommandOf
    obtain ⟨front, rfl⟩ := (Grammar.judged_readFront hfront).2 _ _ hcommand
    obtain ⟨project, task, priority, options, hasked⟩ := exists_asked hp
    exact ⟨front, rest, p, project, task, priority, options, rfl, hp, hasked, hasked.carries⟩
  · obtain ⟨q, -, h⟩ := Refusal.of_bind_eq_ok h
    cases h

/-! ## Arguments for every request -/

/-- A long name with its value in one argument. -/
def longArg (name value : String) : String := "--" ++ name ++ "=" ++ value

def submitArgs (project task : String) (priority : Int32) (cache : Bool)
    (options : List (String × String)) : List String :=
  "submit" :: longArg "project" project :: longArg "task" task ::
    longArg "priority" (toString priority.toInt) :: ((if cache then ["--cache"] else []) ++
      options.map fun o => longArg "option" (o.1 ++ "=" ++ o.2))

theorem splitEquals_append {name : String} (h : '=' ∉ name.toList) (value : List Char) :
    splitEquals (name.toList ++ '=' :: value) = (name, some (String.ofList value)) := by
  have hname : ∀ c ∈ name.toList, (c != '=') = true := fun c hc =>
    bne_iff_ne.2 fun heq => h (heq ▸ hc)
  unfold splitEquals
  rw [List.takeWhile_append_of_pos hname, List.dropWhile_append_of_pos hname]
  simp

theorem formOf_longArg {name : String} (h : '=' ∉ name.toList) (value : String) :
    formOf (longArg name value) = .long name (some value) := by
  have htext : (longArg name value).toList =
      '-' :: '-' :: (name.toList ++ '=' :: value.toList) := by
    simp [longArg, String.toList_append]
  unfold formOf
  rw [htext]
  split
  · rename_i heq
    exact absurd (congrArg List.length heq) (by simp)
  · rename_i rest heq
    obtain rfl := List.cons.inj (List.cons.inj heq).2 |>.2
    rw [splitEquals_append h, String.ofList_toList]
  · rename_i hdash heq
    exact (hdash (List.cons.inj (List.cons.inj heq).2).1.symm).elim
  · rename_i hlong _
    exact (hlong _ rfl).elim

theorem readOption_eq {name : String} (hname : name ≠ "") (h : '=' ∉ name.toList)
    (value : String) : readOption (name ++ "=" ++ value) = .ok (name, value) := by
  have htext : (name ++ "=" ++ value).toList = name.toList ++ '=' :: value.toList := by
    simp [String.toList_append]
  unfold readOption
  rw [htext, splitEquals_append h, String.ofList_toList]
  split
  · rename_i heq
    cases heq
  · rename_i heq
    exact absurd (congrArg Prod.fst heq) hname
  · rename_i heq
    cases heq
    rfl

theorem readPriority_toString (priority : Int32) :
    readPriority (toString priority.toInt) = .ok priority := by
  have hlow := priority.minValue_le_toInt
  have hhigh := priority.toInt_le
  have hword : Int32.minValue.toInt = -2147483648 ∧ Int32.maxValue.toInt = 2147483647 := by decide
  have hpower : (Nat.pow 2 63 : Nat) = 9223372036854775808 := rfl
  have hread := readBetween_toString hlow hhigh ⟨by omega, by omega⟩
  rw [readPriority, hread]
  exact congrArg Except.ok priority.ofInt_toInt

/-! ### Reading them -/

theorem objectionOf_of_eq_ok {α : Type} {read : String → Except String α} {text : String} {a : α}
    (h : read text = .ok a) : objectionOf read text = none := by
  rw [objectionOf, h]

theorem take_eq_ok {r : Reading} {o : Opt} {value : String}
    (hrepeat : o.repeatable = true ∨ r.parsed.has o.name = false)
    (hobjection : o.objection value = none) :
    r.take o value =
      .ok { r with parsed.values := r.parsed.values ++ [(o.name, value)] } := by
  have honce : (!o.repeatable && r.parsed.has o.name) = false := by
    rcases hrepeat with h | h <;> simp [h]
  unfold Reading.take
  rw [honce, hobjection]
  rfl

theorem readAll_of_readOne {g : Grammar} {arg : String} {rest : List String} {r r' : Reading}
    (hrole : g.roleOf none arg = .other) (hone : g.readOne arg r = .ok (none, r')) :
    g.readAll (arg :: rest) none r = g.readAll rest none r' := by
  rw [Grammar.readAll, hrole]
  change (g.readOne _ _ >>= _) = _
  rw [hone]
  rfl

/-- A reading with these values, and nothing that waits. -/
def readingOf (values : List (String × String)) : Reading := ⟨⟨values, [], none⟩, none⟩

theorem readAll_longArg {g : Grammar} {o : Opt} {name value : String} {rest : List String}
    {values : List (String × String)} (hequals : '=' ∉ name.toList) (hcommands : g.commands = [])
    (hname : g.named? name = some o) (hflag : o.isFlag = false)
    (hrepeat : o.repeatable = true ∨ (values.lookup name).isSome = false)
    (hobjection : o.objection value = none) :
    g.readAll (longArg name value :: rest) none (readingOf values) =
      g.readAll rest none (readingOf (values ++ [(name, value)])) := by
  have hsame : o.name = name := by
    have hfound := List.find?_some hname
    exact beq_iff_eq.1 hfound
  have hform := formOf_longArg hequals value
  have hrole : g.roleOf none (longArg name value) = .other := by
    simp [Grammar.roleOf, Grammar.hasCommand, hcommands, hform]
  have htake : (readingOf values).take o value = .ok (readingOf (values ++ [(name, value)])) := by
    rw [take_eq_ok (hrepeat.imp_right fun h => by rw [hsame]; exact h) hobjection, hsame]
    rfl
  have hone : g.readOne (longArg name value) (readingOf values) =
      .ok (none, readingOf (values ++ [(name, value)])) := by
    simp only [Grammar.readOne, hform, Grammar.readLong, hname, hflag]
    change ((readingOf values).take o value >>= fun r => pure (none, r)) = _
    rw [htake]
    rfl
  exact readAll_of_readOne hrole hone

theorem readAll_cacheFlag {rest : List String} {values : List (String × String)}
    (honce : (values.lookup "cache").isSome = false) :
    submitForm.grammar.readAll ("--cache" :: rest) none (readingOf values) =
      submitForm.grammar.readAll rest none (readingOf (values ++ [("cache", "")])) := by
  have htake : (readingOf values).take
      { name := "cache", purpose := "Reuse cached artifacts when available" } "" =
        .ok (readingOf (values ++ [("cache", "")])) := take_eq_ok (Or.inr honce) rfl
  have hone : submitForm.grammar.readOne "--cache" (readingOf values) =
      .ok (none, readingOf (values ++ [("cache", "")])) := by
    change ((readingOf values).take _ "" >>= fun r => pure (none, r)) = _
    rw [htake]
    rfl
  exact readAll_of_readOne rfl hone

theorem readAll_options {values : List (String × String)}
    (hoptions : ∀ o ∈ options, o.1 ≠ "" ∧ '=' ∉ o.1.toList) :
    submitForm.grammar.readAll (options.map fun o => longArg "option" (o.1 ++ "=" ++ o.2)) none
        (readingOf values) =
      .ok (readingOf (values ++ options.map fun o => ("option", o.1 ++ "=" ++ o.2))) := by
  induction options generalizing values with
  | nil => simp [Grammar.readAll]
  | cons o rest ih =>
    obtain ⟨⟨hname, hequals⟩, hrest⟩ := List.forall_mem_cons.1 hoptions
    rw [List.map_cons, readAll_longArg (by decide) rfl rfl rfl (Or.inl rfl), ih hrest,
      List.append_assoc]
    · rfl
    · exact objectionOf_of_eq_ok (readOption_eq hname hequals o.2)

theorem mapM_readOption (hoptions : ∀ o ∈ options, o.1 ≠ "" ∧ '=' ∉ o.1.toList) :
    (options.map fun o => o.1 ++ "=" ++ o.2).mapM readOption = .ok options := by
  induction options with
  | nil => rfl
  | cons o rest ih =>
    obtain ⟨⟨hname, hequals⟩, hrest⟩ := List.forall_mem_cons.1 hoptions
    rw [List.map_cons, List.mapM_cons, readOption_eq hname hequals, ih hrest]
    rfl

/-- The values of a submission as its arguments give them. -/
def givenValues (project task : String) (priority : Int32) (cache : Bool)
    (options : List (String × String)) : List (String × String) :=
  [("project", project), ("task", task), ("priority", toString priority.toInt)] ++
    (if cache then [("cache", "")] else []) ++
      options.map fun o => ("option", o.1 ++ "=" ++ o.2)

theorem asked_givenValues (hoptions : ∀ o ∈ options, o.1 ≠ "" ∧ '=' ∉ o.1.toList) :
    Asked ⟨givenValues project task priority cache options, [], none⟩ project task priority cache
      options where
  project := rfl
  task := rfl
  priority := readPriority_toString priority
  cache := by
    cases cache with
    | true => rfl
    | false =>
      have hnone : (options.map fun o => ("option", o.1 ++ "=" ++ o.2)).lookup "cache" = none := by
        rw [List.lookup_eq_none_iff]
        intro entry hentry
        obtain ⟨o, -, rfl⟩ := List.mem_map.1 hentry
        rfl
      exact congrArg Option.isSome hnone
  options := by
    have hvalues : (⟨givenValues project task priority cache options, [], none⟩ : Parsed).valuesOf
        "option" = options.map fun o => o.1 ++ "=" ++ o.2 := by
      cases cache <;> simp [Parsed.valuesOf, givenValues, List.filter_map, Function.comp_def]
    rw [hvalues, mapM_readOption hoptions]

theorem read_givenValues (hoptions : ∀ o ∈ options, o.1 ≠ "" ∧ '=' ∉ o.1.toList) :
    submitForm.grammar.read (submitArgs project task priority cache options).tail =
      .ok ⟨givenValues project task priority cache options, [], none⟩ := by
  have hfront : submitForm.grammar.readFront (submitArgs project task priority cache options).tail =
      .ok (readingOf (givenValues project task priority cache options)) := by
    have hpriority := objectionOf_of_eq_ok (readPriority_toString priority)
    change submitForm.grammar.readAll _ none (readingOf []) = _
    rw [submitArgs, List.tail_cons, readAll_longArg (by decide) rfl rfl rfl (Or.inr rfl) rfl,
      readAll_longArg (by decide) rfl rfl rfl (Or.inr rfl) rfl,
      readAll_longArg (by decide) rfl rfl rfl (Or.inr rfl) hpriority]
    cases cache with
    | true =>
      exact (readAll_cacheFlag rfl).trans (readAll_options hoptions)
    | false =>
      exact readAll_options hoptions
  rw [Grammar.read, hfront]
  rfl

/-- There are arguments for every submission, and the client makes it of them. -/
theorem ofArgs_submitArgs (environment : Option String)
    (hoptions : ∀ o ∈ options, o.1 ≠ "" ∧ '=' ∉ o.1.toList) :
    ∃ request, Invocation.ofArgs environment (submitArgs project task priority cache options) =
        .ok ⟨none, .submit request⟩ ∧
      Carries request project task priority cache options := by
  refine ⟨_, ?_, (asked_givenValues hoptions).carries⟩
  have hfront : (programGrammar environment).readFront
      (submitArgs project task priority cache options) =
        .ok ⟨⟨[], [], some ("submit", (submitArgs project task priority cache options).tail)⟩,
          none⟩ := rfl
  have hcommand : commandOf environment "submit"
      (submitArgs project task priority cache options).tail =
        .ok (.submit (requestOf ⟨givenValues project task priority cache options, [], none⟩)) :=
    congrArg (fun read => read >>= fun p => pure (Command.submit (requestOf p)))
      (read_givenValues hoptions)
  change ((programGrammar environment).readFront _ >>= _) = _
  rw [hfront]
  change (commandOf environment "submit" _ >>= _) = _
  rw [hcommand]
  rfl

end BuildPool.CommandLine
