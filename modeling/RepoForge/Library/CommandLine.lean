import RepoForge.Library.PyStr

/-!
# Command lines with long and short options

Options stand among the words in any order: by their long names, abbreviated to what one option
alone begins with, or negated by `no-`; by their letters, several in one token; with values behind
`=`, in the token of the letter, or in the next token. A use of an option keeps its token.
-/
namespace RepoForge.CommandLine

open PyStr (lit)

inductive Arity where
  | never
  | always
  /-- behind `=`, or none -/
  | attached
  deriving DecidableEq

structure Opt (ι : Type) where
  option : ι
  name : PyStr
  letter : Option Char
  arity : Arity
  negatable : Bool

structure Use (ι : Type) where
  option : ι
  on : Bool
  value : Option PyStr
  token : PyStr
  deriving DecidableEq

structure Line (ι : Type) where
  uses : List (Use ι)
  words : List PyStr

/-- What one token is, alone. -/
inductive Reading (ι : Type) where
  | word
  /-- All that follows is words. -/
  | stop
  | refused
  | options (uses : List (Use ι))
  /-- The last option takes the next token as its value. -/
  | wants (uses : List (Use ι)) (option : ι)

variable {ι : Type}

/-- The ways to write the long name, with what it says then. -/
def Opt.spellings (opt : Opt ι) : List (PyStr × Opt ι × Bool) :=
  (opt.name, opt, true) ::
    if opt.negatable then [(lit "no-" ++ opt.name, opt, false)] else []

/-- The option that a long name, or the beginning of one, stands for. -/
def resolve [DecidableEq ι] (table : List (Opt ι)) (typed : PyStr) : Option (Opt ι × Bool) :=
  let spellings := table.flatMap Opt.spellings
  match spellings.find? fun spelling => spelling.1 = typed with
  | some spelling => some spelling.2
  | none =>
    match spellings.filter fun spelling => typed.isPrefixOf spelling.1 with
    | [] => none
    | spelling :: others =>
      if others.all fun other => decide (other.2.1.option = spelling.2.1.option) &&
          other.2.2 == spelling.2.2 then
        some spelling.2
      else none

def readLong [DecidableEq ι] (table : List (Opt ι)) (token typed : PyStr) : Reading ι :=
  let (name, found, after) := PyStr.partition (lit "=") typed
  let value := if found then some after else none
  match resolve table name with
  | none => .refused
  | some (opt, on) =>
    match on, opt.arity, value with
    | false, _, none => .options [⟨opt.option, false, none, token⟩]
    | false, _, some _ => .refused
    | true, .never, none => .options [⟨opt.option, true, none, token⟩]
    | true, .never, some _ => .refused
    | true, .attached, value => .options [⟨opt.option, true, value, token⟩]
    | true, .always, some value => .options [⟨opt.option, true, some value, token⟩]
    | true, .always, none => .wants [] opt.option

def Reading.after (use : Use ι) : Reading ι → Reading ι
  | .options uses => .options (use :: uses)
  | .wants uses option => .wants (use :: uses) option
  | reading => reading

def byLetter (table : List (Opt ι)) (letter : CodePoint) : Option (Opt ι) :=
  table.find? fun opt => opt.letter.map CodePoint.scalar = some letter

def readLetters (table : List (Opt ι)) (token : PyStr) : PyStr → Reading ι
  | [] => .options []
  | letter :: rest =>
    match byLetter table letter with
    | none => .refused
    | some opt =>
      match opt.arity with
      | .never => (readLetters table token rest).after ⟨opt.option, true, none, token⟩
      | .attached =>
        .options [⟨opt.option, true, if rest = [] then none else some rest, token⟩]
      | .always =>
        if rest = [] then .wants [] opt.option
        else .options [⟨opt.option, true, some rest, token⟩]

/-- Letters that are taken for a long name with one dash too few, unless the first is an option with
a value. -/
def mistyped (table : List (Opt ι)) (letters : PyStr) : Bool :=
  decide (3 ≤ letters.length) &&
    (letters.head?.bind (byLetter table)).any (fun opt => opt.arity == .never) &&
    ((lit "no-").isPrefixOf letters || table.any fun opt => letters.isPrefixOf opt.name)

def read [DecidableEq ι] (table : List (Opt ι)) (token : PyStr) : Reading ι :=
  match token with
  | .scalar '-' :: .scalar '-' :: typed =>
    if typed = [] ∨ typed = lit "end-of-options" then .stop else readLong table token typed
  | .scalar '-' :: letter :: rest =>
    if mistyped table (letter :: rest) then .refused else readLetters table token (letter :: rest)
  | _ => .word

def parse [DecidableEq ι] (table : List (Opt ι)) : List PyStr → Option (Line ι)
  | [] => some ⟨[], []⟩
  | token :: rest =>
    match read table token with
    | .word => (parse table rest).map fun line => { line with words := token :: line.words }
    | .stop => some ⟨[], rest⟩
    | .refused => none
    | .options uses => (parse table rest).map fun line => { line with uses := uses ++ line.uses }
    | .wants uses option =>
      match rest with
      | [] => none
      | value :: rest => (parse table rest).map fun line =>
          { line with uses := uses ++ ⟨option, true, some value, token⟩ :: line.uses }

/-- The use that leaves one of the switches on: the last one, where it does not turn it off. -/
def Line.turnedOn [DecidableEq ι] (line : Line ι) (switches : List ι) : Option (Use ι) :=
  (line.uses.filter fun use => use.option ∈ switches).getLast?.filter Use.on

/-- The uses of an option since it was last turned off. -/
def Line.collected [DecidableEq ι] (line : Line ι) (option : ι) : List (Use ι) :=
  (line.uses.filter fun use => use.option = option).rtakeWhile Use.on

/-- The long name is not abbreviated, the letter has no others beside it. -/
def Use.inFull [DecidableEq ι] (table : List (Opt ι)) (use : Use ι) : Bool :=
  table.any fun opt => decide (opt.option = use.option) &&
    (decide (use.token = lit "--" ++ opt.name) ||
      use.value.any (fun value => decide (use.token = lit "--" ++ opt.name ++ lit "=" ++ value)) ||
      opt.letter.any fun letter => decide (use.token = [.scalar '-', .scalar letter]))

/-! ### What is accepted is as the table has it -/

/-- An option of the table is used in a way that it can be. -/
def Use.Allowed (table : List (Opt ι)) (use : Use ι) : Prop :=
  ∃ opt ∈ table, opt.option = use.option ∧ (use.on = false → opt.negatable = true) ∧
    (use.value ≠ none → opt.arity ≠ .never)

/-- The options of a reading are written in the token, and allowed. -/
def Reading.Sound (table : List (Opt ι)) (token : PyStr) : Reading ι → Prop
  | .options uses => ∀ use ∈ uses, use.token = token ∧ use.Allowed table
  | .wants uses option =>
    (∀ use ∈ uses, use.token = token ∧ use.Allowed table) ∧
      ∀ value, Use.Allowed table ⟨option, true, some value, token⟩
  | _ => True

theorem spelling_mem {table : List (Opt ι)} {spelling : PyStr × Opt ι × Bool}
    (here : spelling ∈ table.flatMap Opt.spellings) :
    spelling.2.1 ∈ table ∧ (spelling.2.2 = false → spelling.2.1.negatable = true) := by
  obtain ⟨opt, member, here⟩ := List.mem_flatMap.mp here
  rw [Opt.spellings] at here
  split at here
  case isTrue negatable =>
    rcases List.mem_cons.mp here with rfl | here
    · exact ⟨member, fun off => nomatch off⟩
    · rw [List.mem_singleton.mp here]
      exact ⟨member, fun _ => negatable⟩
  case isFalse =>
    rw [List.mem_singleton.mp here]
    exact ⟨member, fun off => nomatch off⟩

theorem resolve_mem [DecidableEq ι] {table : List (Opt ι)} {typed : PyStr} {meaning : Opt ι × Bool}
    (h : resolve table typed = some meaning) :
    meaning.1 ∈ table ∧ (meaning.2 = false → meaning.1.negatable = true) := by
  simp only [resolve] at h
  split at h
  case h_1 spelling found =>
    rw [← Option.some.inj h]
    exact spelling_mem (List.mem_of_find?_eq_some found)
  case h_2 =>
    split at h
    case h_1 => cases h
    case h_2 spelling others started =>
      split at h
      case isFalse => cases h
      case isTrue =>
        have here : spelling ∈ (table.flatMap Opt.spellings).filter fun spelling =>
            typed.isPrefixOf spelling.1 := by
          rw [started]
          exact List.mem_cons_self
        rw [← Option.some.inj h]
        exact spelling_mem (List.mem_filter.mp here).1

section Reading

variable {table : List (Opt ι)} {opt : Opt ι} {token : PyStr}

theorem allowed_switch {on : Bool} (member : opt ∈ table)
    (negatable : on = false → opt.negatable = true) :
    Use.Allowed table ⟨opt.option, on, none, token⟩ :=
  ⟨opt, member, rfl, negatable, fun valued => (valued rfl).elim⟩

theorem allowed_valued {value : Option PyStr} (member : opt ∈ table) (arity : opt.arity ≠ .never) :
    Use.Allowed table ⟨opt.option, true, value, token⟩ := by
  refine ⟨opt, member, rfl, ?_, fun _ => arity⟩
  intro off
  cases off

theorem options_sound {use : Use ι} (written : use.token = token) (allowed : use.Allowed table) :
    (Reading.options [use]).Sound table token := by
  intro other here
  rw [List.mem_singleton.mp here]
  exact ⟨written, allowed⟩

theorem wants_sound (member : opt ∈ table) (arity : opt.arity ≠ .never) :
    (Reading.wants [] opt.option).Sound table token :=
  ⟨fun _ here => absurd here List.not_mem_nil, fun _ => allowed_valued member arity⟩

theorem Reading.Sound.after {reading : Reading ι} {use : Use ι} (written : use.token = token)
    (allowed : use.Allowed table) (sound : reading.Sound table token) :
    (reading.after use).Sound table token := by
  have cons : ∀ uses : List (Use ι), (∀ use ∈ uses, use.token = token ∧ use.Allowed table) →
      ∀ other ∈ use :: uses, other.token = token ∧ other.Allowed table := by
    intro uses all other here
    rcases List.mem_cons.mp here with rfl | here
    · exact ⟨written, allowed⟩
    · exact all other here
  cases reading with
  | options uses => exact cons uses sound
  | wants uses option => exact ⟨cons uses sound.1, sound.2⟩
  | word => trivial
  | stop => trivial
  | refused => trivial

theorem readLong_sound [DecidableEq ι] (table : List (Opt ι)) (token typed : PyStr) :
    (readLong table token typed).Sound table token := by
  simp only [readLong]
  cases known : resolve table (PyStr.partition (lit "=") typed).1 with
  | none => trivial
  | some meaning =>
    obtain ⟨opt, on⟩ := meaning
    obtain ⟨member, negatable⟩ := resolve_mem known
    have takes : ∀ arity, opt.arity = arity → arity ≠ .never → opt.arity ≠ .never := by
      intro arity same differs
      rwa [same]
    dsimp only
    split
    case h_1 => exact options_sound rfl (allowed_switch member negatable)
    case h_2 => trivial
    case h_3 => exact options_sound rfl (allowed_switch member negatable)
    case h_4 => trivial
    case h_5 attached _ => exact options_sound rfl (allowed_valued member (takes _ ‹_› (by decide)))
    case h_6 always _ => exact options_sound rfl (allowed_valued member (takes _ ‹_› (by decide)))
    case h_7 always _ => exact wants_sound member (takes _ ‹_› (by decide))

theorem readLetters_sound (table : List (Opt ι)) (token letters : PyStr) :
    (readLetters table token letters).Sound table token := by
  induction letters with
  | nil => exact fun _ here => absurd here List.not_mem_nil
  | cons letter rest ih =>
    rw [readLetters]
    cases known : byLetter table letter with
    | none => trivial
    | some opt =>
      have member : opt ∈ table := List.mem_of_find?_eq_some known
      dsimp only
      cases arity : opt.arity with
      | never => exact ih.after rfl (allowed_switch member fun off => nomatch off)
      | attached => exact options_sound rfl (allowed_valued member (by rw [arity]; decide))
      | always =>
        dsimp only
        split
        · exact wants_sound member (by rw [arity]; decide)
        · exact options_sound rfl (allowed_valued member (by rw [arity]; decide))

theorem read_sound [DecidableEq ι] (table : List (Opt ι)) (token : PyStr) :
    (read table token).Sound table token := by
  unfold read
  split
  · split
    · trivial
    · exact readLong_sound table _ _
  · split
    · trivial
    · exact readLetters_sound table _ _
  · trivial

end Reading

/-- Every use of an option is written in an argument, as the table allows. -/
theorem parse_sound [DecidableEq ι] {table : List (Opt ι)} {args : List PyStr} {line : Line ι}
    (h : parse table args = some line) :
    ∀ use ∈ line.uses, use.token ∈ args ∧ use.Allowed table := by
  induction args using parse.induct table generalizing line with
  | case1 =>
    cases h
    exact fun _ here => absurd here List.not_mem_nil
  | case2 token rest reading ih =>
    simp only [parse, reading, Option.map_eq_some_iff] at h
    obtain ⟨others, run, rfl⟩ := h
    intro use here
    exact (ih run use here).imp_left (List.mem_cons_of_mem _)
  | case3 token rest reading =>
    simp only [parse, reading, Option.some.injEq] at h
    subst h
    exact fun _ here => absurd here List.not_mem_nil
  | case4 token rest reading =>
    simp only [parse, reading] at h
    cases h
  | case5 token rest uses reading ih =>
    have sound := read_sound table token
    rw [reading] at sound
    simp only [parse, reading, Option.map_eq_some_iff] at h
    obtain ⟨others, run, rfl⟩ := h
    intro use here
    rcases List.mem_append.mp here with here | here
    · obtain ⟨written, allowed⟩ := sound use here
      exact ⟨written ▸ List.mem_cons_self, allowed⟩
    · exact (ih run use here).imp_left (List.mem_cons_of_mem _)
  | case6 token uses option reading =>
    simp only [parse, reading] at h
    cases h
  | case7 token uses option reading value rest ih =>
    have sound := read_sound table token
    rw [reading] at sound
    simp only [parse, reading, Option.map_eq_some_iff] at h
    obtain ⟨others, run, rfl⟩ := h
    intro use here
    rcases List.mem_append.mp here with here | here
    · obtain ⟨written, allowed⟩ := sound.1 use here
      exact ⟨written ▸ List.mem_cons_self, allowed⟩
    · rcases List.mem_cons.mp here with rfl | here
      · exact ⟨List.mem_cons_self, sound.2 value⟩
      · exact (ih run use here).imp_left fun there =>
          List.mem_cons_of_mem _ (List.mem_cons_of_mem _ there)

section Line

variable [DecidableEq ι] {line : Line ι} {use : Use ι}

theorem turnedOn_mem {switches : List ι} (h : line.turnedOn switches = some use) :
    use ∈ line.uses ∧ use.option ∈ switches := by
  have last := (Option.filter_eq_some_iff.mp h).1
  have here := List.mem_filter.mp (List.mem_of_getLast? last)
  exact ⟨here.1, of_decide_eq_true here.2⟩

theorem collected_mem {option : ι} (here : use ∈ line.collected option) :
    use ∈ line.uses ∧ use.option = option := by
  have here := List.mem_filter.mp ((List.rtakeWhile_suffix _ _).subset here)
  exact ⟨here.1, of_decide_eq_true here.2⟩

/-- An option without a value that is written in full is its name or its letter. -/
theorem token_of_inFull {table : List (Opt ι)} (full : use.inFull table = true)
    (allowed : use.Allowed table) (plain : ∀ opt ∈ table, opt.option = use.option → opt.arity = .never) :
    ∃ opt ∈ table, opt.option = use.option ∧ (use.token = lit "--" ++ opt.name ∨
      ∃ letter, opt.letter = some letter ∧ use.token = [.scalar '-', .scalar letter]) := by
  obtain ⟨known, there, same, -, valued⟩ := allowed
  obtain ⟨opt, member, full⟩ := List.any_eq_true.mp full
  simp only [Bool.and_eq_true, Bool.or_eq_true, decide_eq_true_eq] at full
  obtain ⟨option, (named | behind) | letter⟩ := full
  · exact ⟨opt, member, option, .inl named⟩
  · obtain ⟨value, given, -⟩ := (Option.any_eq_true _ _).mp behind
    exact absurd (plain known there same) (valued (by rw [given]; exact Option.some_ne_none _))
  · obtain ⟨letter, has, written⟩ := (Option.any_eq_true _ _).mp letter
    exact ⟨opt, member, option, .inr ⟨letter, has, of_decide_eq_true written⟩⟩

end Line

end RepoForge.CommandLine
