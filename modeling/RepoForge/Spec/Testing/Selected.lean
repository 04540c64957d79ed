import RepoForge.Source.Testing.AffectedTests

/-!
# What is selected

Which files a selection has, path by path: one wide path selects every file, and otherwise each path
adds its own. What a complete manifest selects is owned by exactly one group.
-/
namespace RepoForge.AffectedTests
open PyStr (lit)

variable {manifest : Manifest} {changed : List PyStr} {path file : PyStr}

/-- The files of an escalated selection. -/
def allFiles (manifest : Manifest) : List PyStr :=
  manifest.groupFiles ++ manifest.safetyBundle ++ manifest.conftestConsumers

/-- The files that a path adds, none where it is not mapped. -/
def mappedFiles (manifest : Manifest) (path : PyStr) : Option (List PyStr) :=
  if manifest.coverageMap ≠ [] then (coverageRound manifest path).map (·.1)
  else
    let groups := matchingGroups manifest path
    if groups = [] then none
    else some (groups.flatMap fun group =>
      ((manifest.groupByName group.name).map (·.testFiles)).getD [])

/-- A path for which every file is selected. -/
def Wide (manifest : Manifest) (path : PyStr) : Prop :=
  path ≠ conftestPath ∧ (matchesAny path alwaysWideGlobs = true ∨ mappedFiles manifest path = none)

/-- What a path that is not wide adds. -/
def added (manifest : Manifest) (path : PyStr) : List PyStr :=
  if path = conftestPath then manifest.conftestConsumers
  else (mappedFiles manifest path).getD []

/-- A selection is escalated under the condition, and then has every file. -/
structure Selects (manifest : Manifest) (selection : Selection) (wide : Prop)
    (files : PyStr → Prop) : Prop where
  escalated : selection.escalatedToWide = true ↔ wide
  every : wide → ∀ file, file ∈ selection.selectedFiles ↔ file ∈ allFiles manifest
  each : ¬ wide → ∀ file, file ∈ selection.selectedFiles ↔ files file

theorem Selects.congr {selection : Selection} {wide wide' : Prop} {files files' : PyStr → Prop}
    (h : Selects manifest selection wide files) (same : wide ↔ wide')
    (alike : ∀ file, files file ↔ files' file) : Selects manifest selection wide' files' where
  escalated := h.escalated.trans same
  every holds := h.every (same.mpr holds)
  each narrow file := (h.each (fun holds => narrow (same.mp holds)) file).trans (alike file)

theorem selects_escalated {reasons : List Reason} {reason : EscalationReason} {wide : Prop}
    {files : PyStr → Prop} (holds : wide) :
    Selects manifest (escalatedSelection manifest reasons reason) wide files := by
  constructor
  case escalated => simp [escalatedSelection, Selection.escalatedToWide, holds]
  case every => exact fun _ file => PyStr.mem_sortedDistinct
  case each => exact fun narrow => absurd holds narrow

/-- What both ways of selecting come to, for the paths that remain. -/
def RemainingSelects (manifest : Manifest) (remaining : List PyStr) (conftestChanged : Bool)
    (selection : Selection) : Prop :=
  Selects manifest selection (∃ path ∈ remaining, mappedFiles manifest path = none)
    fun file => file ∈ manifest.safetyBundle ∨
      (∃ path ∈ remaining, file ∈ (mappedFiles manifest path).getD []) ∨
      conftestChanged = true ∧ file ∈ manifest.conftestConsumers

theorem selects_coverage {remaining : List PyStr} {conftestChanged : Bool}
    (map : manifest.coverageMap ≠ []) : RemainingSelects manifest remaining conftestChanged
      (selectViaCoverage manifest remaining conftestChanged) := by
  have mapped (path : PyStr) : mappedFiles manifest path =
      (coverageRound manifest path).map (·.1) := if_pos map
  unfold selectViaCoverage RemainingSelects
  dsimp only
  by_cases unmapped : (remaining.filter fun path => (coverageRound manifest path).isNone) = []
  · have covered : ∀ path ∈ remaining, coverageRound manifest path ≠ none := by
      intro path here missing
      have := (List.filter_eq_nil_iff.mp unmapped) path here
      simp [missing] at this
    rw [if_neg (not_not.mpr unmapped)]
    constructor
    case escalated =>
      simp only [Selection.escalatedToWide, Option.isSome_none, mapped, Option.map_eq_none_iff,
        Bool.false_eq_true, false_iff]
      exact fun ⟨path, here, missing⟩ => covered path here missing
    case every =>
      intro ⟨path, here, missing⟩
      rw [mapped, Option.map_eq_none_iff] at missing
      exact absurd missing (covered path here)
    case each =>
      intro _ file
      simp only [PyStr.mem_sortedDistinct, List.mem_append, List.mem_flatMap, List.mem_filterMap,
        or_assoc]
      apply or_congr_right
      apply or_congr
      · constructor
        · intro ⟨round, ⟨path, here, found⟩, inside⟩
          exact ⟨path, here, by simpa [mapped, found] using inside⟩
        · intro ⟨path, here, inside⟩
          obtain ⟨round, found⟩ := Option.ne_none_iff_exists'.mp (covered path here)
          exact ⟨round, ⟨path, here, found⟩, by simpa [mapped, found] using inside⟩
      · cases conftestChanged <;> simp
  · rw [if_pos unmapped]
    apply selects_escalated
    obtain ⟨path, found⟩ := List.exists_mem_of_ne_nil _ unmapped
    obtain ⟨here, missing⟩ := List.mem_filter.mp found
    exact ⟨path, here, by rw [mapped, Option.isNone_iff_eq_none.mp missing, Option.map_none]⟩

theorem selects_groups {remaining : List PyStr} {conftestChanged : Bool}
    (map : manifest.coverageMap = []) : RemainingSelects manifest remaining conftestChanged
      (selectViaGroups manifest remaining conftestChanged) := by
  have mapped (path : PyStr) : mappedFiles manifest path =
      if matchingGroups manifest path = [] then none
      else some ((matchingGroups manifest path).flatMap fun group =>
        ((manifest.groupByName group.name).map (·.testFiles)).getD []) := if_neg (not_not.mpr map)
  unfold selectViaGroups RemainingSelects
  dsimp only
  by_cases unmapped :
      (remaining.filter fun path => decide (matchingGroups manifest path = [])) = []
  · have owned : ∀ path ∈ remaining, matchingGroups manifest path ≠ [] := by
      intro path here missing
      have := (List.filter_eq_nil_iff.mp unmapped) path here
      simp [missing] at this
    rw [if_neg (not_not.mpr unmapped)]
    constructor
    case escalated =>
      simp only [Selection.escalatedToWide, Option.isSome_none, Bool.false_eq_true, false_iff]
      intro ⟨path, here, missing⟩
      simp [mapped, owned path here] at missing
    case every =>
      intro ⟨path, here, missing⟩
      simp [mapped, owned path here] at missing
    case each =>
      intro _ file
      simp only [PyStr.mem_sortedDistinct, List.mem_append, List.mem_flatMap, List.mem_filter,
        List.mem_map, decide_eq_true_eq, or_assoc]
      apply or_congr_right
      apply or_congr
      · constructor
        · intro ⟨name, ⟨_, path, here, group, found, same⟩, inside⟩
          refine ⟨path, here, ?_⟩
          rw [mapped, if_neg (owned path here), Option.getD_some, List.mem_flatMap]
          exact ⟨group, found, same ▸ inside⟩
        · intro ⟨path, here, inside⟩
          rw [mapped, if_neg (owned path here), Option.getD_some, List.mem_flatMap] at inside
          obtain ⟨group, found, inside⟩ := inside
          have listed : group ∈ manifest.groups := List.mem_of_mem_filter found
          exact ⟨group.name, ⟨⟨group, listed, rfl⟩, path, here, group, found, rfl⟩, inside⟩
      · cases conftestChanged <;> simp
  · rw [if_pos unmapped]
    apply selects_escalated
    obtain ⟨path, found⟩ := List.exists_mem_of_ne_nil _ unmapped
    obtain ⟨here, missing⟩ := List.mem_filter.mp found
    exact ⟨path, here, by rw [mapped, if_pos (of_decide_eq_true missing)]⟩

/-- Path by path. -/
theorem selects_affected (manifest : Manifest) (changed : List PyStr) :
    Selects manifest (selectAffectedTests manifest changed) (∃ path ∈ changed, Wide manifest path)
      fun file => file ∈ manifest.safetyBundle ∨ ∃ path ∈ changed, file ∈ added manifest path := by
  unfold selectAffectedTests
  by_cases empty : changed = []
  · rw [if_pos empty]
    constructor
    case escalated => simp [Selection.escalatedToWide, empty]
    case every => simp [empty]
    case each => simp [PyStr.mem_sortedDistinct, empty]
  rw [if_neg empty]
  dsimp only
  cases found : (changed.filter fun path => decide (path ≠ conftestPath)).find?
      fun path => matchesAny path alwaysWideGlobs with
  | some path =>
    have here := List.mem_filter.mp (List.mem_of_find?_eq_some found)
    have wide : matchesAny path alwaysWideGlobs = true := by simpa using List.find?_some found
    exact selects_escalated ⟨path, here.1, of_decide_eq_true here.2, .inl wide⟩
  | none =>
    have reviewed : ∀ path ∈ changed, path ≠ conftestPath →
        ¬ matchesAny path alwaysWideGlobs = true := by
      intro path here other
      exact List.find?_eq_none.mp found path (List.mem_filter.mpr ⟨here, decide_eq_true other⟩)
    have selects : RemainingSelects manifest
        (changed.filter fun path => decide (path ≠ conftestPath)) (decide (conftestPath ∈ changed))
        (if manifest.coverageMap ≠ [] then selectViaCoverage manifest
            (changed.filter fun path => decide (path ≠ conftestPath))
            (decide (conftestPath ∈ changed))
          else selectViaGroups manifest
            (changed.filter fun path => decide (path ≠ conftestPath))
            (decide (conftestPath ∈ changed))) := by
      by_cases map : manifest.coverageMap ≠ []
      · rw [if_pos map]
        exact selects_coverage map
      · rw [if_neg map]
        exact selects_groups (not_not.mp map)
    apply selects.congr
    · constructor
      · intro ⟨path, here, missing⟩
        have here := List.mem_filter.mp here
        exact ⟨path, here.1, of_decide_eq_true here.2, .inr missing⟩
      · intro ⟨path, here, other, wide⟩
        exact ⟨path, List.mem_filter.mpr ⟨here, decide_eq_true other⟩,
          wide.resolve_left (reviewed path here other)⟩
    · intro file
      apply or_congr_right
      constructor
      · rintro (⟨path, here, inside⟩ | ⟨conftest, inside⟩)
        · have here := List.mem_filter.mp here
          have other : path ≠ conftestPath := of_decide_eq_true here.2
          exact ⟨path, here.1, by rwa [added, if_neg other]⟩
        · exact ⟨conftestPath, of_decide_eq_true conftest, by rwa [added, if_pos rfl]⟩
      · intro ⟨path, here, inside⟩
        by_cases conftest : path = conftestPath
        · subst conftest
          rw [added, if_pos rfl] at inside
          exact .inr ⟨decide_eq_true here, inside⟩
        · rw [added, if_neg conftest] at inside
          exact .inl ⟨path, List.mem_filter.mpr ⟨here, decide_eq_true conftest⟩, inside⟩

end RepoForge.AffectedTests

/-!
## What git lists

The documented formats of `git diff --name-only` and `git status --porcelain`, with `core.quotePath`
at its default: an unusual path is quoted like a C string, in the status also a path with a space; a
rename is listed by its new end, in the status with both; an untracked directory is one line. A
command that fails has printed a first part of its listing.
-/
namespace RepoForge.GitListings
open PyStr (lit ofText)
open AffectedTests PyText

/-- A path that git knows. -/
abbrev Name := {name : PyStr // name ≠ []}

/-! ### Quoting -/

def printable (c : Char) : Bool := decide (32 ≤ c.toNat ∧ c.toNat < 127)

/-- A character that needs no quotes. -/
def usual (c : CodePoint) : Bool := c.within fun d => printable d && d != '"' && d != '\\'

def octal (byte : Nat) : Text :=
  ['\\', Nat.digitChar (byte / 64), Nat.digitChar (byte / 8 % 8), Nat.digitChar (byte % 8)]

/-- The escapes with a letter. -/
def letters : List (Nat × Char) :=
  [(7, 'a'), (8, 'b'), (9, 't'), (10, 'n'), (11, 'v'), (12, 'f'), (13, 'r'), (34, '"'), (92, '\\')]

/-- A byte that is no part of a character stands in a name as U+DC00 and so many. -/
def escape : CodePoint → Text
  | .scalar c =>
    match letters.find? fun letter => decide (letter.1 = c.toNat) with
    | some letter => ['\\', letter.2]
    | none => if printable c then [c] else (String.utf8EncodeChar c).flatMap fun b => octal b.toNat
  | .surrogate n => octal (n.val % 256)

def quoted (name : PyStr) : Text := '"' :: (name.flatMap escape ++ ['"'])

def nameOnlyField (name : PyStr) : Text :=
  if name.all usual then PyStr.replaced name else quoted name

/-- A name that the status lists as it is. -/
def Bare (name : PyStr) : Prop := ∀ c ∈ name, usual c = true ∧ c ≠ .scalar ' '

instance (name : PyStr) : Decidable (Bare name) := by
  unfold Bare
  infer_instance

def porcelainField (name : PyStr) : Text :=
  if Bare name then PyStr.replaced name else quoted name

/-! ### Listings -/

/-- A path that differs between the merge base and `HEAD`. -/
inductive Change where
  | one (name : Name)
  | renamed (old new : Name)

namespace Change

def line : Change → Text
  | one name => nameOnlyField name
  | renamed _ new => nameOnlyField new

/-- The paths that differ. -/
def ends : Change → List PyStr
  | one name => [name]
  | renamed old new => [old, new]

end Change

inductive Letter where
  | unmodified | modified | typeChanged | added | deleted | renamed | copied | unmerged
  deriving DecidableEq

def Letter.char : Letter → Char
  | unmodified => ' '
  | modified => 'M'
  | typeChanged => 'T'
  | added => 'A'
  | deleted => 'D'
  | renamed => 'R'
  | copied => 'C'
  | unmerged => 'U'

/-- A line of the status. -/
inductive Entry where
  | tracked (index worktree : Letter) (name : Name)
  | renamed (index worktree : Letter) (old new : Name)
  | untracked (name : Name)
  | untrackedDirectory (directory : Name) (files : List Name)

namespace Entry

def letters : Entry → Char × Char
  | tracked x y _ | renamed x y _ _ => (x.char, y.char)
  | untracked _ | untrackedDirectory _ _ => ('?', '?')

def text : Entry → Text
  | tracked _ _ name | untracked name => porcelainField name
  | renamed _ _ old new => porcelainField old ++ " -> ".toList ++ porcelainField new
  | untrackedDirectory directory _ => porcelainField (directory ++ lit "/")

def line (entry : Entry) : Text := entry.letters.1 :: entry.letters.2 :: ' ' :: entry.text

def ends : Entry → List PyStr
  | tracked _ _ name | untracked name => [name]
  | renamed _ _ old new => [old, new]
  | untrackedDirectory _ files => files.map (·.val)

end Entry

structure RepoState where
  committed : List Change
  worktree : List Entry

/-- What differs between the merge base and the working tree. -/
def RepoState.differing (state : RepoState) : List PyStr :=
  state.committed.flatMap Change.ends ++ state.worktree.flatMap Entry.ends

/-- What a command printed of its listing: the lines in whole, and the beginning of the next where
it failed in the middle of it. -/
structure Printed {E : Type} (line : E → Text) (entries : List E) where
  exitCode : Int
  whole : List E
  remnant : Text
  listed : whole = entries ∧ remnant = [] ∨
    exitCode ≠ 0 ∧ ∃ next rest, entries = whole ++ next :: rest ∧ remnant <+: line next

def Printed.stdout {E : Type} {line : E → Text} {entries : List E} (p : Printed line entries) :
    Text :=
  unlines (p.whole.map line) ++ p.remnant

/-! ### Fields -/

theorem usual_scalar {c : CodePoint} (h : usual c = true) :
    ∃ d, c = .scalar d ∧ printable d = true := by
  cases c with
  | scalar d => exact ⟨d, rfl, by simp [usual, CodePoint.within] at h; exact h.1.1⟩
  | surrogate n => cases h

theorem printable_space {c : Char} (h : printable c = true) (space : isSpace c = true) :
    c = ' ' := by
  have bounds : 32 ≤ c.toNat ∧ c.toNat < 127 := of_decide_eq_true h
  unfold isSpace at space
  rw [List.contains_iff_mem] at space
  have same : c.toNat = 32 := by
    simp only [List.mem_cons, List.not_mem_nil, or_false] at space
    omega
  exact Char.toNat_inj.mp same

theorem printable_not_break {c : Char} (h : printable c = true) : isLineBreak c = false := by
  by_contra broken
  have broken := Bool.eq_true_of_not_eq_false broken
  rw [printable_space h (isSpace_of_isLineBreak broken)] at broken
  cases broken

theorem octal_printable {byte : Nat} (small : byte < 256) :
    (octal byte).all printable = true := by
  have digit : ∀ n < 8, printable (Nat.digitChar n) = true := by decide
  have slash : printable '\\' = true := by decide
  simp only [octal, List.all_cons, List.all_nil, slash, digit (byte / 64) (by omega),
    digit (byte / 8 % 8) (by omega), digit (byte % 8) (by omega), Bool.and_true]

theorem escape_printable (c : CodePoint) : (escape c).all printable = true := by
  have known : ∀ letter ∈ letters, ['\\', letter.2].all printable = true := by decide
  cases c with
  | surrogate n => exact octal_printable (Nat.mod_lt _ (by decide))
  | scalar d =>
    unfold escape
    dsimp only
    split
    · rename_i letter found
      exact known letter (List.mem_of_find?_eq_some found)
    · split
      · rename_i plain
        simpa using plain
      · rw [List.all_flatMap, List.all_eq_true]
        exact fun byte _ => octal_printable byte.toNat_lt

theorem quoted_printable (name : PyStr) : (quoted name).all printable = true := by
  have quote : printable '"' = true := by decide
  simp [quoted, quote, List.all_flatMap, escape_printable]

theorem replaced_printable {name : PyStr} (plain : ∀ c ∈ name, usual c = true) :
    (PyStr.replaced name).all printable = true := by
  rw [List.all_eq_true]
  intro d there
  obtain ⟨c, inside, rfl⟩ := List.mem_map.mp there
  obtain ⟨d, rfl, printed⟩ := usual_scalar (plain c inside)
  exact printed

theorem nameOnlyField_printable (name : PyStr) : (nameOnlyField name).all printable = true := by
  unfold nameOnlyField
  split
  · rename_i plain
    exact replaced_printable (List.all_eq_true.mp plain)
  · exact quoted_printable name

theorem porcelainField_printable (name : PyStr) : (porcelainField name).all printable = true := by
  unfold porcelainField
  split
  · rename_i bare
    exact replaced_printable fun c inside => (bare c inside).1
  · exact quoted_printable name

theorem ofText_replaced_usual {name : PyStr} (plain : ∀ c ∈ name, usual c = true) :
    ofText (PyStr.replaced name) = name := by
  apply PyStr.ofText_replaced
  rw [PyStr.encodable, List.all_eq_true]
  intro c inside
  obtain ⟨d, rfl, -⟩ := usual_scalar (plain c inside)
  rfl

/-! ### Lines -/

theorem oneLine_of_printable {t : Text} (h : t.all printable = true) : OneLine t :=
  fun c inside => printable_not_break (List.all_eq_true.mp h c inside)

theorem Change.oneLine (change : Change) : OneLine change.line := by
  apply oneLine_of_printable
  cases change <;> exact nameOnlyField_printable _

theorem Entry.text_printable (entry : Entry) : entry.text.all printable = true := by
  cases entry with
  | renamed x y old new =>
    simp only [Entry.text, List.all_append, porcelainField_printable]
    decide
  | _ => exact porcelainField_printable _

theorem Entry.oneLine (entry : Entry) : OneLine entry.line := by
  apply oneLine_of_printable
  have letters : printable entry.letters.1 = true ∧ printable entry.letters.2 = true := by
    have letter : ∀ x : Letter, printable x.char = true := by
      intro x
      cases x <;> decide
    have mark : printable '?' = true := by decide
    cases entry with
    | tracked x y name | renamed x y old new => exact ⟨letter x, letter y⟩
    | untracked name | untrackedDirectory directory files => exact ⟨mark, mark⟩
  have space : printable ' ' = true := by decide
  simp only [Entry.line, List.all_cons, letters.1, letters.2, space, Entry.text_printable,
    Bool.and_true]

theorem Printed.lines {E : Type} {line : E → Text} {entries : List E} (p : Printed line entries)
    (each : ∀ e, OneLine (line e)) :
    splitlines p.stdout = p.whole.map line ++ if p.remnant = [] then [] else [p.remnant] := by
  apply splitlines_cut
  · intro text there
    obtain ⟨e, -, rfl⟩ := List.mem_map.mp there
    exact each e
  · rcases p.listed with ⟨-, none⟩ | ⟨-, next, rest, -, part⟩
    · rw [none]
      exact oneLine_nil
    · exact fun c inside => each next c (part.subset inside)

end RepoForge.GitListings
