import RepoForge.Source.Retrieval.StructuredDiff

/-!
# The diff of a change, as git writes it

One file, with the hunks of `difflib`: git compares by an algorithm of its own, and what it writes
around the hunks is in its documentation. A name that is not plain printable ASCII stands in quotes
(`core.quotePath`), a side with a null byte is binary.
-/
namespace RepoForge.StructuredDiff
open Difflib (SequenceMatcher HunkGroup groupedOpcodes)
open PyText (OneLine isLineBreak splitlines startsWith unlines linesFrom linesFrom_line
  ne_of_isLineBreak oneLine_tail)

/-- The abbreviated digest of a blob. -/
structure BlobId where
  hex : Text
  valid : hex.all lowerHex = true

section Names

def octal (n : Nat) : Text := [Nat.digitChar (n / 64), Nat.digitChar (n / 8 % 8), Nat.digitChar (n % 8)]

def quoteByte (b : UInt8) : Text :=
  if b = 34 ∨ b = 92 then ['\\', Char.ofNat b.toNat]
  else if 7 ≤ b ∧ b ≤ 13 then '\\' :: ("abtnvfr".toList.drop (b.toNat - 7)).take 1
  else if 32 ≤ b ∧ b < 127 then [Char.ofNat b.toNat]
  else '\\' :: octal b.toNat

def unquoted (c : Char) : Bool := 32 ≤ c.toNat && c.toNat < 127 && c ≠ '"' && c ≠ '\\'

def gitName (name : Text) : Text :=
  if name.all unquoted then name else '"' :: (PyStr.utf8 name).flatMap quoteByte ++ ['"']

end Names

/-- A change of the file at a path; `none` where there is no file. -/
structure Change where
  path : Text
  before : Option Text
  after : Option Text
  oldBlob : BlobId
  newBlob : BlobId

namespace Change

variable (m : SequenceMatcher Text) (c : Change)

def status : Status :=
  if c.before = none then .added else if c.after = none then .deleted else .modified

def binary : Bool :=
  (c.before.map PyStr.utf8).any (·.contains 0) || (c.after.map PyStr.utf8).any (·.contains 0)

def groups : List (HunkGroup Text) :=
  if c.binary then []
  else groupedOpcodes 3 (m.opcodes (splitlines (c.before.getD [])) (splitlines (c.after.getD [])))

def body : List Text := (c.groups m).flatMap HunkGroup.render

/-- The lines that the diff takes away. -/
def removed : List Text := (c.groups m).flatMap fun group => group.codes.flatMap (·.removed)

/-- The lines that the diff puts in. -/
def added : List Text := (c.groups m).flatMap fun group => group.codes.flatMap (·.added)

def opening : Text :=
  "diff --git ".toList ++ gitName ("a/".toList ++ c.path) ++ ' ' ::
    gitName ("b/".toList ++ c.path)

def modeLines : List Text :=
  if c.before = none then ["new file mode 100644".toList]
  else if c.after = none then ["deleted file mode 100644".toList]
  else []

def indexLine : Text :=
  "index ".toList ++ c.oldBlob.hex ++ "..".toList ++ c.newBlob.hex ++
    if c.status = .modified then " 100644".toList else []

def oldName : Text :=
  if c.before = none then "/dev/null".toList else gitName ("a/".toList ++ c.path)

def newName : Text :=
  if c.after = none then "/dev/null".toList else gitName ("b/".toList ++ c.path)

/-- Git ends a name with a blank in it by a tab. -/
def tab (side : Option Text) : Text := if side ≠ none ∧ ' ' ∈ c.path then ['\t'] else []

def oldLine : Text := "--- ".toList ++ c.oldName ++ c.tab c.before
def newLine : Text := "+++ ".toList ++ c.newName ++ c.tab c.after

/-- The lines between the index line and the hunks. -/
def fileLines : List Text :=
  if c.binary then ["Binary files ".toList ++ c.oldName ++ " and ".toList ++ c.newName ++
    " differ".toList]
  else if c.groups m = [] then [] else [c.oldLine, c.newLine]

def gitLines : List Text :=
  c.opening :: (c.modeLines ++ c.indexLine :: c.fileLines m ++ c.body m)

def gitDiff : Text := if c.before = c.after then [] else unlines (c.gitLines m)

end Change

section OneLine

theorem oneLine_append {s t : Text} (first : OneLine s) (second : OneLine t) : OneLine (s ++ t) := by
  intro c here
  rcases List.mem_append.mp here with left | right
  · exact first c left
  · exact second c right

theorem oneLine_cons {c : Char} {t : Text} (first : isLineBreak c = false) (rest : OneLine t) :
    OneLine (c :: t) := by
  intro d here
  rcases List.mem_cons.mp here with rfl | later
  · exact first
  · exact rest d later

theorem isLineBreak_range {c : Char} {low high : Nat} (printable : 31 < low ∧ high < 127)
    (inside : low ≤ c.toNat ∧ c.toNat ≤ high) : isLineBreak c = false := by
  unfold isLineBreak
  generalize c.toNat = n at *
  simp only [List.contains_eq_mem, List.mem_cons, List.not_mem_nil, or_false,
    decide_eq_false_iff_not]
  omega

theorem quoteByte_oneLine (b : UInt8) : OneLine (quoteByte b) := by
  have each : ∀ n < 256, (quoteByte (UInt8.ofNat n)).all (fun c => !isLineBreak c) = true := by
    decide +kernel
  have here := each b.toNat b.toNat_lt
  rw [UInt8.ofNat_toNat] at here
  intro c inside
  simpa using List.all_eq_true.mp here c inside

theorem gitName_oneLine (name : Text) : OneLine (gitName name) := by
  unfold gitName
  split
  · rename_i plain
    intro c here
    have printed := List.all_eq_true.mp plain c here
    simp only [unquoted, Bool.and_eq_true, decide_eq_true_eq] at printed
    exact @isLineBreak_range c 32 126 (by decide) ⟨printed.1.1.1, by omega⟩
  · refine oneLine_cons (by decide) (oneLine_append ?_ (oneLine_cons (by decide) PyText.oneLine_nil))
    intro c here
    obtain ⟨b, -, inside⟩ := List.mem_flatMap.mp here
    exact quoteByte_oneLine b c inside

theorem digit_oneLine {c : Char} (digit : c.isDigit = true) : isLineBreak c = false := by
  simp only [Char.isDigit, Bool.and_eq_true, decide_eq_true_eq] at digit
  exact @isLineBreak_range c 48 57 (by decide) digit

theorem toDigits_oneLine (n : Nat) : OneLine (Nat.toDigits 10 n) :=
  fun _ here => digit_oneLine (Nat.isDigit_of_mem_toDigits (by decide) (by decide) here)

theorem BlobId.oneLine (blob : BlobId) : OneLine blob.hex := by
  intro c here
  have digit := List.all_eq_true.mp blob.valid c here
  simp only [lowerHex, Bool.or_eq_true, Bool.and_eq_true, decide_eq_true_eq] at digit
  rcases digit with digit | letter
  · exact digit_oneLine digit
  · exact @isLineBreak_range c 97 102 (by decide) letter

theorem formatRange_oneLine (start length : Nat) : OneLine (Difflib.formatRange start length) := by
  unfold Difflib.formatRange
  split
  · exact toDigits_oneLine _
  · exact oneLine_append (toDigits_oneLine _) (oneLine_cons (by decide) (toDigits_oneLine _))

theorem header_oneLine (group : HunkGroup Text) : OneLine group.header :=
  oneLine_append (oneLine_append (oneLine_append (oneLine_append (by decide)
    (formatRange_oneLine _ _)) (by decide)) (formatRange_oneLine _ _)) (by decide)

end OneLine

namespace Change

variable {m : SequenceMatcher Text} {c : Change}

section Lines

theorem groups_within {group : HunkGroup Text} (here : group ∈ c.groups m) :
    Difflib.oldLines group.codes ⊆ splitlines (c.before.getD []) ∧
      Difflib.newLines group.codes ⊆ splitlines (c.after.getD []) := by
  unfold groups at here
  split at here
  · cases here
  · have inside := Difflib.groupedOpcodes_within here
    rwa [Difflib.Within, m.old, m.new] at inside

/-- A line of the hunks is a header, or a line of a side after its marker. -/
theorem body_cases {line : Text} (here : line ∈ c.body m) :
    (∃ group : HunkGroup Text, line = group.header) ∨
      ∃ marker l, line = marker :: l ∧ OneLine l ∧
        (marker = ' ' ∨ marker = '-' ∧ l ∈ c.removed m ∨ marker = '+' ∧ l ∈ c.added m) := by
  obtain ⟨group, listed, shown⟩ := List.mem_flatMap.mp here
  rcases List.mem_cons.mp shown with rfl | later
  · exact .inl ⟨group, rfl⟩
  obtain ⟨code, coded, rendered⟩ := List.mem_flatMap.mp later
  obtain ⟨old, new⟩ := groups_within listed
  have oldLine : ∀ l ∈ code.old, OneLine l := fun l inside =>
    PyText.splitlines_oneLine _ l (old (List.mem_flatMap.mpr ⟨code, coded, inside⟩))
  have newLine : ∀ l ∈ code.new, OneLine l := fun l inside =>
    PyText.splitlines_oneLine _ l (new (List.mem_flatMap.mpr ⟨code, coded, inside⟩))
  right
  rcases code.mem_render rendered with ⟨l, inside, rfl⟩ | ⟨l, inside, rfl⟩ | ⟨l, inside, rfl⟩
  · exact ⟨' ', l, rfl, oldLine l inside, .inl rfl⟩
  · exact ⟨'-', l, rfl, oldLine l (code.removed_subset inside), .inr (.inl ⟨rfl,
      List.mem_flatMap.mpr ⟨group, listed, List.mem_flatMap.mpr ⟨code, coded, inside⟩⟩⟩)⟩
  · exact ⟨'+', l, rfl, newLine l (code.added_subset inside), .inr (.inr ⟨rfl,
      List.mem_flatMap.mpr ⟨group, listed, List.mem_flatMap.mpr ⟨code, coded, inside⟩⟩⟩)⟩

theorem body_oneLine {line : Text} (here : line ∈ c.body m) : OneLine line := by
  rcases body_cases here with ⟨group, rfl⟩ | ⟨marker, l, rfl, whole, kind⟩
  · exact header_oneLine group
  · refine oneLine_cons ?_ whole
    rcases kind with rfl | ⟨rfl, -⟩ | ⟨rfl, -⟩ <;> decide

theorem names_oneLine : OneLine c.oldName ∧ OneLine c.newName := by
  unfold oldName newName
  constructor
  · split
    · decide
    · exact gitName_oneLine _
  · split
    · decide
    · exact gitName_oneLine _

theorem tab_oneLine (side : Option Text) : OneLine (c.tab side) := by
  unfold tab
  split <;> decide

theorem fileLines_oneLine {line : Text} (here : line ∈ c.fileLines m) : OneLine line := by
  obtain ⟨old, new⟩ := @names_oneLine c
  unfold fileLines at here
  split_ifs at here
  · rw [List.mem_singleton.mp here]
    exact oneLine_append (oneLine_append (oneLine_append (oneLine_append (by decide) old)
      (by decide)) new) (by decide)
  · cases here
  · rcases List.mem_pair.mp here with rfl | rfl
    · exact oneLine_append (oneLine_append (by decide) old) (tab_oneLine _)
    · exact oneLine_append (oneLine_append (by decide) new) (tab_oneLine _)

theorem gitLines_oneLine {line : Text} (here : line ∈ c.gitLines m) : OneLine line := by
  simp only [gitLines, List.mem_cons, List.mem_append] at here
  rcases here with rfl | (mode | rfl | file) | hunk
  · exact oneLine_append (oneLine_append (by decide) (gitName_oneLine _))
      (oneLine_cons (by decide) (gitName_oneLine _))
  · unfold modeLines at mode
    split_ifs at mode
    · rw [List.mem_singleton.mp mode]
      decide
    · rw [List.mem_singleton.mp mode]
      decide
    · cases mode
  · refine oneLine_append (oneLine_append (oneLine_append (oneLine_append (by decide)
      c.oldBlob.oneLine) (by decide)) c.newBlob.oneLine) ?_
    split <;> decide
  · exact fileLines_oneLine file
  · exact body_oneLine hunk

end Lines

end Change

end RepoForge.StructuredDiff
