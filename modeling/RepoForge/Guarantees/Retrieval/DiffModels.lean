import RepoForge.Spec.Retrieval.GitDiff

/-!
# The two diff models

`parse_unified_diff` reads a file's status and path from every line of its chunk, those of the hunks
too. All lines but the mode line only ever replace the one or the other (`headerLine_marked`), so
the last line that does decides. Both functions read the hunks alike, since the lines before the
first hunk header are none of a hunk's.
-/
namespace RepoForge.StructuredDiff
open Difflib (SequenceMatcher HunkGroup Opcode)
open PyText (OneLine splitlines startsWith unlines)

section Chunks

variable {start line rest current : Text}

theorem startsWith_line (whole : '\n' ∉ start) (other : startsWith line start = false) :
    startsWith (line ++ '\n' :: rest) start = false := by
  rw [Bool.eq_false_iff]
  intro begins
  have first : start <+: line ++ '\n' :: rest := List.isPrefixOf_iff_prefix.mp begins
  have line_first : line ++ ['\n'] <+: line ++ '\n' :: rest := ⟨rest, by simp⟩
  rcases List.prefix_or_prefix_of_prefix first line_first with inside | beyond
  · rcases List.prefix_concat_iff.mp inside with rfl | inside
    · exact whole (by simp)
    · rw [startsWith, List.isPrefixOf_iff_prefix.mpr inside] at other
      cases other
  · exact whole (beyond.subset (by simp))

/-- To the end of a line. -/
theorem chunksFrom_end (whole : '\n' ∉ line) : chunksFrom current false (line ++ '\n' :: rest) =
    chunksFrom ('\n' :: line.reverse ++ current) true rest := by
  induction line generalizing current with
  | nil => rfl
  | cons c line ih =>
    have other : c ≠ '\n' := fun same => whole (same ▸ List.mem_cons_self)
    have later : '\n' ∉ line := fun inside => whole (List.mem_cons_of_mem c inside)
    rw [List.cons_append, chunksFrom, Bool.false_and, if_neg Bool.false_ne_true,
      decide_eq_false other, ih later]
    simp

theorem chunksFrom_line (whole : '\n' ∉ line)
    (other : startsWith line "diff --git ".toList = false) :
    chunksFrom current true (line ++ '\n' :: rest) =
      chunksFrom ('\n' :: line.reverse ++ current) true rest := by
  have begins := @startsWith_line "diff --git ".toList line rest (by decide) other
  cases line with
  | nil =>
    rw [List.nil_append] at begins ⊢
    rw [chunksFrom, begins, Bool.and_false, if_neg Bool.false_ne_true]
    rfl
  | cons c line =>
    have differs : c ≠ '\n' := fun same => whole (same ▸ List.mem_cons_self)
    have later : '\n' ∉ line := fun inside => whole (List.mem_cons_of_mem c inside)
    rw [List.cons_append] at begins ⊢
    rw [chunksFrom, begins, Bool.and_false, if_neg Bool.false_ne_true, decide_eq_false differs,
      chunksFrom_end later]
    simp

theorem chunksFrom_lines {lines : List Text} (whole : ∀ line ∈ lines, '\n' ∉ line)
    (other : ∀ line ∈ lines, startsWith line "diff --git ".toList = false) :
    chunksFrom current true (unlines lines) = [current.reverse ++ unlines lines] := by
  induction lines generalizing current with
  | nil => simp [unlines, chunksFrom]
  | cons line lines ih =>
    have later := @ih ('\n' :: line.reverse ++ current)
      (fun l inside => whole l (List.mem_cons_of_mem line inside))
      (fun l inside => other l (List.mem_cons_of_mem line inside))
    unfold unlines at later ⊢
    rw [List.flatMap_cons, List.append_assoc, List.singleton_append,
      chunksFrom_line (whole line List.mem_cons_self) (other line List.mem_cons_self), later]
    simp

/-- The diff of one file is one chunk, after an empty one. -/
theorem chunks_unlines {first : Text} {lines : List Text}
    (whole : ∀ line ∈ first :: lines, '\n' ∉ line)
    (begins : startsWith first "diff --git ".toList = true)
    (other : ∀ line ∈ lines, startsWith line "diff --git ".toList = false) :
    chunks (unlines (first :: lines)) = [[], unlines (first :: lines)] := by
  obtain ⟨tail, rfl⟩ := List.isPrefixOf_iff_prefix.mp begins
  have inside : '\n' ∉ "iff --git ".toList ++ tail := fun here =>
    whole _ List.mem_cons_self (List.mem_cons_of_mem 'd' here)
  have later := @chunksFrom_lines ('\n' :: ("iff --git ".toList ++ tail).reverse ++ ['d']) lines
    (fun l here => whole l (List.mem_cons_of_mem _ here)) other
  have front : startsWith ("diff --git ".toList ++ tail ++ '\n' :: unlines lines)
      "diff --git ".toList = true :=
    List.isPrefixOf_iff_prefix.mpr ⟨tail ++ '\n' :: unlines lines, (List.append_assoc _ _ _).symm⟩
  have text : unlines (("diff --git ".toList ++ tail) :: lines) =
      'd' :: ("iff --git ".toList ++ tail ++ '\n' :: unlines lines) := by
    simp [unlines]
  rw [text, chunks, chunksFrom, if_pos (by exact front)]
  rw [decide_eq_false (by decide), chunksFrom_end inside, later]
  simp

theorem parseUnifiedDiff_unlines {first : Text} {lines : List Text}
    (whole : ∀ line ∈ first :: lines, OneLine line)
    (begins : startsWith first "diff --git ".toList = true)
    (other : ∀ line ∈ lines, startsWith line "diff --git ".toList = false) :
    parseUnifiedDiff (unlines (first :: lines)) =
      match shlexSplit first with
      | .error reason => .error ("Invalid unified diff file header: " ++ reason)
      | .ok [_, _, _, name] => do
        let (status, path) ← lines.foldlM headerLine (.modified, cleanPath name)
        return [(lines.foldl parseLine .start).file path status]
      | .ok _ => .error "Invalid unified diff file header" := by
  have split : splitlines (unlines (first :: lines)) = first :: lines := by
    simpa using @PyText.splitlines_cut (first :: lines) [] whole PyText.oneLine_nil
  have newline : ∀ line ∈ first :: lines, '\n' ∉ line := fun line here broken =>
    absurd (whole line here _ broken) (by decide)
  have empty : parseChunk [] = .ok none := rfl
  rw [parseUnifiedDiff, chunks_unlines newline begins other, List.mapM_cons, List.mapM_cons,
    List.mapM_nil, empty, parseChunk, split]
  dsimp only
  rw [if_pos begins]
  cases shlexSplit first with
  | error reason => rfl
  | ok words =>
    rcases words with _ | ⟨_, _ | ⟨_, _ | ⟨_, _ | ⟨name, _ | ⟨_, _⟩⟩⟩⟩⟩
    all_goals try rfl
    dsimp only
    cases lines.foldlM headerLine (Status.modified, cleanPath name) <;> rfl

end Chunks

section HeaderLines

variable {line : Text}

/-- The status that a line sets. -/
def statusIn (line : Text) : Option Status :=
  if line = "--- /dev/null".toList then some .added
  else if line = "+++ /dev/null".toList then some .deleted
  else none

/-- The path that a line `+++` sets, where it has one word. -/
def nameIn (line : Text) : Option Text :=
  if startsWith line "+++ ".toList ∧ line ≠ "+++ /dev/null".toList then
    match shlexSplit (line.drop 4) with
    | .ok [name] => some (cleanPath name)
    | _ => none
  else none

/-- No line about modes or renames. -/
def Marked (line : Text) : Prop := ∀ c ∈ line.head?, c ∉ ['n', 'd', 'r']

theorem startsWith_other {start : Text} {c : Char} (head : start.head? = some c)
    (other : line.head? ≠ some c) : startsWith line start = false := by
  cases start with
  | nil => cases head
  | cons d start =>
    cases head
    cases line with
    | nil => rfl
    | cons e line =>
      have differs : (c == e) = false := beq_false_of_ne fun same => other (by rw [same]; rfl)
      rw [startsWith, List.isPrefixOf, differs, Bool.false_and]

theorem Marked.other (marked : Marked line) {start : Text} {c : Char} (head : start.head? = some c)
    (listed : c ∈ ['n', 'd', 'r']) : startsWith line start = false :=
  startsWith_other head fun same => marked c same listed

theorem headerLine_marked (marked : Marked line) (s : Status × Text) :
    headerLine s line = .ok ((statusIn line).getD s.1, (nameIn line).getD s.2) := by
  have fresh : startsWith line "new file mode ".toList = false := marked.other rfl (by decide)
  have gone : startsWith line "deleted file mode ".toList = false := marked.other rfl (by decide)
  have moved : startsWith line "rename to ".toList = false := marked.other rfl (by decide)
  unfold headerLine statusIn nameIn
  rw [fresh, gone, moved]
  by_cases old : line = "--- /dev/null".toList
  · subst old
    rfl
  by_cases new : line = "+++ /dev/null".toList
  · subst new
    rfl
  by_cases named : startsWith line "+++ ".toList = true
  · simp only [old, new, named, or_self, if_false, if_true, Bool.false_eq_true, ne_eq,
      not_false_eq_true, and_self]
    cases shlexSplit (line.drop 4) with
    | error reason => rfl
    | ok words => rcases words with _ | ⟨word, _ | ⟨_, _⟩⟩ <;> rfl
  · simp only [old, new, named, or_self, if_false, Bool.false_eq_true, false_and]
    rfl

/-- The last line that sets the status or the path decides. -/
theorem foldlM_marked {lines : List Text} (marked : ∀ line ∈ lines, Marked line)
    (s : Status × Text) :
    lines.foldlM headerLine s =
      .ok ((lines.filterMap statusIn).getLastD s.1, (lines.filterMap nameIn).getLastD s.2) := by
  induction lines generalizing s with
  | nil => rfl
  | cons line lines ih =>
    rw [List.foldlM_cons, headerLine_marked (marked line List.mem_cons_self), ok_bind,
      ih fun l inside => marked l (List.mem_cons_of_mem line inside)]
    rw [List.filterMap_cons, List.filterMap_cons]
    cases statusIn line <;> cases nameIn line <;>
      simp only [Option.getD_none, Option.getD_some, List.getLastD_cons]

end HeaderLines

section Hunks

/-- What is compared of a file: all but the texts of the hunk headers. -/
structure Entry where
  path : Text
  status : Status
  additions : Nat
  deletions : Nat
  lines : List (List StructuredDiffLine)
  deriving DecidableEq

def StructuredDiffFile.entry (f : StructuredDiffFile) : Entry :=
  ⟨f.path, f.status, f.additions, f.deletions, f.hunks.map (·.lines)⟩

def Reading.Alike (r s : Reading) : Prop :=
  r.hunks.map (·.lines) = s.hunks.map (·.lines) ∧
    r.current.map (·.lines) = s.current.map (·.lines) ∧ r.oldLine = s.oldLine ∧
    r.newLine = s.newLine ∧ r.additions = s.additions ∧ r.deletions = s.deletions

theorem Reading.Alike.closed {r s : Reading} (alike : r.Alike s) :
    r.closed.map (·.lines) = s.closed.map (·.lines) := by
  obtain ⟨hunks, current, -⟩ := alike
  rw [Reading.closed, Reading.closed, List.map_append, List.map_append, hunks, ← Option.toList_map,
    ← Option.toList_map, current]

theorem Reading.Alike.entry {r s : Reading} (alike : r.Alike s) (path : Text) (status : Status) :
    (r.file path status).entry = (s.file path status).entry := by
  have hunks := alike.closed
  obtain ⟨-, -, -, -, additions, deletions⟩ := alike
  simp only [Reading.file, StructuredDiffFile.entry, hunks, additions, deletions]

theorem hunkHeader_other {line : Text} (other : line.head? ≠ some '@') : hunkHeader line = none := by
  have none : after "@@ -".toList line = none := by
    rw [after, startsWith_other rfl other]
    rfl
  rw [hunkHeader, none]
  rfl

theorem parseLine_before {r : Reading} {line : Text} (outside : r.current = none)
    (other : line.head? ≠ some '@') : parseLine r line = r := by
  rw [parseLine, Reading.line, hunkHeader_other other]
  simp [outside]

theorem Reading.Alike.marked {r s : Reading} (alike : r.Alike s) {h k : StructuredDiffHunk}
    (lines : h.lines = k.lines) (marker : Char) (text : Text) :
    (r.marked h marker text).Alike (s.marked k marker text) := by
  obtain ⟨hunks, current, old, new, additions, deletions⟩ := alike
  unfold Reading.marked
  split_ifs <;>
    simp only [Reading.Alike, hunks, current, old, new, additions, deletions, lines,
      Option.map_some, and_self]

theorem Reading.Alike.line {r s : Reading} {line : Text} (alike : r.Alike s)
    (shown : line.head? ≠ some '\\') : (parseLine r line).Alike (buildLine s line) := by
  have kept : startsWith line "\\ No newline".toList = false := startsWith_other rfl shown
  have closed := alike.closed
  obtain ⟨-, current, -, -, additions, deletions⟩ := id alike
  unfold parseLine buildLine Reading.line
  cases hunkHeader line with
  | some found => exact ⟨closed, rfl, rfl, rfl, additions, deletions⟩
  | none =>
    simp only [kept, Bool.false_eq_true, if_false]
    cases opened : r.current with
    | none =>
      rw [opened, Option.map_none, eq_comm, Option.map_eq_none_iff] at current
      rw [current]
      exact alike
    | some h =>
      rw [opened, Option.map_some, eq_comm, Option.map_eq_some_iff] at current
      obtain ⟨k, same, lines⟩ := current
      rw [same]
      cases line with
      | nil => exact alike
      | cons marker text => exact alike.marked lines.symm marker text

theorem alike_foldl {lines : List Text} (shown : ∀ line ∈ lines, line.head? ≠ some '\\')
    {r s : Reading} (alike : r.Alike s) :
    (lines.foldl parseLine r).Alike (lines.foldl buildLine s) := by
  induction lines generalizing r s with
  | nil => exact alike
  | cons line lines ih =>
    exact ih (fun l inside => shown l (List.mem_cons_of_mem line inside))
      (alike.line (shown line List.mem_cons_self))

/-- Before the first hunk nothing is read. -/
theorem foldl_before {lines : List Text} (outside : ∀ line ∈ lines, line.head? ≠ some '@') :
    lines.foldl parseLine .start = .start := by
  induction lines with
  | nil => rfl
  | cons line lines ih =>
    rw [List.foldl_cons, parseLine_before rfl (outside line List.mem_cons_self),
      ih fun l inside => outside l (List.mem_cons_of_mem line inside)]

end Hunks

theorem getLastD_own {α : Type} {own other : List α} {a : α} (same : ∀ x ∈ own, x = a)
    (foreign : ∀ x ∈ other, x ≠ a) : (own ++ other).getLastD a = a ↔ other = [] := by
  constructor
  · intro last
    by_contra some
    obtain ⟨front, x, rfl⟩ := List.eq_nil_or_concat other |>.resolve_left some
    rw [List.concat_eq_append, ← List.append_assoc, List.getLastD_concat] at last
    exact foreign x (by simp) last
  · rintro rfl
    rw [List.append_nil]
    rcases List.eq_nil_or_concat own with rfl | ⟨front, x, rfl⟩
    · rfl
    · rw [List.concat_eq_append, List.getLastD_concat]
      exact same x (by simp)

namespace Change

variable {m : SequenceMatcher Text} {c : Change}

section Lines

theorem modeLines_foldlM (path : Text) :
    c.modeLines.foldlM headerLine (.modified, path) = .ok (c.status, path) := by
  unfold modeLines status
  split_ifs <;> rfl

theorem modeLines_cases {line : Text} (here : line ∈ c.modeLines) :
    line.head? ≠ some '@' ∧ startsWith line "diff --git ".toList = false := by
  unfold modeLines at here
  split_ifs at here
  · rw [List.mem_singleton.mp here]
    decide
  · rw [List.mem_singleton.mp here]
    decide
  · cases here

theorem fileLines_head {line : Text} (here : line ∈ c.fileLines m) :
    line.head? = some 'B' ∨ line.head? = some '-' ∨ line.head? = some '+' := by
  unfold fileLines at here
  split_ifs at here
  · rw [List.mem_singleton.mp here]
    exact .inl rfl
  · cases here
  · rcases List.mem_pair.mp here with rfl | rfl
    · exact .inr (.inl rfl)
    · exact .inr (.inr rfl)

theorem header_head (group : HunkGroup Text) : group.header.head? = some '@' := rfl

theorem body_head {line : Text} (here : line ∈ c.body m) :
    line.head? = some '@' ∨ line.head? = some ' ' ∨ line.head? = some '-' ∨
      line.head? = some '+' := by
  rcases body_cases here with ⟨group, rfl⟩ | ⟨marker, l, rfl, -, kind⟩
  · exact .inl rfl
  · rcases kind with rfl | ⟨rfl, -⟩ | ⟨rfl, -⟩
    · exact .inr (.inl rfl)
    · exact .inr (.inr (.inl rfl))
    · exact .inr (.inr (.inr rfl))

theorem indexLine_head : c.indexLine.head? = some 'i' := rfl

theorem lines_marked {line : Text} (here : line ∈ c.indexLine :: (c.fileLines m ++ c.body m)) :
    Marked line := by
  intro first head listed
  rw [Option.mem_def] at head
  rcases List.mem_cons.mp here with rfl | later
  · rw [indexLine_head] at head
    cases head
    revert listed
    decide
  rcases List.mem_append.mp later with file | hunk
  · rcases fileLines_head file with same | same | same <;> rw [same] at head <;> cases head <;>
      revert listed <;> decide
  · rcases body_head hunk with same | same | same | same <;> rw [same] at head <;> cases head <;>
      revert listed <;> decide

end Lines

section Names

/-- The name in the first line. -/
def headerName (c : Change) : Option Text :=
  match shlexSplit c.opening with
  | .ok [_, _, _, name] => some (cleanPath name)
  | _ => none

/-- The names that are taken for the path one after the other: of the first line, of the line `+++`
of the file, and of the lines put in that look like one. -/
def names (m : SequenceMatcher Text) (c : Change) : List Text :=
  c.headerName.toList ++ (c.fileLines m ++ (c.added m).map ('+' :: ·)).filterMap nameIn

theorem nameIn_other {line : Text} (other : line.head? ≠ some '+') : nameIn line = none := by
  unfold nameIn
  rw [startsWith_other rfl other]
  simp only [Bool.false_eq_true, false_and, if_false]

theorem render_names (code : Opcode Text) :
    code.render.filterMap nameIn = (code.added.map ('+' :: ·)).filterMap nameIn := by
  have others (marker : Char) (other : marker ≠ '+') (lines : List Text) :
      (lines.map (marker :: ·)).filterMap nameIn = [] := by
    rw [List.filterMap_eq_nil_iff]
    intro line here
    obtain ⟨l, -, rfl⟩ := List.mem_map.mp here
    exact nameIn_other fun same => other (Option.some.inj same)
  cases code with
  | equal lines => exact others ' ' (by decide) lines
  | change old new =>
    rw [Opcode.render, List.filterMap_append, others '-' (by decide)]
    rfl

theorem body_names :
    (c.body m).filterMap nameIn = ((c.added m).map ('+' :: ·)).filterMap nameIn := by
  unfold body added
  induction c.groups m with
  | nil => rfl
  | cons group groups ih =>
    have own : group.render.filterMap nameIn =
        ((group.codes.flatMap (·.added)).map ('+' :: ·)).filterMap nameIn := by
      have header : nameIn group.header = none := nameIn_other (by rw [header_head]; decide)
      rw [HunkGroup.render, List.filterMap_cons, header]
      dsimp only
      induction group.codes with
      | nil => rfl
      | cons code codes inner =>
        rw [List.flatMap_cons, List.flatMap_cons, List.filterMap_append, inner, render_names,
          List.map_append, List.filterMap_append]
    rw [List.flatMap_cons, List.flatMap_cons, List.filterMap_append, ih, own, List.map_append,
      List.filterMap_append]

end Names

section Statuses

theorem statusIn_some {line : Text} {x : Status} (set : statusIn line = some x) :
    (x = .added ∧ line = "--- /dev/null".toList) ∨ (x = .deleted ∧ line = "+++ /dev/null".toList) := by
  unfold statusIn at set
  split_ifs at set with old new
  · cases set
    exact .inl ⟨rfl, old⟩
  · cases set
    exact .inr ⟨rfl, new⟩

theorem mem_removed {l : Text} (here : l ∈ c.removed m) : '-' :: l ∈ c.body m := by
  obtain ⟨group, listed, later⟩ := List.mem_flatMap.mp here
  obtain ⟨code, coded, inside⟩ := List.mem_flatMap.mp later
  refine List.mem_flatMap.mpr ⟨group, listed, List.mem_cons_of_mem _
    (List.mem_flatMap.mpr ⟨code, coded, ?_⟩)⟩
  cases code with
  | equal lines => cases inside
  | change old new => exact List.mem_append_left _ (List.mem_map_of_mem inside)

theorem mem_added {l : Text} (here : l ∈ c.added m) : '+' :: l ∈ c.body m := by
  obtain ⟨group, listed, later⟩ := List.mem_flatMap.mp here
  obtain ⟨code, coded, inside⟩ := List.mem_flatMap.mp later
  refine List.mem_flatMap.mpr ⟨group, listed, List.mem_cons_of_mem _
    (List.mem_flatMap.mpr ⟨code, coded, ?_⟩)⟩
  cases code with
  | equal lines => cases inside
  | change old new => exact List.mem_append_right _ (List.mem_map_of_mem inside)

theorem mem_body {marker : Char} {l : Text} (here : marker :: l ∈ c.body m) :
    marker = '@' ∨ marker = ' ' ∨ marker = '-' ∧ l ∈ c.removed m ∨ marker = '+' ∧ l ∈ c.added m := by
  rcases body_cases here with ⟨group, same⟩ | ⟨marker', l', same, -, kind⟩
  · have head := congrArg List.head? same
    rw [header_head] at head
    exact .inl (Option.some.inj head)
  · obtain ⟨rfl, rfl⟩ := List.cons.inj same
    exact .inr kind

theorem body_statuses {x : Status} : x ∈ (c.body m).filterMap statusIn ↔
    (x = .added ∧ "-- /dev/null".toList ∈ c.removed m) ∨
      (x = .deleted ∧ "++ /dev/null".toList ∈ c.added m) := by
  rw [List.mem_filterMap]
  constructor
  · rintro ⟨line, here, set⟩
    rcases statusIn_some set with ⟨rfl, rfl⟩ | ⟨rfl, rfl⟩
    · rcases @mem_body m c '-' _ here with other | other | ⟨-, gone⟩ | ⟨other, -⟩
      · cases other
      · cases other
      · exact .inl ⟨rfl, gone⟩
      · cases other
    · rcases @mem_body m c '+' _ here with other | other | ⟨other, -⟩ | ⟨-, fresh⟩
      · cases other
      · cases other
      · cases other
      · exact .inr ⟨rfl, fresh⟩
  · rintro (⟨rfl, here⟩ | ⟨rfl, here⟩)
    · exact ⟨_, mem_removed here, rfl⟩
    · exact ⟨_, mem_added here, rfl⟩

/-- A side without a file has no lines. -/
theorem removed_of_none (none : c.before = none) : c.removed m = [] := by
  rw [List.eq_nil_iff_forall_not_mem]
  intro l here
  obtain ⟨group, listed, later⟩ := List.mem_flatMap.mp here
  obtain ⟨code, coded, inside⟩ := List.mem_flatMap.mp later
  have old := (groups_within listed).1 (List.mem_flatMap.mpr ⟨code, coded, code.removed_subset inside⟩)
  rw [none] at old
  cases old

theorem added_of_none (none : c.after = none) : c.added m = [] := by
  rw [List.eq_nil_iff_forall_not_mem]
  intro l here
  obtain ⟨group, listed, later⟩ := List.mem_flatMap.mp here
  obtain ⟨code, coded, inside⟩ := List.mem_flatMap.mp later
  have new := (groups_within listed).2 (List.mem_flatMap.mpr ⟨code, coded, code.added_subset inside⟩)
  rw [none] at new
  cases new

theorem body_foreign {x : Status} (set : x ∈ (c.body m).filterMap statusIn) : x ≠ c.status := by
  unfold status
  rcases body_statuses.mp set with ⟨rfl, gone⟩ | ⟨rfl, fresh⟩
  · split_ifs with first second
    · rw [removed_of_none first] at gone
      cases gone
    · decide
    · decide
  · split_ifs with first second
    · decide
    · rw [added_of_none second] at fresh
      cases fresh
    · decide

theorem gitName_head (c : Char) (name : Text) :
    (gitName (c :: name)).head? = some c ∨ (gitName (c :: name)).head? = some '"' := by
  unfold gitName
  split
  · exact .inl rfl
  · exact .inr rfl

/-- A name that git writes is not that of no file. -/
theorem named_line {front rest : Text} {first : Char} {name : Text} (apart : first ≠ '/') :
    front ++ gitName (first :: name) ++ rest ≠ front ++ "/dev/null".toList := by
  intro same
  rw [List.append_assoc, List.append_cancel_left_eq] at same
  have head := congrArg List.head? same
  rw [List.head?_append] at head
  rcases gitName_head first name with own | quote
  · rw [own] at head
    exact apart (Option.some.inj head)
  · rw [quote] at head
    cases head

theorem oldLine_status {x : Status} (set : statusIn c.oldLine = some x) : x = c.status := by
  rcases statusIn_some set with ⟨rfl, line⟩ | ⟨-, line⟩
  · unfold oldLine oldName at line
    split_ifs at line with none
    · rw [status, if_pos none]
    · exact absurd line (named_line (by decide))
  · have head := congrArg List.head? line
    cases head

theorem newLine_status (changed : c.before ≠ c.after) {x : Status}
    (set : statusIn c.newLine = some x) : x = c.status := by
  rcases statusIn_some set with ⟨-, line⟩ | ⟨rfl, line⟩
  · have head := congrArg List.head? line
    cases head
  · unfold newLine newName at line
    split_ifs at line with none
    · rw [status, if_neg (fun same => changed (same.trans none.symm)), if_pos none]
    · exact absurd line (named_line (by decide))

theorem fileLines_status (changed : c.before ≠ c.after) {x : Status}
    (set : x ∈ (c.fileLines m).filterMap statusIn) : x = c.status := by
  obtain ⟨line, here, set⟩ := List.mem_filterMap.mp set
  unfold fileLines at here
  split_ifs at here
  · rw [List.mem_singleton.mp here] at set
    rcases statusIn_some set with ⟨-, line⟩ | ⟨-, line⟩ <;> cases congrArg List.head? line
  · cases here
  · rcases List.mem_pair.mp here with rfl | rfl
    · exact oldLine_status set
    · exact newLine_status changed set

end Statuses

section Agreement

theorem parse_gitDiff (changed : c.before ≠ c.after) :
    parseUnifiedDiff (c.gitDiff m) =
      match shlexSplit c.opening with
      | .error reason => .error ("Invalid unified diff file header: " ++ reason)
      | .ok [_, _, _, name] => .ok [((c.body m).foldl parseLine .start).file
          (((c.fileLines m ++ c.body m).filterMap nameIn).getLastD (cleanPath name))
          (((c.fileLines m ++ c.body m).filterMap statusIn).getLastD c.status)]
      | .ok _ => .error "Invalid unified diff file header" := by
  have lines : c.gitLines m =
      c.opening :: (c.modeLines ++ c.indexLine :: (c.fileLines m ++ c.body m)) := by
    simp [gitLines]
  have whole : ∀ line ∈ c.gitLines m, OneLine line := fun line => gitLines_oneLine
  have begins : startsWith c.opening "diff --git ".toList = true :=
    List.isPrefixOf_iff_prefix.mpr ⟨_, (List.append_assoc _ _ _).symm⟩
  have other : ∀ line ∈ c.modeLines ++ c.indexLine :: (c.fileLines m ++ c.body m),
      startsWith line "diff --git ".toList = false := by
    intro line here
    rcases List.mem_append.mp here with mode | later
    · exact (modeLines_cases mode).2
    · exact (lines_marked later).other rfl (by decide)
  rw [lines] at whole
  rw [gitDiff, if_neg changed, lines, parseUnifiedDiff_unlines whole begins other]
  have before : (c.modeLines ++ c.indexLine :: (c.fileLines m ++ c.body m)).foldl parseLine .start =
      (c.body m).foldl parseLine .start := by
    have outside : ∀ line ∈ c.modeLines ++ c.indexLine :: c.fileLines m, line.head? ≠ some '@' := by
      intro line here
      rcases List.mem_append.mp here with mode | later
      · exact (modeLines_cases mode).1
      rcases List.mem_cons.mp later with rfl | file
      · rw [indexLine_head]
        decide
      · rcases fileLines_head file with same | same | same <;> rw [same] <;> decide
    rw [← List.cons_append, ← List.append_assoc, List.foldl_append, foldl_before outside]
  have noName : nameIn c.indexLine = none := nameIn_other (by rw [indexLine_head]; decide)
  have noStatus : statusIn c.indexLine = none := by
    cases set : statusIn c.indexLine with
    | none => rfl
    | some x => rcases statusIn_some set with ⟨-, same⟩ | ⟨-, same⟩ <;>
        cases congrArg List.head? same
  cases shlexSplit c.opening with
  | error reason => rfl
  | ok words =>
    rcases words with _ | ⟨_, _ | ⟨_, _ | ⟨_, _ | ⟨name, _ | ⟨_, _⟩⟩⟩⟩⟩
    all_goals try rfl
    dsimp only
    rw [List.foldlM_append, modeLines_foldlM, ok_bind, foldlM_marked (fun line => lines_marked),
      ok_bind, before]
    simp only [List.filterMap_cons, noName, noStatus]
    rfl

/-- The two functions have one entry for the change. -/
def Agree (m : SequenceMatcher Text) (c : Change) : Prop :=
  (parseUnifiedDiff (c.gitDiff m)).toOption.map (·.map StructuredDiffFile.entry) =
    some ((buildDiffFile m c.path (c.before.map PyStr.utf8) (c.after.map PyStr.utf8)).toList.map
      StructuredDiffFile.entry)

/-- No line of the diff is taken for a line about the file. -/
structure Undisturbed (m : SequenceMatcher Text) (c : Change) : Prop where
  header : c.headerName ≠ none
  named : (c.names m).getLast? = some c.path
  kept : "-- /dev/null".toList ∉ c.removed m
  fresh : "++ /dev/null".toList ∉ c.added m

theorem buildDiffFile_eq (changed : c.before ≠ c.after) :
    buildDiffFile m c.path (c.before.map PyStr.utf8) (c.after.map PyStr.utf8) =
      some (((c.body m).foldl buildLine .start).file c.path c.status) := by
  have differ : c.before.map PyStr.utf8 ≠ c.after.map PyStr.utf8 := by
    intro same
    refine changed (Option.map_injective (fun s t equal => ?_) same)
    have decoded := congrArg PyStr.decode equal
    rw [PyStr.decode_utf8, PyStr.decode_utf8] at decoded
    exact Option.some.inj decoded
  have text (side : Option Text) :
      PyStr.decode ((side.map PyStr.utf8).getD []) = some (side.getD []) := by
    cases side with
    | none => exact PyStr.decode_utf8 []
    | some t => exact PyStr.decode_utf8 t
  have status : (if c.before.map PyStr.utf8 = none then Status.added
      else if c.after.map PyStr.utf8 = none then .deleted else .modified) = c.status := by
    simp only [Option.map_eq_none_iff, Change.status]
  unfold buildDiffFile
  dsimp only
  rw [if_neg differ, status, text, text]
  by_cases binary : c.binary = true
  · have none : c.body m = [] := by
      rw [body, groups, if_pos binary]
      rfl
    rw [none]
    exact if_pos binary
  · have drop : (Difflib.unifiedDiff m (splitlines (c.before.getD [])) (splitlines (c.after.getD []))
        ("a/".toList ++ c.path) ("b/".toList ++ c.path) 3).drop 2 = c.body m := by
      rw [body, groups, if_neg binary, Difflib.unifiedDiff]
      split
      · rename_i same
        rw [same]
        rfl
      · rfl
    rw [← drop]
    exact if_neg binary

section PlainPaths

/-- A character that neither git nor a shell treats in a special way. -/
def plain (c : Char) : Bool := unquoted c && c ≠ ' ' && c ≠ '\''

theorem shlexFrom_plain {c : Char} (plain_c : plain c = true) (token rest : Text) :
    shlexFrom (.word token) (c :: rest) = shlexFrom (.word (c :: token)) rest ∧
      shlexFrom .space (c :: rest) = shlexFrom (.word [c]) rest := by
  simp only [plain, unquoted, Bool.and_eq_true, decide_eq_true_eq] at plain_c
  obtain ⟨⟨⟨⟨⟨low, -⟩, quote⟩, slash⟩, blank⟩, tick⟩ := plain_c
  have space : c ∉ [' ', '\t', '\r', '\n'] := by
    intro here
    simp only [List.mem_cons, List.not_mem_nil, or_false] at here
    rcases here with rfl | rfl | rfl | rfl
    · exact blank rfl
    all_goals exact absurd low (by decide)
  constructor
  · rw [shlexFrom, if_neg space, if_neg (not_or.mpr ⟨tick, quote⟩), if_neg slash]
  · rw [shlexFrom, if_neg space, if_neg slash, if_neg (not_or.mpr ⟨tick, quote⟩)]

theorem shlexFrom_word {word : Text} (each : word.all plain = true) (token rest : Text) :
    shlexFrom (.word token) (word ++ rest) = shlexFrom (.word (word.reverse ++ token)) rest := by
  induction word generalizing token with
  | nil => rfl
  | cons c word ih =>
    rw [List.all_cons, Bool.and_eq_true] at each
    rw [List.cons_append, (shlexFrom_plain each.1 token _).1, ih each.2]
    simp

theorem shlexFrom_space {c : Char} {word : Text} (each : (c :: word).all plain = true) (rest : Text) :
    shlexFrom .space (c :: word ++ ' ' :: rest) = ((c :: word) :: ·) <$> shlexFrom .space rest := by
  obtain ⟨first, later⟩ := (Bool.and_eq_true _ _).mp each
  rw [List.cons_append, (shlexFrom_plain first [] _).2, shlexFrom_word later, shlexFrom,
    if_pos (by decide)]
  simp

theorem shlexSplit_word {c : Char} {word : Text} (each : (c :: word).all plain = true) :
    shlexSplit (c :: word) = .ok [c :: word] := by
  obtain ⟨first, later⟩ := (Bool.and_eq_true _ _).mp each
  have whole := shlexFrom_word later [c] []
  rw [List.append_nil] at whole
  rw [shlexSplit, (shlexFrom_plain first [] _).2, whole, shlexFrom]
  simp

theorem gitName_plain {name : Text} (each : name.all plain = true) : gitName name = name := by
  have unquotes : name.all unquoted = true := by
    rw [List.all_eq_true] at each ⊢
    intro c here
    have both := each c here
    rw [plain, Bool.and_assoc, Bool.and_eq_true] at both
    exact both.1
  rw [gitName, if_pos unquotes]

theorem plain_side {first : Char} (listed : plain first = true) (each : c.path.all plain = true) :
    (first :: '/' :: c.path).all plain = true := by
  rw [List.all_cons, List.all_cons, each, listed]
  decide

theorem gitName_side (each : c.path.all plain = true) :
    gitName ("a/".toList ++ c.path) = 'a' :: '/' :: c.path ∧
      gitName ("b/".toList ++ c.path) = 'b' :: '/' :: c.path := by
  have old : "a/".toList = ['a', '/'] := by decide
  have new : "b/".toList = ['b', '/'] := by decide
  rw [old, new]
  exact ⟨gitName_plain (plain_side (by decide) each), gitName_plain (plain_side (by decide) each)⟩

theorem opening_plain (each : c.path.all plain = true) : shlexSplit c.opening =
    .ok ["diff".toList, "--git".toList, 'a' :: '/' :: c.path, 'b' :: '/' :: c.path] := by
  have front : "diff --git ".toList =
      'd' :: "iff".toList ++ ' ' :: ('-' :: "-git".toList ++ [' ']) := by
    decide
  have text : c.opening = 'd' :: "iff".toList ++ ' ' :: ('-' :: "-git".toList ++ ' ' ::
      ('a' :: '/' :: c.path ++ ' ' :: 'b' :: '/' :: c.path)) := by
    change "diff --git ".toList ++ gitName ("a/".toList ++ c.path) ++ ' ' ::
      gitName ("b/".toList ++ c.path) = _
    rw [(gitName_side each).1, (gitName_side each).2, front]
    simp only [List.append_assoc, List.cons_append, List.nil_append]
  rw [shlexSplit, text, shlexFrom_space (by decide), shlexFrom_space (by decide),
    shlexFrom_space (plain_side (by decide) each), ← shlexSplit,
    shlexSplit_word (plain_side (by decide) each)]
  rfl

theorem newLine_plain (each : c.path.all plain = true) {name : Text}
    (set : nameIn c.newLine = some name) : name = c.path := by
  have noTab : c.tab c.after = [] := by
    rw [tab, if_neg]
    rintro ⟨-, blank⟩
    exact absurd (List.all_eq_true.mp each ' ' blank) (by decide)
  unfold nameIn at set
  split_ifs at set with named
  rw [newLine, noTab, List.append_nil, newName] at set named
  split_ifs at set named with none
  · exact absurd rfl named.2
  · have written : ("+++ ".toList ++ gitName ("b/".toList ++ c.path)).drop 4 =
        gitName ("b/".toList ++ c.path) := rfl
    rw [written, (gitName_side each).2, shlexSplit_word (plain_side (by decide) each)] at set
    cases set
    rfl

theorem getLast?_own {α : Type} {own other : List α} {a : α} (some : own ≠ [])
    (same : ∀ x ∈ own, x = a) :
    (own ++ other).getLast? = .some a ↔ ∀ x ∈ other.getLast?, x = a := by
  rw [List.getLast?_append]
  cases other.getLast? with
  | some x => simp
  | none => simpa [List.getLast?_eq_some_getLast some] using same _ (List.getLast_mem some)

/-- For a plain path only the lines that are put in can be in the way. -/
theorem undisturbed_plain (each : c.path.all plain = true) : Undisturbed m c ↔
    (∀ name ∈ (((c.added m).map ('+' :: ·)).filterMap nameIn).getLast?, name = c.path) ∧
      "-- /dev/null".toList ∉ c.removed m ∧ "++ /dev/null".toList ∉ c.added m := by
  have header : c.headerName = some c.path := by
    rw [headerName, opening_plain each]
    rfl
  have own : ∀ name ∈ c.path :: (c.fileLines m).filterMap nameIn, name = c.path := by
    intro name here
    rcases List.mem_cons.mp here with rfl | later
    · rfl
    obtain ⟨line, listed, set⟩ := List.mem_filterMap.mp later
    unfold fileLines at listed
    split_ifs at listed
    · have head : line.head? = some 'B' := by
        rw [List.mem_singleton.mp listed]
        rfl
      rw [nameIn_other (by rw [head]; decide)] at set
      cases set
    · cases listed
    · rcases List.mem_pair.mp listed with rfl | rfl
      · have head : c.oldLine.head? = some '-' := rfl
        rw [nameIn_other (by rw [head]; decide)] at set
        cases set
      · exact newLine_plain each set
  have named := @getLast?_own _ _ (((c.added m).map ('+' :: ·)).filterMap nameIn) _
    (List.cons_ne_nil _ _) own
  constructor
  · rintro ⟨-, last, kept, fresh⟩
    rw [names, header, List.filterMap_append] at last
    exact ⟨named.mp last, kept, fresh⟩
  · rintro ⟨last, kept, fresh⟩
    refine ⟨by rw [header]; exact Option.some_ne_none _, ?_, kept, fresh⟩
    rw [names, header, List.filterMap_append]
    exact named.mpr last

end PlainPaths

/-- A new file with one line, which is `++ other.txt`. -/
def plusChange : Change where
  path := "notes.txt".toList
  before := none
  after := some "++ other.txt\n".toList
  oldBlob := ⟨"0000000".toList, by decide⟩
  newBlob := ⟨"3d5b1f0".toList, by decide⟩

end Agreement

end Change

end RepoForge.StructuredDiff
