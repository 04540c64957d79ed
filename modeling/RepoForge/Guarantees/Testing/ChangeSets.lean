import RepoForge.Spec.Testing.Selected

/-!
# Complete change sets

The path list of a selection has what git printed as it stands in its listings: a quoted path stays
quoted, of a rename only the new end is kept, and what a failed command did not print is missing. So
the list is complete, or the selection wide, just when these texts say so.
-/
namespace RepoForge.GitListings
open PyStr (lit ofText)
open AffectedTests PyText

/-! ### Fields without outer spaces -/

/-- A text that stripping leaves as it is. -/
structure Trim (t : Text) : Prop where
  first : ∃ c rest, t = c :: rest ∧ isSpace c = false
  last : ∃ rest c, t = rest ++ [c] ∧ isSpace c = false

theorem Trim.append {s t between : Text} (h : Trim s) (h' : Trim t) : Trim (s ++ between ++ t) := by
  constructor
  case first =>
    obtain ⟨c, rest, rfl, plain⟩ := h.first
    exact ⟨c, rest ++ between ++ t, by simp, plain⟩
  case last =>
    obtain ⟨rest, c, rfl, plain⟩ := h'.last
    exact ⟨s ++ between ++ rest, c, by simp, plain⟩

theorem Trim.strip {t : Text} (h : Trim t) : PyStr.strip (ofText t) = ofText t := by
  unfold PyStr.strip
  have front : (ofText t).dropWhile (CodePoint.within isSpace) = ofText t := by
    obtain ⟨c, rest, rfl, plain⟩ := h.first
    exact List.dropWhile_cons_of_neg (by simp [CodePoint.within, plain])
  rw [front]
  obtain ⟨rest, c, rfl, plain⟩ := h.last
  unfold ofText
  rw [List.map_append]
  exact List.rdropWhile_concat_neg _ _ _ (by simp [CodePoint.within, plain])

theorem trim_quoted (name : PyStr) : Trim (quoted name) where
  first := ⟨'"', _, rfl, by decide⟩
  last := ⟨'"' :: name.flatMap escape, '"', by simp [quoted], by decide⟩

theorem replaced_not_space {c : CodePoint} (plain : usual c = true) (other : c ≠ .scalar ' ') :
    isSpace c.replaced = false := by
  obtain ⟨d, rfl, printed⟩ := usual_scalar plain
  by_contra space
  exact other (congrArg _ (printable_space printed (Bool.eq_true_of_not_eq_false space)))

theorem trim_porcelainField {name : PyStr} (full : name ≠ []) : Trim (porcelainField name) := by
  unfold porcelainField
  split
  · rename_i bare
    constructor
    case first =>
      cases name with
      | nil => exact absurd rfl full
      | cons c rest =>
        obtain ⟨plain, other⟩ := bare c List.mem_cons_self
        exact ⟨c.replaced, PyStr.replaced rest, rfl, replaced_not_space plain other⟩
    case last =>
      obtain ⟨rest, c, rfl⟩ := List.eq_nil_or_concat name |>.resolve_left full
      obtain ⟨plain, other⟩ := bare c (by simp)
      exact ⟨PyStr.replaced rest, c.replaced, by simp [PyStr.replaced],
        replaced_not_space plain other⟩
  · exact trim_quoted name

theorem Entry.trim (entry : Entry) : Trim entry.text := by
  cases entry with
  | tracked x y name => exact trim_porcelainField name.2
  | untracked name => exact trim_porcelainField name.2
  | renamed x y old new => exact (trim_porcelainField old.2).append (trim_porcelainField new.2)
  | untrackedDirectory directory files =>
    exact trim_porcelainField (List.append_ne_nil_of_left_ne_nil directory.2 (lit "/"))

/-! ### What the lines are read as -/

/-- What is after the first arrow, where there is one. -/
def afterArrow (text : PyStr) : PyStr :=
  if (PyStr.partition (lit " -> ") text).2.1 then (PyStr.partition (lit " -> ") text).2.2 else text

theorem porcelainCandidate_line (entry : Entry) :
    porcelainCandidate (ofText entry.line) = afterArrow (ofText entry.text) := by
  have rest : (ofText entry.line).drop 3 = ofText entry.text := rfl
  unfold porcelainCandidate
  rw [rest, entry.trim.strip]
  rfl

section Outcomes

variable {state : RepoState} (diff : Printed Change.line state.committed)
  (status : Printed Entry.line state.worktree)

/-- The texts that stand for paths in what the two commands printed: in the listing of the status
what is after the first arrow, and in both also what is left of a line that was cut. -/
def Shown (text : PyStr) : Prop :=
  text ≠ [] ∧ ((∃ change ∈ diff.whole, ofText change.line = text) ∨ ofText diff.remnant = text ∨
    (∃ entry ∈ status.whole, afterArrow (ofText entry.text) = text) ∨
    porcelainCandidate (ofText status.remnant) = text)

theorem read_cut {read : Text → PyStr} (none : read [] = []) {lines : List Text} {rest : Text}
    {path : PyStr} (full : path ≠ []) :
    (∃ line ∈ lines ++ (if rest = [] then [] else [rest]), read line = path) ↔
      (∃ line ∈ lines, read line = path) ∨ read rest = path := by
  by_cases empty : rest = []
  · simp [empty, none, full.symm]
  · simp [empty, or_and_right, exists_or]

theorem mem_changedPaths {path : PyStr} :
    path ∈ changedPathsFromGit diff.stdout status.stdout ↔ Shown diff status path := by
  have listed : path ∈ changedPathsFromGit diff.stdout status.stdout ↔ path ≠ [] ∧
      ((∃ line ∈ splitlines diff.stdout, ofText line = path) ∨
        ∃ line ∈ splitlines status.stdout, porcelainCandidate (ofText line) = path) := by
    simp [changedPathsFromGit, PyStr.mem_sortedDistinct, and_comm, and_or_left]
  rw [listed]
  unfold Shown
  apply and_congr_right
  intro full
  rw [diff.lines Change.oneLine, status.lines Entry.oneLine, read_cut rfl full,
    @read_cut (fun line => porcelainCandidate (ofText line)) rfl _ _ _ full, or_assoc]
  simp only [List.mem_map, exists_exists_and_eq_and, porcelainCandidate_line]

theorem afterArrow_bare {name : PyStr} (bare : Bare name) :
    afterArrow (ofText (porcelainField name)) = name := by
  have field : ofText (porcelainField name) = name := by
    rw [porcelainField, if_pos bare]
    exact ofText_replaced_usual fun c inside => (bare c inside).1
  have absent : CodePoint.scalar ' ' ∉ name := fun inside => (bare _ inside).2 rfl
  have apart : (PyStr.partition (lit " -> ") name) = (name, false, []) := PyStr.partition_absent absent
  rw [field, afterArrow, apart]
  rfl

/-- No renames, no untracked directories, and no name that the listings quote. -/
structure Plain (state : RepoState) : Prop where
  committed : ∀ change ∈ state.committed, ∃ name, change = .one name ∧ name.val.all usual = true
  worktree : ∀ entry ∈ state.worktree, ∃ name : Name, entry.ends = [name.val] ∧
    entry.text = porcelainField name ∧ Bare name

/-- Every path is listed where both commands succeed in a plain state. -/
theorem complete_of_plain (plain : Plain state) (committed : diff.exitCode = 0)
    (worktree : status.exitCode = 0) :
    ∀ path ∈ state.differing, path ∈ changedPathsFromGit diff.stdout status.stdout := by
  intro path differs
  rw [mem_changedPaths]
  rcases List.mem_append.mp differs with differs | differs
  · obtain ⟨change, listed, inside⟩ := List.mem_flatMap.mp differs
    obtain ⟨name, rfl, usual⟩ := plain.committed change listed
    obtain rfl := List.mem_singleton.mp inside
    obtain ⟨whole, -⟩ := diff.listed.resolve_right fun failed => failed.1 committed
    refine ⟨name.2, .inl ⟨.one name, by rwa [whole], ?_⟩⟩
    rw [Change.line, nameOnlyField, if_pos usual]
    exact ofText_replaced_usual (List.all_eq_true.mp usual)
  · obtain ⟨entry, listed, inside⟩ := List.mem_flatMap.mp differs
    obtain ⟨name, ends, text, bare⟩ := plain.worktree entry listed
    rw [ends] at inside
    obtain rfl := List.mem_singleton.mp inside
    obtain ⟨whole, -⟩ := status.listed.resolve_right fun failed => failed.1 worktree
    refine ⟨name.2, .inr (.inr (.inl ⟨entry, by rwa [whole], ?_⟩))⟩
    rw [text, afterArrow_bare bare]

end Outcomes

/-! ### A rename, and a failure -/

/-- Tests of the documents and of the native code. -/
def sampleManifest : AffectedTests.Manifest where
  groups := [
    { name := lit "docs"
      parallel := true
      sourceGlobs := [lit "docs/**"]
      testFiles := [lit "tests/test_docs.py"] },
    { name := lit "native"
      parallel := true
      sourceGlobs := [lit "native/**"]
      testFiles := [lit "tests/test_native.py"] }]
  safetyBundle := []
  conftestConsumers := []

def native : Name := ⟨lit "native/b.c", by decide⟩

def document : Name := ⟨lit "docs/b.md", by decide⟩

def renamedState : RepoState := ⟨[], [.renamed .renamed .unmodified native document]⟩

def modifiedState : RepoState := ⟨[], [.tracked .unmodified .modified native]⟩

/-- What a command printed that succeeded. -/
def Printed.success {E : Type} (line : E → Text) (entries : List E) : Printed line entries :=
  ⟨0, entries, [], .inl ⟨rfl, rfl⟩⟩

/-- The status command failed before it printed anything. -/
def failedStatus : Printed Entry.line modifiedState.worktree :=
  ⟨128, [], [], .inr ⟨by decide, _, _, rfl, List.nil_prefix⟩⟩

end RepoForge.GitListings
