import RepoForge.Spec.Patches.HunksApplied

/-!
# Applying hunks touches only what they match

Each line that `_apply_hunks` writes gets a line feed, also where the line was none of the hunks'
and ended in another way, and also where the file had no final newline. So the rest of the file is
unchanged exactly where nothing but line feeds stands there.
-/
namespace RepoForge

open PyText

/-- Where both texts have lines, both have the final newline or none has. -/
def SameEnding (original result : Text) : Prop :=
  original ≠ [] → result ≠ [] → closed result = closed original

/-- The result is the file with the matched lines replaced: the lines that no hunk matched are
there with their own ends, and the end of the file is as it was. -/
def OnlyMatched (path original : Text) (hunks : List Hunk) (result : Text) : Prop :=
  ∃ lines, marked path original hunks = .ok lines ∧ Shows lines result ∧
    SameEnding original result

/-- Each line that no hunk matches ends in a line feed alone, and the file ends in a line break
unless it is empty or the hunks leave nothing of it. -/
def LineFeedsOutside (path original : Text) (hunks : List Hunk) : Prop :=
  ∃ lines, marked path original hunks = .ok lines ∧
    (∀ line stop, .kept line stop ∈ lines → stop = .lineFeed) ∧
    (original = [] ∨ lines = [] ∨ closed original = true)

theorem sameEnding_iff (original : Text) (lines : List Text) :
    SameEnding original (unlines lines) ↔ original = [] ∨ lines = [] ∨ closed original = true := by
  constructor
  · intro same
    by_cases empty : original = []
    · exact .inl empty
    · by_cases none : lines = []
      · exact .inr (.inl none)
      · have shut := closed_unlines none
        have filled : unlines lines ≠ [] := by
          intro nothing
          rw [nothing] at shut
          cases shut
        rw [same empty filled] at shut
        exact .inr (.inr shut)
  · intro fits some filled
    have written : lines ≠ [] := by
      intro none
      rw [none] at filled
      exact filled rfl
    rw [closed_unlines written, (fits.resolve_left some).resolve_left written]

theorem applyHunks_onlyMatched_iff {path original result : Text} {hunks : List Hunk}
    {repairs : List Repair} (applied : applyHunks path original hunks = .ok (result, repairs)) :
    OnlyMatched path original hunks result ↔ LineFeedsOutside path original hunks := by
  obtain ⟨lines, here, rfl⟩ := marked_lines applied
  have ending := sameEnding_iff original (lines.map Traced.line)
  rw [List.map_eq_nil_iff] at ending
  constructor
  · intro ⟨lines', here', shown, same⟩
    rw [here] at here'
    cases here'
    exact ⟨lines, here, (shows_unlines_iff lines).mp shown, ending.mp same⟩
  · intro ⟨lines', here', feeds, fits⟩
    rw [here] at here'
    cases here'
    exact ⟨lines, here, (shows_unlines_iff lines).mpr feeds, ending.mpr fits⟩

/-- The second line is replaced. -/
def secondLine : List Hunk :=
  [⟨"@@ -2 +2 @@".toList, 2, 1, 2, 1, ["-b".toList, "+c".toList]⟩]

theorem applyHunks_onlyMatched_lineFeeds :
    OnlyMatched "notes.txt".toList "a\nb\n".toList secondLine "a\nc\n".toList ↔
      LineFeedsOutside "notes.txt".toList "a\nb\n".toList secondLine := by
  have applied : applyHunks "notes.txt".toList "a\nb\n".toList secondLine =
      .ok ("a\nc\n".toList, []) := by
    decide +kernel
  exact applyHunks_onlyMatched_iff applied

/-- The first line loses its carriage return, and a file without a final newline gets one. -/
theorem applyHunks_touches_others :
    applyHunks "notes.txt".toList "a\r\nb\r\n".toList secondLine = .ok ("a\nc\n".toList, []) ∧
    ¬OnlyMatched "notes.txt".toList "a\r\nb\r\n".toList secondLine "a\nc\n".toList ∧
    applyHunks "notes.txt".toList "a\nb".toList secondLine = .ok ("a\nc\n".toList, []) ∧
    ¬OnlyMatched "notes.txt".toList "a\nb".toList secondLine "a\nc\n".toList := by
  refine ⟨by decide +kernel, ?_, by decide +kernel, ?_⟩
  · intro ⟨lines, here, shown, _⟩
    have carried : marked "notes.txt".toList "a\r\nb\r\n".toList secondLine =
        .ok [.kept ['a'] .crlf, .fresh ['c']] := by
      decide +kernel
    rw [carried] at here
    cases here
    have feed := (shows_unlines_iff [.kept ['a'] .crlf, .fresh ['c']]).mp shown ['a'] .crlf (by simp)
    cases feed
  · intro ⟨_, _, _, same⟩
    have ends := same (by decide) (by decide)
    revert ends
    decide

end RepoForge

/-!
## Where hunks that fit are placed

A hunk with old lines goes where its header says, or is refused because its old lines stand there
more than once. A hunk without old lines goes on top of the file whatever its header says: the
place is in the header, and `_apply_hunks` computes it, but the search gives the first line.
-/
namespace RepoForge

open PyText

/-- The result is that of the declared places, or the error is an ambiguity. -/
def AsDeclared (path original : Text) (hunks : List Hunk) : Prop :=
  match applyHunks path original hunks with
  | .ok (result, _) => result = declaredText original hunks
  | .error e => e.code = .contextAmbiguous

/-- The old lines of some hunk stand more than once in the file that its turn finds, or the blocks
of the hunks without old lines read the same on top of the file, the last first, as at their
places. -/
def PlaceIndifferent (content : List Text) (hunks : List Hunk) : Prop :=
  Ambiguous content hunks ∨
    unlines (moved content hunks) = unlines (atDeclared content 0 hunks)

theorem declaredText_eq (original : Text) (hunks : List Hunk) :
    declaredText original hunks = unlines (atDeclared (splitlines original) 0 hunks) :=
  joinText_unlines original _

theorem applyHunks_asDeclared_iff {path original : Text} {hunks : List Hunk}
    (fits : Fits (splitlines original) 0 hunks) :
    AsDeclared path original hunks ↔ PlaceIndifferent (splitlines original) hunks := by
  rcases applyHunks_moved path fits with ⟨several, e, run, code⟩ | ⟨once, repairs, run⟩
  · rw [AsDeclared, run]
    exact ⟨fun _ => .inl several, fun _ => code⟩
  · rw [AsDeclared, run]
    constructor
    · intro same
      exact .inr (same.trans (declaredText_eq original hunks))
    · intro either
      exact (either.resolve_left once).trans (declaredText_eq original hunks).symm

/-- A line before the second one, between the two old ones, with both of them as context. -/
def betweenLines : List Hunk :=
  [⟨"@@ -1,2 +1,3 @@".toList, 1, 2, 1, 3, [" a".toList, "+c".toList, " b".toList]⟩]

theorem betweenLines_fits : Fits (splitlines "a\nb\n".toList) 0 betweenLines := by
  refine ⟨⟨?_, by decide, by decide, by decide, by decide⟩, trivial⟩
  intro line here
  rcases List.mem_cons.mp here with rfl | here
  · exact ⟨' ', _, rfl, by decide⟩
  · rcases List.mem_cons.mp here with rfl | here
    · exact ⟨'+', _, rfl, by decide⟩
    · exact ⟨' ', _, List.mem_singleton.mp here, by decide⟩

theorem applyHunks_asDeclared_between :
    Fits (splitlines "a\nb\n".toList) 0 betweenLines ∧
    (AsDeclared "notes.txt".toList "a\nb\n".toList betweenLines ↔
      PlaceIndifferent (splitlines "a\nb\n".toList) betweenLines) :=
  ⟨betweenLines_fits, applyHunks_asDeclared_iff betweenLines_fits⟩

/-- A line after the second one, without context. -/
def afterLines : List Hunk := [⟨"@@ -2,0 +3 @@".toList, 2, 0, 3, 1, ["+c".toList]⟩]

/-- The line comes out as the first. -/
theorem applyHunks_insertion_moved :
    Fits (splitlines "a\nb\n".toList) 0 afterLines ∧
    applyHunks "notes.txt".toList "a\nb\n".toList afterLines =
      .ok ("c\na\nb\n".toList, [.relocatedHunks]) ∧
    declaredText "a\nb\n".toList afterLines = "a\nb\nc\n".toList ∧
    ¬AsDeclared "notes.txt".toList "a\nb\n".toList afterLines := by
  have run : applyHunks "notes.txt".toList "a\nb\n".toList afterLines =
      .ok ("c\na\nb\n".toList, [.relocatedHunks]) := by
    decide +kernel
  have declared : declaredText "a\nb\n".toList afterLines = "a\nb\nc\n".toList := by
    decide +kernel
  refine ⟨⟨⟨?_, by decide, by decide, by decide, by decide⟩, trivial⟩, run, declared, ?_⟩
  · intro line here
    exact ⟨'+', _, List.mem_singleton.mp here, by decide⟩
  · rw [AsDeclared, run, declared]
    decide

/-- Hunks that fit and all have old lines are applied where their headers say, or refused. -/
theorem asDeclared_of_anchored {path original : Text} {hunks : List Hunk}
    (fits : Fits (splitlines original) 0 hunks) (all : ∀ hunk ∈ hunks, hunk.oldPattern ≠ []) :
    AsDeclared path original hunks := by
  rcases applyHunks_moved path fits with ⟨_, e, run, code⟩ | ⟨_, repairs, run⟩
  · rw [AsDeclared, run]
    exact code
  · rw [AsDeclared, run, moved_of_anchored all]
    exact (declaredText_eq original hunks).symm

end RepoForge
