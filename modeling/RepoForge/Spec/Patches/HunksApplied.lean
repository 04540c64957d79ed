import RepoForge.Library.TextLines
import RepoForge.Source.Patches.Unified

/-!
# Lines that no hunk touches

The application of hunks to a file whose lines keep their ends. A line of the file is `kept` until
a hunk matches it; what a hunk puts in its place is `fresh` and may end in any way.
-/
namespace RepoForge

open PyText

inductive Traced where
  | kept (line : Text) (stop : LineEnd)
  | fresh (line : Text)
  deriving DecidableEq, Repr

def Traced.line : Traced → Text
  | kept line _ => line
  | fresh line => line

/-- The lines of the file before any hunk. -/
def untouched (original : Text) : List Traced :=
  (ended original).map fun line => .kept line.1 line.2

/-- The hunks, each where `_apply_hunks` finds it. -/
def markedFrom (path : Text) : Nat → List Traced → List Hunk → Except PatchError (List Traced)
  | _, content, [] => .ok content
  | ordinal, content, hunk :: rest => do
    let lines := content.map Traced.line
    let (start, whitespace) ← locate path ordinal hunk lines
    let size := hunk.oldPattern.length
    let fresh ← replacement path ordinal whitespace ((lines.drop start).take size) hunk.lines
    markedFrom path (ordinal + 1)
      (content.take start ++ fresh.map .fresh ++ content.drop (start + size)) rest

def marked (path original : Text) (hunks : List Hunk) : Except PatchError (List Traced) :=
  markedFrom path 1 (untouched original) hunks

/-- The text is made of these lines: those that are kept end as they did, those that are fresh
end somehow, and only the last of them may lack an end. -/
inductive Shows : List Traced → Text → Prop
  | done : Shows [] []
  | kept {line : Text} {stop : LineEnd} {rest : List Traced} {text : Text} (after : Shows rest text) :
      Shows (.kept line stop :: rest) (line ++ stop.text ++ text)
  | fresh {line : Text} {stop : LineEnd} {rest : List Traced} {text : Text}
      (ends : stop ≠ .missing) (after : Shows rest text) :
      Shows (.fresh line :: rest) (line ++ stop.text ++ text)
  | last {line : Text} : Shows [.fresh line] line

theorem untouched_lines (original : Text) :
    (untouched original).map Traced.line = splitlines original := by
  rw [untouched, List.map_map, ← ended_lines]
  rfl

/-- The lines are those of `_apply_hunks`. -/
theorem markedFrom_lines (path : Text) : ∀ (hunks : List Hunk) (ordinal : Nat)
    (displacement : Int) (content : List Traced) (lines : List Text) (repairs : List Repair),
    applyHunksFrom path ordinal displacement (content.map Traced.line) hunks =
        .ok (lines, repairs) →
      ∃ result, markedFrom path ordinal content hunks = .ok result ∧
        result.map Traced.line = lines := by
  intro hunks
  induction hunks with
  | nil =>
    intro ordinal displacement content lines repairs applied
    cases applied
    exact ⟨content, rfl, rfl⟩
  | cons hunk rest ih =>
    intro ordinal displacement content lines repairs applied
    rw [applyHunksFrom] at applied
    obtain ⟨⟨start, whitespace⟩, located, atPlace⟩ := bind_ok applied
    obtain ⟨new, replaced, written⟩ := bind_ok atPlace
    obtain ⟨⟨later, more⟩, run, done⟩ := bind_ok written
    cases done
    have moved : (content.take start ++ new.map Traced.fresh ++
          content.drop (start + hunk.oldPattern.length)).map Traced.line =
        (content.map Traced.line).take start ++ new ++
          (content.map Traced.line).drop (start + hunk.oldPattern.length) := by
      simp [Function.comp_def, Traced.line]
    rw [← moved] at run
    obtain ⟨result, here, same⟩ := ih _ _ _ _ _ run
    refine ⟨result, ?_, same⟩
    rw [markedFrom, located]
    change (replacement path ordinal whitespace _ hunk.lines >>= _) = _
    rw [replaced]
    exact here

/-- Closing the lines with the newline rule of `_apply_hunks`. -/
theorem joinText_unlines (original : Text) (content : List Text) :
    joinText content (endsWith original ['\n'] || decide (content ≠ [])) = unlines content := by
  unfold joinText
  split
  · rename_i empty
    rw [empty]
    rfl
  · rename_i filled
    have newline : (endsWith original ['\n'] || decide (content ≠ [])) = true := by
      simp [filled]
    rw [newline, if_pos rfl, join_newline content filled]

theorem marked_lines {path original result : Text} {hunks : List Hunk} {repairs : List Repair}
    (applied : applyHunks path original hunks = .ok (result, repairs)) :
    ∃ lines, marked path original hunks = .ok lines ∧ result = unlines (lines.map Traced.line) := by
  obtain ⟨⟨content, more⟩, run, done⟩ := bind_ok applied
  rw [← untouched_lines] at run
  obtain ⟨lines, here, same⟩ := markedFrom_lines path hunks _ _ _ _ _ run
  refine ⟨lines, here, ?_⟩
  rw [same, ← joinText_unlines original content]
  cases done
  rfl

section Shown

theorem Shows.count_le {lines : List Traced} {text : Text} (shown : Shows lines text) :
    text.count '\n' ≤ (lines.map Traced.line).flatten.count '\n' + lines.length := by
  induction shown with
  | done => simp
  | @kept line stop rest text after ih =>
    have one := stop.count_text
    simp only [List.count_append, List.map_cons, List.flatten_cons, List.length_cons, Traced.line]
    omega
  | @fresh line stop rest text ends after ih =>
    have one := stop.count_text
    simp only [List.count_append, List.map_cons, List.flatten_cons, List.length_cons, Traced.line]
    omega
  | last => simp [Traced.line]

/-- An end that the line feeds leave room for is a line feed. -/
theorem stop_of_unlines {stop : LineEnd} {rest : List Traced} {text : Text}
    (shown : Shows rest text)
    (same : '\n' :: unlines (rest.map Traced.line) = stop.text ++ text) :
    stop = .lineFeed ∧ text = unlines (rest.map Traced.line) := by
  cases stop with
  | missing =>
    have few := shown.count_le
    have more := count_unlines (rest.map Traced.line)
    have here := congrArg (List.count '\n') same
    simp only [LineEnd.text, List.nil_append, List.count_cons_self] at here
    rw [List.length_map] at more
    omega
  | single c breaks =>
    obtain ⟨rfl, rfl⟩ := List.cons.inj same
    exact ⟨rfl, rfl⟩
  | crlf => cases (List.cons.inj same).1

theorem shows_unlines_iff (lines : List Traced) :
    Shows lines (unlines (lines.map Traced.line)) ↔
      ∀ line stop, .kept line stop ∈ lines → stop = .lineFeed := by
  induction lines with
  | nil => exact ⟨fun _ _ _ here => (List.not_mem_nil here).elim, fun _ => .done⟩
  | cons first rest ih =>
    have text : unlines ((first :: rest).map Traced.line) =
        first.line ++ ('\n' :: unlines (rest.map Traced.line)) := by
      simp [unlines]
    constructor
    · intro shown
      generalize whole : unlines ((first :: rest).map Traced.line) = t at shown
      rw [text] at whole
      cases shown with
      | @kept line stop _ later after =>
        rw [Traced.line, List.append_assoc] at whole
        obtain ⟨rfl, rfl⟩ := stop_of_unlines after (List.append_cancel_left whole)
        intro line' stop' here
        rcases List.mem_cons.mp here with same | here
        · exact (Traced.kept.inj same).2
        · exact ih.mp after line' stop' here
      | @fresh line stop _ later ends after =>
        rw [Traced.line, List.append_assoc] at whole
        obtain ⟨rfl, rfl⟩ := stop_of_unlines after (List.append_cancel_left whole)
        intro line' stop' here
        rcases List.mem_cons.mp here with same | here
        · cases same
        · exact ih.mp after line' stop' here
      | last =>
        intro line' stop' here
        cases List.mem_singleton.mp here
    · intro feeds
      have after := ih.mpr fun line stop here => feeds line stop (List.mem_cons_of_mem _ here)
      rw [text]
      cases first with
      | kept line stop =>
        obtain rfl := feeds line stop List.mem_cons_self
        have shown := @Shows.kept line .lineFeed _ _ after
        rw [List.append_assoc] at shown
        exact shown
      | fresh line =>
        have shown := @Shows.fresh line .lineFeed _ _ (by decide) after
        rw [List.append_assoc] at shown
        exact shown

end Shown

end RepoForge

/-!
## Hunks at their declared places

What it means that hunks fit a file where their headers say, what the file becomes then, and what
`_apply_hunks` makes of it: it finds a hunk by its old lines, and a hunk that has none goes on top
of whatever is there.
-/
namespace RepoForge

open PyText

namespace Hunk

/-- How many lines of the file stand before the hunk. A hunk without old lines names the line that
it follows. -/
def position (hunk : Hunk) : Nat :=
  if hunk.oldPattern = [] then hunk.oldStart else hunk.oldStart - 1

def stop (hunk : Hunk) : Nat := hunk.position + hunk.oldPattern.length

/-- The lines of a hunk that stand in the new file. -/
def newLines (hunk : Hunk) : List Text :=
  hunk.lines.filterMap fun line => match line with
    | ' ' :: value | '+' :: value => some value
    | _ => none

/-- Each line has one of the marks of a unified diff. -/
def WellMarked (hunk : Hunk) : Prop :=
  ∀ line ∈ hunk.lines, ∃ mark value, line = mark :: value ∧
    (mark = ' ' ∨ mark = '-' ∨ mark = '+' ∨ mark = '\\')

/-- The old lines are those of the file at the place that the header names. -/
structure FitsAt (content : List Text) (done : Nat) (hunk : Hunk) : Prop where
  marked : hunk.WellMarked
  numbered : hunk.oldPattern ≠ [] → 0 < hunk.oldStart
  ordered : done ≤ hunk.position
  inside : hunk.stop ≤ content.length
  here : (content.drop hunk.position).take hunk.oldPattern.length = hunk.oldPattern

end Hunk

/-- The hunks fit one after another, without overlap. -/
def Fits (content : List Text) : Nat → List Hunk → Prop
  | _, [] => True
  | done, hunk :: rest => hunk.FitsAt content done ∧ Fits content hunk.stop rest

/-- The lines from `done` on, with every hunk applied at its place. -/
def atDeclared (content : List Text) : Nat → List Hunk → List Text
  | done, [] => content.drop done
  | done, hunk :: rest =>
    (content.drop done).take (hunk.position - done) ++ hunk.newLines ++
      atDeclared content hunk.stop rest

/-- The text with the hunks at their places, closed as `_apply_hunks` closes it. -/
def declaredText (original : Text) (hunks : List Hunk) : Text :=
  let content := atDeclared (splitlines original) 0 hunks
  joinText content (endsWith original ['\n'] || content ≠ [])

def anchored (hunks : List Hunk) : List Hunk := hunks.filter fun hunk => hunk.oldPattern ≠ []

def insertions (hunks : List Hunk) : List Hunk := hunks.filter fun hunk => hunk.oldPattern = []

/-- The blocks of the hunks without old lines, the last first, then the given front, then the
lines from `done` on with the other hunks at their places. -/
def movedFrom (front content : List Text) (done : Nat) (hunks : List Hunk) : List Text :=
  (insertions hunks).reverse.flatMap Hunk.newLines ++ front ++
    atDeclared content done (anchored hunks)

def moved (content : List Text) (hunks : List Hunk) : List Text := movedFrom [] content 0 hunks

def AmbiguousFrom (front content : List Text) (done : Nat) (hunks : List Hunk) : Prop :=
  ∃ before hunk after, hunks = before ++ hunk :: after ∧ hunk.oldPattern ≠ [] ∧
    1 < (candidateStarts (movedFrom front content done before) hunk.oldPattern false).length

/-- The old lines of some hunk stand more than once in the file that its turn finds. -/
def Ambiguous (content : List Text) (hunks : List Hunk) : Prop := AmbiguousFrom [] content 0 hunks

theorem Fits.mono {content : List Text} {done done' : Nat} {hunks : List Hunk} (le : done' ≤ done)
    (fits : Fits content done hunks) : Fits content done' hunks := by
  cases hunks with
  | nil => trivial
  | cons hunk rest =>
    obtain ⟨this, later⟩ := fits
    exact ⟨{ this with ordered := Nat.le_trans le this.ordered }, later⟩

section Moved

variable (front content : List Text) (done : Nat)

theorem movedFrom_nil : movedFrom front content done [] = front ++ content.drop done := rfl

theorem movedFrom_insertion {hunk : Hunk} (rest : List Hunk) (bare : hunk.oldPattern = []) :
    movedFrom front content done (hunk :: rest) =
      movedFrom (hunk.newLines ++ front) content done rest := by
  simp [movedFrom, insertions, anchored, bare]

theorem movedFrom_anchored {hunk : Hunk} (rest : List Hunk) (filled : hunk.oldPattern ≠ []) :
    movedFrom front content done (hunk :: rest) =
      movedFrom (front ++ (content.drop done).take (hunk.position - done) ++ hunk.newLines) content
        hunk.stop rest := by
  simp [movedFrom, insertions, anchored, filled, atDeclared]

theorem ambiguousFrom_nil : ¬AmbiguousFrom front content done [] := by
  intro ⟨before, hunk, after, split, _⟩
  cases before <;> cases split

theorem ambiguousFrom_insertion {hunk : Hunk} {rest : List Hunk} (bare : hunk.oldPattern = []) :
    AmbiguousFrom front content done (hunk :: rest) ↔
      AmbiguousFrom (hunk.newLines ++ front) content done rest := by
  constructor
  · intro ⟨before, this, after, split, filled, several⟩
    cases before with
    | nil =>
      cases split
      exact absurd bare filled
    | cons first before =>
      obtain ⟨rfl, rfl⟩ := List.cons.inj split
      rw [movedFrom_insertion front content done before bare] at several
      exact ⟨before, this, after, rfl, filled, several⟩
  · intro ⟨before, this, after, split, filled, several⟩
    rw [← movedFrom_insertion front content done before bare] at several
    exact ⟨hunk :: before, this, after, by rw [split, List.cons_append], filled, several⟩

theorem ambiguousFrom_anchored {hunk : Hunk} {rest : List Hunk} (filled : hunk.oldPattern ≠ []) :
    AmbiguousFrom front content done (hunk :: rest) ↔
      1 < (candidateStarts (front ++ content.drop done) hunk.oldPattern false).length ∨
      AmbiguousFrom (front ++ (content.drop done).take (hunk.position - done) ++ hunk.newLines)
        content hunk.stop rest := by
  constructor
  · intro ⟨before, this, after, split, filled', several⟩
    cases before with
    | nil =>
      cases split
      exact .inl several
    | cons first before =>
      obtain ⟨rfl, rfl⟩ := List.cons.inj split
      rw [movedFrom_anchored front content done before filled] at several
      exact .inr ⟨before, this, after, rfl, filled', several⟩
  · intro either
    rcases either with several | ⟨before, this, after, split, filled', several⟩
    · exact ⟨[], hunk, rest, rfl, filled, several⟩
    · rw [← movedFrom_anchored front content done before filled] at several
      exact ⟨hunk :: before, this, after, by rw [split, List.cons_append], filled', several⟩

end Moved

/-- Where every hunk has old lines, nothing is moved. -/
theorem moved_of_anchored {content : List Text} {hunks : List Hunk}
    (all : ∀ hunk ∈ hunks, hunk.oldPattern ≠ []) : moved content hunks = atDeclared content 0 hunks := by
  have none : insertions hunks = [] := by
    rw [insertions, List.filter_eq_nil_iff]
    intro hunk here
    simpa using all hunk here
  have every : anchored hunks = hunks := by
    rw [anchored, List.filter_eq_self]
    intro hunk here
    simpa using all hunk here
  rw [moved, movedFrom, none, every]
  rfl

section Applied

theorem eq_singleton_of_mem {α : Type} {l : List α} {a : α} (here : a ∈ l) (few : ¬1 < l.length) :
    l = [a] := by
  match l, here, few with
  | [b], here, _ => rw [List.mem_singleton.mp here]
  | _ :: _ :: _, _, few =>
    simp only [List.length_cons] at few
    omega

theorem candidateStarts_nil (content : List Text) (whitespace : Bool) :
    candidateStarts content [] whitespace = [0] := if_pos rfl

/-- Without white space to normalise, the lines that a hunk writes are its own. -/
theorem replacement_wellMarked (path : Text) (ordinal : Nat) : ∀ (lines matched : List Text),
    (∀ line ∈ lines, ∃ mark value, line = mark :: value ∧
      (mark = ' ' ∨ mark = '-' ∨ mark = '+' ∨ mark = '\\')) →
    replacement path ordinal false matched lines = .ok (lines.filterMap fun line => match line with
      | ' ' :: value | '+' :: value => some value
      | _ => none) := by
  intro lines
  induction lines with
  | nil =>
    intro matched _
    unfold replacement
    rfl
  | cons line rest ih =>
    intro matched marked
    have later := fun matched =>
      ih matched fun line here => marked line (List.mem_cons_of_mem _ here)
    obtain ⟨mark, value, rfl, kind⟩ := marked line List.mem_cons_self
    rcases kind with rfl | rfl | rfl | rfl
    · rw [replacement, later (matched.drop 1)]
      rfl
    · rw [replacement, later (matched.drop 1)]
      rfl
    · rw [replacement, later matched]
      rfl
    · rw [replacement, later matched]
      rfl

/-- Where a hunk fits, the file that its turn finds is split around its old lines. -/
theorem Hunk.FitsAt.split {front content : List Text} {done : Nat} {hunk : Hunk}
    (fits : hunk.FitsAt content done) :
    front ++ content.drop done = front ++ (content.drop done).take (hunk.position - done) ++
      hunk.oldPattern ++ content.drop hunk.stop := by
  have behind : (content.drop done).drop (hunk.position - done) = content.drop hunk.position := by
    rw [List.drop_drop]
    congr 1
    have := fits.ordered
    omega
  have after : (content.drop hunk.position).drop hunk.oldPattern.length = content.drop hunk.stop := by
    rw [List.drop_drop]
    rfl
  have old : content.drop hunk.position = hunk.oldPattern ++ content.drop hunk.stop := by
    calc content.drop hunk.position
        = (content.drop hunk.position).take hunk.oldPattern.length ++
            (content.drop hunk.position).drop hunk.oldPattern.length :=
          (List.take_append_drop _ _).symm
      _ = hunk.oldPattern ++ content.drop hunk.stop := by rw [fits.here, after]
  calc front ++ content.drop done
      = front ++ ((content.drop done).take (hunk.position - done) ++
          content.drop hunk.position) := by rw [← behind, List.take_append_drop]
    _ = front ++ (content.drop done).take (hunk.position - done) ++ hunk.oldPattern ++
          content.drop hunk.stop := by rw [old]; simp only [List.append_assoc]

/-- One turn of the loop where the place is known. -/
theorem applyHunksFrom_step (path : Text) (ordinal : Nat) (displacement : Int) {hunk : Hunk}
    (rest : List Hunk) {before after : List Text} (marked : hunk.WellMarked)
    (found : candidateStarts (before ++ hunk.oldPattern ++ after) hunk.oldPattern false =
      [before.length]) :
    applyHunksFrom path ordinal displacement (before ++ hunk.oldPattern ++ after) (hunk :: rest) =
      (applyHunksFrom path (ordinal + 1)
        (displacement + hunk.newLines.length - hunk.oldPattern.length)
        (before ++ hunk.newLines ++ after) rest).map fun out =>
          (out.1, hunkRepairs hunk before.length false displacement ++ out.2) := by
  have located : locate path ordinal hunk (before ++ hunk.oldPattern ++ after) =
      .ok (before.length, false) := by
    simp only [locate, found]
  have front : (before ++ hunk.oldPattern ++ after).take before.length = before := by
    rw [List.append_assoc, List.take_left]
  have back : (before ++ hunk.oldPattern ++ after).drop (before.length + hunk.oldPattern.length) =
      after := by
    rw [← List.length_append, List.drop_left]
  rw [applyHunksFrom, located]
  change (replacement path ordinal false _ hunk.lines >>= _) = _
  rw [replacement_wellMarked path ordinal hunk.lines _ marked]
  change (applyHunksFrom path _ _ _ rest >>= _) = _
  rw [front, back]
  change (applyHunksFrom path (ordinal + 1)
    (displacement + hunk.newLines.length - hunk.oldPattern.length)
    (before ++ hunk.newLines ++ after) rest >>= _) = _
  cases applyHunksFrom path (ordinal + 1)
    (displacement + hunk.newLines.length - hunk.oldPattern.length)
    (before ++ hunk.newLines ++ after) rest <;> rfl

theorem applyHunksFrom_ambiguous (path : Text) (ordinal : Nat) (displacement : Int) {hunk : Hunk}
    (rest : List Hunk) {content : List Text}
    (several : 1 < (candidateStarts content hunk.oldPattern false).length) :
    ∃ e, applyHunksFrom path ordinal displacement content (hunk :: rest) = .error e ∧
      e.code = .contextAmbiguous := by
  have located : locate path ordinal hunk content = .error (.contextAmbiguous path ordinal
      hunk.header (candidateStarts content hunk.oldPattern false).length) := by
    generalize starts : candidateStarts content hunk.oldPattern false = candidates at several
    match candidates, several with
    | _ :: _ :: _, _ => simp only [locate, starts]
  have stops : applyHunksFrom path ordinal displacement content (hunk :: rest) =
      .error (.contextAmbiguous path ordinal hunk.header
        (candidateStarts content hunk.oldPattern false).length) := by
    rw [applyHunksFrom, located]
    rfl
  exact ⟨_, stops, rfl⟩

/-- Lines are found where they stand. -/
theorem mem_candidateStarts {before pattern after : List Text} (filled : pattern ≠ []) :
    before.length ∈ candidateStarts (before ++ pattern ++ after) pattern false := by
  rw [candidateStarts, if_neg filled]
  refine List.mem_filter.mpr ⟨?_, ?_⟩
  · rw [List.mem_range]
    simp only [List.length_append]
    omega
  · rw [List.append_assoc, List.drop_left, List.take_left]
    exact decide_eq_true rfl

/-- The loop over hunks that fit, behind the lines it has already written: it stops at the first
hunk whose old lines stand there more than once, and else moves up every hunk that has none. -/
theorem applyHunksFrom_moved (path : Text) (content : List Text) : ∀ (hunks : List Hunk)
    (ordinal : Nat) (displacement : Int) (front : List Text) (done : Nat),
    Fits content done hunks →
    (AmbiguousFrom front content done hunks ∧
      ∃ e, applyHunksFrom path ordinal displacement (front ++ content.drop done) hunks = .error e ∧
        e.code = .contextAmbiguous) ∨
    (¬AmbiguousFrom front content done hunks ∧
      ∃ repairs, applyHunksFrom path ordinal displacement (front ++ content.drop done) hunks =
        .ok (movedFrom front content done hunks, repairs)) := by
  intro hunks
  induction hunks with
  | nil =>
    intro ordinal displacement front done _
    exact .inr ⟨ambiguousFrom_nil front content done, [], rfl⟩
  | cons hunk rest ih =>
    intro ordinal displacement front done fits
    obtain ⟨this, later⟩ := fits
    by_cases bare : hunk.oldPattern = []
    · have found : candidateStarts ([] ++ hunk.oldPattern ++ (front ++ content.drop done))
          hunk.oldPattern false = [List.length ([] : List Text)] := by
        rw [bare, candidateStarts_nil]
        rfl
      have step := applyHunksFrom_step path ordinal displacement rest this.marked found
      rw [bare] at step
      simp only [List.nil_append] at step
      rw [ambiguousFrom_insertion front content done bare,
        movedFrom_insertion front content done rest bare, step, ← List.append_assoc]
      have below : done ≤ hunk.stop := Nat.le_trans this.ordered (Nat.le_add_right _ _)
      rcases ih (ordinal + 1) (displacement + hunk.newLines.length - List.length ([] : List Text))
        (hunk.newLines ++ front) done (later.mono below) with
        ⟨several, e, run, code⟩ | ⟨once, repairs, run⟩
      · exact .inl ⟨several, e, by rw [run]; rfl, code⟩
      · exact .inr ⟨once, _, by rw [run]; rfl⟩
    · rw [ambiguousFrom_anchored front content done bare,
        movedFrom_anchored front content done rest bare]
      by_cases several : 1 < (candidateStarts (front ++ content.drop done) hunk.oldPattern
        false).length
      · exact .inl ⟨.inl several, applyHunksFrom_ambiguous path ordinal displacement rest several⟩
      · have split := @Hunk.FitsAt.split front _ _ _ this
        have stands := @mem_candidateStarts (front ++ (content.drop done).take (hunk.position - done))
          _ (content.drop hunk.stop) bare
        rw [split] at several
        have found := eq_singleton_of_mem stands several
        have step := applyHunksFrom_step path ordinal displacement rest this.marked found
        rw [split, step]
        rcases ih (ordinal + 1) (displacement + hunk.newLines.length - hunk.oldPattern.length)
          (front ++ (content.drop done).take (hunk.position - done) ++ hunk.newLines) hunk.stop
          later with ⟨several', e, run, code⟩ | ⟨once, repairs, run⟩
        · exact .inl ⟨.inr several', e, by rw [run]; rfl, code⟩
        · exact .inr ⟨fun either => either.elim several once, _, by rw [run]; rfl⟩

/-- Hunks that fit are refused as ambiguous, or applied with those that have no old lines moved
to the top. -/
theorem applyHunks_moved (path : Text) {original : Text} {hunks : List Hunk}
    (fits : Fits (splitlines original) 0 hunks) :
    (Ambiguous (splitlines original) hunks ∧
      ∃ e, applyHunks path original hunks = .error e ∧ e.code = .contextAmbiguous) ∨
    (¬Ambiguous (splitlines original) hunks ∧
      ∃ repairs, applyHunks path original hunks =
        .ok (unlines (moved (splitlines original) hunks), repairs)) := by
  rw [applyHunks]
  rcases applyHunksFrom_moved path (splitlines original) hunks 1 0 [] 0 fits with
    ⟨several, e, run, code⟩ | ⟨once, repairs, run⟩
  · rw [List.nil_append, List.drop_zero] at run
    exact .inl ⟨several, e, by rw [run]; rfl, code⟩
  · rw [List.nil_append, List.drop_zero] at run
    refine .inr ⟨once, repairs, ?_⟩
    rw [run, ← joinText_unlines original (moved (splitlines original) hunks)]
    rfl

end Applied

end RepoForge
