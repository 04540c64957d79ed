import RepoForge.Library.PyText
import RepoForge.Library.PurePath

/-!
# Lines with their ends

`splitlines` forgets how each line ended. Here a text is taken apart into its lines and what ends
each of them, so that the text can be put together again.
-/
namespace RepoForge.PyText

/-- What ends a line: a line break, the two characters of CR LF, or the end of the text. -/
inductive LineEnd where
  | missing
  | single (c : Char) (breaks : isLineBreak c = true)
  | crlf
  deriving DecidableEq, Repr

namespace LineEnd

def text : LineEnd → Text
  | missing => []
  | single c _ => [c]
  | crlf => ['\r', '\n']

def lineFeed : LineEnd := single '\n' (by decide)

theorem count_text (stop : LineEnd) : stop.text.count '\n' ≤ 1 := by
  cases stop with
  | missing => simp [text]
  | single c _ => simpa [text] using List.count_le_length (a := '\n') (l := [c])
  | crlf => decide

end LineEnd

/-- The lines of a text and their ends, with the characters of the current line, the last
first. -/
def endedFrom (current : Text) : Text → List (Text × LineEnd)
  | [] => if current = [] then [] else [(current.reverse, .missing)]
  | '\r' :: '\n' :: rest => (current.reverse, .crlf) :: endedFrom [] rest
  | c :: rest =>
    if breaks : isLineBreak c = true then (current.reverse, .single c breaks) :: endedFrom [] rest
    else endedFrom (c :: current) rest

def ended (t : Text) : List (Text × LineEnd) := endedFrom [] t

theorem endedFrom_lines (current t : Text) :
    (endedFrom current t).map Prod.fst = linesFrom current t := by
  fun_induction endedFrom current t with
  | case1 => rfl
  | case2 current empty => simp [linesFrom, empty]
  | case3 current rest ih =>
    rw [List.map_cons, ih, linesFrom, if_pos ⟨rfl, rfl⟩, linesFrom, if_neg (by simp),
      if_pos (by decide)]
  | case4 current c rest other breaks ih =>
    have alone : ¬(c = '\r' ∧ rest.head? = some '\n') := by
      rintro ⟨cr, lf⟩
      obtain ⟨tail, same⟩ := List.head?_eq_some_iff.mp lf
      exact other tail cr same
    rw [List.map_cons, ih, linesFrom, if_neg alone, if_pos breaks]
  | case5 current c rest other inside ih =>
    have alone : ¬(c = '\r' ∧ rest.head? = some '\n') := by
      rintro ⟨cr, lf⟩
      obtain ⟨tail, same⟩ := List.head?_eq_some_iff.mp lf
      exact other tail cr same
    rw [ih, linesFrom, if_neg alone, if_neg inside]

theorem ended_lines (t : Text) : (ended t).map Prod.fst = splitlines t := endedFrom_lines [] t

theorem count_unlines (lines : List Text) :
    (unlines lines).count '\n' = lines.flatten.count '\n' + lines.length := by
  induction lines with
  | nil => rfl
  | cons line lines ih =>
    rw [unlines] at ih
    simp only [unlines, List.flatMap_cons, List.count_append, List.flatten_cons, List.length_cons,
      List.count_singleton_self, ih]
    omega

/-- The text ends in a line break. -/
def closed (t : Text) : Bool := t.getLast?.any isLineBreak

theorem closed_unlines {lines : List Text} (filled : lines ≠ []) : closed (unlines lines) = true := by
  obtain ⟨front, last, rfl⟩ := List.eq_nil_or_concat lines |>.resolve_left filled
  simp [closed, unlines, isLineBreak]

end RepoForge.PyText

/-!
## Lines that are not blank

`nonBlank` is the loop over `text.splitlines()` that strips each line and passes over the empty
ones. A text split at its newlines first has the same lines (`nonBlank_splitOn`), and a stripped
line is the only one of its own exactly where it has no other line break (`nonBlank_strip_iff`).
-/
namespace RepoForge.PyText

def nonBlankOf (lines : List Text) : List Text := (lines.map strip).filter fun line => line ≠ []

def nonBlank (t : Text) : List Text := nonBlankOf (splitlines t)

section Strip
variable {c : Char} {t : Text}

theorem strip_space_cons (space : isSpace c = true) : strip (c :: t) = strip t := by
  simp [strip, space]

theorem strip_eq_nil : strip t = [] ↔ ∀ c ∈ t, isSpace c = true := by
  induction t with
  | nil => simp [strip]
  | cons c rest ih =>
    cases first : isSpace c with
    | true => simp [strip_space_cons first, ih, first]
    | false => simp [strip, List.rdropWhile_eq_nil_iff, first]

theorem strip_concat_space (space : isSpace c = true) : strip (t ++ [c]) = strip t := by
  induction t with
  | nil => simp [strip, space]
  | cons d rest ih =>
    cases first : isSpace d with
    | true => rw [List.cons_append, strip_space_cons first, strip_space_cons first, ih]
    | false =>
      rw [strip, strip, List.cons_append, List.dropWhile_cons_of_neg (by simp [first]),
        List.dropWhile_cons_of_neg (by simp [first]), ← List.cons_append,
        List.rdropWhile_concat_pos _ _ _ space]

/-- The white space around a text, apart from it. -/
theorem strip_apart (t : Text) : ∃ front back, (∀ c ∈ front, isSpace c = true) ∧
    (∀ c ∈ back, isSpace c = true) ∧ t = front ++ (strip t ++ back) := by
  refine ⟨t.takeWhile isSpace, (t.dropWhile isSpace).rtakeWhile isSpace,
    fun c here => List.mem_takeWhile_imp here, fun c here => List.mem_rtakeWhile_imp here, ?_⟩
  rw [strip, List.rdropWhile_append_rtakeWhile, List.takeWhile_append_dropWhile]

/-- A stripped text begins and ends with no white space. -/
theorem strip_ends (full : strip t ≠ []) : (∃ c rest, strip t = c :: rest ∧ isSpace c = false) ∧
    ∃ c begun, strip t = begun ++ [c] ∧ isSpace c = false := by
  constructor
  · induction t with
    | nil => simp [strip] at full
    | cons c rest ih =>
      cases first : isSpace c with
      | true =>
        rw [strip_space_cons first] at full ⊢
        exact ih full
      | false =>
        have kept : (c :: rest).dropWhile isSpace = c :: rest := by simp [first]
        have begins : strip (c :: rest) <+: c :: rest := by
          rw [strip, kept]
          exact List.rdropWhile_prefix _ _
        obtain ⟨back, whole⟩ := begins
        cases shown : strip (c :: rest) with
        | nil => exact absurd shown full
        | cons d inner =>
          rw [shown] at whole
          cases whole
          exact ⟨c, inner, rfl, first⟩
  · refine ⟨(strip t).getLast full, (strip t).dropLast,
      (List.dropLast_append_getLast full).symm, ?_⟩
    exact Bool.not_eq_true _ ▸ List.rdropWhile_last_not isSpace (t.dropWhile isSpace) full

theorem strip_strip : strip (strip t) = strip t := by
  by_cases full : strip t = []
  · rw [full]
    rfl
  · obtain ⟨⟨c, rest, begins, first⟩, d, begun, ends, last⟩ := strip_ends full
    have kept : (strip t).dropWhile isSpace = strip t := by rw [begins]; simp [first]
    rw [strip, kept, ends]
    exact List.rdropWhile_concat_neg _ _ _ (by simp [last])

theorem mem_of_mem_strip (here : c ∈ strip t) : c ∈ t :=
  (List.dropWhile_suffix _).subset ((List.rdropWhile_prefix _ _).subset here)

end Strip

section Pieces
variable {c : Char} {t current : Text} {parts : List Text}

theorem linesFrom_cons {rest : Text} (other : '\r' ≠ c) : linesFrom current (c :: rest) =
    if isLineBreak c then current.reverse :: linesFrom [] rest else linesFrom (c :: current) rest := by
  rw [linesFrom, if_neg fun both => other both.1.symm]

theorem nonBlankOf_cons {line : Text} {lines : List Text} :
    nonBlankOf (line :: lines) =
      if strip line = [] then nonBlankOf lines else strip line :: nonBlankOf lines := by
  by_cases blank : strip line = [] <;> simp [nonBlankOf, blank]

theorem nonBlankOf_end : nonBlankOf (linesFrom current []) = nonBlankOf [current.reverse] := by
  by_cases empty : current = []
  · simp [empty, linesFrom, nonBlankOf, strip]
  · simp [linesFrom, empty]

/-- White space before the current line. -/
theorem nonBlankOf_front (clean : '\r' ∉ t) (space : isSpace c = true) :
    nonBlankOf (linesFrom (current ++ [c]) t) = nonBlankOf (linesFrom current t) := by
  induction t generalizing current with
  | nil =>
    rw [nonBlankOf_end, nonBlankOf_end, nonBlankOf_cons, nonBlankOf_cons]
    simp [strip_space_cons space]
  | cons d rest ih =>
    obtain ⟨other, clean⟩ : ¬ '\r' = d ∧ '\r' ∉ rest := by simpa using clean
    rw [linesFrom_cons other, linesFrom_cons other]
    cases isLineBreak d with
    | true =>
      simp only [if_true, nonBlankOf_cons]
      simp [strip_space_cons space]
    | false => simpa using @ih (d :: current) clean

/-- A line break at which no `\r\n` goes on ends the lines before it. -/
theorem nonBlankOf_break {b : Char} {first rest : Text} (clean : '\r' ∉ first)
    (other : b ≠ '\r') (ends : isLineBreak b = true) :
    nonBlankOf (linesFrom current (first ++ b :: rest)) =
      nonBlankOf (linesFrom current first) ++ nonBlank rest := by
  induction first generalizing current with
  | nil =>
    rw [nonBlankOf_end, List.nil_append, linesFrom_cons other.symm, if_pos ends, nonBlankOf_cons,
      nonBlankOf_cons]
    split <;> simp [nonBlankOf, nonBlank, splitlines]
  | cons d first ih =>
    obtain ⟨other', clean⟩ : ¬ '\r' = d ∧ '\r' ∉ first := by simpa using clean
    rw [List.cons_append, linesFrom_cons other', linesFrom_cons other']
    cases isLineBreak d with
    | true =>
      rw [if_pos rfl, if_pos rfl, nonBlankOf_cons, nonBlankOf_cons, ih clean]
      split <;> simp
    | false => simpa using @ih (d :: current) clean

theorem nonBlank_break {b : Char} {first rest : Text} (clean : '\r' ∉ first) (other : b ≠ '\r')
    (ends : isLineBreak b = true) : nonBlank (first ++ b :: rest) = nonBlank first ++ nonBlank rest :=
  nonBlankOf_break clean other ends

theorem nonBlank_space_cons (clean : '\r' ∉ c :: t) (space : isSpace c = true) :
    nonBlank (c :: t) = nonBlank t := by
  obtain ⟨other, clean⟩ : ¬ '\r' = c ∧ '\r' ∉ t := by simpa using clean
  rw [nonBlank, splitlines, linesFrom_cons other]
  cases isLineBreak c with
  | true => simp [nonBlankOf_cons, strip, nonBlank, splitlines]
  | false => exact @nonBlankOf_front c t [] clean space

theorem nonBlankOf_back (clean : '\r' ∉ t) (other : c ≠ '\r') (space : isSpace c = true) :
    nonBlankOf (linesFrom current (t ++ [c])) = nonBlankOf (linesFrom current t) := by
  cases ends : isLineBreak c with
  | true =>
    rw [nonBlankOf_break clean other ends]
    simp [nonBlank, splitlines, linesFrom, nonBlankOf]
  | false =>
    induction t generalizing current with
    | nil =>
      rw [List.nil_append, linesFrom_cons other.symm, ends]
      simp [nonBlankOf_end, nonBlankOf_cons, strip_concat_space space]
    | cons d rest ih =>
      obtain ⟨other', clean⟩ : ¬ '\r' = d ∧ '\r' ∉ rest := by simpa using clean
      rw [List.cons_append, linesFrom_cons other', linesFrom_cons other']
      cases isLineBreak d with
      | true => rw [if_pos rfl, if_pos rfl, nonBlankOf_cons, nonBlankOf_cons, ih clean]
      | false => simpa using @ih (d :: current) clean

/-- The white space around a text holds no line of it. -/
theorem nonBlank_strip (clean : '\r' ∉ t) : nonBlank (strip t) = nonBlank t := by
  obtain ⟨front, back, before, behind, whole⟩ := strip_apart t
  have trimmed : ∀ back : Text, (∀ c ∈ back, isSpace c = true) → '\r' ∉ strip t ++ back →
      nonBlank (strip t ++ back) = nonBlank (strip t) := by
    intro back spaces clean
    induction back using List.reverseRecOn with
    | nil => simp
    | append_singleton back c ih =>
      simp only [List.mem_append, List.mem_singleton, not_or] at clean
      rw [← List.append_assoc, nonBlank, splitlines,
        nonBlankOf_back (by simp [clean]) (Ne.symm clean.2.2) (spaces c (by simp))]
      exact ih (fun d here => spaces d (by simp [here])) (by simp [clean])
  have led : ∀ front : Text, (∀ c ∈ front, isSpace c = true) →
      '\r' ∉ front ++ (strip t ++ back) →
      nonBlank (front ++ (strip t ++ back)) = nonBlank (strip t ++ back) := by
    intro front spaces clean
    induction front with
    | nil => rfl
    | cons c front ih =>
      rw [List.cons_append] at clean ⊢
      rw [nonBlank_space_cons clean (spaces c (by simp))]
      exact ih (fun d here => spaces d (by simp [here])) fun here => clean (by simp [here])
  rw [whole] at clean
  have apart : nonBlank t = nonBlank (front ++ (strip t ++ back)) := congrArg nonBlank whole
  rw [apart, led front before clean, trimmed back behind fun here => clean (by simp [here])]

theorem nonBlankOf_line (clean : OneLine t) :
    nonBlankOf (linesFrom current t) = nonBlankOf [current.reverse ++ t] := by
  induction t generalizing current with
  | nil => rw [nonBlankOf_end, List.append_nil]
  | cons c rest ih =>
    have inside : isLineBreak c = false := clean c (by simp)
    rw [linesFrom_cons (ne_of_isLineBreak inside (by decide)).symm, inside,
      if_neg Bool.false_ne_true, ih (oneLine_tail clean)]
    simp

theorem nonBlank_line (clean : OneLine t) (full : strip t ≠ []) : nonBlank t = [strip t] := by
  rw [nonBlank, splitlines, nonBlankOf_line clean, List.reverse_nil, List.nil_append,
    nonBlankOf_cons, if_neg full]
  rfl

/-- A text with something on it has a line that is not blank. -/
theorem nonBlankOf_ne_nil (clean : '\r' ∉ t) (full : strip (current.reverse ++ t) ≠ []) :
    nonBlankOf (linesFrom current t) ≠ [] := by
  induction t generalizing current with
  | nil =>
    rw [nonBlankOf_end, nonBlankOf_cons, if_neg (by simpa using full)]
    simp
  | cons c rest ih =>
    obtain ⟨other, clean⟩ : ¬ '\r' = c ∧ '\r' ∉ rest := by simpa using clean
    rw [linesFrom_cons other]
    cases ends : isLineBreak c with
    | true =>
      rw [if_pos rfl, nonBlankOf_cons]
      split
      · apply ih clean
        -- what is on the text is after the break
        intro none
        rename_i blank
        rw [strip_eq_nil] at blank none
        apply full
        rw [strip_eq_nil]
        intro d here
        simp only [List.mem_append, List.mem_cons] at here
        rcases here with before | rfl | after
        · exact blank d before
        · exact isSpace_of_isLineBreak ends
        · exact none d (by simpa using after)
      · simp
    | false => simpa using @ih (c :: current) clean (by simpa using full)

theorem nonBlank_ne_nil (clean : '\r' ∉ t) (full : strip t ≠ []) : nonBlank t ≠ [] :=
  @nonBlankOf_ne_nil t [] clean full

/-- A line break inside a stripped text leaves it two lines at least. -/
theorem nonBlank_broken (clean : '\r' ∉ t) (broken : ¬ OneLine (strip t)) :
    2 ≤ (nonBlank t).length := by
  have full : strip t ≠ [] := by
    intro none
    exact broken (none ▸ oneLine_nil)
  obtain ⟨⟨c, rest, begins, first⟩, d, begun, ends, last⟩ := strip_ends full
  obtain ⟨b, here, breaks⟩ : ∃ b ∈ strip t, isLineBreak b = true := by
    simpa [OneLine] using broken
  obtain ⟨before, after, whole⟩ := List.append_of_mem here
  have kept : '\r' ∉ strip t := fun there => clean (mem_of_mem_strip there)
  have firstFull : strip before ≠ [] := by
    cases before with
    | nil =>
      rw [whole] at begins
      cases begins
      rw [isSpace_of_isLineBreak breaks] at first
      cases first
    | cons e before =>
      rw [whole] at begins
      cases begins
      intro none
      rw [strip_eq_nil] at none
      rw [none c (by simp)] at first
      cases first
  have lastFull : strip after ≠ [] := by
    rw [whole] at ends
    cases after using List.reverseRecOn with
    | nil =>
      obtain ⟨-, same⟩ := List.append_inj' ends rfl
      cases same
      rw [isSpace_of_isLineBreak breaks] at last
      cases last
    | append_singleton after e =>
      rw [← List.cons_append, ← List.append_assoc] at ends
      obtain ⟨-, same⟩ := List.append_inj' ends rfl
      cases same
      intro none
      rw [strip_eq_nil] at none
      rw [none d (by simp)] at last
      cases last
  rw [whole] at kept
  simp only [List.mem_append, List.mem_cons, not_or] at kept
  have parts := @nonBlank_break b before after kept.1 (Ne.symm kept.2.1) breaks
  rw [← whole, nonBlank_strip clean] at parts
  have one := List.length_pos_iff.mpr (nonBlank_ne_nil kept.1 firstFull)
  have two := List.length_pos_iff.mpr (nonBlank_ne_nil kept.2.2 lastFull)
  rw [parts, List.length_append]
  omega

theorem nonBlank_oneLine {line : Text} (here : line ∈ nonBlank t) : OneLine line := by
  obtain ⟨raw, inside, rfl⟩ := List.mem_map.mp (List.mem_of_mem_filter here)
  exact fun c there => splitlines_oneLine t raw inside c (mem_of_mem_strip there)

theorem nonBlank_join (clean : ∀ part ∈ parts, '\r' ∉ part) :
    nonBlank (join ['\n'] parts) = parts.flatMap nonBlank := by
  induction parts with
  | nil => rfl
  | cons first rest ih =>
    cases rest with
    | nil => simp [join]
    | cons second rest =>
      have apart : join ['\n'] (first :: second :: rest) =
          first ++ '\n' :: join ['\n'] (second :: rest) := by
        simp [join, List.intercalate]
      rw [apart, nonBlank_break (clean first (by simp)) (by decide) (by decide),
        ih fun part here => clean part (List.mem_cons_of_mem _ here)]
      rfl

/-- Splitting at the newlines first makes no difference. -/
theorem nonBlank_splitOn (clean : '\r' ∉ t) :
    nonBlank t = (t.splitOn '\n').flatMap nonBlank := by
  have parts : ∀ part ∈ t.splitOn '\n', '\r' ∉ part := fun part here there =>
    clean (PurePath.mem_of_mem_splitOn here there)
  rw [← nonBlank_join parts, join, List.intercalate_splitOn]

end Pieces
end RepoForge.PyText
