import RepoForge.Source.Audit.AuditLog

/-!
# Pruning goes through every line

A log is pruned to the lines that are JSON objects with a timestamp that has an offset and is not
before the cutoff exactly where its bytes are UTF-8, no line of it breaks at a character other than
its newline, and no line is one at which the loop raises (`pruned_exactly_iff`).
-/
namespace RepoForge.AuditPrune
open PyStr (lit decode utf8 decode_utf8)
open PyText

section Lines

/-- The lines of a log, without the white space around them; a blank one is none. -/
def logLines (text : Text) : List Text := nonBlankOf ((universalNewlines text).splitOn '\n')

variable {text line : Text}

theorem universalNewlines_clean (text : Text) : '\r' ∉ universalNewlines text := by
  fun_induction universalNewlines text with
  | case1 rest ih => simpa using ih
  | case2 rest other ih => simpa using ih
  | case3 c rest pair single ih =>
    have ne : '\r' ≠ c := fun same => single same.symm
    simpa [ne] using ih
  | case4 => simp

theorem mem_logLines (here : line ∈ logLines text) :
    strip line = line ∧ line ≠ [] ∧ '\r' ∉ line ∧ '\n' ∉ line := by
  obtain ⟨there, full⟩ := List.mem_filter.mp here
  obtain ⟨raw, inside, rfl⟩ := List.mem_map.mp there
  refine ⟨strip_strip, by simpa using full, ?_, ?_⟩
  · intro at'
    exact universalNewlines_clean text (PurePath.mem_of_mem_splitOn inside (mem_of_mem_strip at'))
  · intro at'
    exact PurePath.not_mem_splitOn inside (mem_of_mem_strip at')

/-- What the loop goes through, by the lines of the log. -/
theorem nonBlank_logLines (text : Text) :
    nonBlank (universalNewlines text) = (logLines text).flatMap nonBlank := by
  rw [nonBlank_splitOn (universalNewlines_clean text), logLines]
  have clean : ∀ raw ∈ (universalNewlines text).splitOn '\n', '\r' ∉ raw := fun raw here there =>
    universalNewlines_clean text (PurePath.mem_of_mem_splitOn here there)
  revert clean
  induction (universalNewlines text).splitOn '\n' with
  | nil => simp [nonBlankOf]
  | cons raw rest ih =>
    intro clean
    rw [List.flatMap_cons, ih fun other here => clean other (List.mem_cons_of_mem _ here),
      nonBlankOf_cons, ← nonBlank_strip (clean raw (by simp))]
    split
    · rename_i blank
      rw [blank]
      rfl
    · rfl

/-- One line of a log is one of the loop exactly where it has no other line break. -/
theorem pieces_length (here : line ∈ logLines text) :
    1 ≤ (nonBlank line).length ∧ ((nonBlank line).length = 1 ↔ OneLine line) := by
  obtain ⟨stripped, full, clean, -⟩ := mem_logLines here
  have filled : strip line ≠ [] := by rwa [stripped]
  refine ⟨List.length_pos_iff.mpr (nonBlank_ne_nil clean filled), ?_⟩
  constructor
  · intro one
    by_contra broken
    have two := nonBlank_broken clean (by rwa [stripped])
    omega
  · intro whole
    rw [nonBlank_line whole filled]
    rfl

theorem pieces_eq (whole : ∀ line ∈ logLines text, OneLine line) :
    nonBlank (universalNewlines text) = logLines text := by
  have each : ∀ line ∈ logLines text, nonBlank line = [line] := by
    intro line here
    obtain ⟨stripped, full, -⟩ := mem_logLines here
    rw [nonBlank_line (whole line here) (by rwa [stripped]), stripped]
  rw [nonBlank_logLines, List.flatMap_congr each, List.flatMap_singleton']

/-- Numbers that are not zero add up to how many they are only if each is one. -/
theorem one_of_sum {α : Type} {size : α → Nat} {items : List α} (least : ∀ x ∈ items, 1 ≤ size x) :
    items.length ≤ (items.map size).sum ∧
      ((items.map size).sum = items.length → ∀ x ∈ items, size x = 1) := by
  induction items with
  | nil => simp
  | cons x rest ih =>
    obtain ⟨atLeast, each⟩ := ih fun y here => least y (List.mem_cons_of_mem _ here)
    have first := least x (by simp)
    simp only [List.map_cons, List.sum_cons, List.length_cons]
    refine ⟨by omega, fun same y here => ?_⟩
    rcases List.mem_cons.mp here with rfl | here
    · omega
    · exact each (by omega) y here

/-- As many as the lines of the log only where each is one. -/
theorem oneLine_of_length (same : (nonBlank (universalNewlines text)).length = (logLines text).length) :
    ∀ line ∈ logLines text, OneLine line := by
  intro line here
  rw [nonBlank_logLines, List.length_flatMap] at same
  exact (pieces_length here).2.mp
    ((one_of_sum fun other there => (pieces_length there).1).2 same line here)

theorem splitOn_unlines {lines : List Text} (clean : ∀ line ∈ lines, '\n' ∉ line) :
    (unlines lines).splitOn '\n' = lines ++ [[]] := by
  induction lines with
  | nil => rfl
  | cons line rest ih =>
    have apart : unlines (line :: rest) = line ++ '\n' :: unlines rest := by simp [unlines]
    rw [apart, List.splitOn_append_cons_self_of_not_mem (clean line (by simp)),
      ih fun other here => clean other (List.mem_cons_of_mem _ here)]
    rfl

theorem unlines_inj {first second : List Text} (clean : ∀ line ∈ first, '\n' ∉ line)
    (clean' : ∀ line ∈ second, '\n' ∉ line) (same : unlines first = unlines second) :
    first = second := by
  have split := congrArg (List.splitOn '\n') same
  rw [splitOn_unlines clean, splitOn_unlines clean'] at split
  exact List.append_cancel_right split

end Lines

section Pruning
variable {R : Runtime} {cutoff : Int} {line : Text} {lines : List Text}

/-- A JSON object whose timestamp has an offset and is not before the cutoff. -/
def retained (R : Runtime) (cutoff : Int) (line : Text) : Bool :=
  match R.loads line with
  | .ok (.dict fields) =>
    match fields.lookup (lit "timestamp") with
    | some (.str ts) =>
      match R.fromisoformat (zeroOffset ts) with
      | some (.aware instant) => decide (cutoff ≤ instant)
      | _ => false
    | _ => false
  | _ => false

/-- A line nested too deep, JSON that is no object, an object with a timestamp that is no string,
and one whose timestamp has no offset. -/
def odd (R : Runtime) (line : Text) : Bool :=
  match R.loads line with
  | .error .value => false
  | .error .recursion => true
  | .ok (.dict fields) =>
    match fields.lookup (lit "timestamp") with
    | none => false
    | some (.str ts) =>
      match R.fromisoformat (zeroOffset ts) with
      | some (.naive _) => true
      | _ => false
    | some _ => true
  | .ok _ => true

theorem pruneLine_ok {kept : Bool} : pruneLine R cutoff line = .ok kept ↔
    odd R line = false ∧ kept = retained R cutoff line := by
  unfold pruneLine odd retained
  cases R.loads line with
  | error e => cases e <;> simp
  | ok event =>
    cases event with
    | dict fields =>
      simp only
      cases fields.lookup (lit "timestamp") with
      | none =>
        have blank : R.fromisoformat (zeroOffset (lit "")) = none := R.fromisoformat_empty
        simp [blank]
      | some ts =>
        cases ts with
        | str ts =>
          simp only [Option.getD_some]
          cases R.fromisoformat (zeroOffset ts) with
          | none => simp
          | some moment =>
            cases moment with
            | naive => simp
            | aware instant =>
              have same : (!decide (instant < cutoff)) = decide (cutoff ≤ instant) := by
                simp [← decide_not]
              simp only [same, Except.ok.injEq, true_and]
              exact eq_comm
        | _ => simp
    | _ => simp

/-- The loop over lines none of which is odd. -/
theorem pruneLoop_ok {kept : List Text} {pruned : Nat} {result : List Text × Nat} :
    pruneLoop R cutoff lines kept pruned = .ok result ↔
      (∀ line ∈ nonBlankOf lines, odd R line = false) ∧
      result = (kept ++ ((nonBlankOf lines).filter (retained R cutoff)).map (· ++ ['\n']),
        pruned + ((nonBlankOf lines).filter fun line => !retained R cutoff line).length) := by
  induction lines generalizing kept pruned with
  | nil =>
    rw [pruneLoop, Except.ok.injEq]
    simp only [nonBlankOf, List.map_nil, List.filter_nil, List.not_mem_nil, false_implies,
      implies_true, List.append_nil, List.length_nil, Nat.add_zero, true_and]
    exact eq_comm
  | cons raw rest ih =>
    rw [pruneLoop, nonBlankOf_cons]
    split
    · exact ih
    · simp only [List.mem_cons, forall_eq_or_imp]
      constructor
      · intro h
        obtain ⟨keep, line, h⟩ := bind_ok h
        obtain ⟨plain, rfl⟩ := pruneLine_ok.mp line
        cases keeps : retained R cutoff (strip raw) with
        | true =>
          rw [keeps, if_pos rfl, ih] at h
          refine ⟨⟨plain, h.1⟩, ?_⟩
          simp [h.2, keeps]
        | false =>
          rw [keeps, if_neg Bool.false_ne_true, ih] at h
          refine ⟨⟨plain, h.1⟩, ?_⟩
          simp [h.2, keeps, Nat.add_assoc, Nat.add_comm 1]
      · rintro ⟨⟨plain, later⟩, same⟩
        rw [pruneLine_ok.mpr ⟨plain, rfl⟩, ok_bind]
        cases keeps : retained R cutoff (strip raw) with
        | true =>
          rw [if_pos rfl, ih]
          refine ⟨later, ?_⟩
          simp [same, keeps]
        | false =>
          rw [if_neg Bool.false_ne_true, ih]
          refine ⟨later, ?_⟩
          simp [same, keeps, Nat.add_assoc, Nat.add_comm 1]

end Pruning

section Total
variable {R : Runtime} {before : PyStr} {cutoff : Int} {content : Bytes}

/-- The log is pruned to its lines that are kept, and the others are counted. -/
def PrunedExactly (R : Runtime) (before : PyStr) (cutoff : Int) (content : Bytes) : Prop :=
  ∃ text, decode content = some text ∧
    pruneAuditLog R before (some content) =
      .ok (((logLines text).filter fun line => !retained R cutoff line).length,
        some (utf8 (unlines ((logLines text).filter (retained R cutoff)))))

theorem utf8_inj {first second : Text} (same : utf8 first = utf8 second) : first = second := by
  have read := congrArg decode same
  rw [decode_utf8, decode_utf8] at read
  exact Option.some.inj read

theorem flatten_map_newline (lines : List Text) : (lines.map (· ++ ['\n'])).flatten = unlines lines :=
  rfl

theorem filter_lengths {α : Type} (p : α → Bool) (items : List α) :
    (items.filter p).length + (items.filter fun x => !p x).length = items.length := by
  induction items with
  | nil => rfl
  | cons x rest ih => cases keeps : p x <;> simp [keeps] <;> omega

theorem prune_returns {text : Text} {result : Nat × Option Bytes}
    (accepted : R.fromisoformat (zeroOffset before) = some (.aware cutoff))
    (read : decode content = some text) :
    pruneAuditLog R before (some content) = .ok result ↔
      (∀ line ∈ nonBlank (universalNewlines text), odd R line = false) ∧
      result = (((nonBlank (universalNewlines text)).filter fun line =>
          !retained R cutoff line).length,
        some (utf8 (unlines ((nonBlank (universalNewlines text)).filter (retained R cutoff))))) := by
  unfold pruneAuditLog
  simp only [accepted, read]
  constructor
  · intro h
    obtain ⟨⟨kept, pruned⟩, loop, h⟩ := bind_ok h
    obtain ⟨plain, same⟩ := pruneLoop_ok.mp loop
    cases same
    cases h
    refine ⟨plain, ?_⟩
    rw [List.nil_append, Nat.zero_add, flatten_map_newline]
    rfl
  · intro ⟨plain, same⟩
    rw [pruneLoop_ok.mpr ⟨plain, rfl⟩, ok_bind, same, List.nil_append, Nat.zero_add,
      flatten_map_newline]
    rfl

theorem pruned_exactly_iff
    (accepted : R.fromisoformat (zeroOffset before) = some (.aware cutoff)) :
    PrunedExactly R before cutoff content ↔
      ∃ text, decode content = some text ∧
        ∀ line ∈ logLines text, OneLine line ∧ odd R line = false := by
  constructor
  · intro ⟨text, read, pruned⟩
    refine ⟨text, read, ?_⟩
    obtain ⟨plain, same⟩ := (prune_returns accepted read).mp pruned
    rw [Prod.mk.injEq, Option.some.injEq] at same
    obtain ⟨count, written⟩ := same
    have kept := unlines_inj (fun line here => (mem_logLines (List.mem_of_mem_filter here)).2.2.2)
      (fun line here there => by
        have one := nonBlank_oneLine (List.mem_of_mem_filter here) _ there
        cases one) (utf8_inj written)
    have whole : ∀ line ∈ logLines text, OneLine line := by
      apply oneLine_of_length
      rw [← filter_lengths (retained R cutoff), ← filter_lengths (retained R cutoff) (logLines text),
        kept, count]
    rw [pieces_eq whole] at plain
    exact fun line here => ⟨whole line here, plain line here⟩
  · intro ⟨text, read, lines⟩
    refine ⟨text, read, ?_⟩
    rw [prune_returns accepted read, pieces_eq fun line here => (lines line here).1]
    exact ⟨fun line here => (lines line here).2, rfl⟩

def sampleMoment : String := "2026-07-16T08:00:00+00:00"
def sampleEvent : Text := "\x7b\"timestamp\": \"2026-07-16T08:00:00+00:00\"\x7d".toList
def sampleNaive : Text := "\x7b\"timestamp\": \"2026-07-16T08:00:00\"\x7d".toList

def sampleRuntime : Runtime where
  loads line :=
    if line = sampleEvent then .ok (.dict [(lit "timestamp", .str (lit sampleMoment))])
    else if line = sampleNaive then .ok (.dict [(lit "timestamp", .str (lit "2026-07-16T08:00:00"))])
    else if line = ['[', ']'] then .ok (.list [])
    else .error .value
  fromisoformat s :=
    if s = lit sampleMoment then some (.aware 1784188800000000)
    else if s = lit "2026-07-16T08:00:00" then some (.naive 1784188800000000)
    else none
  fromisoformat_empty := by decide
  repr s := lit "'" ++ s ++ lit "'"

theorem sample_accepted : sampleRuntime.fromisoformat (zeroOffset (lit sampleMoment)) =
    some (.aware 1784188800000000) := by decide

theorem pruned_exactly_event : (logLines (unlines [sampleEvent])).length = 1 ∧
    PrunedExactly sampleRuntime (lit sampleMoment) 1784188800000000 (utf8 (unlines [sampleEvent])) :=
  ⟨by decide, (pruned_exactly_iff sample_accepted).mpr
    ⟨unlines [sampleEvent], decode_utf8 _, by decide⟩⟩

/-- An array on a line of its own, and a timestamp without an offset: the lines before them are not
pruned either. -/
theorem odd_line_stops :
    pruneAuditLog sampleRuntime (lit sampleMoment) (some (utf8 (unlines [sampleEvent, ['[', ']']]))) =
      .error (.attribute (lit "'list' object has no attribute 'get'")) ∧
    pruneAuditLog sampleRuntime (lit sampleMoment) (some (utf8 (unlines [sampleEvent, sampleNaive]))) =
      .error (.type (lit "can't compare offset-naive and offset-aware datetimes")) ∧
    ¬ ∀ lines : List Text, PrunedExactly sampleRuntime (lit sampleMoment) 1784188800000000
      (utf8 (unlines lines)) := by
  have array : pruneAuditLog sampleRuntime (lit sampleMoment)
      (some (utf8 (unlines [sampleEvent, ['[', ']']]))) =
      .error (.attribute (lit "'list' object has no attribute 'get'")) := by
    unfold pruneAuditLog
    rw [sample_accepted]
    simp only [decode_utf8]
    rfl
  refine ⟨array, ?_, ?_⟩
  · unfold pruneAuditLog
    rw [sample_accepted]
    simp only [decode_utf8]
    rfl
  · intro every
    obtain ⟨text, read, pruned⟩ := every [sampleEvent, ['[', ']']]
    rw [array] at pruned
    cases pruned

end Total
end RepoForge.AuditPrune
