import Mathlib.Tactic.FinCases
import RepoForge.Spec.Operations.Tasks
import RepoForge.Guarantees.Egress.Redacted
import RepoForge.Source.Operations.Manager

/-!
# What `validate_operation_task` asks for

Each check of the validation as a condition of its own (`Sound`), so that a record which differs in
some fields has to meet the conditions on these fields only.
-/
namespace RepoForge

open TaskPolicy

section Checks

variable {ε α β : Type}

theorem refuse_eq_ok_iff {bad : Prop} [Decidable bad] {error : OperationError} {u : Unit} :
    refuse bad error = .ok u ↔ ¬ bad := by
  constructor
  · exact refuse_ok
  · intro good
    exact if_neg good

/-- `_bounded` gives the value back. -/
def Bounded (limit : Nat) (pattern : Text → Bool) (value : Option Text) : Prop :=
  ∀ text ∈ value, text ≠ [] ∧ text.length ≤ limit ∧ (∀ c ∈ text, 32 ≤ c.toNat) ∧
    pattern text = true

theorem bounded_eq_ok_iff {value result : Option Text} {field : String} {limit : Nat}
    {pattern : Text → Bool} :
    bounded value field limit pattern = .ok result ↔ Bounded limit pattern value ∧ value = result := by
  cases value with
  | none => simp [bounded, Bounded]
  | some text =>
    have controls : (text.any fun c => decide (c.toNat < 32)) = false ↔ ∀ c ∈ text, 32 ≤ c.toNat := by
      simp
    simp only [bounded, Bounded, Option.mem_def, Option.some.injEq, forall_eq']
    by_cases wide : text = [] ∨ limit < text.length ∨ (text.any fun c => decide (c.toNat < 32)) = true
    · rw [if_pos wide]
      constructor
      · intro refused
        cases refused
      · rintro ⟨⟨filled, short, clean, -⟩, -⟩
        rw [← controls] at clean
        simp only [filled, Nat.not_lt.mpr short, clean, false_or, Bool.false_eq_true] at wide
    · rw [if_neg wide]
      simp only [not_or, Nat.not_lt, Bool.not_eq_true, controls] at wide
      obtain ⟨filled, short, clean⟩ := wide
      cases fits : pattern text with
      | true => simpa [filled, short] using fun _ => clean
      | false => simp

/-- No control character but `\n`, `\t` and `\r`. -/
def Printed (text : Text) : Prop := ∀ c ∈ text, c.toNat < 32 → c ∈ ['\n', '\t', '\r']

/-- `_bounded_multiline` gives the value back. -/
def BoundedLines (limit : Nat) (value : Option Text) : Prop :=
  ∀ text ∈ value, text ≠ [] ∧ text.length ≤ limit ∧ Printed text

theorem boundedMultiline_eq_ok_iff {value result : Option Text} {field : String} {limit : Nat} :
    boundedMultiline value field limit = .ok result ↔ BoundedLines limit value ∧ value = result := by
  cases value with
  | none => simp [boundedMultiline, BoundedLines]
  | some text =>
    have controls : (text.any fun c => decide (c.toNat < 32) && !(['\n', '\t', '\r'].contains c)) =
        false ↔ Printed text := by
      simp [Printed, ← Classical.or_iff_not_imp_left]
    simp only [boundedMultiline, BoundedLines, Option.mem_def, Option.some.injEq, forall_eq']
    by_cases wide : text = [] ∨ limit < text.length ∨
        (text.any fun c => decide (c.toNat < 32) && !(['\n', '\t', '\r'].contains c)) = true
    · rw [if_pos wide]
      constructor
      · intro refused
        cases refused
      · rintro ⟨⟨filled, short, clean⟩, -⟩
        rw [← controls] at clean
        simp only [filled, Nat.not_lt.mpr short, clean, false_or, Bool.false_eq_true] at wide
    · rw [if_neg wide]
      simp only [not_or, Nat.not_lt, Bool.not_eq_true, controls] at wide
      simp [wide]

theorem bounded_none {limit : Nat} {pattern : Text → Bool} : Bounded limit pattern none := by
  intro text none
  cases none

theorem boundedLines_none {limit : Nat} : BoundedLines limit none := by
  intro text none
  cases none

/-- The stamp has an offset. -/
def Stamp.Aware (stamp : Stamp) : Prop := ∃ value, stamp.parsed = .aware value

theorem parseTimestamp_eq_ok_iff {stamp : Stamp} {field : String} {value : DateTime} :
    parseTimestamp stamp field = .ok value ↔ stamp.parsed = .aware value := by
  constructor
  · exact parseTimestamp_ok
  · intro parsed
    rw [parseTimestamp, parsed]

theorem mapM_parse_eq_ok_iff {stamp : Option Stamp} {field : String} :
    (∃ value, stamp.mapM (parseTimestamp · field) = .ok value) ↔ ∀ given ∈ stamp, given.Aware := by
  cases stamp with
  | none => simp [pure, Except.pure]
  | some stamp =>
    simp only [Option.mapM_some, Option.mem_def, Option.some.injEq, forall_eq', Stamp.Aware,
      ← @parseTimestamp_eq_ok_iff _ field]
    cases parseTimestamp stamp field with
    | error e => simp [Functor.map, Except.map]
    | ok value => simp [Functor.map, Except.map]

end Checks

section Records

variable {policy : TaskPolicy} {t : OperationTask}

/-- The texts and numbers of a record are as they should be. -/
structure SoundFields (policy : TaskPolicy) (t : OperationTask) : Prop where
  schema : t.schemaVersion = 2
  operationId : Bounded 27 validOperationId (some t.operationId)
  attempt : 0 ≤ t.attempt
  kind : Bounded 64 safeKind (some t.kind)
  phase : Bounded 64 safePhase (some t.phase)
  counted : 0 ≤ t.progressCurrent
  total : ∀ total ∈ t.progressTotal, 0 ≤ total ∧ t.progressCurrent ≤ total
  unit : Bounded 64 anyText t.progressUnit
  message : BoundedLines 2000 t.progressMessage ∧ t.progressMessage = policy.sanitize t.progressMessage
  taskId : Bounded 128 safeId t.taskId
  workspaceId : Bounded 128 safeId t.workspaceId
  binding : validateBinding t.snapshotBinding = .ok ()
  result : Bounded 256 safeId t.resultReference
  errorCode : Bounded 128 safeId t.errorCode
  error : BoundedLines 2000 t.errorMessage ∧ t.errorMessage = policy.sanitize t.errorMessage

theorem validateProgress_ok_iff {current : Int} {total : Option Int} :
    validateProgress current total = .ok () ↔
      0 ≤ current ∧ ∀ n ∈ total, 0 ≤ n ∧ current ≤ n := by
  simp only [validateProgress, bind_eq_ok_iff, refuse_eq_ok_iff, exists_const]
  cases total with
  | none => simp
  | some n => simp

theorem exists_unit {p : Unit → Prop} : (∃ u, p u) ↔ p () :=
  ⟨fun ⟨_, h⟩ => h, fun h => ⟨_, h⟩⟩

theorem validateFields_ok_iff : policy.validateFields t = .ok () ↔ SoundFields policy t := by
  simp only [validateFields, bind_eq_ok_iff, refuse_eq_ok_iff, bounded_eq_ok_iff,
    boundedMultiline_eq_ok_iff, exists_const, not_not, and_assoc, exists_and_left, exists_eq_left',
    exists_unit, validateProgress_ok_iff, Int.not_lt]
  constructor
  · rintro ⟨schema, operationId, attempt, kind, phase, counted, total, unit, lines, message, taskId,
      workspaceId, binding, result, errorCode, errorLines, error⟩
    exact ⟨schema, operationId, attempt, kind, phase, counted, total, unit, ⟨lines, message⟩, taskId,
      workspaceId, binding, result, errorCode, errorLines, error⟩
  · rintro ⟨schema, operationId, attempt, kind, phase, counted, total, unit, ⟨lines, message⟩, taskId,
      workspaceId, binding, result, errorCode, errorLines, error⟩
    exact ⟨schema, operationId, attempt, kind, phase, counted, total, unit, lines, message, taskId,
      workspaceId, binding, result, errorCode, errorLines, error⟩

/-- The times of a record, its owner and its receipt are as they should be. -/
structure SoundTimes (t : OperationTask) : Prop where
  order : ∃ created updated, t.createdAt.parsed = .aware created ∧
    t.updatedAt.parsed = .aware updated ∧ created.instant ≤ updated.instant
  expires : ∀ given ∈ t.expiresAt, given.Aware
  owner : Bounded 128 safeId t.ownerId
  lease : ∀ given ∈ t.leaseExpiresAt, given.Aware
  together : t.ownerId.isNone = t.leaseExpiresAt.isNone
  cancellation : ∀ given ∈ t.cancellationRequestedAt, given.Aware
  receipt : Bounded 32 validReceiptId t.receiptId

theorem validateTimes_ok_iff : validateTimes t = .ok () ↔ SoundTimes t := by
  simp only [validateTimes, bind_eq_ok_iff, refuse_eq_ok_iff, bounded_eq_ok_iff,
    parseTimestamp_eq_ok_iff, exists_const, not_not, and_assoc, exists_and_left, exists_eq_left',
    exists_and_right, mapM_parse_eq_ok_iff, Int.not_lt]
  constructor
  · rintro ⟨created, first, updated, last, order, expires, owner, lease, together, cancellation,
      receipt, -⟩
    exact ⟨⟨created, updated, first, last, order⟩, expires, owner, lease, together, cancellation,
      receipt⟩
  · rintro ⟨⟨created, updated, first, last, order⟩, expires, owner, lease, together, cancellation,
      receipt⟩
    exact ⟨created, first, updated, last, order, expires, owner, lease, together, cancellation,
      receipt, rfl⟩

/-- What a record says of its own consistency. -/
structure SoundRecord (t : OperationTask) : Prop where
  few : t.recordDiagnostics.length ≤ 20
  each : ∀ item ∈ t.recordDiagnostics, Bounded 128 recordDiagnostic (some item)
  sorted : sortedSet t.recordDiagnostics = t.recordDiagnostics
  evidence : t.recordConsistency = .recordInconsistent → t.recordDiagnostics ≠ []
  current : t.recordProvenance = .current → t.recordConsistency = .consistent ∧
    t.recordDiagnostics = [] ∧ operationRecordInconsistencies t = []
  recovered : t.recordProvenance = .recoveredInconsistent →
    t.recordConsistency = .recordInconsistent

theorem diagnostics_ok_iff {items : List Text} :
    (∃ read, items.mapM (fun item => bounded (some item) "record_diagnostics" 128 recordDiagnostic) =
      .ok read) ↔ ∀ item ∈ items, Bounded 128 recordDiagnostic (some item) := by
  induction items with
  | nil => simp [pure, Except.pure]
  | cons item items ih =>
    rw [List.forall_mem_cons, ← ih]
    simp only [List.mapM_cons, bind_eq_ok_iff, bounded_eq_ok_iff, and_assoc, exists_and_left,
      exists_eq_left']
    refine and_congr_right fun _ => ?_
    constructor
    · rintro ⟨_, rest, read, -⟩
      exact ⟨rest, read⟩
    · rintro ⟨rest, read⟩
      exact ⟨_, rest, read, rfl⟩

theorem validateCurrent_ok_iff : validateCurrent t = .ok () ↔
    (t.recordProvenance = .current → t.recordConsistency = .consistent ∧
      t.recordDiagnostics = [] ∧ operationRecordInconsistencies t = []) := by
  unfold validateCurrent
  split
  · rename_i current
    simp only [bind_eq_ok_iff, refuse_eq_ok_iff, exists_const, not_or, not_not, current,
      true_implies, and_assoc]
  · rename_i other
    simp only [other, false_implies]

theorem valid_iff : Valid policy t ↔ SoundFields policy t ∧ SoundTimes t ∧ SoundRecord t := by
  simp only [Valid, validateOperationTask, bind_eq_ok_iff, refuse_eq_ok_iff,
    validateFields_ok_iff, validateTimes_ok_iff, validateCurrent_ok_iff, exists_unit, exists_const,
    exists_and_right, diagnostics_ok_iff, not_lt, and_true, not_not, not_and]
  constructor
  · rintro ⟨fields, times, few, each, sorted, evidence, current, recovered⟩
    exact ⟨fields, times, few, each, sorted, evidence, current, recovered⟩
  · rintro ⟨fields, times, few, each, sorted, evidence, current, recovered⟩
    exact ⟨fields, times, few, each, sorted, evidence, current, recovered⟩

/-- The time of the next write can be made. -/
def Advances (previous now : Stamp) : Prop :=
  ∃ time, now.parsed = .aware time ∧ ∀ before, previous.parsed = .aware before →
    time.instant ≤ before.instant → before.instant + before.offset < maxLocalTime

theorem nextTimestamp_exists {previous now : Stamp} (aware : previous.Aware) :
    (∃ stamp, policy.nextTimestamp previous now = .ok stamp) ↔ Advances previous now := by
  obtain ⟨before, parsed⟩ := aware
  simp only [nextTimestamp, bind_eq_ok_iff, parseTimestamp_eq_ok_iff, Advances, parsed,
    ParsedTime.aware.injEq, exists_eq_left', forall_eq']
  constructor
  · rintro ⟨stamp, time, given, made⟩
    refine ⟨time, given, fun early => ?_⟩
    rw [if_pos early] at made
    obtain ⟨_, room, -⟩ := bind_eq_ok_iff.mp made
    exact Int.not_le.mp (refuse_eq_ok_iff.mp room)
  · rintro ⟨time, given, room⟩
    by_cases early : time.instant ≤ before.instant
    · refine ⟨policy.stamp { before with
        instant := nextOperationTimestamp before.instant time.instant }, time, given, ?_⟩
      rw [if_pos early]
      exact bind_eq_ok_iff.mpr ⟨(), refuse_eq_ok_iff.mpr (Int.not_le.mpr (room early)), rfl⟩
    · exact ⟨_, time, given, if_neg early⟩

end Records

end RepoForge

/-!
## Messages that come back as they are

Where no pattern of the redactor finds anything in a short message, `_sanitize_message` leaves it
alone; and whatever the message is, its result is not empty and has at most 2000 characters.
-/
namespace RepoForge.TaskMessages

open Egress Regex Pattern PyStr

variable {R : Runtime} {value : PyStr}

@[simp] theorem taskPolicy_sanitizeMessage {isoformat : DateTime → Text}
    {encodes : OperationTask → Bool} :
    (taskPolicy R isoformat encodes).sanitizeMessage = sanitizeMessage R := rfl

section Patterns

theorem finditerFrom_nil {pattern : Pattern CodePoint} {text : PyStr} (before : Option CodePoint)
    (position skip : Nat) (away : ∀ rest ∈ text.tails, rest ≠ [] → ∀ before position,
      pattern.run ⟨before, rest, position, []⟩ = []) :
    finditerFrom pattern before text position skip = [] := by
  induction text generalizing before position skip with
  | nil => rfl
  | cons c text ih =>
    have later : ∀ rest ∈ text.tails, rest ≠ [] → ∀ before position,
        pattern.run ⟨before, rest, position, []⟩ = [] := by
      intro rest here
      exact away rest (by rw [List.tails_cons]; exact List.mem_cons_of_mem _ here)
    cases skip with
    | zero =>
      have here := away (c :: text) (by simp) (by simp) before position
      rw [finditerFrom, here]
      exact ih _ _ _ later
    | succ skip => exact ih _ _ _ later

/-- A boundary lets through no more than it is given. -/
theorem run_boundary_nil {word : CodePoint → Bool} {rest : List (Pattern CodePoint)}
    {c : Cursor CodePoint} (away : (sequence rest).run c = []) :
    (sequence (boundary word :: rest)).run c = [] := by
  rw [Regex.Pattern.sequence, List.foldr_cons, Pattern.run, Pattern.run]
  split
  · simpa [Regex.Pattern.sequence] using away
  · rfl

theorem sub_of_none {pattern : Pattern CodePoint} {replacement : PyStr → PyStr}
    (none : finditer pattern value = []) : sub pattern replacement value = value := by
  rw [sub, none]
  rfl

end Patterns

section Quiet

/-- Nothing is found in the text. -/
structure Quiet (R : Runtime) (value : PyStr) : Prop where
  encodable : value.encodable = true
  short : value.length ≤ 2000
  keys : finditer privateKey value = []
  candidates : foundCandidates R [] [] value = []
  tokens : finditer TaskMessages.tokenCandidate value = []

theorem redactText_returns (value : PyStr) {limit : Nat} (positive : 0 < limit) :
    ∃ text, redactText R value [] limit [] = some text := by
  unfold redactText
  rw [if_neg (by omega)]
  split
  · rw [egressRequest]
    simp [boundedStrings]
  · exact ⟨_, rfl⟩

theorem utf8_le (t : Text) : (utf8 t).length ≤ 4 * t.length := by
  induction t with
  | nil => simp [utf8]
  | cons c t ih =>
    have four := Char.utf8Size_le_four c
    simp only [utf8, List.flatMap_cons, List.length_append, String.length_utf8EncodeChar,
      List.length_cons] at ih ⊢
    omega

theorem redacted_quiet (quiet : Quiet R value) : redacted R value = value := by
  have limit : value.length ≤ max 2000 value.length := le_max_right _ _
  have positive : 0 < max 2000 value.length := by omega
  obtain ⟨text, returned⟩ := redactText_returns (R := R) value positive
  have distinct : Distinct redactionMarkers [] := fun secret listed => by cases listed
  have same : text = value := by
    rcases redactText_cases distinct returned with ⟨large, -⟩ | ⟨-, -, rfl⟩ |
      ⟨-, ranges, findings, found, shown⟩
    · have bytes : encodedBytes value ≤ 4 * value.length := by
        simpa [encodedBytes, replaced] using utf8_le (replaced value)
      have short := quiet.short
      omega
    · exact if_pos limit
    · rw [ofText_replaced quiet.encodable, detect, quiet.candidates] at found
      have none : ranges = [] := (Prod.mk.inj found).1
      rw [none] at shown
      rcases shown with ⟨-, rfl⟩ | rfl
      · exact if_pos limit
      · exact if_pos limit
  rw [redacted, returned, Option.getD_some, same]

/-- Such a message is left alone. -/
theorem sanitized_quiet (quiet : Quiet R value) : sanitized R value = value := by
  rw [sanitized, sub_of_none quiet.keys]
  simp only [redacted_quiet quiet, sub_of_none quiet.tokens, Nat.not_lt.mpr quiet.short, if_false]

theorem sanitizeMessage_quiet {message : Text} (filled : message ≠ [])
    (quiet : Quiet R (ofText message)) : sanitizeMessage R message = some message := by
  have some : ofText message ≠ [] := by simpa [ofText] using filled
  simp only [sanitizeMessage, sanitized_quiet quiet, some, if_false, replaced_ofText]

section Completed

theorem none_in_completed {pattern : Pattern CodePoint}
    (away : ∀ rest ∈ (lit "Completed").tails, rest ≠ [] → ∀ before position,
      pattern.run ⟨before, rest, position, []⟩ = []) : finditer pattern (lit "Completed") = [] :=
  finditerFrom_nil _ _ _ away

theorem assignment_completed : finditer (secretAssignment R) (lit "Completed") = [] := by
  refine none_in_completed fun rest here filled before position => run_boundary_nil ?_
  fin_cases here
  all_goals rfl

theorem bearer_completed : finditer (bearer R) (lit "Completed") = [] := by
  refine none_in_completed fun rest here filled before position => run_boundary_nil ?_
  fin_cases here
  all_goals rfl

/-- The message of a success. -/
theorem quiet_completed (R : Runtime) : Quiet R (lit "Completed") where
  encodable := by decide
  short := by decide
  keys := rfl
  tokens := rfl
  candidates := by
    rw [foundCandidates, bearer_completed, assignmentCandidates, assignment_completed]
    rfl

theorem sanitizeMessage_completed (R : Runtime) :
    sanitizeMessage R "Completed".toList = some "Completed".toList :=
  @sanitizeMessage_quiet R "Completed".toList (by decide) (quiet_completed R)

end Completed

end Quiet

/-- The result of `_sanitize_message` is not empty and has at most 2000 characters. -/
theorem sanitizeMessage_size {message result : Text}
    (made : sanitizeMessage R message = some result) : result ≠ [] ∧ result.length ≤ 2000 := by
  simp only [sanitizeMessage] at made
  split at made
  · cases made
  · rename_i filled
    cases made
    constructor
    · simpa [replaced] using filled
    · rw [replaced, List.length_map, sanitized]
      split
      · exact List.length_take_le _ _
      · rename_i short
        exact Nat.not_lt.mp short

end RepoForge.TaskMessages
