import Mathlib.Data.Bool.AllAny
import RepoForge.Spec.Operations.Validation

/-!
# Success that is reconciled

Which records of an unknown effect `reconcile_success` can turn into valid successes.
-/
namespace RepoForge

open TaskPolicy TaskMessages

section Reconcile

variable {R : Egress.Runtime} {isoformat : DateTime → Text} {encodes : OperationTask → Bool}
  {task updated : OperationTask} {resultReference receiptId : Text} {now stamp : Stamp}

/-- The records are the same but for the state, the error, the progress, the result and the times. -/
structure SameElsewhere (old new : OperationTask) : Prop where
  operationId : new.operationId = old.operationId
  kind : new.kind = old.kind
  taskId : new.taskId = old.taskId
  workspaceId : new.workspaceId = old.workspaceId
  snapshotBinding : new.snapshotBinding = old.snapshotBinding
  cancelSupported : new.cancelSupported = old.cancelSupported
  cancellationRequestedAt : new.cancellationRequestedAt = old.cancellationRequestedAt
  createdAt : new.createdAt = old.createdAt
  expiresAt : new.expiresAt = old.expiresAt
  ownerId : new.ownerId = old.ownerId
  receiptId : new.receiptId = old.receiptId
  recordProvenance : new.recordProvenance = old.recordProvenance
  recordConsistency : new.recordConsistency = old.recordConsistency
  recordDiagnostics : new.recordDiagnostics = old.recordDiagnostics
  schemaVersion : new.schemaVersion = old.schemaVersion
  attempt : new.attempt = old.attempt

/-- The record that `reconcile_success` makes. -/
def reconciled (task : OperationTask) (resultReference receiptId : Text) (updatedAt : Stamp) :
    OperationTask :=
  let total := task.progressTotal.filter (· ≠ 0)
  { task with
    state := .succeeded
    phase := OperationState.succeeded.value
    progressCurrent := total.getD (max task.progressCurrent 1)
    progressTotal := some (total.getD 1)
    progressUnit := orDefault task.progressUnit "effects"
    progressMessage := some "Completed".toList
    resultReference := some resultReference
    receiptId := some receiptId
    errorCode := none
    errorMessage := none
    retryability := .none
    updatedAt := updatedAt
    ownerId := none
    leaseExpiresAt := none }

theorem reconcileSuccess_ok_iff {policy : TaskPolicy} (failed : task.state = .failed)
    (unknown : task.errorCode = some effectOutcomeUnknown) (receipt : task.receiptId = some receiptId) :
    policy.reconcileSuccess task resultReference receiptId now = .ok (.saving updated) ↔
      ∃ stamp, policy.nextTimestamp task.updatedAt now = .ok stamp ∧
        updated = reconciled task resultReference receiptId stamp := by
  have started : task.state ≠ .succeeded := by rw [failed]; decide
  rw [reconcileSuccess, if_neg started]
  simp only [bind_eq_ok_iff, refuse_eq_ok_iff, failed, unknown, receipt, ne_eq, not_true_eq_false,
    or_self, not_false_eq_true, exists_const, true_and, Except.ok.injEq]
  refine exists_congr fun stamp => and_congr_right fun _ => ?_
  constructor
  · intro same
    exact (Option.some.inj (congrArg ManagerPlan.write same)).symm
  · rintro rfl
    rfl

/-- The progress of a record can be made complete. -/
def Completable (task : OperationTask) : Prop :=
  task.progressTotal = none → task.progressCurrent ≤ 1

theorem reconciled_progress (valid : SoundFields (taskPolicy R isoformat encodes) task) :
    (0 ≤ (reconciled task resultReference receiptId stamp).progressCurrent ∧
      ∀ total ∈ (reconciled task resultReference receiptId stamp).progressTotal,
        0 ≤ total ∧ (reconciled task resultReference receiptId stamp).progressCurrent ≤ total) ↔
      Completable task := by
  have counted := valid.counted
  have total := valid.total
  cases given : task.progressTotal with
  | none =>
    simp only [reconciled, Completable, given, Option.filter_none, Option.getD_none,
      Option.mem_def, Option.some.injEq, forall_eq', true_implies]
    omega
  | some n =>
    obtain ⟨positive, within⟩ := total n given
    by_cases zero : n = 0
    · simp only [reconciled, Completable, given, zero, Option.filter_some, ne_eq, not_true_eq_false,
        decide_false, Bool.false_eq_true, if_false, Option.getD_none, Option.mem_def,
        Option.some.injEq, forall_eq', reduceCtorEq, false_implies, iff_true]
      omega
    · simp only [reconciled, Completable, given, Option.filter_some, ne_eq, zero, not_false_eq_true,
        decide_true, if_true, Option.getD_some, Option.mem_def, Option.some.injEq, forall_eq',
        reduceCtorEq, false_implies, iff_true]
      omega

theorem reconciled_unit (valid : Bounded 64 anyText task.progressUnit) :
    Bounded 64 anyText (orDefault task.progressUnit "effects") := by
  unfold orDefault
  split
  · intro text same
    cases same
    exact ⟨by decide, by decide, List.all_iff_forall_prop.mp (by decide), rfl⟩
  · exact valid

/-- Where the progress is complete, no diagnostic is left. -/
theorem reconciled_consistent
    (complete : some (reconciled task resultReference receiptId stamp).progressCurrent =
      (reconciled task resultReference receiptId stamp).progressTotal) :
    operationRecordInconsistencies (reconciled task resultReference receiptId stamp) = [] := by
  simp only [operationRecordInconsistencies, complete, sortedSet_eq_nil, List.append_eq_nil_iff,
    diagnose_eq_nil]
  simp [reconciled, OperationState.terminal, diagnose]

theorem reconciled_complete (valid : SoundFields (taskPolicy R isoformat encodes) task)
    (completable : Completable task) :
    some (reconciled task resultReference receiptId stamp).progressCurrent =
      (reconciled task resultReference receiptId stamp).progressTotal := by
  have total := valid.total
  cases given : task.progressTotal with
  | none =>
    have few := completable given
    simp only [reconciled, given, Option.filter_none, Option.getD_none, Option.some.injEq]
    omega
  | some n =>
    obtain ⟨positive, within⟩ := total n given
    by_cases zero : n = 0
    · simp only [reconciled, given, zero, Option.filter_some, ne_eq, not_true_eq_false,
        decide_false, Bool.false_eq_true, if_false, Option.getD_none, Option.some.injEq]
      omega
    · simp [reconciled, given, Option.filter_some, zero]

theorem bounded_succeeded : Bounded 64 safePhase (some OperationState.succeeded.value) := by
  have run : bounded (some OperationState.succeeded.value) "phase" 64 safePhase =
      .ok (some OperationState.succeeded.value) := by decide
  exact (bounded_eq_ok_iff.mp run).1

theorem message_completed (policy : TaskPolicy)
    (kept : policy.sanitizeMessage "Completed".toList = some "Completed".toList) :
    BoundedLines 2000 (some "Completed".toList) ∧
      some "Completed".toList = policy.sanitize (some "Completed".toList) := by
  have run : boundedMultiline (some "Completed".toList) "progress_message" 2000 =
      .ok (some "Completed".toList) := by decide
  exact ⟨(boundedMultiline_eq_ok_iff.mp run).1, kept.symm⟩

theorem reconciled_sound (valid : Valid (taskPolicy R isoformat encodes) task)
    (receipt : task.receiptId = some receiptId) (later : task.updatedAt.Before stamp) :
    Valid (taskPolicy R isoformat encodes) (reconciled task resultReference receiptId stamp) ↔
      Completable task ∧ Bounded 256 safeId (some resultReference) := by
  obtain ⟨fields, times, record⟩ := valid_iff.mp valid
  obtain ⟨before, after, parsed, parsed', order⟩ := later
  rw [valid_iff]
  constructor
  · rintro ⟨fields', -, -⟩
    exact ⟨(reconciled_progress fields).mp ⟨fields'.counted, fields'.total⟩, fields'.result⟩
  · rintro ⟨completable, named⟩
    have kept : (taskPolicy R isoformat encodes).sanitizeMessage "Completed".toList =
        some "Completed".toList := by
      rw [taskPolicy_sanitizeMessage, sanitizeMessage_completed]
    obtain ⟨counted, total⟩ := (reconciled_progress fields).mpr completable
    refine ⟨?_, ?_, ?_⟩
    · exact { fields with
        phase := bounded_succeeded
        counted := counted
        total := total
        unit := reconciled_unit fields.unit
        message := message_completed _ kept
        result := named
        errorCode := bounded_none
        error := ⟨boundedLines_none, rfl⟩ }
    · obtain ⟨created, updated, first, last, order'⟩ := times.order
      have received := times.receipt
      rw [receipt] at received
      refine { times with
        order := ⟨created, after, first, parsed', ?_⟩
        owner := bounded_none
        lease := fun given none => by cases none
        together := rfl
        receipt := received }
      rw [last] at parsed
      cases parsed
      exact Int.le_of_lt (Int.lt_of_le_of_lt order' order)
    · exact { record with
        current := fun current =>
          ⟨(record.current current).1, (record.current current).2.1,
            reconciled_consistent (reconciled_complete fields completable)⟩ }

theorem reconciled_elsewhere (receipt : task.receiptId = some receiptId) :
    SameElsewhere task (reconciled task resultReference receiptId stamp) ↔ task.ownerId = none := by
  constructor
  · intro same
    exact same.ownerId.symm
  · intro unowned
    exact ⟨rfl, rfl, rfl, rfl, rfl, rfl, rfl, rfl, rfl, unowned.symm, receipt.symm, rfl, rfl, rfl, rfl,
      rfl⟩

/-- An unknown effect is reconciled to a valid success with the other fields kept, just when its
progress can be made complete, it has no owner, the reference is one and the time moves on. -/
theorem reconciled_storable (R : Egress.Runtime) (isoformat : DateTime → Text)
    (encodes : OperationTask → Bool) (task : OperationTask) (resultReference receiptId : Text)
    (now : Stamp) (valid : Valid (taskPolicy R isoformat encodes) task)
    (failed : task.state = .failed) (unknown : task.errorCode = some effectOutcomeUnknown)
    (receipt : task.receiptId = some receiptId) :
    (∃ updated, (taskPolicy R isoformat encodes).reconcileSuccess task resultReference receiptId now =
        .ok (.saving updated) ∧ Valid (taskPolicy R isoformat encodes) updated ∧
        updated.state = .succeeded ∧ SameElsewhere task updated) ↔
      (task.progressTotal = none → task.progressCurrent ≤ 1) ∧ task.ownerId = none ∧
        Bounded 256 safeId (some resultReference) ∧ Advances task.updatedAt now := by
  have aware : task.updatedAt.Aware := by
    obtain ⟨-, updated, -, parsed, -⟩ := (valid_iff.mp valid).2.1.order
    exact ⟨updated, parsed⟩
  rw [← @nextTimestamp_exists (taskPolicy R isoformat encodes) _ _ aware]
  constructor
  · rintro ⟨updated, run, sound, -, same⟩
    obtain ⟨stamp, next, rfl⟩ := (reconcileSuccess_ok_iff failed unknown receipt).mp run
    obtain ⟨completable, named⟩ := (reconciled_sound valid receipt (nextTimestamp_ok next)).mp sound
    exact ⟨completable, (reconciled_elsewhere receipt).mp same, named, stamp, next⟩
  · rintro ⟨completable, unowned, named, stamp, next⟩
    exact ⟨_, (reconcileSuccess_ok_iff failed unknown receipt).mpr ⟨stamp, next, rfl⟩,
      (reconciled_sound valid receipt (nextTimestamp_ok next)).mpr ⟨completable, named⟩, rfl,
      (reconciled_elsewhere receipt).mpr unowned⟩

end Reconcile

section Records

/-- A second of 2024, in UTC. -/
def noon (n : Nat) : DateTime := ⟨63839664000000000 + 1000000 * n, 0⟩

def noonText (time : DateTime) : Text :=
  "2024-01-01T12:00:0".toList ++
    [Nat.digitChar ((time.instant - (noon 0).instant) / 1000000).toNat] ++ "+00:00".toList

def noonPolicy : TaskPolicy := taskPolicy Egress.asciiRuntime noonText fun _ => true

/-- A push of which nobody knows how it went, with so many effects counted of so many. -/
def unknownEffect (current : Int) (total : Option Int) : OperationTask where
  operationId := "op-0123456789abcdef01234567".toList
  kind := "workspace_push".toList
  state := .failed
  phase := "failed".toList
  progressCurrent := current
  progressTotal := total
  progressUnit := none
  progressMessage := none
  taskId := none
  workspaceId := none
  snapshotBinding := none
  resultReference := none
  errorCode := some effectOutcomeUnknown
  errorMessage := none
  retryability := .none
  cancelSupported := true
  cancellationRequestedAt := none
  createdAt := noonPolicy.stamp (noon 0)
  updatedAt := noonPolicy.stamp (noon 1)
  expiresAt := none
  receiptId := some "receipt-0123456789abcdef01234567".toList

theorem unknownEffect_valid : Valid noonPolicy (unknownEffect 3 (some 7)) ∧
    Valid noonPolicy (unknownEffect 3 none) := by
  unfold Valid
  decide

theorem unknownEffect_advances : Advances (noonPolicy.stamp (noon 1)) (noonPolicy.stamp (noon 2)) := by
  refine ⟨noon 2, rfl, fun before parsed early => ?_⟩
  cases parsed
  revert early
  decide

theorem result_named : Bounded 256 safeId (some "result-1".toList) := by
  have run : bounded (some "result-1".toList) "result_reference" 256 safeId =
      .ok (some "result-1".toList) := by decide
  exact (bounded_eq_ok_iff.mp run).1

/-- Three of seven effects were counted. -/
theorem reconciled_three_of_seven : ∃ updated,
    noonPolicy.reconcileSuccess (unknownEffect 3 (some 7)) "result-1".toList
        "receipt-0123456789abcdef01234567".toList (noonPolicy.stamp (noon 2)) =
      .ok (.saving updated) ∧ Valid noonPolicy updated ∧ updated.state = .succeeded ∧
    SameElsewhere (unknownEffect 3 (some 7)) updated :=
  (reconciled_storable Egress.asciiRuntime noonText (fun _ => true) (unknownEffect 3 (some 7))
    "result-1".toList "receipt-0123456789abcdef01234567".toList (noonPolicy.stamp (noon 2))
    unknownEffect_valid.1 rfl rfl rfl).mpr
    ⟨fun none => (by cases none), rfl, result_named, unknownEffect_advances⟩

/-- Three effects were counted and nobody knew of how many: the record that is made is refused. -/
theorem unknown_total_refused : Valid noonPolicy (unknownEffect 3 none) ∧
    ∃ updated, noonPolicy.reconcileSuccess (unknownEffect 3 none) "result-1".toList
        "receipt-0123456789abcdef01234567".toList (noonPolicy.stamp (noon 2)) =
      .ok (.saving updated) ∧ ¬ Valid noonPolicy updated := by
  refine ⟨unknownEffect_valid.2, ?_⟩
  obtain ⟨stamp, next⟩ := (@nextTimestamp_exists noonPolicy _ _ ⟨_, rfl⟩).mpr
    unknownEffect_advances
  refine ⟨_, (reconcileSuccess_ok_iff rfl rfl rfl).mpr ⟨stamp, next, rfl⟩, fun sound => ?_⟩
  obtain ⟨completable, -⟩ := (reconciled_sound unknownEffect_valid.2 rfl (nextTimestamp_ok next)).mp
    sound
  have few : (3 : Int) ≤ 1 := completable rfl
  omega

end Records

end RepoForge

/-!
## Failures that are recorded

When a running operation can be recorded as failed, with the message that its worker gives.
-/
namespace RepoForge

open TaskPolicy TaskMessages

section Failing

variable {policy : TaskPolicy} {R : Egress.Runtime} {isoformat : DateTime → Text}
  {encodes : OperationTask → Bool} {task updated : OperationTask} {data : TransitionData}
  {now stamp : Stamp}

/-- The record of a failure, with nothing inconsistent in it. -/
theorem failed_consistent {code : Text} (given : data.errorCode = some code) :
    operationRecordInconsistencies (policy.transitioned task .failed data stamp) = [] := by
  simp [operationRecordInconsistencies, sortedSet_eq_nil, transitioned, OperationState.terminal,
    given, diagnose]

/-- A failure with a code of the accepted format, and with a result or a receipt that are. -/
structure FailureData (data : TransitionData) : Prop where
  code : ∃ code, data.errorCode = some code
  coded : Bounded 128 safeId data.errorCode
  result : Bounded 256 safeId data.resultReference
  receipt : Bounded 32 validReceiptId data.receiptId

theorem bounded_or {limit : Nat} {pattern : Text → Bool} {first second : Option Text}
    (one : Bounded limit pattern first) (other : Bounded limit pattern second) :
    Bounded limit pattern (first.or second) := by
  cases first with
  | none => exact other
  | some text => exact one

/-- The transition is the failed record, where its message and its time allow it. -/
theorem transition_failed_iff (valid : Valid policy task) (running : task.state = .running)
    (failure : FailureData data) :
    policy.transitionOperation task .failed data now = .ok updated ↔
      BoundedLines 2000 (policy.sanitize data.errorMessage) ∧
      ∃ stamp, policy.nextTimestamp task.updatedAt now = .ok stamp ∧
        updated = policy.transitioned task .failed data stamp ∧ Valid policy updated := by
  obtain ⟨code, given⟩ := failure.code
  have other : OperationState.failed ≠ task.state := by rw [running]; decide
  have allowed : OperationState.failed ∈ task.state.allowed := by rw [running]; decide
  have received := bounded_or failure.receipt (valid_iff.mp valid).2.1.receipt
  have coded : data.errorCode.or OperationState.failed.defaultErrorCode = data.errorCode := by
    rw [given]
    rfl
  have valid' : policy.validateOperationTask task = .ok task := valid
  rw [transitionOperation]
  simp only [valid', ok_bind, if_neg other, bind_eq_ok_iff, refuse_eq_ok_iff, bounded_eq_ok_iff,
    boundedMultiline_eq_ok_iff, coded, failure.result, failure.coded, received, allowed, not_true_eq_false,
    not_false_eq_true, exists_const, true_and, and_assoc, exists_and_left, exists_eq_left']
  refine and_congr_right fun _ => exists_congr fun stamp => and_congr_right fun _ => ?_
  -- a record of any provenance is validated as it was made, for nothing in it is inconsistent
  have quiet := @failed_consistent policy task data stamp _ given
  have made : policy.validateOperationTask { policy.transitioned task .failed data stamp with
      recordConsistency := if operationRecordInconsistencies
          (policy.transitioned task .failed data stamp) ≠ [] then .recordInconsistent else .consistent
      recordDiagnostics := operationRecordInconsistencies
        (policy.transitioned task .failed data stamp) } =
      policy.validateOperationTask (policy.transitioned task .failed data stamp) := by
    rw [quiet]
    rfl
  rw [made, ite_self]
  constructor
  · intro run
    obtain ⟨rfl, sound⟩ := validate_ok run
    exact ⟨rfl, sound⟩
  · rintro ⟨rfl, sound⟩
    exact sound

/-- The message of a failure settles: what is left of it has no control character that a record
refuses, and is left alone when it is sanitized again. -/
def MessageSettles (policy : TaskPolicy) (message : Option Text) : Prop :=
  ∀ shown ∈ policy.sanitize message, Printed shown ∧ policy.sanitizeMessage shown = some shown

theorem bounded_failed : Bounded 64 safePhase (some OperationState.failed.value) := by
  have run : bounded (some OperationState.failed.value) "phase" 64 safePhase =
      .ok (some OperationState.failed.value) := by decide
  exact (bounded_eq_ok_iff.mp run).1

theorem failed_sound (valid : Valid policy task) (failure : FailureData data)
    (sized : ∀ message shown, policy.sanitizeMessage message = some shown →
      shown ≠ [] ∧ shown.length ≤ 2000) (later : task.updatedAt.Before stamp) :
    BoundedLines 2000 (policy.sanitize data.errorMessage) ∧
        Valid policy (policy.transitioned task .failed data stamp) ↔
      task.recordProvenance ≠ .recoveredInconsistent ∧ MessageSettles policy data.errorMessage := by
  obtain ⟨fields, times, record⟩ := valid_iff.mp valid
  obtain ⟨code, given⟩ := failure.code
  have quiet := @failed_consistent policy task data stamp _ given
  rw [valid_iff]
  constructor
  · rintro ⟨lines, fields', -, record'⟩
    refine ⟨fun recovered => ?_, fun shown left => ⟨(lines shown left).2.2, ?_⟩⟩
    · cases record'.recovered recovered
    · have again : policy.sanitize data.errorMessage =
          policy.sanitize (policy.sanitize data.errorMessage) := fields'.error.2
      rw [Option.mem_def.mp left] at again
      exact again.symm
  · rintro ⟨kept, settles⟩
    have lines : BoundedLines 2000 (policy.sanitize data.errorMessage) := by
      intro shown left
      obtain ⟨message, -, made⟩ := Option.bind_eq_some_iff.mp left
      exact ⟨(sized message shown made).1, (sized message shown made).2, (settles shown left).1⟩
    have again : policy.sanitize data.errorMessage =
        policy.sanitize (policy.sanitize data.errorMessage) := by
      cases left : policy.sanitize data.errorMessage with
      | none => rfl
      | some shown => exact (settles shown left).2.symm
    refine ⟨lines, ?_, ?_, ?_⟩
    · exact { fields with
        phase := bounded_failed
        counted := by simpa [transitioned] using fields.counted
        total := by simpa [transitioned] using fields.total
        message := by simpa [transitioned] using fields.message
        result := failure.result
        errorCode := by simpa [transitioned, given] using failure.coded
        error := ⟨lines, again⟩ }
    · obtain ⟨created, updated, first, last, order⟩ := times.order
      obtain ⟨before, after, parsed, parsed', before_after⟩ := later
      rw [last] at parsed
      cases parsed
      exact { times with
        order := ⟨created, after, first, parsed', Int.le_of_lt (Int.lt_of_le_of_lt order before_after)⟩
        owner := bounded_none
        lease := fun given none => by cases none
        together := rfl
        receipt := bounded_or failure.receipt times.receipt }
    · exact {
        few := Nat.zero_le _
        each := fun item here => by cases here
        sorted := rfl
        evidence := fun inconsistent => by cases inconsistent
        current := fun _ => ⟨rfl, rfl, quiet⟩
        recovered := fun recovered => absurd recovered kept }

theorem settles_quiet {message : Text} (quiet : Quiet R (PyStr.ofText message))
    (printed : Printed message) : MessageSettles (taskPolicy R isoformat encodes) (some message) := by
  intro shown left
  rw [sanitize, Option.bind_some, Option.mem_def, taskPolicy_sanitizeMessage] at left
  rw [taskPolicy_sanitizeMessage]
  by_cases filled : message = []
  · rw [filled] at left quiet
    rw [TaskMessages.sanitizeMessage, sanitized_quiet quiet] at left
    cases left
  · rw [sanitizeMessage_quiet filled quiet] at left
    cases left
    exact ⟨printed, sanitizeMessage_quiet filled quiet⟩

end Failing

section Records

def dawn (n : Nat) : DateTime := ⟨63839620800000000 + 1000000 * n, 0⟩

def dawnText (time : DateTime) : Text :=
  "2024-01-01T00:00:0".toList ++
    [Nat.digitChar ((time.instant - (dawn 0).instant) / 1000000).toNat] ++ "+00:00".toList

def dawnPolicy : TaskPolicy := taskPolicy Egress.asciiRuntime dawnText fun _ => true

/-- A verification in its third step of five. -/
def verifying : OperationTask where
  operationId := "op-0123456789abcdef01234567".toList
  kind := "workspace_verify".toList
  state := .running
  phase := "tests".toList
  progressCurrent := 3
  progressTotal := some 5
  progressUnit := some "steps".toList
  progressMessage := none
  taskId := none
  workspaceId := none
  snapshotBinding := none
  resultReference := none
  errorCode := none
  errorMessage := none
  retryability := .none
  cancelSupported := true
  cancellationRequestedAt := none
  createdAt := dawnPolicy.stamp (dawn 0)
  updatedAt := dawnPolicy.stamp (dawn 1)
  expiresAt := none
  ownerId := some "worker-1".toList
  leaseExpiresAt := some (dawnPolicy.stamp (dawn 9))

def failureOf (message : String) : TransitionData where
  errorCode := some "VERIFY_FAILED".toList
  errorMessage := some message.toList

theorem verifying_valid : Valid dawnPolicy verifying := by
  unfold Valid
  decide

theorem failureOf_data (message : String) : FailureData (failureOf message) := by
  have run : bounded (some "VERIFY_FAILED".toList) "error_code" 128 safeId =
      .ok (some "VERIFY_FAILED".toList) := by decide
  exact ⟨⟨_, rfl⟩, (bounded_eq_ok_iff.mp run).1, bounded_none, bounded_none⟩

end Records

end RepoForge
