import Mathlib.Data.List.Dedup
import Mathlib.Data.List.Sort
import RepoForge.Source.Operations.WorkItem

/-!
# Durable operation records

Source: `domain/operation_task.py`.

A timestamp is a text together with what `datetime.fromisoformat` makes of it (`Stamp`); the
text decides the rest, so two stamps are compared as wholes. `TaskPolicy` has the functions
that the records are computed with and that are not embedded: `_sanitize_message`, which runs
the egress policy over a message, `datetime.isoformat`, and whether the JSON of a record is
within the size bound of its store.
-/
namespace RepoForge

/-- An aware `datetime`. -/
structure DateTime where
  /-- Microseconds. -/
  instant : Timestamp
  offset : Int
  deriving DecidableEq, Repr

inductive ParsedTime where
  | malformed
  /-- Without an offset. -/
  | naive
  | aware (value : DateTime)
  deriving DecidableEq, Repr

structure Stamp where
  text : Text
  parsed : ParsedTime
  deriving DecidableEq, Repr

/-- `datetime.max` as local time, in microseconds from the start of year 1. -/
def maxLocalTime : Int := 315537897599999999

inductive OperationErrorCode where
  | operationInvalid | operationNotFound | operationStale | operationCorrupt
  | operationSchemaUnsupported | operationTransitionInvalid | alreadyExists | stateTooLarge
  /-- An `OverflowError`, which no handler for the errors of the repository catches. -/
  | overflow
  deriving DecidableEq, Repr

structure OperationError where
  code : OperationErrorCode
  message : String
  deriving DecidableEq, Repr

def refuse (bad : Prop) [Decidable bad] (error : OperationError) : Except OperationError Unit :=
  if bad then .error error else .ok ()

inductive OperationState where
  | pending | running | succeeded | failed | cancelled | expired | orphaned
  deriving DecidableEq, Repr

namespace OperationState

def value : OperationState → Text
  | pending => "pending".toList
  | running => "running".toList
  | succeeded => "succeeded".toList
  | failed => "failed".toList
  | cancelled => "cancelled".toList
  | expired => "expired".toList
  | orphaned => "orphaned".toList

/-- `TERMINAL_OPERATION_STATES` -/
def terminal : OperationState → Bool
  | pending | running => false
  | succeeded | failed | cancelled | expired | orphaned => true

/-- `_ALLOWED_TRANSITIONS` -/
def allowed : OperationState → List OperationState
  | pending => [running, failed, cancelled, expired]
  | running => [succeeded, failed, cancelled, expired, orphaned]
  | _ => []

/-- The error code of a transition that is given none. -/
def defaultErrorCode : OperationState → Option Text
  | failed => some "OPERATION_FAILED".toList
  | expired => some "OPERATION_EXPIRED".toList
  | orphaned => some "OPERATION_WORKER_LOST".toList
  | _ => none

end OperationState

inductive OperationRetryability where
  | none | manual | automatic
  deriving DecidableEq, Repr

inductive RecordProvenance where
  | current | legacyMigrated | recoveredInconsistent
  deriving DecidableEq, Repr

inductive RecordConsistency where
  | consistent | recordInconsistent
  deriving DecidableEq, Repr

structure OperationSnapshotBinding where
  headSha : Option Text := none
  workspaceFingerprint : Option Text := none
  configGeneration : Option Int := none
  evidenceSnapshotId : Option Text := none
  deriving DecidableEq, Repr

structure OperationTask where
  operationId : Text
  kind : Text
  state : OperationState
  phase : Text
  progressCurrent : Int
  progressTotal : Option Int
  progressUnit : Option Text
  progressMessage : Option Text
  taskId : Option Text
  workspaceId : Option Text
  snapshotBinding : Option OperationSnapshotBinding
  resultReference : Option Text
  errorCode : Option Text
  errorMessage : Option Text
  retryability : OperationRetryability
  cancelSupported : Bool
  cancellationRequestedAt : Option Stamp
  createdAt : Stamp
  updatedAt : Stamp
  expiresAt : Option Stamp
  ownerId : Option Text := none
  leaseExpiresAt : Option Stamp := none
  receiptId : Option Text := none
  recordProvenance : RecordProvenance := .current
  recordConsistency : RecordConsistency := .consistent
  recordDiagnostics : List Text := []
  schemaVersion : Int := 2
  attempt : Int := 0
  deriving DecidableEq, Repr

structure TaskPolicy where
  sanitizeMessage : Text → Option Text
  isoformat : DateTime → Text
  encodes : OperationTask → Bool

structure OperationCancellationDecision where
  task : OperationTask
  cancellationRequested : Bool
  alreadyRequested : Bool
  alreadyTerminal : Bool
  cancelSupported : Bool
  deriving DecidableEq, Repr

section Texts

/-- A first character of one kind and at most `limit` of another. -/
def headed (first rest : Char → Bool) (limit : Nat) : Text → Bool
  | [] => false
  | c :: cs => first c && cs.length ≤ limit && cs.all rest

/-- `^[A-Za-z0-9][A-Za-z0-9._:-]{0,127}$` -/
def safeId : Text → Bool :=
  headed Char.isAlphanum (fun c => c.isAlphanum || ['.', '_', ':', '-'].contains c) 127

/-- `^[a-z][a-z0-9_]{0,63}$` -/
def safeKind : Text → Bool :=
  headed Char.isLower (fun c => c.isLower || c.isDigit || c = '_') 63

/-- `^[a-z][a-z0-9_.-]{0,63}$` -/
def safePhase : Text → Bool :=
  headed Char.isLower (fun c => c.isLower || c.isDigit || ['_', '.', '-'].contains c) 63

/-- `^[a-z][a-z0-9_]{0,127}$` -/
def recordDiagnostic : Text → Bool :=
  headed Char.isLower (fun c => c.isLower || c.isDigit || c = '_') 127

def sha40 (t : Text) : Bool := t.length = 40 && t.all lowerHex
def sha64 (t : Text) : Bool := t.length = 64 && t.all lowerHex

/-- `^receipt-[a-f0-9]{24}$` -/
def validReceiptId (t : Text) : Bool :=
  "receipt-".toList.isPrefixOf t && t.length = 32 && (t.drop 8).all lowerHex

/-- No pattern. -/
def anyText (_ : Text) : Bool := true

def bounded (value : Option Text) (field : String) (limit : Nat)
    (pattern : Text → Bool) : Except OperationError (Option Text) :=
  match value with
  | none => .ok none
  | some text =>
    if text = [] ∨ limit < text.length ∨ text.any (·.toNat < 32) then
      .error ⟨.operationInvalid, s!"{field} is invalid or exceeds {limit} characters"⟩
    else if pattern text then .ok (some text)
    else .error ⟨.operationInvalid, s!"{field} has an invalid format"⟩

def boundedMultiline (value : Option Text) (field : String) (limit : Nat) :
    Except OperationError (Option Text) :=
  match value with
  | none => .ok none
  | some text =>
    if text = [] ∨ limit < text.length ∨
        text.any (fun c => c.toNat < 32 && !(['\n', '\t', '\r'].contains c)) then
      .error ⟨.operationInvalid, s!"{field} is invalid or exceeds {limit} characters"⟩
    else .ok (some text)

end Texts

def parseTimestamp (value : Stamp) (field : String) : Except OperationError DateTime :=
  match value.parsed with
  | .malformed => .error ⟨.operationInvalid, s!"{field} must be an ISO-8601 timestamp"⟩
  | .naive => .error ⟨.operationInvalid, s!"{field} must include a timezone offset"⟩
  | .aware parsed => .ok parsed

section Checks

def validateBinding (binding : Option OperationSnapshotBinding) : Except OperationError Unit :=
  match binding with
  | none => .ok ()
  | some b => do
    let _ ← bounded b.headSha "snapshot_binding.head_sha" 40 sha40
    let _ ← bounded b.workspaceFingerprint "snapshot_binding.workspace_fingerprint" 64 sha64
    refuse (∃ n ∈ b.configGeneration, n < 0)
      ⟨.operationInvalid, "snapshot_binding.config_generation must be a non-negative integer"⟩
    let _ ← bounded b.evidenceSnapshotId "snapshot_binding.evidence_snapshot_id" 128 safeId

def validateProgress (current : Int) (total : Option Int) : Except OperationError Unit := do
  refuse (current < 0) ⟨.operationInvalid, "progress_current must be a non-negative integer"⟩
  refuse (∃ n ∈ total, n < 0) ⟨.operationInvalid, "progress_total must be a non-negative integer"⟩
  refuse (∃ n ∈ total, n < current)
    ⟨.operationInvalid, "progress_current cannot exceed progress_total"⟩

/-- A diagnostic that is made where its condition holds. -/
def diagnose (found : Bool) (text : String) : List Text := if found then [text.toList] else []

/-- `sorted(set(texts))` -/
def sortedSet (texts : List Text) : List Text := texts.dedup.insertionSort (· ≤ ·)

def operationRecordInconsistencies (task : OperationTask) : List Text :=
  sortedSet (
    diagnose (task.state.terminal && task.phase ≠ task.state.value) "terminal_phase_mismatch" ++
    (if task.state = .succeeded then
      diagnose (task.resultReference = none) "missing_result_reference" ++
      diagnose (task.progressTotal ≠ none && some task.progressCurrent ≠ task.progressTotal)
        "terminal_progress_incomplete" ++
      diagnose (task.progressMessage ≠ some "Completed".toList) "terminal_message_mismatch"
    else []) ++
    diagnose (!task.state.terminal && task.resultReference ≠ none) "nonterminal_result_reference" ++
    (if task.state ∈ [.failed, .expired, .orphaned] then
      diagnose (task.errorCode = none) "terminal_error_missing"
    else
      diagnose (task.errorCode ≠ none || task.errorMessage ≠ none) "unexpected_error_evidence") ++
    diagnose (task.ownerId.isNone ≠ task.leaseExpiresAt.isNone) "ownership_lease_partial" ++
    diagnose (task.ownerId ≠ none && task.state ≠ .running) "ownership_on_nonrunning")

end Checks

namespace TaskPolicy

variable (policy : TaskPolicy)

def sanitize (message : Option Text) : Option Text := message.bind policy.sanitizeMessage

def stamp (value : DateTime) : Stamp := ⟨policy.isoformat value, .aware value⟩

/-- `next_operation_timestamp` on texts. -/
def nextTimestamp (previous candidate : Stamp) : Except OperationError Stamp := do
  let before ← parseTimestamp previous "updated_at"
  let now ← parseTimestamp candidate "now"
  if now.instant ≤ before.instant then do
    refuse (maxLocalTime ≤ before.instant + before.offset) ⟨.overflow, "date value out of range"⟩
    .ok (policy.stamp { before with instant := nextOperationTimestamp before.instant now.instant })
  else .ok (policy.stamp now)

/-- The texts and numbers of a record. -/
def validateFields (task : OperationTask) : Except OperationError Unit := do
  refuse (task.schemaVersion ≠ 2)
    ⟨.operationSchemaUnsupported, s!"Unsupported operation schema version: {task.schemaVersion}"⟩
  let _ ← bounded (some task.operationId) "operation_id" 27 validOperationId
  refuse (task.attempt < 0) ⟨.operationInvalid, "attempt must be a non-negative integer"⟩
  let _ ← bounded (some task.kind) "kind" 64 safeKind
  let _ ← bounded (some task.phase) "phase" 64 safePhase
  validateProgress task.progressCurrent task.progressTotal
  let _ ← bounded task.progressUnit "progress_unit" 64 anyText
  let _ ← boundedMultiline task.progressMessage "progress_message" 2000
  refuse (task.progressMessage ≠ policy.sanitize task.progressMessage)
    ⟨.operationInvalid, "progress_message is not safely redacted"⟩
  let _ ← bounded task.taskId "task_id" 128 safeId
  let _ ← bounded task.workspaceId "workspace_id" 128 safeId
  validateBinding task.snapshotBinding
  let _ ← bounded task.resultReference "result_reference" 256 safeId
  let _ ← bounded task.errorCode "error_code" 128 safeId
  let _ ← boundedMultiline task.errorMessage "error_message" 2000
  refuse (task.errorMessage ≠ policy.sanitize task.errorMessage)
    ⟨.operationInvalid, "error_message is not safely redacted"⟩

/-- The times of a record, its lease and its receipt. -/
def validateTimes (task : OperationTask) : Except OperationError Unit := do
  let created ← parseTimestamp task.createdAt "created_at"
  let updated ← parseTimestamp task.updatedAt "updated_at"
  refuse (updated.instant < created.instant)
    ⟨.operationInvalid, "updated_at cannot precede created_at"⟩
  let _ ← task.expiresAt.mapM (parseTimestamp · "expires_at")
  let _ ← bounded task.ownerId "owner_id" 128 safeId
  let _ ← task.leaseExpiresAt.mapM (parseTimestamp · "lease_expires_at")
  refuse (task.ownerId.isNone ≠ task.leaseExpiresAt.isNone)
    ⟨.operationInvalid, "owner_id and lease_expires_at must be provided together"⟩
  let _ ← task.cancellationRequestedAt.mapM (parseTimestamp · "cancellation_requested_at")
  let _ ← bounded task.receiptId "receipt_id" 32 validReceiptId

/-- The lifecycle of a record that was never found inconsistent. -/
def validateCurrent (task : OperationTask) : Except OperationError Unit :=
  if task.recordProvenance = .current then do
    refuse (task.recordConsistency ≠ .consistent ∨ task.recordDiagnostics ≠ [])
      ⟨.operationInvalid, "current operation records must be consistent"⟩
    refuse (operationRecordInconsistencies task ≠ []) ⟨.operationTransitionInvalid,
      "Current operation record violates lifecycle invariants: " ++
        ",".intercalate ((operationRecordInconsistencies task).map String.ofList)⟩
  else .ok ()

/-- `validate_operation_task`, in the order of the source. -/
def validateOperationTask (task : OperationTask) : Except OperationError OperationTask := do
  policy.validateFields task
  validateTimes task
  refuse (20 < task.recordDiagnostics.length)
    ⟨.operationInvalid, "record_diagnostics must be a tuple with at most 20 items"⟩
  let _ ← task.recordDiagnostics.mapM
    (fun item => bounded (some item) "record_diagnostics" 128 recordDiagnostic)
  refuse (sortedSet task.recordDiagnostics ≠ task.recordDiagnostics)
    ⟨.operationInvalid, "record_diagnostics must be sorted and unique"⟩
  refuse (task.recordConsistency = .recordInconsistent ∧ task.recordDiagnostics = [])
    ⟨.operationInvalid, "record_inconsistent requires diagnostic evidence"⟩
  validateCurrent task
  refuse (task.recordProvenance = .recoveredInconsistent ∧
      task.recordConsistency ≠ .recordInconsistent)
    ⟨.operationInvalid, "recovered_inconsistent provenance requires inconsistent evidence"⟩
  .ok task

/-- `normalize_loaded_operation`; `legacy` is a record of schema version 1. -/
def normalizeLoadedOperation (task : OperationTask) (legacy : Bool) :
    Except OperationError OperationTask :=
  let observed := operationRecordInconsistencies task
  let diagnostics := sortedSet (task.recordDiagnostics ++ observed)
  policy.validateOperationTask { task with
    phase := if task.state.terminal then task.state.value else task.phase
    recordProvenance := if legacy then .legacyMigrated
      else if observed ≠ [] then .recoveredInconsistent else task.recordProvenance
    recordConsistency := if diagnostics ≠ [] then .recordInconsistent else .consistent
    recordDiagnostics := diagnostics
    schemaVersion := 2 }

end TaskPolicy

/-- The arguments of `new_operation_task`, but for the time. -/
structure NewOperation where
  operationId : Text
  kind : Text
  phase : Text
  cancelSupported : Bool
  taskId : Option Text := none
  workspaceId : Option Text := none
  snapshotBinding : Option OperationSnapshotBinding := none
  expiresAt : Option Stamp := none
  deriving DecidableEq, Repr

/-- What a transition brings with it. -/
structure TransitionData where
  resultReference : Option Text := none
  receiptId : Option Text := none
  errorCode : Option Text := none
  errorMessage : Option Text := none
  retryability : OperationRetryability := .none
  deriving DecidableEq, Repr

structure ProgressData where
  phase : Text
  current : Int
  total : Option Int := none
  unit : Option Text := none
  message : Option Text := none
  deriving DecidableEq, Repr

namespace TaskPolicy

variable (policy : TaskPolicy)

def newOperationTask (new : NewOperation) (now : Stamp) :
    Except OperationError OperationTask := do
  let _ ← bounded (some new.operationId) "operation_id" 27 validOperationId
  let _ ← bounded (some new.kind) "kind" 64 safeKind
  let _ ← bounded (some new.phase) "phase" 64 safePhase
  let _ ← bounded new.taskId "task_id" 128 safeId
  let _ ← bounded new.workspaceId "workspace_id" 128 safeId
  validateBinding new.snapshotBinding
  policy.validateOperationTask {
    operationId := new.operationId
    kind := new.kind
    state := .pending
    phase := new.phase
    progressCurrent := 0
    progressTotal := none
    progressUnit := none
    progressMessage := none
    taskId := new.taskId
    workspaceId := new.workspaceId
    snapshotBinding := new.snapshotBinding
    resultReference := none
    errorCode := none
    errorMessage := none
    retryability := .none
    cancelSupported := new.cancelSupported
    cancellationRequestedAt := none
    createdAt := now
    updatedAt := now
    expiresAt := new.expiresAt }

/-- The record that a transition to another state makes, before it is validated. -/
def transitioned (task : OperationTask) (state : OperationState) (data : TransitionData)
    (updatedAt : Stamp) : OperationTask :=
  { task with
    state := state
    phase := state.value
    progressCurrent := if state = .succeeded then task.progressTotal.getD task.progressCurrent
      else task.progressCurrent
    progressMessage := if state = .succeeded then some "Completed".toList else task.progressMessage
    resultReference := data.resultReference
    receiptId := data.receiptId.or task.receiptId
    errorCode := data.errorCode.or state.defaultErrorCode
    errorMessage := policy.sanitize data.errorMessage
    retryability := data.retryability
    ownerId := if state.terminal then none else task.ownerId
    leaseExpiresAt := if state.terminal then none else task.leaseExpiresAt
    recordConsistency := .consistent
    recordDiagnostics := []
    updatedAt := updatedAt }

def transitionOperation (task : OperationTask) (state : OperationState) (data : TransitionData)
    (now : Stamp) : Except OperationError OperationTask := do
  let _ ← policy.validateOperationTask task
  if state = task.state then do
    refuse (data.resultReference ≠ none ∨ data.receiptId ≠ none ∨ data.errorCode ≠ none ∨
        data.errorMessage ≠ none ∨ data.retryability ≠ task.retryability)
      ⟨.operationTransitionInvalid,
        "An idempotent same-state transition cannot change terminal data"⟩
    .ok task
  else do
    refuse (state ∉ task.state.allowed) ⟨.operationTransitionInvalid,
      "Operation transition is not allowed: " ++ String.ofList task.state.value ++ " -> " ++
        String.ofList state.value⟩
    let _ ← bounded data.resultReference "result_reference" 256 safeId
    let _ ← bounded (data.receiptId.or task.receiptId) "receipt_id" 32 validReceiptId
    let _ ← bounded (data.errorCode.or state.defaultErrorCode) "error_code" 128 safeId
    let _ ← boundedMultiline (policy.sanitize data.errorMessage) "error_message" 2000
    let updatedAt ← policy.nextTimestamp task.updatedAt now
    let updated := policy.transitioned task state data updatedAt
    if task.recordProvenance ≠ .current then
      let diagnostics := operationRecordInconsistencies updated
      policy.validateOperationTask { updated with
        recordConsistency := if diagnostics ≠ [] then .recordInconsistent else .consistent
        recordDiagnostics := diagnostics }
    else policy.validateOperationTask updated

/-- Neither the owner nor the attempt of the claim is asked for. -/
def requeueOperation (task : OperationTask) (now : Stamp) : Except OperationError OperationTask := do
  let _ ← policy.validateOperationTask task
  refuse (task.state ≠ .running)
    ⟨.operationTransitionInvalid, "Only running operations can be requeued"⟩
  let updatedAt ← policy.nextTimestamp task.updatedAt now
  policy.validateOperationTask { task with
    state := .pending
    phase := "queued".toList
    ownerId := none
    leaseExpiresAt := none
    progressMessage := some "Recovered after worker loss before child start".toList
    errorCode := none
    errorMessage := none
    retryability := .automatic
    updatedAt := updatedAt }

/-- The lease of another owner has to be over. -/
def refuseHeld (task : OperationTask) (ownerId : Text) (now : DateTime) :
    Except OperationError Unit :=
  if task.ownerId ≠ none ∧ task.ownerId ≠ some ownerId then
    match task.leaseExpiresAt with
    | none => .ok ()
    | some held => do
      let held ← parseTimestamp held "lease_expires_at"
      refuse (now.instant < held.instant)
        ⟨.operationStale, "Operation ownership lease is held by another worker"⟩
  else .ok ()

def claimOperationOwnership (task : OperationTask) (ownerId : Text) (leaseExpiresAt now : Stamp)
    (attempt : Option Int) : Except OperationError OperationTask := do
  let _ ← policy.validateOperationTask task
  refuse (task.state ≠ .running) ⟨.operationTransitionInvalid,
    "Operation ownership may be claimed only while running"⟩
  let _ ← bounded (some ownerId) "owner_id" 128 safeId
  refuse (attempt.getD task.attempt < task.attempt)
    ⟨.operationInvalid, "attempt must be a non-decreasing integer"⟩
  let time ← parseTimestamp now "now"
  let lease ← parseTimestamp leaseExpiresAt "lease_expires_at"
  refuse (lease.instant ≤ time.instant)
    ⟨.operationInvalid, "lease_expires_at must be later than now"⟩
  refuseHeld task ownerId time
  let updatedAt ← policy.nextTimestamp task.updatedAt now
  policy.validateOperationTask { task with
    ownerId := some ownerId
    leaseExpiresAt := some (policy.stamp lease)
    attempt := attempt.getD task.attempt
    updatedAt := updatedAt }

def ownershipChanged : OperationError :=
  ⟨.operationStale, "Operation ownership changed; refresh the operation before updating it"⟩

def renewOperationOwnership (task : OperationTask) (ownerId : Text) (leaseExpiresAt now : Stamp) :
    Except OperationError OperationTask := do
  let _ ← policy.validateOperationTask task
  let _ ← bounded (some ownerId) "owner_id" 128 safeId
  refuse (task.state ≠ .running ∨ task.ownerId ≠ some ownerId) ownershipChanged
  policy.claimOperationOwnership task ownerId leaseExpiresAt now none

def requireOperationOwner (task : OperationTask) (ownerId : Option Text) :
    Except OperationError Unit := do
  let _ ← policy.validateOperationTask task
  refuse (task.ownerId ≠ none ∧ ownerId ≠ task.ownerId) ownershipChanged

def updateOperationProgress (task : OperationTask) (data : ProgressData) (now : Stamp) :
    Except OperationError OperationTask := do
  let _ ← policy.validateOperationTask task
  refuse (task.state ≠ .running)
    ⟨.operationInvalid, "Progress may be updated only while an operation is running"⟩
  let _ ← bounded (some data.phase) "phase" 64 safePhase
  validateProgress data.current data.total
  refuse (data.phase = task.phase ∧ data.current < task.progressCurrent)
    ⟨.operationInvalid, "Progress cannot move backwards within one phase"⟩
  let _ ← bounded data.unit "progress_unit" 64 anyText
  let _ ← boundedMultiline (policy.sanitize data.message) "progress_message" 2000
  let updatedAt ← policy.nextTimestamp task.updatedAt now
  policy.validateOperationTask { task with
    phase := data.phase
    progressCurrent := data.current
    progressTotal := data.total
    progressUnit := data.unit
    progressMessage := policy.sanitize data.message
    updatedAt := updatedAt }

def requestOperationCancellation (task : OperationTask) (now : Stamp) :
    Except OperationError OperationCancellationDecision := do
  let _ ← policy.validateOperationTask task
  if task.state.terminal then .ok ⟨task, false, false, true, task.cancelSupported⟩
  else if !task.cancelSupported then .ok ⟨task, false, false, false, false⟩
  else if task.cancellationRequestedAt ≠ none then .ok ⟨task, false, true, false, true⟩
  else do
    let updatedAt ← policy.nextTimestamp task.updatedAt now
    let updated ← policy.validateOperationTask
      { task with cancellationRequestedAt := some updatedAt, updatedAt := updatedAt }
    .ok ⟨updated, true, false, false, true⟩

end TaskPolicy

end RepoForge
