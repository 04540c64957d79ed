import Mathlib.Data.List.AList
import Mathlib.Logic.Function.Basic
import RepoForge.Library.Runs
import RepoForge.Source.Operations.OperationTask
import RepoForge.Source.Persistence.StateRepository
import RepoForge.Source.Egress.Evaluate

/-!
# The operation store and its manager

Source: `adapters/persistence/json_operation_store.py` and
`application/operations/manager.py`.

A file of the store is kept as what `_decode` makes of its bytes before
`normalize_loaded_operation`. A call of the manager reads a record, computes the next one and
saves it under the `updated_at` it has read (`plan`); creation is one locked call. Any number
of callers share the store, and between the read and the save of one every other may run.
A caller may give the time; else the clock is read with every access, and what it shows is
left open. The mutation gate is open.
-/
namespace RepoForge

/-- A record file as it is decoded. -/
inductive OperationFile where
  | record (legacy : Bool) (task : OperationTask)
  | unreadable (error : OperationError)
  deriving DecidableEq, Repr

abbrev OperationStore := AList fun _ : Text => OperationFile

/-- Another write came first. -/
def changedSince (expected current : Stamp) : OperationError :=
  ⟨.operationStale, "Operation changed since " ++ String.ofList expected.text ++
    "; current updated_at is " ++ String.ofList current.text⟩

def operationNotFound (operationId : Text) : OperationError :=
  ⟨.operationNotFound, "Operation not found: " ++ String.ofList operationId⟩

namespace OperationStore

variable (policy : TaskPolicy)

/-- `_decode`: all but an unsupported schema is reported as corruption. -/
def decode (expectedOperationId : Text) : OperationFile → Except OperationError OperationTask
  | .unreadable error => .error error
  | .record legacy task =>
    if task.operationId ≠ expectedOperationId then
      .error ⟨.operationCorrupt, "Operation record identity does not match its filename"⟩
    else match policy.normalizeLoadedOperation task legacy with
    | .ok task => .ok task
    | .error error =>
      if error.code = .operationSchemaUnsupported then .error error
      else .error ⟨.operationCorrupt, "Operation record cannot be decoded safely"⟩

def read (operationId : Text) (store : OperationStore) :
    Except OperationError (Option OperationTask) := do
  let _ ← bounded (some operationId) "operation_id" 27 validOperationId
  match store.lookup operationId with
  | none => .ok none
  | some file => do
    let task ← decode policy operationId file
    .ok (some task)

/-- `_encode` and the size bound of `write_bytes`. -/
def write (task : OperationTask) (store : OperationStore) :
    Except OperationError OperationStore := do
  let _ ← policy.validateOperationTask task
  refuse (policy.encodes task = false)
    ⟨.stateTooLarge, "State record exceeds its encoded size bound"⟩
  .ok (store.insert task.operationId (.record false task))

def create (task : OperationTask) (store : OperationStore) :
    Except OperationError OperationStore := do
  let _ ← policy.validateOperationTask task
  refuse (task.operationId ∈ store)
    ⟨.alreadyExists, "Operation already exists: " ++ String.ofList task.operationId⟩
  write policy task store

def save (task : OperationTask) (expectedUpdatedAt : Stamp) (store : OperationStore) :
    Except OperationError OperationStore := do
  let _ ← policy.validateOperationTask task
  match ← read policy task.operationId store with
  | none => .error (operationNotFound task.operationId)
  | some current => do
    refuse (current.updatedAt ≠ expectedUpdatedAt)
      (changedSince expectedUpdatedAt current.updatedAt)
    write policy task store

end OperationStore

/-- The calls; `now` is the time that the caller gives, if any. -/
inductive ManagerCall where
  | create (new : NewOperation) (now : Option Stamp)
  | start (operationId : Text) (receiptId ownerId : Option Text) (leaseExpiresAt : Option Stamp)
      (attempt : Option Int) (now : Option Stamp)
  | succeed (operationId resultReference : Text) (receiptId ownerId : Option Text)
      (now : Option Stamp)
  | reconcileSuccess (operationId resultReference receiptId : Text) (now : Option Stamp)
  | fail (operationId errorCode : Text) (errorMessage resultReference receiptId : Option Text)
      (retryability : OperationRetryability) (ownerId : Option Text) (now : Option Stamp)
  | cancelled (operationId : Text) (ownerId : Option Text) (now : Option Stamp)
  | expire (operationId : Text) (errorMessage : Option Text) (now : Option Stamp)
  | orphan (operationId errorCode : Text) (errorMessage : Option Text) (now : Option Stamp)
  | progress (operationId : Text) (data : ProgressData) (ownerId : Option Text)
      (leaseExpiresAt : Option Stamp) (now : Option Stamp)
  | renewOwnership (operationId ownerId : Text) (leaseExpiresAt : Stamp) (now : Option Stamp)
  | requeue (operationId : Text) (now : Option Stamp)
  | requestCancel (operationId : Text) (expectedUpdatedAt : Option Stamp) (now : Option Stamp)
  deriving DecidableEq, Repr

namespace ManagerCall

def operationId : ManagerCall → Text
  | create new _ => new.operationId
  | start id _ _ _ _ _ | succeed id _ _ _ _ | reconcileSuccess id _ _ _ | fail id _ _ _ _ _ _ _
  | cancelled id _ _ | expire id _ _ | orphan id _ _ _ | progress id _ _ _ _
  | renewOwnership id _ _ _ | requeue id _ | requestCancel id _ _ => id

/-- How often the call may read: `_CANCEL_CAS_ATTEMPTS`, unless the caller pinned the record. -/
def attempts : ManagerCall → Nat
  | requestCancel _ none _ => 3
  | _ => 1

end ManagerCall

inductive ManagerReply where
  | task (task : OperationTask)
  | decision (decision : OperationCancellationDecision)
  deriving DecidableEq, Repr

/-- What a call does with the record it has read: the record to save, if any, and the reply. -/
structure ManagerPlan where
  write : Option OperationTask
  reply : ManagerReply
  deriving DecidableEq, Repr

def ManagerPlan.saving (updated : OperationTask) : ManagerPlan := ⟨some updated, .task updated⟩

def effectOutcomeUnknown : Text := "EFFECT_OUTCOME_UNKNOWN".toList

/-- `OperationManager._now` -/
def resolveNow (explicit : Option Stamp) (clock : Stamp) : Stamp :=
  (explicit.filter (·.text ≠ [])).getD clock

/-- Python's `or` on an optional text. -/
def orDefault (value : Option Text) (default : String) : Option Text :=
  if value = none ∨ value = some [] then some default.toList else value

namespace TaskPolicy

variable (policy : TaskPolicy)

/-- Who may end an operation, and that only a start brings a lease. -/
def checkOwnership (current : OperationTask) (state : OperationState) (ownerId : Option Text)
    (leaseExpiresAt : Option Stamp) (bypassOwnership : Bool) : Except OperationError Unit :=
  if state ≠ .running then do
    refuse (leaseExpiresAt ≠ none)
      ⟨.operationInvalid, "lease_expires_at is valid only when starting an operation"⟩
    if bypassOwnership then .ok () else policy.requireOperationOwner current ownerId
  else .ok ()

/-- A start with an owner claims the operation. -/
def claimStarted (updated : OperationTask) (state : OperationState) (ownerId : Option Text)
    (leaseExpiresAt : Option Stamp) (attempt : Option Int) (now : Stamp) :
    Except OperationError OperationTask :=
  if state = .running then
    match ownerId, leaseExpiresAt with
    | some owner, some lease => policy.claimOperationOwnership updated owner lease now attempt
    | none, none => .ok updated
    | _, _ => .error ⟨.operationInvalid, "owner_id and lease_expires_at must be provided together"⟩
  else .ok updated

/-- `_save_transition` between its read and its save. -/
def saveTransition (current : OperationTask) (state : OperationState) (data : TransitionData)
    (ownerId : Option Text) (leaseExpiresAt : Option Stamp) (attempt : Option Int)
    (bypassOwnership : Bool) (now : Stamp) : Except OperationError ManagerPlan := do
  refuse (state = .succeeded ∧ current.cancellationRequestedAt ≠ none)
    ⟨.operationTransitionInvalid, "Operation cannot succeed after cancellation was requested"⟩
  policy.checkOwnership current state ownerId leaseExpiresAt bypassOwnership
  let updated ← policy.transitionOperation current state data now
  let updated ← policy.claimStarted updated state ownerId leaseExpiresAt attempt now
  if updated = current then .ok ⟨none, .task current⟩ else .ok (.saving updated)

def reconcileSuccess (current : OperationTask) (resultReference receiptId : Text) (now : Stamp) :
    Except OperationError ManagerPlan :=
  if current.state = .succeeded then do
    refuse (current.resultReference ≠ some resultReference ∨ current.receiptId ≠ some receiptId)
      ⟨.operationTransitionInvalid,
        "Reconciled result does not match the existing success record"⟩
    .ok ⟨none, .task current⟩
  else do
    refuse (current.state ≠ .failed ∨ current.errorCode ≠ some effectOutcomeUnknown ∨
        current.receiptId ≠ some receiptId)
      ⟨.operationTransitionInvalid,
        "Only the exact unknown-effect operation may reconcile to success"⟩
    let updatedAt ← policy.nextTimestamp current.updatedAt now
    -- a total of zero counts as none
    let total := current.progressTotal.filter (· ≠ 0)
    .ok (.saving { current with
      state := .succeeded
      phase := OperationState.succeeded.value
      progressCurrent := total.getD (max current.progressCurrent 1)
      progressTotal := some (total.getD 1)
      progressUnit := orDefault current.progressUnit "effects"
      progressMessage := some "Completed".toList
      resultReference := some resultReference
      receiptId := some receiptId
      errorCode := none
      errorMessage := none
      retryability := .none
      updatedAt := updatedAt
      ownerId := none
      leaseExpiresAt := none })

/-- What a call makes of the record that it reads. -/
def plan (clock : Stamp) (current : OperationTask) :
    ManagerCall → Except OperationError ManagerPlan
  -- a creation reads no record
  | .create _ _ => .ok ⟨none, .task current⟩
  | .start _ receiptId ownerId lease attempt now =>
    policy.saveTransition current .running { receiptId } ownerId lease attempt false (resolveNow now clock)
  | .succeed _ resultReference receiptId ownerId now =>
    policy.saveTransition current .succeeded { resultReference := some resultReference, receiptId }
      ownerId none none false (resolveNow now clock)
  | .reconcileSuccess _ resultReference receiptId now =>
    policy.reconcileSuccess current resultReference receiptId (resolveNow now clock)
  | .fail _ errorCode errorMessage resultReference receiptId retryability ownerId now =>
    policy.saveTransition current .failed
      { resultReference, receiptId, errorCode := some errorCode, errorMessage, retryability }
      ownerId none none false (resolveNow now clock)
  | .cancelled _ ownerId now =>
    policy.saveTransition current .cancelled {} ownerId none none false (resolveNow now clock)
  | .expire _ errorMessage now =>
    policy.saveTransition current .expired
      { errorCode := some "OPERATION_EXPIRED".toList
        errorMessage := orDefault errorMessage
          "Operation expired: its deadline elapsed before it reached a terminal state." }
      none none none true (resolveNow now clock)
  | .orphan _ errorCode errorMessage now =>
    policy.saveTransition current .orphaned
      { errorCode := some errorCode
        errorMessage := orDefault errorMessage
          "Operation worker was lost (the runtime process that owned it is gone)."
        retryability := .manual }
      none none none true (resolveNow now clock)
  | .progress _ data ownerId leaseExpiresAt now => do
    policy.requireOperationOwner current ownerId
    let updated ← policy.updateOperationProgress current data (resolveNow now clock)
    match leaseExpiresAt, ownerId with
    | none, _ => .ok (.saving updated)
    | some _, none => .error ⟨.operationInvalid, "lease renewal requires owner_id"⟩
    | some lease, some owner => do
      let renewed ← policy.renewOperationOwnership updated owner lease (resolveNow now clock)
      .ok (.saving renewed)
  | .renewOwnership _ ownerId leaseExpiresAt now => do
    let updated ← policy.renewOperationOwnership current ownerId leaseExpiresAt
      (resolveNow now clock)
    .ok (.saving updated)
  | .requeue _ now => do
    let updated ← policy.requeueOperation current (resolveNow now clock)
    .ok (.saving updated)
  | .requestCancel _ expectedUpdatedAt now => do
    let _ ← expectedUpdatedAt.mapM fun expected =>
      refuse (current.updatedAt ≠ expected) (changedSince expected current.updatedAt)
    let decision ← policy.requestOperationCancellation current (resolveNow now clock)
    if decision.task = current then .ok ⟨none, .decision decision⟩
    else .ok ⟨some decision.task, .decision decision⟩

/-- `OperationManager.status` -/
def status (operationId : Text) (store : OperationStore) : Except OperationError OperationTask := do
  match ← OperationStore.read policy operationId store with
  | none => .error (operationNotFound operationId)
  | some task => .ok task

end TaskPolicy

/-- Where a caller of the manager stands. -/
inductive Caller where
  | idle
  /-- Before a read, with the number of tries left. -/
  | calling (call : ManagerCall) (tries : Nat)
  /-- Between the read and the save. -/
  | saving (call : ManagerCall) (tries : Nat) (seen updated : OperationTask) (reply : ManagerReply)
  | returned (outcome : Except OperationError ManagerReply)

structure ManagerSystem where
  store : OperationStore
  callers : Nat → Caller

inductive ManagerLabel where
  | begin (caller : Nat) (call : ManagerCall)
  /-- One access to the store, with what the clock shows. -/
  | advance (caller : Nat) (clock : Stamp)
  deriving DecidableEq, Repr

section Steps

variable (policy : TaskPolicy)

/-- The next access of a caller. -/
def Caller.next (clock : Stamp) (store : OperationStore) : Caller → Caller × OperationStore
  | .calling (.create new now) _ =>
    match policy.newOperationTask new (resolveNow now clock) >>= fun task => do
        let store ← OperationStore.create policy task store
        .ok (task, store) with
    | .error error => (.returned (.error error), store)
    | .ok (task, store) => (.returned (.ok (.task task)), store)
  | .calling call tries =>
    match policy.status call.operationId store >>= fun seen => do
        let plan ← policy.plan clock seen call
        .ok (seen, plan) with
    | .error error => (.returned (.error error), store)
    | .ok (_, ⟨none, reply⟩) => (.returned (.ok reply), store)
    | .ok (seen, ⟨some updated, reply⟩) => (.saving call tries seen updated reply, store)
  | .saving call tries seen updated reply =>
    match OperationStore.save policy updated seen.updatedAt store with
    | .ok store => (.returned (.ok reply), store)
    | .error error =>
      if error.code = .operationStale ∧ 1 < tries then (.calling call (tries - 1), store)
      else (.returned (.error error), store)
  | caller => (caller, store)

namespace ManagerSystem

def step (s : ManagerSystem) : ManagerLabel → ManagerSystem
  | .begin p call => { s with callers := Function.update s.callers p (.calling call call.attempts) }
  | .advance p clock =>
    let (caller, store) := (s.callers p).next policy clock s.store
    { store, callers := Function.update s.callers p caller }

def start : ManagerSystem := ⟨∅, fun _ => .idle⟩

def run (labels : List ManagerLabel) : ManagerSystem := Runs.run (step policy) start labels

end ManagerSystem

end Steps

end RepoForge

/-!
## The requeue path of recovery

Source: `application/operations/recovery.py` (the branch of `recover_operation_work` for an
expired claim whose child has not started), over `json_operation_work_queue.py` and the
manager.

A pass has listed a work item and, later, the operation record of the same id; it saves the
item as queued, and then calls `manager.requeue`. Each of its accesses is a step: `queue.save`
reads and compares and then saves, `manager.requeue` reads and then saves. Between two of them
anything may happen: every call of any client on the work queue (`claim_next` saves an item it
has listed), and every step of any caller of the manager.
-/
namespace RepoForge

/-- The collection of `JsonOperationWorkQueue`. -/
def workCodec (encodes : Nat → OperationWorkItem → Except StateError Unit) :
    StateCodec OperationWorkItem where
  recordId := validOperationId
  encodes := encodes

/-- What a pass is given: the time that the clock shows, and the generation of the configuration
that it serves. -/
structure RecoveryInput where
  now : DateTime
  expectedConfigGeneration : Option Int
  deriving DecidableEq, Repr

/-- The item goes back to the queue: the operation is under way, and the claim is over before
its child has started. -/
def requeues (input : RecoveryInput) (item : OperationWorkItem) (operation : OperationTask) : Bool :=
  !operation.state.terminal && operation.cancellationRequestedAt.isNone &&
    !(input.expectedConfigGeneration.any fun expected => item.request.configGeneration < expected) &&
    item.state = .claimed && (item.leaseExpiresAt.any fun lease => lease ≤ input.now.instant) &&
    !item.childStarted

/-- Where a pass stands with one item. -/
inductive RequeuePass where
  | idle
  /-- The item is listed, its operation is not yet. -/
  | inspecting (input : RecoveryInput) (item : OperationWorkItem)
  /-- Before `queue.save`. -/
  | returning (input : RecoveryInput) (item : OperationWorkItem) (operation : OperationTask)
  /-- In `queue.save`, which has compared `updated_at` and found this revision. -/
  | saving (input : RecoveryInput) (queued : OperationWorkItem) (operation : OperationTask)
      (revision : Nat)
  /-- In `manager.requeue`, as the caller of the same number. -/
  | requeueing (operation : OperationTask)

structure RequeueSystem where
  manager : ManagerSystem
  work : Collection OperationWorkItem
  passes : Nat → RequeuePass

inductive RequeueLabel where
  /-- A step of a caller of the manager that is not a pass in `manager.requeue`. -/
  | manager (l : ManagerLabel)
  /-- A call of any client on the work queue. -/
  | queue (x : ClientCall OperationWorkItem)
  | list (pass : Nat) (operationId : Text) (input : RecoveryInput)
  | advance (pass : Nat) (clock : Stamp)
  deriving DecidableEq, Repr

def ManagerLabel.caller : ManagerLabel → Nat
  | .begin p _ | .advance p _ => p

section Steps

variable (policy : TaskPolicy) (codec : StateCodec OperationWorkItem)

namespace RequeueSystem

open Repository

def enter (s : RequeueSystem) (p : Nat) (pass : RequeuePass) : RequeueSystem :=
  { s with passes := Function.update s.passes p pass }

/-- The next access of a pass. An error ends its work on the item. -/
def next (s : RequeueSystem) (p : Nat) (clock : Stamp) : RequeuePass → RequeueSystem
  | .idle => s
  | .inspecting input item =>
    match policy.status item.operationId s.manager.store with
    | .error _ => s.enter p .idle
    | .ok operation =>
      if requeues input item operation then s.enter p (.returning input item operation)
      else s.enter p .idle
  | .returning input item operation =>
    match read codec item.operationId s.work, requeueUnstartedWork item input.now.instant with
    | .ok (some current), .ok queued =>
      if current.value.updatedAt ≠ item.updatedAt then s.enter p .idle
      else s.enter p (.saving input queued operation current.revision)
    | _, _ => s.enter p .idle
  | .saving input queued operation revision =>
    match save codec queued.operationId queued revision s.work with
    | .error _ => s.enter p .idle
    | .ok (_, work) =>
      if operation.state = .running then
        { manager := s.manager.step policy
            (.begin p (.requeue operation.operationId (some (policy.stamp input.now))))
          work
          passes := Function.update s.passes p (.requeueing operation) }
      else { s with work, passes := Function.update s.passes p .idle }
  | .requeueing _ =>
    let manager := s.manager.step policy (.advance p clock)
    match manager.callers p with
    | .returned _ => { s with manager, passes := Function.update s.passes p .idle }
    | _ => { s with manager }

def step (s : RequeueSystem) : RequeueLabel → RequeueSystem
  | .manager l => match s.passes l.caller with
    | .requeueing _ => s
    | _ => { s with manager := s.manager.step policy l }
  | .queue x => { s with work := Repository.step codec s.work x }
  | .list p operationId input => match s.passes p, read codec operationId s.work with
    | .idle, .ok (some envelope) => s.enter p (.inspecting input envelope.value)
    | _, _ => s
  | .advance p clock => s.next policy codec p clock (s.passes p)

def start : RequeueSystem := ⟨.start, ∅, fun _ => .idle⟩

end RequeueSystem

end Steps

end RepoForge

/-!
## The messages of operations

`_sanitize_message` of `domain/operation_task.py`, with `_looks_high_entropy` there, and the policy
that it gives. The pattern of private keys is the one of the egress policy.
-/
namespace RepoForge.TaskMessages

open Egress Regex Pattern PyStr

/-- `_TOKEN_CANDIDATE` -/
def tokenCandidate : Pattern CodePoint := apart (group valueGroup (atLeast 32 (alnumOr "_./+=-")))

/-- `pattern.sub(replacement, text)` -/
def sub (pattern : Pattern CodePoint) (replacement : PyStr → PyStr) (text : PyStr) : PyStr :=
  Spans.replace (fun m => replacement m.label) text 0
    ((finditer pattern text).map fun m => ⟨m.start, m.stop, slice text m.start m.stop⟩)

section Sanitize

variable (R : Runtime)

/-- `_looks_high_entropy` -/
def looksHighEntropy (value : PyStr) : Bool :=
  let classes := [value.any R.isLower, value.any R.isUpper, value.any R.isDigit,
    value.any fun c => !R.isAlnum c].count true
  if value.length < 32 || value.dedup.length < 12 then false
  else 3 ≤ classes || (2 ≤ classes && 40 ≤ value.length)

def replaceToken (candidate : PyStr) : PyStr :=
  if looksHighEntropy R candidate then lit "<redacted:high-entropy>" else candidate

/-- `redact_text` with a limit that is positive, which returns. -/
def redacted (value : PyStr) : PyStr :=
  (redactText R value [] (max 2000 value.length) []).getD []

/-- `_sanitize_message` of a string. -/
def sanitized (value : PyStr) : PyStr :=
  let result := sub privateKey (fun _ => lit "<redacted:private-key>") value
  let result := redacted R result
  let result := sub tokenCandidate (replaceToken R) result
  if 2000 < result.length then result.take 2000 else result

def sanitizeMessage (value : Text) : Option Text :=
  let result := sanitized R (ofText value)
  if result = [] then none else some (replaced result)

end Sanitize

/-- The policy of operation records. -/
def taskPolicy (R : Runtime) (isoformat : DateTime → Text) (encodes : OperationTask → Bool) :
    TaskPolicy where
  sanitizeMessage := sanitizeMessage R
  isoformat := isoformat
  encodes := encodes

end RepoForge.TaskMessages
