import RepoForge.Library.CompareAndSave
import RepoForge.Library.PyText

/-!
# Work items

Source: `domain/operation_work.py` and, from `domain/operation_task.py`,
`next_operation_timestamp` and `validate_operation_id`.

A timestamp is the instant its ISO text denotes, in microseconds. Of a request only the
fields that some function here or in the queue reads are kept; the codec of the items is
not modelled.
-/
namespace RepoForge

abbrev Timestamp := Int

inductive OperationWorkState where
  | queued | claimed
  deriving DecidableEq, Repr

inductive OperationWorkKind where
  | profile | adhoc | diagnostic
  deriving DecidableEq, Repr

structure OperationWorkRequest where
  kind : OperationWorkKind
  expectedFingerprint : Text
  configGeneration : Int
  deriving DecidableEq, Repr

structure OperationWorkItem where
  operationId : Text
  request : OperationWorkRequest
  state : OperationWorkState
  attempt : Nat
  ownerId : Option Text
  leaseExpiresAt : Option Timestamp
  childStarted : Bool
  createdAt : Timestamp
  updatedAt : Timestamp
  schemaVersion : Nat := 1
  deriving DecidableEq, Repr

inductive WorkError where
  | operationIdInvalid
  | fingerprintInvalid
  | notQueued
  | startedWork
  | ownershipChanged
  | notOwner
  deriving DecidableEq, Repr

def WorkError.message : WorkError → String
  | .operationIdInvalid => "operation_id has an invalid format"
  | .fingerprintInvalid => "expected_fingerprint must be an exact lowercase SHA-256 digest"
  | .notQueued => "only queued work can be claimed"
  | .startedWork => "started work cannot be requeued"
  | .ownershipChanged => "Work ownership changed before the child spawn boundary"
  | .notOwner => "only the current work owner can renew its lease"

/-- One microsecond after the previous stamp where the clock has not moved on. -/
def nextOperationTimestamp (previous candidate : Timestamp) : Timestamp :=
  if candidate ≤ previous then previous + 1 else candidate

/-- `^op-[a-f0-9]{24}$`, at most 27 characters. -/
def validOperationId (operationId : Text) : Bool :=
  ['o', 'p', '-'].isPrefixOf operationId && operationId.length = 27 &&
    (operationId.drop 3).all lowerHex

def newWorkItem (operationId : Text) (request : OperationWorkRequest) (now : Timestamp) :
    Except WorkError OperationWorkItem :=
  if !validOperationId operationId then .error .operationIdInvalid
  else if request.expectedFingerprint.length ≠ 64 || !request.expectedFingerprint.all lowerHex then
    .error .fingerprintInvalid
  else .ok {
    operationId, request
    state := .queued
    attempt := 0
    ownerId := none
    leaseExpiresAt := none
    childStarted := false
    createdAt := now
    updatedAt := now }

def claimWorkItem (item : OperationWorkItem) (ownerId : Text) (leaseExpiresAt now : Timestamp) :
    Except WorkError OperationWorkItem :=
  if item.state ≠ .queued then .error .notQueued
  else .ok { item with
    state := .claimed
    attempt := item.attempt + 1
    ownerId := some ownerId
    leaseExpiresAt := some leaseExpiresAt
    updatedAt := nextOperationTimestamp item.updatedAt now }

def requeueUnstartedWork (item : OperationWorkItem) (now : Timestamp) :
    Except WorkError OperationWorkItem :=
  if item.childStarted then .error .startedWork
  else .ok { item with
    state := .queued
    ownerId := none
    leaseExpiresAt := none
    updatedAt := nextOperationTimestamp item.updatedAt now }

def markWorkChildStarted (item : OperationWorkItem) (ownerId : Text) (attempt : Nat)
    (now : Timestamp) : Except WorkError OperationWorkItem :=
  if item.state ≠ .claimed ∨ item.ownerId ≠ some ownerId ∨ item.attempt ≠ attempt then
    .error .ownershipChanged
  else if item.childStarted then .ok item
  else .ok { item with
    childStarted := true
    updatedAt := nextOperationTimestamp item.updatedAt now }

/-- The lease only: the attempt is not compared. -/
def renewWorkClaim (item : OperationWorkItem) (ownerId : Text) (leaseExpiresAt now : Timestamp) :
    Except WorkError OperationWorkItem :=
  if item.state ≠ .claimed ∨ item.ownerId ≠ some ownerId then .error .notOwner
  else .ok { item with
    leaseExpiresAt := some leaseExpiresAt
    updatedAt := nextOperationTimestamp item.updatedAt now }

/-- The changes that the queue saves. -/
inductive WorkCommand where
  | claim (ownerId : Text) (leaseExpiresAt now : Timestamp)
  | renew (ownerId : Text) (leaseExpiresAt now : Timestamp)
  | markStarted (ownerId : Text) (attempt : Nat) (now : Timestamp)
  | requeue (now : Timestamp)
  deriving DecidableEq, Repr

def WorkCommand.apply : WorkCommand → OperationWorkItem → Except WorkError OperationWorkItem
  | .claim ownerId lease now, item => claimWorkItem item ownerId lease now
  | .renew ownerId lease now, item => renewWorkClaim item ownerId lease now
  | .markStarted ownerId attempt now, item => markWorkChildStarted item ownerId attempt now
  | .requeue now, item => requeueUnstartedWork item now

end RepoForge

/-!
# Workers, recovery passes and the work queue

Source: `adapters/persistence/json_operation_work_queue.py` over
`json_state_repository.py`, `application/operations/work_loop.py` (`run_once`) and the queue
calls of `recovery.py`, `repair.py` and `cancel.py`.

One step of the system is one locked operation of a store, by any thread. The repository
calls of the queue are the actions of a compare-and-save store: `claim_next` lists and
saves, every other change reads, computes, compares `updated_at` and saves. Which queued
item a worker tries to claim is left open, and so is the time: a lease may be found expired
in any state. Recovery, repair and cancellation requeue and delete whatever they decide to;
their decisions are left open too, as are the answers of the operation store, of the work
handler and of the monitor thread, which only choose between the exits of `run_once`.
-/
namespace RepoForge

open CompareAndSave

abbrev WorkQueue := Store Nat Text WorkCommand OperationWorkItem

/-- The work that a pass through `run_once` is about. -/
structure Claim where
  operationId : Text
  ownerId : Text
  attempt : Nat
  deriving DecidableEq, Repr

/-- Where a worker stands in `run_once`. -/
inductive WorkerPhase where
  /-- Outside, or waiting for `claim_next`. -/
  | idle
  /-- Before `operations.start`. -/
  | starting (claim : Claim)
  | executing (claim : Claim)
  /-- The handler has returned. -/
  | settling (claim : Claim)
  /-- The result is deleted, `operations.cancelled` comes next. -/
  | withdrawing (claim : Claim)
  /-- The result is saved, `operations.succeed` comes next. -/
  | delivering (claim : Claim)
  /-- At the start of the `except` block. -/
  | failing (claim : Claim)
  /-- The result is deleted, the failure is reported next. -/
  | reporting (claim : Claim)
  /-- In the `finally` block. -/
  | cleaning (claim : Claim)
  deriving DecidableEq, Repr

def WorkerPhase.claim : WorkerPhase → Option Claim
  | .idle => none
  | .starting c | .executing c | .settling c | .withdrawing c | .delivering c | .failing c
  | .reporting c | .cleaning c => some c

/-- A saved result, with the claim it was saved under. -/
structure SavedResult where
  claim : Claim
  data : Bytes
  deriving DecidableEq, Repr

/-- Worker `w` claims in thread `w`; every other thread is a monitor or not a worker's. -/
structure System where
  queue : WorkQueue
  results : Text → Option SavedResult
  workers : Nat → WorkerPhase

inductive Label where
  | call (action : Action Nat Text WorkCommand)
  | operationStarted (worker : Nat)
  | operationMissing (worker : Nat)
  | startRaised (worker : Nat)
  | handlerReturned (worker : Nat)
  | handlerRaised (worker : Nat)
  | cancelFound (worker : Nat)
  | resultSaved (worker : Nat) (data : Bytes)
  | settled (worker : Nat)
  | settleRaised (worker : Nat)
  | resultDropped (worker : Nat)
  | dropRaised (worker : Nat)
  | reported (worker : Nat)
  | cleanedUp (worker : Nat)
  | stopped (worker : Nat)

namespace System

def enter (w : Nat) (phase : WorkerPhase) (s : System) : System :=
  { s with workers := Function.update s.workers w phase }

def deleteWork (operationId : Text) (s : System) : System :=
  { s with queue := s.queue.delete operationId }

def deleteResult (operationId : Text) (s : System) : System :=
  { s with results := Function.update s.results operationId none }

/-- A worker whose claim is saved goes on with it. -/
def afterSave (t : Nat) (s : System) : WorkerPhase :=
  match s.queue.outcome t, s.workers t with
  | some ⟨operationId, .claim ownerId _ _, _, after, _⟩, .idle =>
    .starting ⟨operationId, ownerId, after.attempt⟩
  | _, phase => phase

def call (s : System) (a : Action Nat Text WorkCommand) : System where
  queue := s.queue.act WorkCommand.apply OperationWorkItem.updatedAt a
  results := s.results
  workers := match a with
    | .save t => Function.update s.workers t (s.afterSave t)
    | .list _ _ _ | .read _ _ _ | .compare _ | .abandon _ | .delete _ => s.workers

def step (s : System) : Label → System
  | .call a => s.call a
  | .operationStarted w => match s.workers w with
    | .starting c => s.enter w (.executing c)
    | _ => s
  -- the operation record is missing: the work item is discarded
  | .operationMissing w => match s.workers w with
    | .starting c => (s.deleteWork c.operationId).enter w .idle
    | _ => s
  | .startRaised w => match s.workers w with
    | .starting _ => s.enter w .idle
    | _ => s
  | .handlerReturned w => match s.workers w with
    | .executing c => s.enter w (.settling c)
    | _ => s
  | .handlerRaised w => match s.workers w with
    | .executing c => s.enter w (.failing c)
    | _ => s
  | .cancelFound w => match s.workers w with
    | .settling c => (s.deleteResult c.operationId).enter w (.withdrawing c)
    | _ => s
  | .resultSaved w data => match s.workers w with
    | .settling c =>
      { s with results := Function.update s.results c.operationId (some ⟨c, data⟩) }.enter w
        (.delivering c)
    | _ => s
  | .settled w => match s.workers w with
    | .withdrawing c | .delivering c => s.enter w (.cleaning c)
    | _ => s
  | .settleRaised w => match s.workers w with
    | .settling c | .withdrawing c | .delivering c => s.enter w (.failing c)
    | _ => s
  | .resultDropped w => match s.workers w with
    | .failing c => (s.deleteResult c.operationId).enter w (.reporting c)
    | _ => s
  | .dropRaised w => match s.workers w with
    | .failing c => s.enter w (.cleaning c)
    | _ => s
  | .reported w => match s.workers w with
    | .reporting c => s.enter w (.cleaning c)
    | _ => s
  | .cleanedUp w => match s.workers w with
    | .cleaning c => (s.deleteWork c.operationId).enter w .idle
    | _ => s
  | .stopped w => s.enter w .idle

def run (s : System) (labels : List Label) : System := labels.foldl step s

/-- `JsonOperationWorkQueue.create` of the item of one admitted request. -/
def admitted (s : System) (operationId : Text) (request : OperationWorkRequest) (now : Timestamp) :
    System :=
  match newWorkItem operationId request now, s.queue.records operationId with
  | .ok item, none => { s with queue := { s.queue with
      records := Function.update s.queue.records operationId (some ⟨1, item⟩) } }
  | _, _ => s

def empty : System := ⟨⟨fun _ => none, fun _ => none, []⟩, fun _ => none, fun _ => .idle⟩

/-- Requests are admitted, each under an operation id drawn for it; then anything may run. -/
def start : List (Text × OperationWorkRequest × Timestamp) → System
  | [] => empty
  | (operationId, request, now) :: rest => (start rest).admitted operationId request now

end System

end RepoForge
