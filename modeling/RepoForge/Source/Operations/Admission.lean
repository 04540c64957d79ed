import Mathlib.Data.Prod.Lex
import RepoForge.Library.CompareAndSave
import RepoForge.Library.SortedListing
import RepoForge.Source.Operations.Manager

/-!
# Admission of durable work

Source: `application/operations/work_admission.py` over `json_operation_work_queue.py`, the
listing of `json_state_repository.py` and the manager; the requests are those of
`domain/operation_work.py`.

Any number of calls of `admit` run beside each other, beside every call of any other client of
the manager, and beside every change and deletion of a work item by workers, recovery and
cancellation: these are the actions of a compare-and-save store. One access of an admission to
a store is one step. Whether it raises is left open; `queue.create` may also raise after the
item has been written. The end of a process, and an exception outside the handled ones, stop
an admission where it stands.
-/
namespace RepoForge

open CompareAndSave

/-- What the work runs, as the three constructors of `OperationWorkRequest` make it. -/
inductive WorkForm where
  | profile (profileName : Text)
  | adhoc (argv : List Text) (script shell : Option Text) (argvSequence : Option (List (List Text)))
      (workingDirectory : Option Text) (mutability : Text) (stdinText : Option Text)
  | diagnostic (diagnosticId : Text) (selector selector2 : Option (List Text))
      (intent expectation expectedFailureClass : Option Text) (forceRerun rerunFailed : Bool)
  deriving DecidableEq, Repr

def WorkForm.kind : WorkForm → OperationWorkKind
  | profile _ => .profile
  | adhoc _ _ _ _ _ _ _ => .adhoc
  | diagnostic _ _ _ _ _ _ _ _ => .diagnostic

/-- A request with all its fields: two are the same work where all of them are equal. -/
structure WorkRequest where
  workspaceId : Text
  expectedHeadSha : Text
  expectedFingerprint : Text
  configGeneration : Int
  form : WorkForm
  deriving DecidableEq, Repr

/-- The fields that the functions on work items read. -/
def WorkRequest.summary (request : WorkRequest) : OperationWorkRequest :=
  ⟨request.form.kind, request.expectedFingerprint, request.configGeneration⟩

/-- A work item with the whole of its request. -/
structure QueuedWork where
  item : OperationWorkItem
  request : WorkRequest
  agrees : item.request = request.summary

/-- The id and the request of an item stay. -/
theorem WorkCommand.apply_kept {command : WorkCommand} {item next : OperationWorkItem}
    (h : command.apply item = .ok next) :
    next.operationId = item.operationId ∧ next.request = item.request := by
  cases command
  all_goals
    simp only [apply, claimWorkItem, renewWorkClaim, markWorkChildStarted, requeueUnstartedWork] at h
    split_ifs at h <;> cases h <;> exact ⟨rfl, rfl⟩

theorem newWorkItem_made {operationId : Text} {request : OperationWorkRequest} {now : Timestamp}
    {item : OperationWorkItem} (h : newWorkItem operationId request now = .ok item) :
    item.operationId = operationId ∧ item.request = request := by
  unfold newWorkItem at h
  split_ifs at h
  cases h
  exact ⟨rfl, rfl⟩

namespace QueuedWork

def apply (command : WorkCommand) (work : QueuedWork) : Except WorkError QueuedWork :=
  match made : command.apply work.item with
  | .error error => .error error
  | .ok next => .ok ⟨next, work.request, (WorkCommand.apply_kept made).2.trans work.agrees⟩

def updatedAt (work : QueuedWork) : Timestamp := work.item.updatedAt

/-- `new_work_item` -/
def new (operationId : Text) (request : WorkRequest) (now : Timestamp) :
    Except WorkError QueuedWork :=
  match made : newWorkItem operationId request.summary now with
  | .error error => .error error
  | .ok item => .ok ⟨item, request, (newWorkItem_made made).2⟩

end QueuedWork

abbrev AdmissionQueue := Store Nat Text WorkCommand QueuedWork

/-- The arguments of `admit`. -/
structure AdmitCall where
  request : WorkRequest
  operationKind : Text
  expiresAt : Option Stamp
  deriving DecidableEq, Repr

/-- An exception out of a store. -/
structure StoreException where
  repoForgeError : Bool
  typeName : Text
  deriving DecidableEq, Repr

inductive AdmitError where
  | generationUnknown
  | operation (error : OperationError)
  | newItem (error : WorkError)
  | raised (error : StoreException)
  deriving DecidableEq, Repr

/-- How the search of an admission went: the ids that the queue listed, and those of them whose
item or operation could not be read. -/
structure Sweep where
  listed : List Text
  unreadable : List Text
  deriving DecidableEq, Repr

def Sweep.miss (id : Text) (sweep : Sweep) : Sweep :=
  { sweep with unreadable := id :: sweep.unreadable }

/-- Where a call of `admit` stands. -/
inductive AdmitPhase where
  | idle
  /-- Before the queue is listed. -/
  | listing (call : AdmitCall)
  /-- In `list_records`, with the ids that are still to be read. -/
  | reading (call : AdmitCall) (sweep : Sweep) (left : List Text) (found : List (Envelope QueuedWork))
  /-- In `_in_flight_match`, with the items that are still to be looked at. -/
  | matching (call : AdmitCall) (sweep : Sweep) (left : List QueuedWork)
  /-- In `manager.create`, as the caller of the same number. -/
  | creating (call : AdmitCall) (sweep : Sweep) (operationId : Text) (now : DateTime)
  /-- Before `queue.create`. -/
  | queueing (call : AdmitCall) (sweep : Sweep) (operation : OperationTask) (work : QueuedWork)
      (now : DateTime)
  /-- In `manager.fail`. -/
  | failing (error : StoreException)
  | returned (outcome : Except AdmitError OperationTask)

/-- What an access meets: whether it raises, and then whether it has written; the text that
`ids.new_hex(24)` draws, and the time. -/
structure AdmitInput where
  raised : Option StoreException
  written : Bool
  hex : Text
  now : DateTime
  deriving DecidableEq, Repr

structure AdmissionSystem where
  manager : ManagerSystem
  queue : AdmissionQueue
  /-- The ids under which an item was ever created. -/
  created : List Text
  admits : Nat → AdmitPhase

inductive AdmissionLabel where
  /-- A step of a caller of the manager that is not an admission in one of its calls. -/
  | manager (l : ManagerLabel)
  /-- A step of any client that changes or deletes work items. -/
  | queue (action : Action Nat Text WorkCommand)
  | admission (caller : Nat) (call : AdmitCall)
  | advance (caller : Nat) (input : AdmitInput)
  | stop (caller : Nat)

/-- The operation that is created for the work. -/
def AdmitCall.newOperation (call : AdmitCall) (operationId : Text) : NewOperation where
  operationId := operationId
  kind := call.operationKind
  phase := "queued".toList
  cancelSupported := true
  workspaceId := some call.request.workspaceId
  snapshotBinding := some {
    headSha := some call.request.expectedHeadSha
    workspaceFingerprint := some call.request.expectedFingerprint
    configGeneration := some call.request.configGeneration }
  expiresAt := call.expiresAt

/-- The records of a page, the highest revision first. -/
def pageOrder (found : List (Envelope QueuedWork)) : List QueuedWork :=
  ((sortBy (fun e => toLex (e.revision, e.value.item.operationId)) found).reverse).map (·.value)

namespace AdmissionSystem

variable (policy : TaskPolicy)

def enter (s : AdmissionSystem) (p : Nat) (phase : AdmitPhase) : AdmissionSystem :=
  { s with admits := Function.update s.admits p phase }

/-- The ids of the first 2000 files of the queue. -/
def listed (s : AdmissionSystem) : List Text :=
  (sortBy Repository.fileName (s.created.filter fun id => (s.queue.records id).isSome)).take 2000

def insert (s : AdmissionSystem) (work : QueuedWork) : AdmissionSystem :=
  { s with
    queue := { s.queue with
      records := Function.update s.queue.records work.item.operationId (some ⟨1, work⟩) }
    created := work.item.operationId :: s.created }

/-- The admission calls the manager. -/
def call (s : AdmissionSystem) (p : Nat) (call : ManagerCall) (phase : AdmitPhase) :
    AdmissionSystem :=
  { s with
    manager := s.manager.step policy (.begin p call)
    admits := Function.update s.admits p phase }

/-- The work could not be queued: its operation is failed. -/
def fail (s : AdmissionSystem) (p : Nat) (operationId : Text) (now : DateTime) (error : StoreException) :
    AdmissionSystem :=
  s.call policy p
    (.fail operationId "OPERATION_WORK_ADMISSION_FAILED".toList
      (some ("Durable work could not be queued: ".toList ++ error.typeName)) none none .manual none
      (some (policy.stamp now)))
    (.failing error)

/-- The handlers of `list_records` and `_in_flight_match`: they pass over a `RepoForgeError`. -/
def passOver (s : AdmissionSystem) (p : Nat) (error : StoreException) (phase : AdmitPhase) :
    AdmissionSystem :=
  s.enter p (if error.repoForgeError then phase else .returned (.error (.raised error)))

/-- The next access of an admission. -/
def next (s : AdmissionSystem) (p : Nat) (input : AdmitInput) : AdmitPhase → AdmissionSystem
  | .idle | .returned _ => s
  | .listing call => match input.raised with
    | some error => s.passOver p error (.matching call ⟨[], []⟩ [])
    | none => s.enter p (.reading call ⟨s.listed, []⟩ s.listed [])
  | .reading call sweep [] found => s.enter p (.matching call sweep (pageOrder found))
  | .reading call sweep (id :: left) found => match input.raised, s.queue.records id with
    | some error, _ => s.passOver p error (.reading call (sweep.miss id) left found)
    | none, none => s.enter p (.reading call sweep left found)
    | none, some envelope => s.enter p (.reading call sweep left (envelope :: found))
  | .matching call sweep [] =>
    let operationId := "op-".toList ++ input.hex
    s.call policy p (.create (call.newOperation operationId) (some (policy.stamp input.now)))
      (.creating call sweep operationId input.now)
  | .matching call sweep (work :: left) =>
    if work.request ≠ call.request then s.enter p (.matching call sweep left)
    else match input.raised, policy.status work.item.operationId s.manager.store with
    | some error, _ =>
      s.passOver p error (.matching call (sweep.miss work.item.operationId) left)
    | none, .error _ => s.enter p (.matching call (sweep.miss work.item.operationId) left)
    | none, .ok operation =>
      if operation.state.terminal then s.enter p (.matching call sweep left)
      else s.enter p (.returned (.ok operation))
  | .creating call sweep operationId now =>
    let manager := s.manager.step policy (.advance p (policy.stamp input.now))
    match manager.callers p, QueuedWork.new operationId call.request now.instant with
    | .returned (.ok (.task operation)), .ok work =>
      { s with manager }.enter p (.queueing call sweep operation work now)
    | .returned (.ok (.task _)), .error error =>
      { s with manager }.enter p (.returned (.error (.newItem error)))
    | .returned (.error error), _ => { s with manager }.enter p (.returned (.error (.operation error)))
    | _, _ => { s with manager }
  | .queueing _ _ operation work now =>
    match s.queue.records work.item.operationId, input.raised with
    -- `ALREADY_EXISTS`
    | some _, _ => s.fail policy p work.item.operationId now ⟨true, "RepoForgeError".toList⟩
    | none, none => (s.insert work).enter p (.returned (.ok operation))
    | none, some error =>
      (if input.written then s.insert work else s).fail policy p work.item.operationId now error
  | .failing error =>
    let manager := s.manager.step policy (.advance p (policy.stamp input.now))
    match manager.callers p with
    | .returned (.ok _) => { s with manager }.enter p (.returned (.error (.raised error)))
    | .returned (.error error) => { s with manager }.enter p (.returned (.error (.operation error)))
    | _ => { s with manager }

def step (s : AdmissionSystem) : AdmissionLabel → AdmissionSystem
  | .manager l => match s.admits l.caller with
    | .creating _ _ _ _ | .failing _ => s
    | _ => { s with manager := s.manager.step policy l }
  | .queue action => { s with queue := s.queue.act QueuedWork.apply QueuedWork.updatedAt action }
  | .admission p call => match s.admits p with
    | .idle | .returned _ =>
      if call.request.configGeneration ≤ 0 then s.enter p (.returned (.error .generationUnknown))
      else s.enter p (.listing call)
    | _ => s
  | .advance p input => s.next policy p input (s.admits p)
  | .stop p => s.enter p .idle

def start : AdmissionSystem := ⟨.start, ⟨fun _ => none, fun _ => none, []⟩, [], fun _ => .idle⟩

end AdmissionSystem

end RepoForge
