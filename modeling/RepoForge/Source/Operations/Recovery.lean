import RepoForge.Library.Clients
import RepoForge.Source.Operations.Manager

/-!
# The recovery pass

Source: `application/operations/recovery.py` (`recover_operation_work`), with the listings of
`json_operation_store.py` and `json_state_repository.py`.

The pass is a program that makes requests of two stores: every call of it that reads or
changes a record file is one request, and between two requests other processes may change the
files. The binding store and the reaper of child processes are not embedded; what
`_contain_work_child` and the deletion of a binding answer is given (`Containment`). A request
carries whether it stands in a `try` of the loop over the work items.
-/
namespace RepoForge

open Clients

/-- The files of `JsonOperationWorkQueue`. An item is created and saved under its own id. -/
structure WorkFiles where
  files : Collection OperationWorkItem
  named : ∀ id revision item, files.lookup id = some (.readable revision item) →
    item.operationId = id

structure Stores where
  operations : OperationStore
  work : WorkFiles

inductive RecoveryError where
  | operation (error : OperationError)
  | state (error : StateError)
  deriving DecidableEq, Repr

/-- `OPERATION_STALE` and `STATE_STALE`. -/
def RecoveryError.conflict : RecoveryError → Bool
  | operation error => error.code = .operationStale
  | state error => match error with
    | .stale _ _ => true
    | _ => false

/-- The answer of `_contain_work_child`. -/
inductive Containment where
  | contained (detail : Text)
  | blocked (code detail : Text)
  deriving DecidableEq, Repr

/-- What the pass is given besides the stores. -/
structure RecoveryContext where
  policy : TaskPolicy
  codec : StateCodec OperationWorkItem
  contain : OperationWorkItem → Except RecoveryError Containment
  release : OperationWorkItem → Except RecoveryError Unit
  input : RecoveryInput

inductive RecoveryRequest where
  | workIds
  | operationIds
  | readWork (operationId : Text)
  | readOperation (operationId : Text)
  | deleteWork (operationId : Text)
  /-- The read of a call of the manager, with what the call makes of the record. -/
  | plan (guarded : Bool) (call : ManagerCall)
  | saveOperation (guarded : Bool) (seen updated : OperationTask)
  /-- `queue.save` reads and compares, and then saves. -/
  | compareWork (item : OperationWorkItem)
  | saveWork (queued : OperationWorkItem) (revision : Nat)
  | contain (guarded : Bool) (item : OperationWorkItem)
  | release (item : OperationWorkItem)
  deriving DecidableEq, Repr

def maxListed : Nat := 2000

section Files

variable (policy : TaskPolicy) (codec : StateCodec OperationWorkItem)

/-- An error of one of the stores. -/
def asState {α : Type} : Except StateError α → Except RecoveryError α
  | .ok a => .ok a
  | .error e => .error (.state e)

def asOperation {α : Type} : Except OperationError α → Except RecoveryError α
  | .ok a => .ok a
  | .error e => .error (.operation e)

namespace WorkFiles

theorem named_erase (w : WorkFiles) (operationId : Text) : ∀ id revision item,
    (w.files.erase operationId).lookup id = some (.readable revision item) →
    item.operationId = id := by
  intro id revision item found
  by_cases same : id = operationId
  · rw [same, AList.lookup_erase] at found
    cases found
  · rw [AList.lookup_erase_ne same] at found
    exact w.named id revision item found

theorem named_insert (w : WorkFiles) (item : OperationWorkItem) (revision : Nat) :
    ∀ id revision' item', (w.files.insert item.operationId (.readable revision item)).lookup id =
      some (.readable revision' item') → item'.operationId = id := by
  intro id revision' item' found
  by_cases same : id = item.operationId
  · rw [same, AList.lookup_insert] at found
    cases found
    exact same.symm
  · rw [AList.lookup_insert_ne same] at found
    exact w.named id revision' item' found

def erase (operationId : Text) (w : WorkFiles) : WorkFiles :=
  ⟨w.files.erase operationId, w.named_erase operationId⟩

def insert (item : OperationWorkItem) (revision : Nat) (w : WorkFiles) : WorkFiles :=
  ⟨w.files.insert item.operationId (.readable revision item), w.named_insert item revision⟩

end WorkFiles

namespace Stores

/-- `sorted(root.glob("op-*.json"))` -/
def operationNames (s : Stores) : List Text :=
  (s.operations.keys.filter ("op-".toList.isPrefixOf ·)).insertionSort
    fun a b => Repository.fileName a ≤ Repository.fileName b

def operationIds (s : Stores) : List Text × Bool :=
  (s.operationNames.take maxListed, maxListed < s.operationNames.length)

def workIds (s : Stores) : List Text × Bool := Repository.listIds maxListed 0 s.work.files

def readWork (operationId : Text) (s : Stores) :
    Except RecoveryError (Option (StateEnvelope OperationWorkItem) × Stores) := do
  let found ← asState (Repository.read codec operationId s.work.files)
  .ok (found, s)

def readOperation (operationId : Text) (s : Stores) :
    Except RecoveryError (Option OperationTask × Stores) := do
  let found ← asOperation (OperationStore.read policy operationId s.operations)
  .ok (found, s)

def deleteWork (operationId : Text) (s : Stores) : Except RecoveryError (Unit × Stores) := do
  asState (Repository.checkId codec operationId)
  .ok ((), { s with work := s.work.erase operationId })

/-- The time is given with every call of the pass. -/
def plan (now : Stamp) (call : ManagerCall) (s : Stores) :
    Except RecoveryError ((OperationTask × ManagerPlan) × Stores) := do
  let seen ← asOperation (policy.status call.operationId s.operations)
  let plan ← asOperation (policy.plan now seen call)
  .ok ((seen, plan), s)

def saveOperation (seen updated : OperationTask) (s : Stores) :
    Except RecoveryError (Unit × Stores) := do
  let operations ← asOperation (OperationStore.save policy updated seen.updatedAt s.operations)
  .ok ((), { s with operations })

def compareWork (item : OperationWorkItem) (s : Stores) : Except RecoveryError (Nat × Stores) := do
  match ← asState (Repository.read codec item.operationId s.work.files) with
  | none => .error (.operation ⟨.operationNotFound,
      "Operation work not found: " ++ String.ofList item.operationId⟩)
  | some current =>
    if current.value.updatedAt ≠ item.updatedAt then
      .error (.operation ⟨.operationStale, "Operation work changed since the reviewed updated_at"⟩)
    else .ok (current.revision, s)

def saveWork (queued : OperationWorkItem) (revision : Nat) (s : Stores) :
    Except RecoveryError (Unit × Stores) := do
  let (saved, _) ← asState
    (Repository.save codec queued.operationId queued revision s.work.files)
  .ok ((), { s with work := s.work.insert queued saved.revision })

end Stores

end Files

/-- What became of a work item. -/
inductive ItemOutcome where
  | orphanWork | cancelled | staleGeneration | orphaned | requeued | conflict | kept
  | blocked (code detail : Text)
  deriving DecidableEq, Repr

structure OperationWorkRecoveryBlocker where
  operationId : Text
  code : Text
  detail : Text
  deriving DecidableEq, Repr

structure OperationWorkRecoveryReport where
  scanned : Nat
  requeued : Nat
  orphaned : Nat
  missingWork : Nat
  orphanWork : Nat
  staleGeneration : Nat
  cancelled : Nat
  conflicts : Nat
  blocked : Nat
  blockers : List OperationWorkRecoveryBlocker
  scanTruncated : Bool
  deriving DecidableEq, Repr

abbrev Pass (α : Type) := Client Stores RecoveryRequest RecoveryError α

namespace RecoveryContext

open Client

variable (ctx : RecoveryContext)

def nowText : Stamp := ctx.policy.stamp ctx.input.now

section Listing

/-- One record of a listing: one that cannot be read is left out. -/
def skipUnreadable {α : Type} (read : Pass (Option α)) : Pass (Option α) :=
  rescue read fun _ => ret none

/-- By revision and id, the largest first. -/
def workNewer (a b : StateEnvelope OperationWorkItem) : Bool :=
  b.revision < a.revision || b.revision = a.revision && b.recordId ≤ a.recordId

/-- By the text of `updated_at` and id, the largest first. -/
def operationNewer (a b : OperationTask) : Bool :=
  b.updatedAt.text < a.updatedAt.text ||
    b.updatedAt.text = a.updatedAt.text && b.operationId ≤ a.operationId

def listWork : Pass (List OperationWorkItem × Bool) := do
  let (ids, truncated) ← ask .workIds fun s => .ok (s.workIds, s)
  let read ← collect (fun id => skipUnreadable (ask (.readWork id) (Stores.readWork ctx.codec id))) ids
  let page := (read.filterMap fun found => found).insertionSort (workNewer · ·)
  ret (page.map (·.value), truncated)

def listOperations : Pass (List OperationTask × Bool) := do
  let (ids, truncated) ← ask .operationIds fun s => .ok (s.operationIds, s)
  let read ← collect
    (fun id => skipUnreadable (ask (.readOperation id) (Stores.readOperation ctx.policy id))) ids
  let page := (read.filterMap fun found => found).insertionSort (operationNewer · ·)
  ret (page, truncated)

end Listing

section Items

/-- A call of the manager. -/
def manage (guarded : Bool) (call : ManagerCall) : Pass Unit := do
  let (seen, plan) ← ask (.plan guarded call) (Stores.plan ctx.policy ctx.nowText call)
  match plan.write with
  | none => ret ()
  | some updated =>
    ask (.saveOperation guarded seen updated) (Stores.saveOperation ctx.policy seen updated)

def deleteWork (operationId : Text) : Pass Unit :=
  ask (.deleteWork operationId) (Stores.deleteWork ctx.codec operationId)

def containChild (guarded : Bool) (item : OperationWorkItem) : Pass Containment :=
  ask (.contain guarded item) fun s => do
    let contained ← ctx.contain item
    .ok (contained, s)

def releaseBinding (item : OperationWorkItem) : Pass Unit :=
  ask (.release item) fun s => do
    ctx.release item
    .ok ((), s)

/-- The `try` of the loop: a conflict is counted, anything else is raised. -/
def guarded (m : Pass ItemOutcome) : Pass ItemOutcome :=
  rescue m fun e => if e.conflict then ret .conflict else raise e

/-- The operation is ended, and its work item goes. -/
def settle (item : OperationWorkItem) (call : ManagerCall) (bound : Bool) (outcome : ItemOutcome) :
    Pass ItemOutcome := do
  ctx.manage true call
  ctx.deleteWork item.operationId
  if bound then ctx.releaseBinding item
  ret outcome

def orphanWork (item : OperationWorkItem) : Pass ItemOutcome := do
  ctx.deleteWork item.operationId
  ret .orphanWork

def cancelItem (item : OperationWorkItem) (operation : OperationTask) : Pass ItemOutcome :=
  let call := .cancelled item.operationId operation.ownerId (some ctx.nowText)
  if item.childStarted then do
    match ← ctx.containChild false item with
    | .blocked code detail => ret (.blocked code detail)
    | .contained _ => guarded (ctx.settle item call true .cancelled)
  else guarded (ctx.settle item call false .cancelled)

def generationDetail (item : OperationWorkItem) (expected : Int) : Text :=
  ("Durable work was admitted for config generation " ++ toString item.request.configGeneration ++
    ", but the active worker is generation " ++ toString expected ++ ".").toList

def orphanStale (item : OperationWorkItem) (detail : Text) : ManagerCall :=
  .orphan item.operationId "OPERATION_GENERATION_STALE".toList (some detail) (some ctx.nowText)

def failStale (item : OperationWorkItem) (expected : Int) : ManagerCall :=
  .fail item.operationId "OPERATION_GENERATION_STALE".toList
    (some (generationDetail item expected)) none none .manual none (some ctx.nowText)

def retireItem (item : OperationWorkItem) (operation : OperationTask) (expected : Int) :
    Pass ItemOutcome :=
  guarded (
    if operation.state = .running then
      if item.childStarted then do
        match ← ctx.containChild true item with
        | .blocked code detail => ret (.blocked code detail)
        -- the report of the containment takes the place of the detail
        | .contained detail => ctx.settle item (ctx.orphanStale item detail) true .staleGeneration
      else ctx.settle item (ctx.orphanStale item (generationDetail item expected)) false
        .staleGeneration
    else ctx.settle item (ctx.failStale item expected) false .staleGeneration)

def orphanLost (item : OperationWorkItem) : ManagerCall :=
  .orphan item.operationId "OPERATION_WORKER_LOST".toList
    (some "Durable worker lease expired after the child process started.".toList)
    (some ctx.nowText)

def loseItem (item : OperationWorkItem) : Pass ItemOutcome :=
  guarded (do
    match ← ctx.containChild true item with
    | .blocked code detail => ret (.blocked code detail)
    | .contained _ => ctx.settle item (ctx.orphanLost item) true .orphaned)

def returnItem (item : OperationWorkItem) (operation : OperationTask) : Pass ItemOutcome :=
  guarded (
    match requeueUnstartedWork item ctx.input.now.instant with
    | .error error => raise (.operation ⟨.operationInvalid, error.message⟩)
    | .ok queued => do
      let revision ← ask (.compareWork item) (Stores.compareWork ctx.codec item)
      ask (.saveWork queued revision) (Stores.saveWork ctx.codec queued revision)
      if operation.state = .running then
        ctx.manage true (.requeue item.operationId (some ctx.nowText))
      ret .requeued)

def handleItem (operations : List OperationTask) (item : OperationWorkItem) : Pass ItemOutcome :=
  match operations.find? (·.operationId = item.operationId) with
  | none => ctx.orphanWork item
  | some operation =>
    if operation.state.terminal then ctx.orphanWork item
    else if operation.cancellationRequestedAt ≠ none then ctx.cancelItem item operation
    else match ctx.input.expectedConfigGeneration.filter (item.request.configGeneration < ·) with
    | some expected => ctx.retireItem item operation expected
    | none =>
      if item.state = .claimed ∧ (item.leaseExpiresAt.any (· ≤ ctx.input.now.instant)) then
        if item.childStarted then ctx.loseItem item else ctx.returnItem item operation
      else ret .kept

end Items

section Missing

def durableKinds : List Text :=
  ["workspace_run_profile".toList, "workspace_run_adhoc".toList, "workspace_run_diagnostic".toList]

/-- A time that cannot be read counts as long past. -/
def admissionWindowElapsed (createdAt : Stamp) : Bool :=
  match createdAt.parsed with
  | .aware created => 60000000 ≤ ctx.input.now.instant - created.instant
  | _ => true

def lacksWork (workIds : List Text) (operation : OperationTask) : Bool :=
  durableKinds.contains operation.kind && operation.state = .pending &&
    operation.phase = "queued".toList && !(workIds.contains operation.operationId) &&
    ctx.admissionWindowElapsed operation.createdAt

def workMissing : Text := "OPERATION_WORK_MISSING".toList

/-- Outside of any `try`. -/
def failMissing (operation : OperationTask) : Pass Unit :=
  ctx.manage false (.fail operation.operationId workMissing
    (some "Durable operation has no recoverable work sidecar.".toList) none none .manual none
    (some ctx.nowText))

end Missing

section Report

def maxRecoveryBlockers : Nat := 100

/-- `record_blocker` -/
def blocker (item : OperationWorkItem) : ItemOutcome → Option OperationWorkRecoveryBlocker
  | .blocked code detail => some {
      operationId := item.operationId
      code := if code = [] then "containment_blocked".toList else code
      detail := detail.take 512 }
  | _ => none

/-- Field by field. -/
def blockerBefore (a b : OperationWorkRecoveryBlocker) : Bool :=
  a.operationId < b.operationId || a.operationId = b.operationId &&
    (a.code < b.code || a.code = b.code && a.detail ≤ b.detail)

def report (work : List OperationWorkItem × Bool) (listed : List OperationTask × Bool)
    (outcomes : List ItemOutcome) (missing : List Unit) : OperationWorkRecoveryReport :=
  let blockers := (List.zipWith blocker work.1 outcomes).filterMap fun found => found
  { scanned := work.1.length
    requeued := outcomes.count .requeued
    orphaned := outcomes.count .orphaned
    missingWork := missing.length
    orphanWork := outcomes.count .orphanWork
    staleGeneration := outcomes.count .staleGeneration
    cancelled := outcomes.count .cancelled
    conflicts := outcomes.count .conflict
    blocked := blockers.length
    blockers := (blockers.take maxRecoveryBlockers).insertionSort (blockerBefore · ·)
    scanTruncated := work.2 || listed.2 }

end Report

def recoverOperationWork : Pass OperationWorkRecoveryReport := do
  let (items, workTruncated) ← ctx.listWork
  let (operations, operationsTruncated) ← ctx.listOperations
  let outcomes ← collect (ctx.handleItem operations) items
  let missing ← collect ctx.failMissing
    (operations.filter (ctx.lacksWork (items.map (·.operationId))))
  ret (report (items, workTruncated) (operations, operationsTruncated) outcomes missing)

end RecoveryContext

end RepoForge
