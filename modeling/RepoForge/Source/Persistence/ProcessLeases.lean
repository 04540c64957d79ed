import Mathlib.Algebra.Group.Nat.Defs
import RepoForge.Source.Persistence.StateRepository
import RepoForge.Library.Interruptible
import RepoForge.Library.SortedListing

/-!
# Process leases

Source: `adapters/persistence/json_process_lease_adapter.py` and, from
`domain/process_lease.py`, the lease and its statuses.

Any number of processes share two collections, the active leases and the history. A step is
one access to a collection: a locked call, one listing of the directory, or one half of an
unlocked read, which looks whether the file is there and then opens it. `advance` runs the
next step of a process; between two of them every other process may run, and a process may
crash. Leases are created and saved by whole locked calls.
-/
namespace RepoForge

inductive ProcessLeaseStatus where
  | registered | ready | unproven | running | terminating | terminated | archived | killed
  | quarantined
  deriving DecidableEq, Repr

def activeLeaseStatuses : List ProcessLeaseStatus :=
  [.registered, .ready, .unproven, .running, .terminating, .killed, .quarantined]

def terminalStatuses : List ProcessLeaseStatus := [.terminated, .archived]

inductive ProcessLeaseRole where
  | executionDaemon | operationWorker | tunnelChild
  deriving DecidableEq, Repr

structure ProcessLease where
  leaseId : Text
  status : ProcessLeaseStatus
  processIdentity : Option Text
  pid : Option Nat
  startedAt : Option Text
  heartbeatAt : Option Text
  correlationId : Text
  createdAt : Text
  updatedAt : Text
  errorCode : Option Text := none
  errorMessage : Option Text := none
  role : ProcessLeaseRole := .executionDaemon
  pgid : Option Nat := none
  processStartToken : Option Text := none
  ownerPid : Option Nat := none
  ownerProcessIdentity : Option Text := none
  releaseSha : Option Text := none
  generation : Option Nat := none
  admissionEpoch : Option Nat := none
  deriving DecidableEq, Repr

/-- `^[a-z0-9]+-[a-f0-9]{6,64}$` -/
def validLeaseId (leaseId : Text) : Bool :=
  let kind := leaseId.takeWhile (· ≠ '-')
  match leaseId.dropWhile (· ≠ '-') with
  | [] => false
  | _ :: hex => kind ≠ [] && kind.all (fun c => c.isLower || c.isDigit) &&
      6 ≤ hex.length && hex.length ≤ 64 && hex.all lowerHex

/-- A valid id is a safe file name unless it is too long. -/
def leaseCodec (encodes : Nat → ProcessLease → Except StateError Unit) : StateCodec ProcessLease where
  recordId id := validLeaseId id && id.length ≤ 128
  encodes := encodes

def scanPageSize : Nat := 2000

structure ProcessLeasePage where
  records : List ProcessLease
  scanComplete : Bool
  unreadableIds : List Text
  deriving DecidableEq, Repr

/-- The variables of `_scan_active_ids`. -/
structure ActiveScan where
  role : Option ProcessLeaseRole
  maxRecords : Nat
  records : List ProcessLease
  unreadable : List Text
  offset : Nat
  deriving DecidableEq, Repr

/-- Where a process stands. `opening` is between the two halves of a read. -/
inductive LeaseProcess where
  | idle
  /-- `collect_terminal`, at the head of its loop. -/
  | collecting (moved : Nat) (rest : List Text)
  | opening (moved : Nat) (id : Text) (rest : List Text)
  | copying (moved : Nat) (envelope : StateEnvelope ProcessLease) (rest : List Text)
  | deleting (moved : Nat) (envelope : StateEnvelope ProcessLease) (rest : List Text)
  | collected (outcome : Except StateError Nat)
  /-- `archive_terminal` -/
  | archiving (id : Text) (expected : Nat)
  | archiveOpening (id : Text) (expected : Nat)
  | archiveCopying (envelope : StateEnvelope ProcessLease)
  | archiveDeleting (envelope : StateEnvelope ProcessLease)
  | archived (outcome : Except StateError Bool)
  /-- `list_active_page`, before it lists the next page. -/
  | listing (scan : ActiveScan)
  /-- Inside a page of `count` ids. -/
  | reading (scan : ActiveScan) (count : Nat) (truncated : Bool) (rest : List Text)
  | scanOpening (scan : ActiveScan) (count : Nat) (truncated : Bool) (id : Text) (rest : List Text)
  | scanned (page : ProcessLeasePage)

structure LeaseStores where
  active : Collection ProcessLease
  history : Collection ProcessLease

/-- The page of a scan that has stopped. -/
def ActiveScan.page (scan : ActiveScan) (exhausted : Bool) : ProcessLeasePage where
  records := (scan.records.insertionSort fun a b => a.leaseId ≤ b.leaseId).take scan.maxRecords
  scanComplete := exhausted && scan.records.length ≤ scan.maxRecords
  unreadableIds := scan.unreadable.insertionSort (· ≤ ·)

/-- Whether the scan keeps this lease. -/
def ActiveScan.wants (scan : ActiveScan) (lease : ProcessLease) : Bool :=
  lease.status ∈ activeLeaseStatuses && (scan.role = none || scan.role = some lease.role)

section Steps

open Repository

variable (codec : StateCodec ProcessLease)

/-- The second half of a read: the file was there when the first half looked. -/
def openRecord (id : Text) (c : Collection ProcessLease) :
    Except StateError (StateEnvelope ProcessLease) :=
  match c.lookup id with
  | none => .error .persistenceFailed
  | some (.unreadable error) => .error error
  | some (.readable revision value) => .ok ⟨id, revision, value⟩

/-- The lease of an opened record in the loop of a scan. -/
def ActiveScan.opened (scan : ActiveScan) (count : Nat) (truncated : Bool) (id : Text)
    (rest : List Text) (c : Collection ProcessLease) : LeaseProcess :=
  match openRecord id c with
  | .error _ => .reading { scan with unreadable := scan.unreadable ++ [id] } count truncated rest
  | .ok envelope =>
    if scan.wants envelope.value then
      let scan := { scan with records := scan.records ++ [envelope.value] }
      if scan.records.length > scan.maxRecords then .scanned (scan.page false)
      else .reading scan count truncated rest
    else .reading scan count truncated rest

/-- The next step of a process. -/
def next (s : LeaseStores) : LeaseProcess → LeaseProcess × LeaseStores
  | .collecting moved [] => (.collected (.ok moved), s)
  | .collecting moved (id :: rest) =>
    if ¬ codec.recordId id then (.collected (.error .invalid), s)
    else if id ∈ s.active then (.opening moved id rest, s)
    else (.collecting moved rest, s)
  -- this read stands outside the `try`
  | .opening moved id rest => match openRecord id s.active with
    | .error error => (.collected (.error error), s)
    | .ok envelope =>
      if envelope.value.status ∈ terminalStatuses then (.copying moved envelope rest, s)
      else (.collecting moved rest, s)
  | .copying moved envelope rest =>
    match createOrReadEqual codec envelope.recordId envelope.value s.history with
    | .error _ => (.collecting moved rest, s)
    | .ok (_, history) => (.deleting moved envelope rest, { s with history })
  | .deleting moved envelope rest =>
    match deleteIfRevision codec envelope.recordId envelope.revision s.active with
    | .error _ => (.collecting moved rest, s)
    | .ok (_, active) => (.collecting (moved + 1) rest, { s with active })
  | .archiving id expected =>
    if ¬ codec.recordId id then (.archived (.error .invalid), s)
    else if id ∈ s.active then (.archiveOpening id expected, s)
    else (.archived (.ok false), s)
  | .archiveOpening id expected => match openRecord id s.active with
    | .error error => (.archived (.error error), s)
    | .ok envelope =>
      if envelope.revision ≠ expected then (.archived (.ok false), s)
      else if envelope.value.status ∈ terminalStatuses then (.archiveCopying envelope, s)
      else (.archived (.ok false), s)
  | .archiveCopying envelope =>
    match createOrReadEqual codec envelope.recordId envelope.value s.history with
    | .error _ => (.archived (.ok false), s)
    | .ok (_, history) => (.archiveDeleting envelope, { s with history })
  | .archiveDeleting envelope =>
    match deleteIfRevision codec envelope.recordId envelope.revision s.active with
    | .error error => (.archived (.error error), s)
    | .ok (removed, active) => (.archived (.ok removed), { s with active })
  | .listing scan =>
    let (ids, truncated) := listIds scanPageSize scan.offset s.active
    if ids = [] then (.scanned (scan.page (!truncated)), s)
    else (.reading scan ids.length truncated ids, s)
  | .reading scan count truncated [] =>
    let scan := { scan with offset := scan.offset + count }
    if truncated then (.listing scan, s) else (.scanned (scan.page true), s)
  | .reading scan count truncated (id :: rest) =>
    if ¬ codec.recordId id then
      (.reading { scan with unreadable := scan.unreadable ++ [id] } count truncated rest, s)
    else if id ∈ s.active then (.scanOpening scan count truncated id rest, s)
    else (.reading scan count truncated rest, s)
  | .scanOpening scan count truncated id rest => (scan.opened count truncated id rest s.active, s)
  | phase => (phase, s)

structure LeaseSystem where
  stores : LeaseStores
  processes : Nat → LeaseProcess

inductive LeaseLabel where
  | create (lease : ProcessLease)
  | save (lease : ProcessLease) (expectedRevision : Nat)
  | startCollect (process maxRecords : Nat)
  | startArchive (process : Nat) (leaseId : Text) (expectedRevision : Nat)
  | startScan (process : Nat) (role : Option ProcessLeaseRole) (maxRecords : Nat)
  | advance (process : Nat)
  | crash (process : Nat)
  deriving DecidableEq, Repr

namespace LeaseSystem

def enter (s : LeaseSystem) (p : Nat) (phase : LeaseProcess) : LeaseSystem :=
  { s with processes := Function.update s.processes p phase }

def withActive (s : LeaseSystem) : Except StateError (StateEnvelope ProcessLease ×
    Collection ProcessLease) → LeaseSystem
  | .ok (_, active) => { s with stores := { s.stores with active } }
  | .error _ => s

def step (s : LeaseSystem) : LeaseLabel → LeaseSystem
  | .create lease => s.withActive (Repository.create codec lease.leaseId lease s.stores.active)
  | .save lease expected =>
    s.withActive (Repository.save codec lease.leaseId lease expected s.stores.active)
  | .startCollect p maxRecords =>
    s.enter p (.collecting 0 (listIds maxRecords 0 s.stores.active).1)
  | .startArchive p leaseId expected => s.enter p (.archiving leaseId expected)
  | .startScan p role maxRecords =>
    if 0 < maxRecords ∧ maxRecords ≤ 2000 then s.enter p (.listing ⟨role, maxRecords, [], [], 0⟩)
    else s
  | .advance p =>
    let (phase, stores) := next codec s.stores (s.processes p)
    { stores, processes := Function.update s.processes p phase }
  | .crash p => s.enter p .idle

def run (s : LeaseSystem) (labels : List LeaseLabel) : LeaseSystem :=
  Runs.run (step codec) s labels

end LeaseSystem

end Steps

end RepoForge

/-!
## Import of worker bindings into the lease registry

`import_active_bindings` and `_active_bindings` of `adapters/persistence/parity.py`, with
`list_page` of `json_execution_worker_binding_store.py`, `list_records` of
`json_state_repository.py`, `write_shadow` of `sqlite_lease_store.py` and the checks of
`ProcessLease`. A store write is one step; the process may die before and after each.
-/
namespace RepoForge.LeaseImport
open Interruptible
open Interruptible.Proc (check)

inductive BindingState where
  | running | legacyUnproven | reclaimed | alreadyGone | survivedKill | refusedUnproven
  deriving DecidableEq, Repr

/-- `^worker-[0-9a-f]+(?:-[0-9a-f]{8,64})?$` -/
def isWorkerId (id : Text) : Bool :=
  "worker-".toList.isPrefixOf id &&
    (let first := (id.drop 7).takeWhile lowerHex
     first ≠ [] &&
      match (id.drop 7).dropWhile lowerHex with
      | [] => true
      | c :: last => c = '-' && 8 ≤ last.length && last.length ≤ 64 && last.all lowerHex)

/-- The fields that the import reads. -/
structure ExecutionWorkerBinding where
  workerId : Text
  pid : Nat
  pgid : Nat
  processStartToken : Option Text
  generation : Nat
  releaseSha : Option Text
  supervisorPid : Nat
  supervisorProcessIdentity : Text
  correlationId : Text
  startedAt : Text
  state : BindingState
  deriving DecidableEq, Repr

/-- A valid id is a safe file name unless it is too long. -/
def workerCodec (encodes : Nat → ExecutionWorkerBinding → Except StateError Unit) :
    StateCodec ExecutionWorkerBinding where
  recordId id := isWorkerId id && id.length ≤ 128
  encodes := encodes

/-- The registry: `put` files each binding under its own id. -/
structure BindingStore where
  records : Collection ExecutionWorkerBinding
  filed : ∀ id revision binding, records.lookup id = some (.readable revision binding) →
    binding.workerId = id

/-- A row of `process_leases` as `write_shadow` fills it. -/
structure ShadowRow where
  status : ProcessLeaseStatus
  role : ProcessLeaseRole
  processIdentity : Option Text
  pid : Option Nat
  startedAt : Option Text
  heartbeatAt : Option Text
  correlationId : Text
  createdAt : Text
  updatedAt : Text
  errorCode : Option Text
  errorMessage : Option Text
  revision : Nat
  deriving DecidableEq, Repr

structure Stores where
  leases : Collection ProcessLease
  shadow : AList fun _ : Text => ShadowRow

inductive ImportError where
  | value (message : String)
  | key
  | state (error : StateError)
  /-- A Python integer that SQLite cannot hold. -/
  | overflow
  deriving DecidableEq, Repr

section Lease

def requireNonEmpty (value : Text) (field : String) : Except ImportError Unit :=
  if PyText.strip value = [] then
    .error (.value ("Process lease " ++ field ++ " must be a non-empty string"))
  else .ok ()

def requireFilled (value : Option Text) (field : String) : Except ImportError Unit :=
  match value with
  | none => .ok ()
  | some text => requireNonEmpty text field

def validatePositiveInt (value : Option Nat) (field : String) : Except ImportError Unit :=
  if value = some 0 then
    .error (.value ("Process lease " ++ field ++ " must be a positive integer"))
  else .ok ()

/-- `ProcessLease.__post_init__` -/
def checkLease (lease : ProcessLease) : Except ImportError Unit := do
  requireNonEmpty lease.leaseId "lease_id"
  requireNonEmpty lease.correlationId "correlation_id"
  requireNonEmpty lease.createdAt "created_at"
  requireNonEmpty lease.updatedAt "updated_at"
  validatePositiveInt lease.pid "pid"
  validatePositiveInt lease.pgid "pgid"
  validatePositiveInt lease.ownerPid "owner_pid"
  validatePositiveInt lease.generation "generation"
  validatePositiveInt lease.admissionEpoch "admission_epoch"
  requireFilled lease.startedAt "started_at"
  requireFilled lease.heartbeatAt "heartbeat_at"
  requireFilled lease.processIdentity "process_identity"
  requireFilled lease.errorCode "error_code"
  requireFilled lease.errorMessage "error_message"
  requireFilled lease.processStartToken "process_start_token"
  requireFilled lease.ownerProcessIdentity "owner_process_identity"
  requireFilled lease.releaseSha "release_sha"

/-- `_STATUS_BY_BINDING_STATE` -/
def statusByBindingState : BindingState → Option ProcessLeaseStatus
  | .running => some .running
  | .legacyUnproven => some .running
  | .refusedUnproven => some .unproven
  | .survivedKill => some .killed
  | .reclaimed => none
  | .alreadyGone => none

def leaseOf (now : Text) (binding : ExecutionWorkerBinding) : Except ImportError ProcessLease :=
  match statusByBindingState binding.state with
  | none => .error .key
  | some status =>
    let lease : ProcessLease :=
      { leaseId := binding.workerId
        role := .executionDaemon
        status
        processIdentity := binding.processStartToken
        pid := some binding.pid
        pgid := some binding.pgid
        processStartToken := binding.processStartToken
        ownerPid := some binding.supervisorPid
        ownerProcessIdentity := some binding.supervisorProcessIdentity
        releaseSha := binding.releaseSha
        generation := some binding.generation
        startedAt := some binding.startedAt
        heartbeatAt := some binding.startedAt
        correlationId := binding.correlationId
        createdAt := binding.startedAt
        updatedAt := now }
    (checkLease lease).map fun _ => lease

end Lease

section Import
variable (bindingCodec : StateCodec ExecutionWorkerBinding) (codec : StateCodec ProcessLease)

/-- The readable records of `list_records`, the newest revision first. -/
def listRecords (c : Collection ExecutionWorkerBinding) : List (StateEnvelope ExecutionWorkerBinding) :=
  let ids := (Repository.listIds 2000 0 c).1
  let records := ids.filterMap fun id =>
    match Repository.read bindingCodec id c with
    | .ok found => found
    | .error _ => none
  (sortBy (fun record => toLex (record.revision, record.recordId)) records).reverse

def activeStates : List BindingState := [.running, .legacyUnproven, .refusedUnproven, .survivedKill]

/-- `_active_bindings` -/
def activeBindings (bindings : BindingStore) : List ExecutionWorkerBinding :=
  ((listRecords bindingCodec bindings.records).map (·.value)).filter fun binding =>
    decide (binding.state ∈ activeStates)

/-- A store call that changes one store. -/
def call {α : Type} (change : Stores → Except ImportError (α × Stores)) :
    Proc Stores ImportError α := fun s =>
  match change s with
  | .ok (value, after) => ⟨[after], after, .ok value⟩
  | .error error => ⟨[], s, .error error⟩

/-- `leases.create(lease)` -/
def create (lease : ProcessLease) (s : Stores) :
    Except ImportError (StateEnvelope ProcessLease × Stores) :=
  if validLeaseId lease.leaseId = false then
    .error (.value
      "process lease id must look like <kind>-<hex> (e.g. worker-0000... or lease-0000...)")
  else
    match Repository.create codec lease.leaseId lease s.leases with
    | .ok (envelope, leases) => .ok (envelope, { s with leases })
    | .error error => .error (.state error)

def rowOf (lease : ProcessLease) (revision : Nat) : ShadowRow :=
  { status := lease.status
    role := lease.role
    processIdentity := lease.processIdentity
    pid := lease.pid
    startedAt := lease.startedAt
    heartbeatAt := lease.heartbeatAt
    correlationId := lease.correlationId
    createdAt := lease.createdAt
    updatedAt := lease.updatedAt
    errorCode := lease.errorCode
    errorMessage := lease.errorMessage
    revision }

def writeShadow (lease : ProcessLease) (revision : Nat) (s : Stores) :
    Except ImportError (Unit × Stores) :=
  if 2 ^ 63 ≤ lease.pid.getD 0 ∨ 2 ^ 63 ≤ revision then .error .overflow
  else .ok ((), { s with shadow := s.shadow.insert lease.leaseId (rowOf lease revision) })

def importAll (now : Text) : List ExecutionWorkerBinding → Nat → Proc Stores ImportError Nat
  | [], imported => pure imported
  | binding :: rest, imported => do
    let lease ← check fun _ => leaseOf now binding
    let envelope ← call (create codec lease)
    call (writeShadow lease envelope.revision)
    importAll now rest (imported + 1)

/-- `import_active_bindings` -/
def importActiveBindings (bindings : BindingStore) (now : Text) : Proc Stores ImportError Nat :=
  importAll codec now (activeBindings bindingCodec bindings) 0

/-- A run that is cut short after some store writes, or ends by itself before. -/
structure Attempt where
  now : Text
  writes : Nat

/-- The stores after some attempts. -/
def afterAttempts (bindings : BindingStore) (attempts : List Attempt) (s : Stores) : Stores :=
  attempts.foldl (fun s attempt =>
    stopped (importActiveBindings bindingCodec codec bindings attempt.now) (some attempt.writes) s) s

end Import

end RepoForge.LeaseImport
