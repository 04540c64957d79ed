import RepoForge.Library.PyDict
import RepoForge.Library.PyJson
import RepoForge.Library.Runs
import RepoForge.Library.SortedListing
import RepoForge.Source.Egress.Evaluate

/-!
# The router of service containers

`GenerationServiceContainer` and `AtomicServiceRouter` of `application/runtime/hot_reload.py`.
Each `with self._condition` block of the source is one function on the router, since it runs
under the lock from its start to its end or to a `wait`; `dispose` is called after the lock is
left. `RouterMachine` is a router with the calls that are under way on it.
-/
namespace RepoForge.HotReload

open PyStr PyDict Json

/-- An exception: its type's name and its text. -/
structure Raised where
  type : PyStr
  text : PyStr
  deriving DecidableEq

def configError (text : PyStr) : Raised := ⟨lit "ConfigError", text⟩

/-- `object` and `gate` say which object the container is and which one its gate is. -/
structure GenerationServiceContainer where
  object : Nat
  generation : Int
  gate : Nat
  repositoryIds : List PyStr
  /-- `__post_init__` -/
  positive : 0 < generation
  deriving DecidableEq

structure AtomicServiceRouter where
  active : GenerationServiceContainer
  activeRequests : List (Int × Int)
  retired : List (Int × GenerationServiceContainer)
  closed : Bool

namespace AtomicServiceRouter

/-- `__init__` -/
def init (initial : GenerationServiceContainer) : AtomicServiceRouter :=
  ⟨initial, [(initial.generation, 0)], [], false⟩

/-- `acquire`, up to its `yield`. -/
def acquire (r : AtomicServiceRouter) :
    Except Raised (GenerationServiceContainer × AtomicServiceRouter) :=
  if r.closed then .error (configError (lit "RUNTIME_STOPPING: service router is closed"))
  else
    let generation := r.active.generation
    let count := (get r.activeRequests generation).getD 0
    .ok (r.active, { r with activeRequests := assign r.activeRequests generation (count + 1) })

/-- The `finally` block of `acquire`, and the container that is to be disposed of after it. -/
def release (r : AtomicServiceRouter) (selected : GenerationServiceContainer) :
    Except Raised (Option GenerationServiceContainer × AtomicServiceRouter) :=
  let generation := selected.generation
  match get r.activeRequests generation with
  | none => .error ⟨lit "KeyError", ofInt generation⟩
  | some count =>
    let requests := assign r.activeRequests generation (count - 1)
    match get r.retired generation with
    | none => .ok (none, { r with activeRequests := requests })
    | some old =>
      if count - 1 = 0 then
        .ok (some old,
          { r with
            activeRequests := pop requests generation
            retired := pop r.retired generation })
      else .ok (none, { r with activeRequests := requests })

/-- `_validate_swap_locked` -/
def validateSwapLocked (r : AtomicServiceRouter) (candidate : GenerationServiceContainer) :
    Except Raised Unit :=
  if r.closed then
    .error (configError (lit "RUNTIME_STOPPING: cannot hot reload a closed service router"))
  else if candidate.generation = r.active.generation then
    .error (configError (lit "HOT_RELOAD_SAME_GENERATION: generation " ++
      ofInt candidate.generation ++ lit " is already active"))
  else if (get r.retired candidate.generation).isSome then
    .error (configError (lit "HOT_RELOAD_GENERATION_RETIRED: generation " ++
      ofInt candidate.generation ++ lit " is draining"))
  else .ok ()

/-- `_install_locked`: the container that was active, what is to be disposed of, the router. -/
def installLocked (r : AtomicServiceRouter) (candidate : GenerationServiceContainer) :
    GenerationServiceContainer × Option GenerationServiceContainer × AtomicServiceRouter :=
  let previous := r.active
  let requests :=
    if (get r.activeRequests candidate.generation).isSome then r.activeRequests
    else assign r.activeRequests candidate.generation 0
  if (get requests previous.generation).getD 0 = 0 then
    (previous, some previous,
      { r with
        active := candidate
        activeRequests := pop requests previous.generation })
  else
    (previous, none,
      { r with
        active := candidate
        activeRequests := requests
        retired := assign r.retired previous.generation previous })

/-- `commit_swap`, whose durable commit returns or raises. -/
def commitSwap (r : AtomicServiceRouter) (candidate : GenerationServiceContainer)
    (commit : Except Raised Unit) :
    Except Raised
      (GenerationServiceContainer × Option GenerationServiceContainer × AtomicServiceRouter) := do
  r.validateSwapLocked candidate
  commit
  return r.installLocked candidate

/-- What the loop of `close` comes to: it goes on to dispose, times out, or waits. -/
inductive Closing where
  | through (dispose : List GenerationServiceContainer) (router : AtomicServiceRouter)
  | timedOut
  | waits

/-- `any(self._active_requests.values())` -/
def busy (r : AtomicServiceRouter) : Bool := r.activeRequests.any fun item => item.2 ≠ 0

/-- The loop of `close` from a check of the requests on. -/
def closeLoop (r : AtomicServiceRouter) (expired : Bool) : Closing :=
  if r.busy then
    if expired then .timedOut else .waits
  else
    .through (r.retired.map (·.2) ++ [r.active]) { r with activeRequests := [], retired := [] }

end AtomicServiceRouter

/-- Where a call on the router stands. One that has nothing left to dispose of has ended. -/
inductive RouterCall where
  | holding (selected : GenerationServiceContainer)
  | closing
  | disposing (rest : List GenerationServiceContainer)
  deriving DecidableEq

/-- `installed` are the containers that have been active, `disposed` those that `dispose` was
called with, in order. -/
structure RouterMachine where
  router : AtomicServiceRouter
  calls : List RouterCall
  installed : List GenerationServiceContainer
  disposed : List GenerationServiceContainer

/-- A call is known by its place among the calls. `expired` says whether the deadline of a `close`
has passed when it finds requests. -/
inductive RouterEvent where
  | acquire
  | release (call : Nat)
  | commitSwap (candidate : GenerationServiceContainer) (commit : Except Raised Unit)
  | close (expired : Bool)
  | wake (call : Nat) (expired : Bool)
  | dispose (call : Nat)

namespace RouterMachine

def start (initial : GenerationServiceContainer) : RouterMachine :=
  ⟨.init initial, [], [initial], []⟩

def acquire (m : RouterMachine) : RouterMachine :=
  match m.router.acquire with
  | .error _ => { m with calls := m.calls ++ [.disposing []] }
  | .ok (selected, router) => { m with router, calls := m.calls ++ [.holding selected] }

def release (m : RouterMachine) (call : Nat) : RouterMachine :=
  match m.calls[call]? with
  | some (.holding selected) =>
    match m.router.release selected with
    | .error _ => { m with calls := m.calls.set call (.disposing []) }
    | .ok (dispose, router) =>
      { m with router, calls := m.calls.set call (.disposing dispose.toList) }
  | _ => m

def commitSwap (m : RouterMachine) (candidate : GenerationServiceContainer)
    (commit : Except Raised Unit) : RouterMachine :=
  match m.router.commitSwap candidate commit with
  | .error _ => { m with calls := m.calls ++ [.disposing []] }
  | .ok (_, dispose, router) =>
    { m with
      router
      calls := m.calls ++ [.disposing dispose.toList]
      installed := m.installed ++ [candidate] }

/-- The loop of a `close`, which is the call that `put` puts in its place. -/
def close (m : RouterMachine) (put : RouterCall → List RouterCall) (expired : Bool) :
    RouterMachine :=
  match m.router.closeLoop expired with
  | .through dispose router => { m with router, calls := put (.disposing dispose) }
  | .timedOut => { m with calls := put (.disposing []) }
  | .waits => { m with calls := put .closing }

def step (m : RouterMachine) : RouterEvent → RouterMachine
  | .acquire => m.acquire
  | .release call => m.release call
  | .commitSwap candidate commit => m.commitSwap candidate commit
  | .close expired =>
    { m with router := { m.router with closed := true } }.close (m.calls ++ [·]) expired
  | .wake call expired =>
    match m.calls[call]? with
    | some .closing => m.close (m.calls.set call) expired
    | _ => m
  | .dispose call =>
    match m.calls[call]? with
    | some (.disposing (container :: rest)) =>
      { m with
        calls := m.calls.set call (.disposing rest)
        disposed := m.disposed ++ [container] }
    | _ => m

end RouterMachine

end RepoForge.HotReload

/-!
# The admission gate

`InProcessOperationGate` of `adapters/runtime/operation_gate.py`, without `snapshot`. Each
`with self._condition` block is one function on the gate.
-/
namespace RepoForge.HotReload

open PyStr PyDict

inductive GateState where
  | opened
  | draining
  | failClosed
  deriving DecidableEq

/-- A value among the reconnect details; `other` is none of `str` and `int`, or a `bool`. -/
inductive Detail where
  | int (value : Int)
  | str (value : PyStr)
  | other
  deriving DecidableEq

structure OperationGate where
  state : GateState
  activeReads : Int
  activeWrites : Int
  activeOperationIds : List (PyStr × Int)
  reason : PyStr
  correlationId : PyStr
  reconnectDetails : List (PyStr × Detail)

def valueError (text : PyStr) : Raised := ⟨lit "ValueError", text⟩

section Sanitize

/-- `_HASH_FIELDS` -/
def hashFields : List PyStr :=
  [lit "server_build_sha", lit "tool_surface_hash", lit "input_contract_digest",
    lit "output_contract_digest", lit "process_start_identity"]

/-- `_STRING_LIMITS` -/
def stringLimits : List (PyStr × Nat) :=
  [(lit "operation_id", 160), (lit "receipt_id", 160), (lit "server_build_sha", 64),
    (lit "server_version", 160), (lit "tool_surface_hash", 64), (lit "input_contract_digest", 64),
    (lit "output_contract_digest", 64), (lit "process_start_identity", 64),
    (lit "rediscovery_action", 160)]

/-- `_INTEGER_FIELDS` -/
def integerFields : List PyStr := [lit "config_generation", lit "runtime_protocol_version"]

/-- `_OPERATION_ID` and `_RECEIPT_ID` -/
def isTaggedHex (tag : PyStr) (s : PyStr) : Bool := tag.isPrefixOf s && isHex 24 (s.drop tag.length)

/-- `_SAFE_ACTION` -/
def isSafeAction : PyStr → Bool :=
  firstThen Char.isLower (fun c => c.isLower || c.isDigit || "_.-".toList.contains c) 159

variable (R : Egress.Runtime)

/-- One turn of the loop of `_sanitize_reconnect_details`. -/
def sanitizeDetail (field : PyStr) (value : Detail) : Except Raised (PyStr × Detail) :=
  if field ∈ integerFields then
    match value with
    | .int n =>
      if n ≤ 0 then
        .error (valueError (lit "Reconnect detail " ++ field ++ lit " must be a positive integer"))
      else .ok (field, .int n)
    | _ =>
      .error (valueError (lit "Reconnect detail " ++ field ++ lit " must be a positive integer"))
  else
    match value with
    | .str s =>
      if s = [] then
        .error (valueError (lit "Reconnect detail " ++ field ++ lit " must be a non-empty string"))
      else if field ∈ hashFields then
        if isHex 64 s then .ok (field, .str s)
        else .error
          (valueError (lit "Reconnect detail " ++ field ++ lit " must be a lowercase SHA-256"))
      else
        match Egress.redactText R s [] ((get stringLimits field).getD 0) [] with
        | none => .error (valueError (lit "limit must be a positive integer"))
        | some bounded =>
          if field = lit "operation_id" ∧ ¬ isTaggedHex (lit "op-") bounded then
            .error (valueError (lit "Reconnect operation id is invalid"))
          else if field = lit "receipt_id" ∧ ¬ isTaggedHex (lit "receipt-") bounded then
            .error (valueError (lit "Reconnect receipt id is invalid"))
          else if field = lit "rediscovery_action" ∧ ¬ isSafeAction bounded then
            .error (valueError (lit "Reconnect rediscovery action is invalid"))
          else .ok (field, .str bounded)
    | _ =>
      .error (valueError (lit "Reconnect detail " ++ field ++ lit " must be a non-empty string"))

/-- `_sanitize_reconnect_details`; the details have distinct keys. -/
def sanitizeReconnectDetails (details : List (PyStr × Detail)) :
    Except Raised (List (PyStr × Detail)) :=
  let allowed := stringLimits.map (·.1) ++ integerFields
  let unknown := sortedDistinct ((details.map (·.1)).filter (· ∉ allowed))
  if unknown ≠ [] then
    .error (valueError (lit "Unsupported reconnect detail fields: " ++ join (lit ", ") unknown))
  else (sortBy (·.1) details).mapM fun item => sanitizeDetail R item.1 item.2

end Sanitize

namespace OperationGate

/-- `__init__` -/
def init : OperationGate := ⟨.opened, 0, 0, [], [], [], []⟩

/-- `operation`, up to its `yield`. -/
def enter (gate : OperationGate) (operationId : PyStr) (mutating : Bool) :
    Except Raised OperationGate :=
  match gate.state with
  | .failClosed => .error (configError (lit "RUNTIME_FAIL_CLOSED: " ++ gate.reason ++
      lit "; correlation_id=" ++ gate.correlationId))
  | .draining =>
    if gate.reconnectDetails ≠ [] then
      .error ⟨lit "RepoForgeError", lit "RECONNECT_REQUIRED: runtime generation changed"⟩
    else .error (configError (lit "RUNTIME_RELOADING: " ++ gate.reason ++
      lit "; correlation_id=" ++ gate.correlationId))
  | .opened =>
    let ids := assign gate.activeOperationIds operationId
      ((get gate.activeOperationIds operationId).getD 0 + 1)
    if mutating then
      .ok { gate with activeWrites := gate.activeWrites + 1, activeOperationIds := ids }
    else .ok { gate with activeReads := gate.activeReads + 1, activeOperationIds := ids }

/-- The `finally` block of `operation`. -/
def leave (gate : OperationGate) (operationId : PyStr) (mutating : Bool) : OperationGate :=
  let remaining := (get gate.activeOperationIds operationId).getD 0 - 1
  let ids :=
    if 0 < remaining then assign gate.activeOperationIds operationId remaining
    else pop gate.activeOperationIds operationId
  if mutating then
    { gate with activeWrites := gate.activeWrites - 1, activeOperationIds := ids }
  else { gate with activeReads := gate.activeReads - 1, activeOperationIds := ids }

def beginDrain (R : Egress.Runtime) (gate : OperationGate) (reason correlationId : PyStr)
    (details : List (PyStr × Detail)) : Except Raised OperationGate := do
  let reconnectDetails ← sanitizeReconnectDetails R details
  return { gate with state := .draining, reason, correlationId, reconnectDetails }

def failClosed (gate : OperationGate) (reason correlationId : PyStr) : OperationGate :=
  { gate with state := .failClosed, reason, correlationId, reconnectDetails := [] }

def reopen (gate : OperationGate) : OperationGate :=
  { gate with
    state := .opened
    reason := []
    correlationId := []
    reconnectDetails := [] }

/-- The condition that `wait_for_idle` waits for. -/
def idle (gate : OperationGate) : Bool := gate.activeReads = 0 && gate.activeWrites = 0

end OperationGate

end RepoForge.HotReload

/-!
## The hot reload

`HotReloadCoordinator.reload` of `application/runtime/hot_reload.py` as it runs beside operations
and calls of `fail_closed`. The places of `ReloadAt` are those where it touches the router or a
gate; what it does between two of them no other thread can see. The answers of what it calls
outside (building, the self-check, the identity, the durable commit) are given with the request.
-/
namespace RepoForge.HotReload

open PyStr PyDict Json

/-- `RuntimeContractIdentity`, without its checks. -/
structure RuntimeContractIdentity where
  serverBuildSha : PyStr
  serverVersion : PyStr
  activeGeneration : Int
  toolSurfaceHash : PyStr
  inputContractDigest : PyStr
  outputContractDigest : PyStr
  runtimeProtocolVersion : Int
  processStartIdentity : PyStr

/-- The arguments of `reload`, and what its calls give. -/
structure ReloadRequest where
  generation : Int
  expectedActive : Option Int
  correlationId : PyStr
  activationOperationId : Option PyStr
  activationReceiptId : Option PyStr
  /-- `build_candidate(generation)` -/
  build : Except Raised GenerationServiceContainer
  /-- `repo_list(synthetic=True).get("repositories", [])`: `str` of the id of each item that is a
  `dict` with one. -/
  repositories : Except Raised (List (Option PyStr))
  /-- `contract_identity_provider(generation)`, if there is a provider. -/
  identity : Option (Except Raised RuntimeContractIdentity)
  /-- `commit_activation(generation, current)` -/
  commit : Except Raised Unit

namespace ReloadRequest

variable (request : ReloadRequest)

/-- The self-check of a candidate. -/
def selfCheck (candidate : GenerationServiceContainer) : Except Raised Unit :=
  if candidate.generation ≠ request.generation then
    .error (configError (lit "Candidate generation mismatch: expected " ++
      ofInt request.generation ++ lit ", built " ++ ofInt candidate.generation))
  else
    match request.repositories with
    | .error e => .error e
    | .ok items =>
      let observed := items.filterMap id
      if observed ⊆ candidate.repositoryIds ∧ candidate.repositoryIds ⊆ observed then .ok ()
      else .error (configError
        (lit "Candidate self-check repository set does not match its immutable metadata"))

/-- `{type(exc).__name__}: {exc}` -/
def described (exc : Raised) : PyStr := exc.type ++ lit ": " ++ exc.text

/-- What is raised for an exception of the build or the self-check. -/
def candidateError (exc : Raised) : Raised :=
  if exc.type = lit "ConfigError" ∧ (lit "HOT_RELOAD_RESTART_REQUIRED").isPrefixOf exc.text then exc
  else configError (lit "HOT_RELOAD_CANDIDATE_FAILED: " ++ described exc)

/-- What is raised for an exception of the handoff. -/
def handoffError (exc : Raised) : Raised :=
  if exc.type = lit "ConfigError" ∧
      ((lit "HOT_RELOAD_DRAIN_TIMEOUT").isPrefixOf exc.text ∨
        (lit "HOT_RELOAD_HANDOFF_IDENTITY_INVALID").isPrefixOf exc.text ∨
        (lit "STALE_ACTIVE_GENERATION").isPrefixOf exc.text) then exc
  else configError (lit "HOT_RELOAD_HANDOFF_FAILED: " ++ described exc)

def commitError (exc : Raised) : Raised :=
  configError (lit "HOT_RELOAD_COMMIT_FAILED: " ++ described exc)

def staleError (expected found : Int) : Raised :=
  configError (lit "STALE_ACTIVE_GENERATION: expected " ++ ofInt expected ++ lit ", found " ++
    ofInt found)

/-- `_reconnect_details` -/
def reconnectDetails : Except Raised (Option (List (PyStr × Detail))) :=
  if request.activationOperationId.isNone ≠ request.activationReceiptId.isNone then
    .error (configError (lit "HOT_RELOAD_HANDOFF_IDENTITY_INVALID: activation operation and " ++
      lit "receipt ids must be supplied together"))
  else
    match request.identity with
    | none => .ok none
    | some (.error e) => .error e
    | some (.ok identity) =>
      .ok (some (
        [(lit "server_build_sha", .str identity.serverBuildSha),
          (lit "server_version", .str identity.serverVersion),
          (lit "tool_surface_hash", .str identity.toolSurfaceHash),
          (lit "input_contract_digest", .str identity.inputContractDigest),
          (lit "output_contract_digest", .str identity.outputContractDigest),
          (lit "runtime_protocol_version", .int identity.runtimeProtocolVersion),
          (lit "process_start_identity", .str identity.processStartIdentity),
          (lit "config_generation", .int identity.activeGeneration),
          (lit "rediscovery_action", .str (lit "reconnect_and_rediscover"))] ++
        request.activationOperationId.toList.map (lit "operation_id", .str ·) ++
        request.activationReceiptId.toList.map (lit "receipt_id", .str ·)))

end ReloadRequest

/-- What the reload does next. -/
inductive ReloadAt where
  /-- read `active_generation` -/
  | ready
  /-- read `active_container()` for the handoff -/
  | taking (current : Int) (candidate : GenerationServiceContainer)
      (details : List (PyStr × Detail))
  /-- `begin_drain` -/
  | draining (candidate drained : GenerationServiceContainer) (details : List (PyStr × Detail))
  /-- a check of `wait_for_idle` -/
  | waiting (candidate drained : GenerationServiceContainer)
  /-- `commit_swap` -/
  | committing (candidate : GenerationServiceContainer)
      (drained : Option GenerationServiceContainer)
  /-- `reopen()`, then `dispose` of the candidate -/
  | reopening (candidate drained : GenerationServiceContainer) (error : Raised)
  | returned (previous : GenerationServiceContainer)
  | raised (error : Raised)

/-- An operation that a gate has admitted. -/
structure Operation where
  gate : Nat
  operationId : PyStr
  mutating : Bool
  deriving DecidableEq

/-- `running` are the operations that gates have admitted; `disposed` the containers that the
reload called `dispose` with. -/
structure ReloadMachine where
  router : AtomicServiceRouter
  gates : Nat → OperationGate
  running : List Operation
  reload : ReloadAt
  disposed : List GenerationServiceContainer

/-- `expired` says whether the deadline of `wait_for_idle` has passed when it finds operations. -/
inductive ReloadEvent where
  | enter (operation : Operation)
  | leave (operation : Operation)
  | failClosed (gate : Nat) (reason correlationId : PyStr)
  | advance (expired : Bool)

namespace ReloadMachine

variable (R : Egress.Runtime) (request : ReloadRequest)

def setGate (m : ReloadMachine) (gate : Nat) (next : OperationGate) : ReloadMachine :=
  { m with gates := Function.update m.gates gate next }

/-- Leave an `except` block that has nothing to reopen. -/
def discard (m : ReloadMachine) (candidate : Option GenerationServiceContainer) (error : Raised) :
    ReloadMachine :=
  { m with
    disposed := m.disposed ++ candidate.toList
    reload := .raised error }

/-- The first `try` block, and the reconnect details. -/
def buildCandidate (m : ReloadMachine) (current : Int) : ReloadMachine :=
  match request.build with
  | .error e => m.discard none (ReloadRequest.candidateError e)
  | .ok candidate =>
    match request.selfCheck candidate with
    | .error e => m.discard (some candidate) (ReloadRequest.candidateError e)
    | .ok () =>
      match request.reconnectDetails with
      | .error e => m.discard (some candidate) (ReloadRequest.handoffError e)
      | .ok none => { m with reload := .committing candidate none }
      | .ok (some details) => { m with reload := .taking current candidate details }

/-- From the read of `active_generation` to the next access of the router. -/
def prepare (m : ReloadMachine) : ReloadMachine :=
  let current := m.router.active.generation
  match request.expectedActive with
  | some expected =>
    if current ≠ expected then
      { m with reload := .raised (ReloadRequest.staleError expected current) }
    else m.buildCandidate request current
  | none => m.buildCandidate request current

/-- One access of the reload to the router or a gate. -/
def advance (m : ReloadMachine) (expired : Bool) : ReloadMachine :=
  match m.reload with
  | .ready => m.prepare request
  | .taking current candidate details =>
    let drained := m.router.active
    if drained.generation ≠ current then
      { m with reload := .reopening candidate drained
                (ReloadRequest.handoffError (ReloadRequest.staleError current drained.generation)) }
    else { m with reload := .draining candidate drained details }
  | .draining candidate drained details =>
    match (m.gates drained.gate).beginDrain R (lit "runtime generation activation")
        request.correlationId details with
    | .error e => { m with reload := .reopening candidate drained (ReloadRequest.handoffError e) }
    | .ok gate => { m.setGate drained.gate gate with reload := .waiting candidate drained }
  | .waiting candidate drained =>
    if (m.gates drained.gate).idle then { m with reload := .committing candidate (some drained) }
    else if expired then
      { m with reload := .reopening candidate drained
                (ReloadRequest.handoffError (configError (lit "HOT_RELOAD_DRAIN_TIMEOUT: " ++
                  lit "admitted operations did not finish before handoff"))) }
    else m
  | .committing candidate drained =>
    match m.router.commitSwap candidate request.commit with
    | .error e =>
      match drained with
      | none => m.discard (some candidate) (ReloadRequest.commitError e)
      | some drained =>
        { m with reload := .reopening candidate drained (ReloadRequest.commitError e) }
    | .ok (previous, dispose, router) =>
      { m with
        router
        disposed := m.disposed ++ dispose.toList
        reload := .returned previous }
  | .reopening candidate drained error =>
    (m.setGate drained.gate (m.gates drained.gate).reopen).discard (some candidate) error
  | .returned _ | .raised _ => m

def step (m : ReloadMachine) : ReloadEvent → ReloadMachine
  | .enter operation =>
    match (m.gates operation.gate).enter operation.operationId operation.mutating with
    | .error _ => m
    | .ok gate => { m.setGate operation.gate gate with running := operation :: m.running }
  | .leave operation =>
    if operation ∈ m.running then
      { m.setGate operation.gate
          ((m.gates operation.gate).leave operation.operationId operation.mutating) with
        running := m.running.erase operation }
    else m
  | .failClosed gate reason correlationId =>
    m.setGate gate ((m.gates gate).failClosed reason correlationId)
  | .advance expired => m.advance R request expired

end ReloadMachine

end RepoForge.HotReload
