import RepoForge.Source.Persistence.StateRepository

/-!
# Runtime transitions

Source: `domain/runtime_transition.py`, `application/runtime/runtime_transition_coordinator.py` and
`adapters/persistence/json_runtime_transition_adapter.py`, without the listings.

`datetime.fromisoformat` and the encoder are parameters. Any number of writers share the ledger;
each of them keeps the envelope it last received, from a call that returned or from a read, and
advances the transition in it.
-/
namespace RepoForge.Transitions

inductive RuntimeTransitionStatus where
  | prepared | configGenerated | dependenciesResolved | validated | staged | activated
  | healthChecked | ready | completed
  | configFailed | validationFailed | activationFailed | healthFailed | rolledBack
  deriving DecidableEq, Repr

namespace RuntimeTransitionStatus

def value : RuntimeTransitionStatus → String
  | prepared => "prepared"
  | configGenerated => "config_generated"
  | dependenciesResolved => "dependencies_resolved"
  | validated => "validated"
  | staged => "staged"
  | activated => "activated"
  | healthChecked => "health_checked"
  | ready => "ready"
  | completed => "completed"
  | configFailed => "config_failed"
  | validationFailed => "validation_failed"
  | activationFailed => "activation_failed"
  | healthFailed => "health_failed"
  | rolledBack => "rolled_back"

/-- `_ALLOWED` -/
def allowed : RuntimeTransitionStatus → List RuntimeTransitionStatus
  | prepared => [configGenerated, configFailed]
  | configGenerated => [dependenciesResolved, configFailed]
  | dependenciesResolved => [validated, validationFailed]
  | validated => [staged, validationFailed]
  | staged => [activated, activationFailed]
  | activated => [healthChecked, activationFailed]
  | healthChecked => [ready, healthFailed, rolledBack]
  | ready => [completed, healthFailed, rolledBack]
  | completed => []
  | configFailed => [prepared]
  | validationFailed => [dependenciesResolved]
  | activationFailed => [staged]
  | healthFailed => [activated, rolledBack]
  | rolledBack => []

end RuntimeTransitionStatus

open RuntimeTransitionStatus

inductive TransitionError where
  | valueError (message : String)
  /-- `RepoForgeError` with `OPERATION_TRANSITION_INVALID` -/
  | illegalTransition (source target : RuntimeTransitionStatus) (transitionId : Text)
  | configError (message : String)
  | state (error : StateError)
  deriving DecidableEq, Repr

/-- `str(exc)` -/
def TransitionError.text : TransitionError → String
  | valueError message => message
  | illegalTransition source target id => "Illegal runtime transition: " ++ source.value ++ " → " ++
      target.value ++ " (id=" ++ String.ofList id ++ ")"
  | configError message => message
  | state error => error.code

structure RuntimeTransition where
  transitionId : Text
  status : RuntimeTransitionStatus
  targetGeneration : Option Int
  configGeneration : Option Int
  correlationId : Text
  startedAt : Text
  updatedAt : Text
  completedAt : Option Text
  errorCode : Option Text
  errorMessage : Option Text
  previousTransitionId : Option Text
  kind : Text := "activate".toList
  fromSha : Option Text := none
  toSha : Option Text := none
  deriving DecidableEq, Repr

/-- `^tran-[a-f0-9]{24}$` -/
def isTransitionId (id : Text) : Bool :=
  "tran-".toList.isPrefixOf id && decide (id.length = 29) && (id.drop 5).all lowerHex

/-- `^[A-Za-z0-9][A-Za-z0-9._:-]{0,255}$` -/
def isSafeId : Text → Bool
  | [] => false
  | c :: rest => c.isAlphanum && decide (rest.length ≤ 255) &&
      rest.all fun c => c.isAlphanum || "._:-".toList.contains c

/-- `^[a-f0-9]{4,64}$` -/
def isSha (sha : Text) : Bool := decide (4 ≤ sha.length ∧ sha.length ≤ 64) && sha.all lowerHex

def require (ok : Bool) (message : String) : Except TransitionError Unit :=
  if ok then .ok () else .error (.valueError message)

section Domain

-- whether `datetime.fromisoformat` returns a time with an offset
variable (iso : Text → Bool)

def RuntimeTransition.postInit (t : RuntimeTransition) : Except TransitionError Unit := do
  require (isTransitionId t.transitionId) "invalid transition id"
  require (t.targetGeneration.all (0 < ·)) "target_generation must be a positive integer"
  require (t.configGeneration.all (0 < ·)) "config_generation must be a positive integer"
  require (t.targetGeneration.isSome || t.toSha.isSome)
    ("runtime transition needs a target_generation or a to_sha " ++
      "(a SHA-keyed lifecycle must name the target release)")
  require (t.correlationId ≠ []) "correlation_id must be a non-empty string"
  require (iso t.startedAt) "started_at must be an ISO-8601 timestamp"
  require (iso t.updatedAt) "updated_at must be an ISO-8601 timestamp"
  require (t.completedAt.all iso) "completed_at must be an ISO-8601 timestamp"
  require (t.errorCode.all isSafeId) "error_code is not a valid safe identifier"
  require (t.previousTransitionId.all isTransitionId) "invalid transition id"
  require (isSafeId t.kind) "kind is not a valid safe identifier"
  require (t.fromSha.all isSha) "from_sha must be a 64-hex git object id"
  require (t.toSha.all isSha) "to_sha must be a 64-hex git object id"

/-- `_advance`; none of its callers here clears the error. -/
def RuntimeTransition.advance (t : RuntimeTransition) (target : RuntimeTransitionStatus)
    (updatedAt : Text) (completedAt errorCode errorMessage : Option Text) :
    Except TransitionError RuntimeTransition :=
  if target ∉ t.status.allowed then .error (.illegalTransition t.status target t.transitionId)
  else do
    let next : RuntimeTransition :=
      { t with
        status := target
        updatedAt
        completedAt
        errorCode
        errorMessage }
    next.postInit iso
    .ok next

/-- What a caller of `record_attempt` gives. -/
structure Attempt where
  correlationId : Text
  targetGeneration : Option Int := none
  configGeneration : Option Int := none
  previousTransitionId : Option Text := none
  kind : Text := "activate".toList
  fromSha : Option Text := none
  toSha : Option Text := none
  deriving DecidableEq, Repr

def newRuntimeTransition (transitionId startedAt : Text) (attempt : Attempt) :
    Except TransitionError RuntimeTransition := do
  let t : RuntimeTransition :=
    { transitionId
      status := .prepared
      targetGeneration := attempt.targetGeneration
      configGeneration := attempt.configGeneration
      correlationId := attempt.correlationId
      startedAt
      updatedAt := startedAt
      completedAt := none
      errorCode := none
      errorMessage := none
      previousTransitionId := attempt.previousTransitionId
      kind := attempt.kind
      fromSha := attempt.fromSha
      toSha := attempt.toSha }
  t.postInit iso
  .ok t

/-! ## The coordinator -/

def forwardChain : List RuntimeTransitionStatus :=
  [prepared, configGenerated, dependenciesResolved, validated, staged, activated, healthChecked,
    ready, completed]

def terminalOutcomes : List RuntimeTransitionStatus :=
  [completed, rolledBack, configFailed, validationFailed, activationFailed, healthFailed]

def realPhases : List RuntimeTransitionStatus :=
  [configGenerated, dependenciesResolved, validated, staged, activated, healthChecked, ready]

/-- `_OUTCOME_BRANCH` -/
def outcomeBranch : RuntimeTransitionStatus → Option RuntimeTransitionStatus
  | completed => some ready
  | rolledBack => some healthChecked
  | configFailed => some prepared
  | validationFailed => some validated
  | activationFailed => some staged
  | healthFailed => some healthChecked
  | _ => none

/-- The text, or the default where there is none or it is empty. -/
def orElse (value : Option Text) (default : String) : Option Text :=
  match value with
  | some (c :: rest) => some (c :: rest)
  | _ => some default.toList

/-- `_OUTCOME_APPLY` -/
def outcomeApply (outcome : RuntimeTransitionStatus) (t : RuntimeTransition) (now : Text)
    (errorCode errorMessage : Option Text) : Except TransitionError RuntimeTransition :=
  match outcome with
  | completed => t.advance iso completed now (some now) none none
  | rolledBack => t.advance iso rolledBack now (some now) none none
  | configFailed => t.advance iso configFailed now none (orElse errorCode "CONFIG_FAILED")
      (orElse errorMessage "configuration generation failed")
  | validationFailed => t.advance iso validationFailed now none
      (orElse errorCode "VALIDATION_FAILED") (orElse errorMessage "validation failed")
  | activationFailed => t.advance iso activationFailed now none
      (orElse errorCode "ACTIVATION_FAILED") (orElse errorMessage "activation did not converge")
  | healthFailed => t.advance iso healthFailed now none (orElse errorCode "HEALTH_FAILED")
      (orElse errorMessage "health verification failed")
  | other => .error (.valueError other.value)

def indexInChain (status : RuntimeTransitionStatus) : Except TransitionError Nat :=
  if status ∈ forwardChain then .ok (forwardChain.idxOf status)
  else .error (.configError
    ("RUNTIME_TRANSITION_ILLEGAL: " ++ status.value ++ " is not on the forward chain"))

/-- `_apply_domain` -/
def applyDomain (t : RuntimeTransition) (phase : RuntimeTransitionStatus) (now : Text) :
    Except TransitionError RuntimeTransition :=
  match t.advance iso phase now none none none with
  | .ok next => .ok next
  | .error e => .error (.configError ("RUNTIME_TRANSITION_ILLEGAL: cannot advance " ++
      t.status.value ++ " -> " ++ phase.value ++ ": " ++ e.text))

/-- The walk through `_FORWARD_CHAIN[current + 1 : target + 1]`. -/
def walk (now : Text) : List RuntimeTransitionStatus → RuntimeTransition →
    Except TransitionError RuntimeTransition
  | [], t => .ok t
  | phase :: phases, t => do walk now phases (← applyDomain iso t phase now)

def between (current target : Nat) : List RuntimeTransitionStatus :=
  (forwardChain.take (target + 1)).drop (current + 1)

/-- The record that `mark_effect` saves. -/
def effectRecord (t : RuntimeTransition) (status : RuntimeTransitionStatus) (now : Text) :
    Except TransitionError RuntimeTransition :=
  if status ∉ realPhases then .error (.configError ("RUNTIME_TRANSITION_INVALID_PHASE: " ++
    status.value ++ " is not a real effect boundary"))
  else do
    let currentIndex ← indexInChain t.status
    let targetIndex ← indexInChain status
    if targetIndex < currentIndex then .error (.configError
      ("RUNTIME_TRANSITION_ILLEGAL: cannot regress " ++ t.status.value ++ " -> " ++ status.value))
    else walk iso now (between currentIndex targetIndex) t

/-- `_terminalize` -/
def terminalize (t : RuntimeTransition) (outcome : RuntimeTransitionStatus) (now : Text)
    (errorCode errorMessage : Option Text) : Except TransitionError RuntimeTransition :=
  match outcomeBranch outcome with
  | none => .error (.valueError outcome.value)
  | some branch => do
    let current ← indexInChain t.status
    let target ← indexInChain branch
    let walked ← walk iso now (between current target) t
    outcomeApply iso outcome walked now errorCode errorMessage

/-- The record that `mark_outcome` saves. -/
def outcomeRecord (t : RuntimeTransition) (outcome : RuntimeTransitionStatus) (now : Text)
    (errorCode errorMessage : Option Text) : Except TransitionError RuntimeTransition :=
  if outcome ∉ terminalOutcomes then .error (.configError
    ("RUNTIME_TRANSITION_UNSUPPORTED_OUTCOME: " ++ outcome.value ++
      " is not a supported terminal outcome"))
  else match terminalize iso t outcome now errorCode errorMessage with
  | .ok next => .ok next
  | .error e => .error (.configError ("RUNTIME_TRANSITION_ILLEGAL: cannot terminalize " ++
      t.status.value ++ " -> " ++ outcome.value ++ ": " ++ e.text))

end Domain

/-- The codec of the collection; `encodes` is its encoder with the size bound. -/
def transitionCodec (encodes : Nat → RuntimeTransition → Except StateError Unit) :
    StateCodec RuntimeTransition where
  recordId := isTransitionId
  encodes

/-! ## Writers -/

inductive WriterCall where
  | recordAttempt (transitionId now : Text) (attempt : Attempt)
  | read (transitionId : Text)
  | markEffect (status : RuntimeTransitionStatus) (now : Text)
  | markOutcome (outcome : RuntimeTransitionStatus) (now : Text)
      (errorCode errorMessage : Option Text)
  deriving DecidableEq, Repr

/-- The records, the envelope that each writer last received, and every transition that was
persisted, the latest first. -/
structure LedgerSystem where
  records : Collection RuntimeTransition
  received : Nat → Option (StateEnvelope RuntimeTransition)
  persisted : List RuntimeTransition

section Writers

variable (iso : Text → Bool) (encodes : Nat → RuntimeTransition → Except StateError Unit)

/-- A call that persists a record and returns its envelope, or raises. -/
def LedgerSystem.settle (s : LedgerSystem) (writer : Nat) :
    Except StateError (StateEnvelope RuntimeTransition × Collection RuntimeTransition) → LedgerSystem
  | .ok (envelope, records) =>
    { records
      received := Function.update s.received writer (some envelope)
      persisted := envelope.value :: s.persisted }
  | .error _ => s

/-- `self._transitions.save(record, expected_revision=...)` -/
def LedgerSystem.save (s : LedgerSystem) (writer : Nat) (revision : Nat) :
    Except TransitionError RuntimeTransition → LedgerSystem
  | .ok next => s.settle writer
      (Repository.save (transitionCodec encodes) next.transitionId next revision s.records)
  | .error _ => s

def step (s : LedgerSystem) (l : Nat × WriterCall) : LedgerSystem :=
  match l.2 with
  | .recordAttempt transitionId now attempt =>
    match newRuntimeTransition iso transitionId now attempt with
    | .ok t => s.settle l.1 (Repository.create (transitionCodec encodes) t.transitionId t s.records)
    | .error _ => s
  | .read transitionId =>
    match Repository.read (transitionCodec encodes) transitionId s.records with
    | .ok (some envelope) =>
      { s with received := Function.update s.received l.1 (some envelope) }
    | _ => s
  | .markEffect status now =>
    match s.received l.1 with
    | some envelope => s.save encodes l.1 envelope.revision (effectRecord iso envelope.value status now)
    | none => s
  | .markOutcome outcome now errorCode errorMessage =>
    match s.received l.1 with
    | some envelope => s.save encodes l.1 envelope.revision
        (outcomeRecord iso envelope.value outcome now errorCode errorMessage)
    | none => s

def emptyLedger : LedgerSystem := ⟨∅, fun _ => none, []⟩

end Writers

end RepoForge.Transitions
