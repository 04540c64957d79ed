import RepoForge.Library.JsonLoads
import RepoForge.Source.Operations.OperationTask

/-!
# Work items and their payloads

Source: `domain/operation_work.py`. Here a request has all its fields and a timestamp is its text.
A payload is a dictionary of JSON values. What `str`, `int` and `bool` make of values of other
types, and what `datetime` makes of a text, is given.
-/
namespace RepoForge.WorkPayload
open JsonLoads (Value)
open PyStr (lit)

inductive WorkPayloadError where
  /-- A `RepoForgeError`. -/
  | refused (error : OperationError)
  | keyError
  /-- An error that `str`, `int` or `OperationWorkState` raises. -/
  | builtin
  deriving DecidableEq, Repr

abbrev Checked := Except WorkPayloadError

def invalid {α : Type} (message : String) : Checked α :=
  .error (.refused ⟨.operationInvalid, message⟩)

def stale {α : Type} (message : String) : Checked α :=
  .error (.refused ⟨.operationStale, message⟩)

structure OperationWorkRequest where
  kind : OperationWorkKind
  workspaceId : PyStr
  expectedHeadSha : PyStr
  expectedFingerprint : PyStr
  configGeneration : Int
  profileName : Option PyStr := none
  argv : List PyStr := []
  script : Option PyStr := none
  shell : Option PyStr := none
  argvSequence : Option (List (List PyStr)) := none
  workingDirectory : Option PyStr := none
  mutability : PyStr := lit "read_only"
  diagnosticId : Option PyStr := none
  selector : Option (List PyStr) := none
  selector2 : Option (List PyStr) := none
  intent : Option PyStr := none
  expectation : Option PyStr := none
  expectedFailureClass : Option PyStr := none
  forceRerun : Bool := false
  rerunFailed : Bool := false
  stdinText : Option PyStr := none
  deriving DecidableEq

namespace OperationWorkRequest

/-- `__post_init__` -/
def postInit (request : OperationWorkRequest) : Checked OperationWorkRequest :=
  if request.kind ≠ .adhoc then .ok request
  else if 1 < [!request.argv.isEmpty, request.script.isSome, request.argvSequence.isSome].count true
      then
    invalid ("EXEC_FORM_CONFLICT: an adhoc operation work request must have at most " ++
      "one of argv, script, or argv_sequence populated")
  else if request.script.isNone ≠ request.shell.isNone then
    invalid "EXEC_FORM_CONFLICT: shell is required with script, and only valid with script"
  else if request.argvSequence.isSome ∧ request.stdinText.isSome then
    invalid "EXEC_FORM_CONFLICT: stdin_text is not supported with argv_sequence"
  else .ok request

def profile (workspaceId profileName expectedHeadSha expectedFingerprint : PyStr)
    (configGeneration : Int) : OperationWorkRequest where
  kind := .profile
  workspaceId := workspaceId
  profileName := some profileName
  expectedHeadSha := expectedHeadSha
  expectedFingerprint := expectedFingerprint
  configGeneration := configGeneration

def diagnostic (workspaceId diagnosticId : PyStr) (selector selector2 : Option (List PyStr))
    (intent expectation expectedFailureClass : Option PyStr) (forceRerun rerunFailed : Bool)
    (expectedHeadSha expectedFingerprint : PyStr) (configGeneration : Int) :
    OperationWorkRequest where
  kind := .diagnostic
  workspaceId := workspaceId
  diagnosticId := some diagnosticId
  selector := selector
  selector2 := selector2
  intent := intent
  expectation := expectation
  expectedFailureClass := expectedFailureClass
  forceRerun := forceRerun
  rerunFailed := rerunFailed
  expectedHeadSha := expectedHeadSha
  expectedFingerprint := expectedFingerprint
  configGeneration := configGeneration

def adhoc (workspaceId : PyStr) (argv : List PyStr) (script shell : Option PyStr)
    (argvSequence : Option (List (List PyStr))) (workingDirectory : Option PyStr)
    (mutability : PyStr) (stdinText : Option PyStr) (expectedHeadSha expectedFingerprint : PyStr)
    (configGeneration : Int) : Checked OperationWorkRequest :=
  postInit {
    kind := .adhoc
    workspaceId := workspaceId
    argv := argv
    script := script
    shell := shell
    argvSequence := argvSequence
    workingDirectory := workingDirectory
    mutability := mutability
    stdinText := stdinText
    expectedHeadSha := expectedHeadSha
    expectedFingerprint := expectedFingerprint
    configGeneration := configGeneration }

end OperationWorkRequest

structure OperationWorkItem where
  operationId : PyStr
  request : OperationWorkRequest
  state : OperationWorkState
  attempt : Nat
  ownerId : Option PyStr
  leaseExpiresAt : Option PyStr
  childStarted : Bool
  createdAt : PyStr
  updatedAt : PyStr
  schemaVersion : Int := 1
  deriving DecidableEq

structure Runtime where
  /-- `str` of a value that is no string. -/
  str : Value → Option PyStr
  /-- `int` of a value that is no integer. -/
  int : Value → Option Int
  /-- `bool` of a float -/
  truth : Text → Bool
  /-- `datetime.fromisoformat` -/
  parsed : PyStr → ParsedTime
  /-- `datetime.isoformat` -/
  isoformat : DateTime → Text

variable (R : Runtime)

section Transitions

/-- `next_operation_timestamp` -/
def nextOperationTimestamp (previous candidate : PyStr) : Checked PyStr :=
  let policy : TaskPolicy := ⟨some, R.isoformat, fun _ => true⟩
  match policy.nextTimestamp ⟨[], R.parsed previous⟩ ⟨[], R.parsed candidate⟩ with
  | .ok next => .ok (PyStr.ofText next.text)
  | .error error => .error (.refused error)

def newWorkItem (operationId : PyStr) (request : OperationWorkRequest) (now : PyStr) :
    Checked OperationWorkItem :=
  if ¬ (operationId.encodable ∧ validOperationId operationId.replaced) then
    invalid WorkError.operationIdInvalid.message
  else if request.expectedFingerprint.length ≠ 64 ∨
      ¬ request.expectedFingerprint.all (·.within lowerHex) then
    invalid WorkError.fingerprintInvalid.message
  else .ok {
    operationId := operationId
    request := request
    state := .queued
    attempt := 0
    ownerId := none
    leaseExpiresAt := none
    childStarted := false
    createdAt := now
    updatedAt := now }

def claimWorkItem (item : OperationWorkItem) (ownerId leaseExpiresAt now : PyStr) :
    Checked OperationWorkItem :=
  if item.state ≠ .queued then invalid WorkError.notQueued.message
  else do
    let updatedAt ← nextOperationTimestamp R item.updatedAt now
    .ok { item with
      state := .claimed
      attempt := item.attempt + 1
      ownerId := some ownerId
      leaseExpiresAt := some leaseExpiresAt
      updatedAt := updatedAt }

def requeueUnstartedWork (item : OperationWorkItem) (now : PyStr) : Checked OperationWorkItem :=
  if item.childStarted then invalid WorkError.startedWork.message
  else do
    let updatedAt ← nextOperationTimestamp R item.updatedAt now
    .ok { item with
      state := .queued
      ownerId := none
      leaseExpiresAt := none
      updatedAt := updatedAt }

def markWorkChildStarted (item : OperationWorkItem) (ownerId : PyStr) (attempt : Nat)
    (now : PyStr) : Checked OperationWorkItem :=
  if item.state ≠ .claimed ∨ item.ownerId ≠ some ownerId ∨ item.attempt ≠ attempt then
    stale WorkError.ownershipChanged.message
  else if item.childStarted then .ok item
  else do
    let updatedAt ← nextOperationTimestamp R item.updatedAt now
    .ok { item with
      childStarted := true
      updatedAt := updatedAt }

def renewWorkClaim (item : OperationWorkItem) (ownerId leaseExpiresAt now : PyStr) :
    Checked OperationWorkItem :=
  if item.state ≠ .claimed ∨ item.ownerId ≠ some ownerId then stale WorkError.notOwner.message
  else do
    let updatedAt ← nextOperationTimestamp R item.updatedAt now
    .ok { item with
      leaseExpiresAt := some leaseExpiresAt
      updatedAt := updatedAt }

end Transitions

abbrev Fields := List (PyStr × Value)

section Encoding

def strings (texts : List PyStr) : Value := .list (texts.map .str)

/-- `None if value is None else …` -/
def optional {α : Type} (encode : α → Value) (value : Option α) : Value := value.elim .null encode

/-- The keys of a payload are literals. -/
def payloadOf (fields : List (String × Value)) : Fields :=
  fields.map fun (key, value) => (lit key, value)

def kindValue : OperationWorkKind → PyStr
  | .profile => lit "profile"
  | .adhoc => lit "adhoc"
  | .diagnostic => lit "diagnostic"

def stateValue : OperationWorkState → PyStr
  | .queued => lit "queued"
  | .claimed => lit "claimed"

def requestPayload (request : OperationWorkRequest) : Fields :=
  match request.kind with
  | .profile => payloadOf [
      ("kind", .str (lit "profile")),
      ("workspace_id", .str request.workspaceId),
      ("profile_name", optional .str request.profileName),
      ("expected_head_sha", .str request.expectedHeadSha),
      ("expected_fingerprint", .str request.expectedFingerprint),
      ("config_generation", .int request.configGeneration)]
  | .diagnostic => payloadOf [
      ("kind", .str (lit "diagnostic")),
      ("workspace_id", .str request.workspaceId),
      ("diagnostic_id", optional .str request.diagnosticId),
      ("selector", optional strings request.selector),
      ("selector2", optional strings request.selector2),
      ("intent", optional .str request.intent),
      ("expectation", optional .str request.expectation),
      ("expected_failure_class", optional .str request.expectedFailureClass),
      ("force_rerun", .bool request.forceRerun),
      ("rerun_failed", .bool request.rerunFailed),
      ("expected_head_sha", .str request.expectedHeadSha),
      ("expected_fingerprint", .str request.expectedFingerprint),
      ("config_generation", .int request.configGeneration)]
  | .adhoc => payloadOf [
      ("kind", .str (lit "adhoc")),
      ("workspace_id", .str request.workspaceId),
      ("argv", strings request.argv),
      ("script", optional .str request.script),
      ("shell", optional .str request.shell),
      ("argv_sequence", optional (fun sequence => .list (sequence.map strings))
        request.argvSequence),
      ("working_directory", optional .str request.workingDirectory),
      ("mutability", .str request.mutability),
      ("stdin_text", optional .str request.stdinText),
      ("expected_head_sha", .str request.expectedHeadSha),
      ("expected_fingerprint", .str request.expectedFingerprint),
      ("config_generation", .int request.configGeneration)]

def workItemPayload (item : OperationWorkItem) : Fields := payloadOf [
  ("operation_id", .str item.operationId),
  ("request", .dict (requestPayload item.request)),
  ("state", .str (stateValue item.state)),
  ("attempt", .int item.attempt),
  ("owner_id", optional .str item.ownerId),
  ("lease_expires_at", optional .str item.leaseExpiresAt),
  ("child_started", .bool item.childStarted),
  ("created_at", .str item.createdAt),
  ("updated_at", .str item.updatedAt),
  ("schema_version", .int item.schemaVersion)]

end Encoding

section Decoding

/-- `fields.get(key)` -/
def get (fields : Fields) (key : String) : Value := (fields.lookup (lit key)).getD .null

/-- `fields[key]` -/
def item (fields : Fields) (key : String) : Checked Value :=
  match fields.lookup (lit key) with
  | some value => .ok value
  | none => .error .keyError

/-- `str(value)` -/
def str : Value → Checked PyStr
  | .str s => .ok s
  | value =>
    match R.str value with
    | some s => .ok s
    | none => .error .builtin

/-- `int(value)` -/
def int : Value → Checked Int
  | .int n => .ok n
  | .bool b => .ok (if b then 1 else 0)
  | value =>
    match R.int value with
    | some n => .ok n
    | none => .error .builtin

/-- `bool(value)` -/
def truth : Value → Bool
  | .null => false
  | .bool b => b
  | .int n => n ≠ 0
  | .float literal => R.truth literal
  | .str s => s ≠ []
  | .list items => !items.isEmpty
  | .dict fields => !fields.isEmpty

def text (fields : Fields) (key : String) : Checked PyStr := do
  let value ← item fields key
  str R value

/-- `None if value is None else str(value)`. The shape has been checked, so a key that is missing
is one of those that are read with `get`. -/
def optionalText (fields : Fields) (key : String) : Checked (Option PyStr) :=
  match get fields key with
  | .null => .ok none
  | value => do
    let s ← str R value
    .ok (some s)

def integer (fields : Fields) (key : String) : Checked Int := do
  let value ← item fields key
  int R value

def flag (fields : Fields) (key : String) : Checked Bool := do
  let value ← item fields key
  .ok (truth R value)

def stringOf : Value → Option PyStr
  | .str s => some s
  | _ => none

/-- A list of strings. -/
def stringsOf : Value → Option (List PyStr)
  | .list items => items.mapM stringOf
  | _ => none

/-- A list of lists of strings. -/
def sequenceOf : Value → Option (List (List PyStr))
  | .list items => items.mapM stringsOf
  | _ => none

def required {α : Type} (decode : Value → Option α) (message : String) (value : Value) : Checked α :=
  match decode value with
  | some decoded => .ok decoded
  | none => invalid message

def nullable {α : Type} (decode : Value → Option α) (message : String) :
    Value → Checked (Option α)
  | .null => .ok none
  | value => do
    let decoded ← required decode message value
    .ok (some decoded)

def profileRequest (fields : Fields) : Checked OperationWorkRequest := do
  let workspaceId ← text R fields "workspace_id"
  let profileName ← text R fields "profile_name"
  let expectedHeadSha ← text R fields "expected_head_sha"
  let expectedFingerprint ← text R fields "expected_fingerprint"
  let configGeneration ← integer R fields "config_generation"
  .ok (.profile workspaceId profileName expectedHeadSha expectedFingerprint configGeneration)

def selectors : Value → Checked (Option (List PyStr)) :=
  nullable stringsOf "operation work diagnostic selectors must be null or JSON string arrays"

def diagnosticRequest (fields : Fields) : Checked OperationWorkRequest := do
  let selector ← selectors (← item fields "selector")
  let selector2 ← selectors (← item fields "selector2")
  let workspaceId ← text R fields "workspace_id"
  let diagnosticId ← text R fields "diagnostic_id"
  let intent ← optionalText R fields "intent"
  let expectation ← optionalText R fields "expectation"
  let expectedFailureClass ← optionalText R fields "expected_failure_class"
  let forceRerun ← flag R fields "force_rerun"
  let rerunFailed ← flag R fields "rerun_failed"
  let expectedHeadSha ← text R fields "expected_head_sha"
  let expectedFingerprint ← text R fields "expected_fingerprint"
  let configGeneration ← integer R fields "config_generation"
  .ok (.diagnostic workspaceId diagnosticId selector selector2 intent expectation
    expectedFailureClass forceRerun rerunFailed expectedHeadSha expectedFingerprint configGeneration)

def adhocRequest (fields : Fields) : Checked OperationWorkRequest := do
  let argv ← required stringsOf "operation work adhoc argv must be a JSON string array"
    (← item fields "argv")
  let argvSequence ← nullable sequenceOf
    "operation work adhoc argv_sequence must be a JSON array of string arrays"
    (get fields "argv_sequence")
  let workspaceId ← text R fields "workspace_id"
  let script ← optionalText R fields "script"
  let shell ← optionalText R fields "shell"
  let workingDirectory ← optionalText R fields "working_directory"
  let mutability ← text R fields "mutability"
  let stdinText ← optionalText R fields "stdin_text"
  let expectedHeadSha ← text R fields "expected_head_sha"
  let expectedFingerprint ← text R fields "expected_fingerprint"
  let configGeneration ← integer R fields "config_generation"
  OperationWorkRequest.adhoc workspaceId argv script shell argvSequence workingDirectory mutability
    stdinText expectedHeadSha expectedFingerprint configGeneration

/-- The kind of request that a payload names, if it is one of the three. -/
def requestKind (fields : Fields) : Option OperationWorkKind :=
  match get fields "kind" with
  | .str s => [.profile, .adhoc, .diagnostic].find? fun kind => kindValue kind = s
  | _ => none

def requestFields : OperationWorkKind → List String
  | .profile => ["kind", "workspace_id", "profile_name", "expected_head_sha",
      "expected_fingerprint", "config_generation"]
  | .adhoc => ["kind", "workspace_id", "argv", "working_directory", "mutability",
      "expected_head_sha", "expected_fingerprint", "config_generation"]
  | .diagnostic => ["kind", "workspace_id", "diagnostic_id", "selector", "selector2", "intent",
      "expectation", "expected_failure_class", "force_rerun", "rerun_failed", "expected_head_sha",
      "expected_fingerprint", "config_generation"]

/-- `_OPTIONAL_REQUEST_FIELDS` -/
def optionalFields : OperationWorkKind → List String
  | .adhoc => ["stdin_text", "script", "shell", "argv_sequence"]
  | _ => []

/-- `required <= set(keys) <= required | extra` -/
def shapeOk (needed extra : List String) (keys : List PyStr) : Bool :=
  needed.all (fun name => keys.contains (lit name)) &&
    keys.all (((needed ++ extra).map lit).contains ·)

def workItemFields : List String := ["operation_id", "request", "state", "attempt", "owner_id",
  "lease_expires_at", "child_started", "created_at", "updated_at", "schema_version"]

def requestFromPayload (kind : OperationWorkKind) (fields : Fields) :
    Checked OperationWorkRequest :=
  match kind with
  | .profile => profileRequest R fields
  | .diagnostic => diagnosticRequest R fields
  | .adhoc => adhocRequest R fields

/-- `OperationWorkState(value)` -/
def stateOf (value : PyStr) : Checked OperationWorkState :=
  match [.queued, .claimed].find? fun state => stateValue state = value with
  | some state => .ok state
  | none => .error .builtin

def mismatch : Checked OperationWorkItem :=
  invalid "operation work payload fields do not match schema version 1"

def workItemFromPayload (payload : Fields) : Checked OperationWorkItem :=
  match get payload "request", get payload "attempt", get payload "schema_version",
    get payload "child_started" with
  | .dict fields, .int attempt, .int version, .bool childStarted =>
    match requestKind fields with
    | none => mismatch
    | some kind =>
      if ¬ (shapeOk workItemFields [] (payload.map (·.1)) ∧ version = 1 ∧ 0 ≤ attempt ∧
          shapeOk (requestFields kind) (optionalFields kind) (fields.map (·.1))) then mismatch
      else do
        let request ← requestFromPayload R kind fields
        let operationId ← text R payload "operation_id"
        let state ← stateOf (← text R payload "state")
        let ownerId ← optionalText R payload "owner_id"
        let leaseExpiresAt ← optionalText R payload "lease_expires_at"
        let createdAt ← text R payload "created_at"
        let updatedAt ← text R payload "updated_at"
        .ok ⟨operationId, request, state, attempt.toNat, ownerId, leaseExpiresAt, childStarted,
          createdAt, updatedAt, version⟩
  | _, _, _, _ => mismatch

end Decoding

end RepoForge.WorkPayload
