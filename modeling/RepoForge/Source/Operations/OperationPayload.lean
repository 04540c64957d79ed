import RepoForge.Source.Operations.WorkPayload

/-!
# Operation records and their payloads

`_payload`, `_encode` and `_decode` of `adapters/persistence/json_operation_store.py`. A payload is
what `json.loads` reads, and what it reads again from the text that `json.dumps` has written.

A lone surrogate is written `?` in a task: no check tells them apart, and a task that has one is
not encodable. The sanitizer, `datetime` and `str` of what is no string are given.
-/
namespace RepoForge.OperationPayload
open JsonLoads (Value)
open PyStr (lit)
open WorkPayload (Fields payloadOf optional shapeOk)

structure Runtime where
  policy : TaskPolicy
  /-- `str` of a value that is no string. -/
  str : Value → Option PyStr
  /-- `repr` -/
  repr : Value → Text
  /-- `lower` of what is not ASCII. -/
  lower : PyStr → PyStr
  /-- `datetime.fromisoformat` -/
  parsed : PyStr → ParsedTime

variable (R : Runtime)

/-- A task, and whether UTF-8 has all its texts. -/
structure LoadedTask where
  task : OperationTask
  encodable : Bool
  deriving DecidableEq

section Values

def retryabilityValue : OperationRetryability → Text
  | .none => "none".toList
  | .manual => "manual".toList
  | .automatic => "automatic".toList

def provenanceValue : RecordProvenance → Text
  | .current => "current".toList
  | .legacyMigrated => "legacy_migrated".toList
  | .recoveredInconsistent => "recovered_inconsistent".toList

def consistencyValue : RecordConsistency → Text
  | .consistent => "consistent".toList
  | .recordInconsistent => "record_inconsistent".toList

end Values

section Safety

def forbiddenKeys : List PyStr := ["body", "content", "patch", "diff", "stdout", "stderr",
  "environment", "api_key", "access_token", "token", "secret", "password", "credential",
  "credentials"].map lit

/-- `key.lower().replace("-", "_")` -/
def normalizedKey (key : PyStr) : PyStr :=
  PyStr.replaceChar '-' '_' (if key.all (·.value < 128) then
    key.map fun c => .scalar c.replaced.toLower else R.lower key)

mutual

/-- `_assert_safe`: the path to the first forbidden key. -/
def forbidden (path : PyStr) : Value → Option PyStr
  | .dict fields => forbiddenField path fields
  | .list items => forbiddenItem path items
  | _ => none

def forbiddenField (path : PyStr) : List (PyStr × Value) → Option PyStr
  | [] => none
  | (key, value) :: rest =>
    if forbiddenKeys.contains (normalizedKey R key) then some (path ++ key)
    else (forbidden (path ++ key ++ lit ".") value).or (forbiddenField path rest)

def forbiddenItem (path : PyStr) : List Value → Option PyStr
  | [] => none
  | value :: rest => (forbidden path value).or (forbiddenItem path rest)

end

end Safety

section Encoding

def textValue (text : Text) : Value := .str (PyStr.ofText text)

def stampValue (stamp : Stamp) : Value := textValue stamp.text

def bindingValue (binding : OperationSnapshotBinding) : Value := .dict (payloadOf [
  ("head_sha", optional textValue binding.headSha),
  ("workspace_fingerprint", optional textValue binding.workspaceFingerprint),
  ("config_generation", optional .int binding.configGeneration),
  ("evidence_snapshot_id", optional textValue binding.evidenceSnapshotId)])

/-- `asdict(task)`, with the values of the enumerations. -/
def payloadFields (task : OperationTask) : Fields := payloadOf [
  ("operation_id", textValue task.operationId),
  ("kind", textValue task.kind),
  ("state", textValue task.state.value),
  ("phase", textValue task.phase),
  ("progress_current", .int task.progressCurrent),
  ("progress_total", optional .int task.progressTotal),
  ("progress_unit", optional textValue task.progressUnit),
  ("progress_message", optional textValue task.progressMessage),
  ("task_id", optional textValue task.taskId),
  ("workspace_id", optional textValue task.workspaceId),
  ("snapshot_binding", optional bindingValue task.snapshotBinding),
  ("result_reference", optional textValue task.resultReference),
  ("error_code", optional textValue task.errorCode),
  ("error_message", optional textValue task.errorMessage),
  ("retryability", textValue (retryabilityValue task.retryability)),
  ("cancel_supported", .bool task.cancelSupported),
  ("cancellation_requested_at", optional stampValue task.cancellationRequestedAt),
  ("created_at", stampValue task.createdAt),
  ("updated_at", stampValue task.updatedAt),
  ("expires_at", optional stampValue task.expiresAt),
  ("owner_id", optional textValue task.ownerId),
  ("lease_expires_at", optional stampValue task.leaseExpiresAt),
  ("receipt_id", optional textValue task.receiptId),
  ("record_provenance", textValue (provenanceValue task.recordProvenance)),
  ("record_consistency", textValue (consistencyValue task.recordConsistency)),
  ("record_diagnostics", .list (task.recordDiagnostics.map textValue)),
  ("schema_version", .int task.schemaVersion),
  ("attempt", .int task.attempt)]

/-- The decimal digits that `str` of an integer may have. -/
def shortInt (n : Int) : Bool := (Nat.toDigits 10 n.natAbs).length ≤ 4300

/-- What `json.dumps` and `encode("utf-8")` do not refuse. -/
def writable (loaded : LoadedTask) : Bool :=
  loaded.encodable && shortInt loaded.task.progressCurrent &&
    loaded.task.progressTotal.all shortInt && shortInt loaded.task.attempt &&
    loaded.task.snapshotBinding.all fun binding => binding.configGeneration.all shortInt

inductive EncodeError where
  | refused (error : OperationError)
  /-- A `ValueError` of `json.dumps` or a `UnicodeEncodeError`. -/
  | value
  deriving DecidableEq

def forbiddenError (path : PyStr) : OperationError :=
  ⟨.operationCorrupt, "Operation record contains forbidden persisted field " ++
    String.ofList path.replaced⟩

/-- `_encode` -/
def encode (loaded : LoadedTask) : Except EncodeError Value :=
  match R.policy.validateOperationTask loaded.task with
  | .error error => .error (.refused error)
  | .ok task =>
    match forbidden R [] (.dict (payloadFields task)) with
    | some path => .error (.refused (forbiddenError path))
    | none => if writable loaded then .ok (.dict (payloadFields task)) else .error .value

end Encoding

section Decoding

/-- `str(value)` -/
def str : Value → Option PyStr
  | .str s => some s
  | value => R.str value

/-- `value == text` -/
def isText (text : Text) : Value → Bool
  | .str s => s = PyStr.ofText text
  | _ => false

/-- `None` or a string; nothing else passes the checks. -/
def optionalStr : Value → Option (Option PyStr)
  | .null => some none
  | .str s => some (some s)
  | _ => none

def boolean : Value → Option Bool
  | .bool b => some b
  | _ => none

def integer : Value → Option Int
  | .int n => some n
  | _ => none

def optionalInteger : Value → Option (Option Int)
  | .null => some none
  | .int n => some (some n)
  | _ => none

/-- The member of an enumeration with a value. -/
def member {α : Type} (members : List α) (value : α → Text) : Value → Option α
  | .str s => members.find? fun member => PyStr.ofText (value member) = s
  | _ => none

def stampOf (s : PyStr) : Stamp := ⟨s.replaced, R.parsed s⟩

def bindingNames : List String :=
  ["head_sha", "workspace_fingerprint", "config_generation", "evidence_snapshot_id"]

/-- `OperationSnapshotBinding(**binding_raw)`, or `None`. -/
def bindingOf : Value → Option (Option OperationSnapshotBinding)
  | .null => some none
  | .dict fields =>
    if fields.all fun field => (bindingNames.map lit).contains field.1 then do
      let headSha ← optionalStr (WorkPayload.get fields "head_sha")
      let fingerprint ← optionalStr (WorkPayload.get fields "workspace_fingerprint")
      let generation ← optionalInteger (WorkPayload.get fields "config_generation")
      let evidence ← optionalStr (WorkPayload.get fields "evidence_snapshot_id")
      some (some ⟨headSha.map (·.replaced), fingerprint.map (·.replaced), generation,
        evidence.map (·.replaced)⟩)
    else none
  | _ => none

/-- `tuple(value)`, of strings only. -/
def diagnosticsOf : Value → Option (List PyStr)
  | .list items => items.mapM WorkPayload.stringOf
  | .str s => some (s.map fun c => [c])
  | .dict fields => some (fields.map (·.1))
  | _ => none

def states : List OperationState :=
  [.pending, .running, .succeeded, .failed, .cancelled, .expired, .orphaned]

/-- The provenance, the diagnostics and the receipt, which a legacy record has not. -/
def recordOf (legacy : Bool) (fields : Fields) :
    Option (RecordProvenance × List PyStr × Option PyStr) :=
  if legacy then some (.legacyMigrated, [], none)
  else do
    let owned := (fields.lookup (lit "owner_id")).isSome ∧
      (fields.lookup (lit "lease_expires_at")).isSome
    let receipt ← optionalStr (WorkPayload.get fields "receipt_id")
    let provenance ← if owned then do
        let text ← str R (WorkPayload.get fields "record_provenance")
        member [.current, .legacyMigrated, .recoveredInconsistent] provenanceValue (.str text)
      else some .legacyMigrated
    -- `normalize_loaded_operation` replaces the consistency
    let _ ← str R (WorkPayload.get fields "record_consistency")
    let diagnostics ← diagnosticsOf (WorkPayload.get fields "record_diagnostics")
    some (provenance, diagnostics, receipt)

/-- The task that the fields are taken over into. -/
def taskOf (legacy : Bool) (fields : Fields) : Option LoadedTask := do
  let get := WorkPayload.get fields
  let binding ← bindingOf (get "snapshot_binding")
  let operationId ← str R (get "operation_id")
  let kind ← str R (get "kind")
  let state ← member states OperationState.value (get "state")
  let phase ← str R (get "phase")
  let current ← integer (get "progress_current")
  let total ← optionalInteger (get "progress_total")
  let unit ← optionalStr (get "progress_unit")
  let message ← optionalStr (get "progress_message")
  let taskId ← optionalStr (get "task_id")
  let workspaceId ← optionalStr (get "workspace_id")
  let resultReference ← optionalStr (get "result_reference")
  let errorCode ← optionalStr (get "error_code")
  let errorMessage ← optionalStr (get "error_message")
  let retryability ← member [.none, .manual, .automatic] retryabilityValue (get "retryability")
  let cancelSupported ← boolean (get "cancel_supported")
  let cancellation ← optionalStr (get "cancellation_requested_at")
  let created ← str R (get "created_at")
  let updated ← str R (get "updated_at")
  let expires ← optionalStr (get "expires_at")
  let ownerId ← optionalStr (get "owner_id")
  let lease ← optionalStr (get "lease_expires_at")
  let (provenance, diagnostics, receipt) ← recordOf R legacy fields
  let attempt ← integer ((fields.lookup (lit "attempt")).getD (.int 0))
  some {
    task := {
      operationId := operationId.replaced
      kind := kind.replaced
      state := state
      phase := phase.replaced
      progressCurrent := current
      progressTotal := total
      progressUnit := unit.map (·.replaced)
      progressMessage := message.map (·.replaced)
      taskId := taskId.map (·.replaced)
      workspaceId := workspaceId.map (·.replaced)
      snapshotBinding := binding
      resultReference := resultReference.map (·.replaced)
      errorCode := errorCode.map (·.replaced)
      errorMessage := errorMessage.map (·.replaced)
      retryability := retryability
      cancelSupported := cancelSupported
      cancellationRequestedAt := cancellation.map (stampOf R)
      createdAt := stampOf R created
      updatedAt := stampOf R updated
      expiresAt := expires.map (stampOf R)
      ownerId := ownerId.map (·.replaced)
      leaseExpiresAt := lease.map (stampOf R)
      receiptId := receipt.map (·.replaced)
      recordProvenance := provenance
      recordDiagnostics := diagnostics.map (·.replaced)
      attempt := attempt }
    -- the patterns of the other texts are ASCII
    encodable := created.encodable && updated.encodable &&
      [unit, message, errorMessage, cancellation, expires, lease].all (·.all PyStr.encodable) }

def legacyFields : List String := ["operation_id", "kind", "state", "phase", "progress_current",
  "progress_total", "progress_unit", "progress_message", "task_id", "workspace_id",
  "snapshot_binding", "result_reference", "error_code", "error_message", "retryability",
  "cancel_supported", "cancellation_requested_at", "created_at", "updated_at", "expires_at",
  "schema_version"]

def previousCurrentFields : List String := legacyFields ++
  ["receipt_id", "record_provenance", "record_consistency", "record_diagnostics"]

def currentFields : List String := previousCurrentFields ++ ["owner_id", "lease_expires_at"]

def expectedFieldSets (legacy : Bool) : List (List String) :=
  if legacy then [legacyFields]
  else [previousCurrentFields, currentFields, currentFields ++ ["attempt"]]

def corrupt {α : Type} (message : String) : Except OperationError α :=
  .error ⟨.operationCorrupt, message⟩

/-- The schema version, and whether it is the legacy one. -/
def versionOf (fields : Fields) : Except OperationError Bool :=
  match WorkPayload.get fields "schema_version" with
  | .int 1 => .ok true
  | .int 2 => .ok false
  | value => .error ⟨.operationSchemaUnsupported,
      "Unsupported operation schema version: " ++ String.ofList (R.repr value)⟩

/-- `_decode`, of what `json.loads` has read. -/
def decode (expectedOperationId : Text) (raw : Value) : Except OperationError LoadedTask :=
  match raw with
  | .dict fields => do
    let legacy ← versionOf R fields
    match forbidden R [] raw with
    | some path => .error (forbiddenError path)
    | none =>
      if ¬ (expectedFieldSets legacy).any fun names => shapeOk names [] (fields.map (·.1)) then
        corrupt ("Operation record fields do not match schema version " ++
          if legacy then "1" else "2")
      else if !isText expectedOperationId (WorkPayload.get fields "operation_id") then
        corrupt "Operation record identity does not match its filename"
      else
        match taskOf R legacy fields with
        | none => corrupt "Operation record cannot be decoded safely"
        | some loaded =>
          match R.policy.normalizeLoadedOperation loaded.task legacy with
          | .ok task => .ok ⟨task, loaded.encodable⟩
          | .error error =>
            if error.code = .operationSchemaUnsupported then .error error
            else corrupt "Operation record cannot be decoded safely"
  | _ => corrupt "Operation record must be a JSON object"

end Decoding

end RepoForge.OperationPayload
