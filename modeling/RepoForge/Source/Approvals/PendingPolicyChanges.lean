import RepoForge.Library.Outlines
import RepoForge.Library.PyDict
import RepoForge.Library.PyJson
import RepoForge.Library.Sha256
import RepoForge.Library.SortedListing
import RepoForge.Source.Persistence.StateRepository

/-!
# Pending policy changes

`PendingPolicyChangeStore` of `application/approvals/service.py`, with the two stores of
`adapters/persistence/json_approval_store.py` and `domain/approval.py`. A call of a store holds
the lock of its record from the first read to the write, so it is one operation of a script. A file
is kept as what `json` makes of it; a request that the codec has encoded decodes to itself. An
identifier that the stores accept is ASCII.
-/
namespace RepoForge.Approvals

open Scripts PyDict PyStr

/-- A `ConfigError`, by what it says. -/
inductive ConfigReason where
  | missingFields (names : List PyStr)
  | full
  | differentState (changeId : Text)
  | cannotPersist (changeId : Text)
  | unknown (changeId : Text)
  | payloadMissing (changeId : Text)
  | payloadStale (changeId : Text)
  | cannotDecide (changeId : Text)
  deriving DecidableEq

inductive Failure where
  /-- a `ValueError` or a `TypeError` -/
  | invalid
  /-- a `RepoForgeError` of a store -/
  | state (error : StateError)
  | config (reason : ConfigReason)
  /-- any other exception -/
  | escaped
  deriving DecidableEq

/-- `except (RepoForgeError, ValueError, TypeError)` -/
def Failure.caught : Failure → Bool
  | .escaped => false
  | _ => true

/-! ### Approval requests -/

/-- `_text` -/
def isText (limit : Nat) (value : PyStr) : Bool :=
  let normalized := strip value
  decide (normalized ≠ []) && decide (normalized.length ≤ limit) &&
    normalized.all fun c => decide (32 ≤ c.value) || c = .scalar '\t' || c = .scalar '\n'

/-- `^[A-Za-z0-9][A-Za-z0-9._:/#-]{0,127}$` -/
def isIdentifier : PyStr → Bool :=
  firstThen Char.isAlphanum
    (fun c => c.isAlphanum || ['.', '_', ':', '/', '#', '-'].contains c) 127

/-- `^[a-f0-9]{64}$` -/
def isSha256 (t : Text) : Bool := decide (t.length = 64) && t.all lowerHex

/-- `^(?:apr-[a-f0-9]{24}|chg-[a-f0-9]{20})$` -/
def isApprovalId (t : Text) : Bool :=
  ("apr-".toList.isPrefixOf t && decide (t.length = 28) && (t.drop 4).all lowerHex) ||
    ("chg-".toList.isPrefixOf t && decide (t.length = 24) && (t.drop 4).all lowerHex)

inductive ApprovalStatus where
  | pending
  | accepted
  | declined
  | cancelled
  | expired
  | invalidated
  deriving DecidableEq

structure ApprovalSubject where
  kind : PyStr
  repoId : Option PyStr
  summary : PyStr
  capabilityDelta : Option PyStr
  deriving DecidableEq

structure ApprovalBinding where
  proposalId : PyStr
  payloadDigest : Text
  expectedGeneration : Option Int
  expectedSourceSha256 : Option PyStr
  deriving DecidableEq

structure ApprovalDecision where
  status : ApprovalStatus
  actor : PyStr
  decidedAt : PyStr
  reason : PyStr
  deriving DecidableEq

structure ApprovalRequest where
  requestId : Text
  action : PyStr
  subject : ApprovalSubject
  binding : ApprovalBinding
  reason : PyStr
  createdAt : PyStr
  expiresAt : Option PyStr
  status : ApprovalStatus
  decision : Option ApprovalDecision
  deriving DecidableEq

def ApprovalSubject.valid (s : ApprovalSubject) : Bool :=
  isIdentifier s.kind && s.repoId.all isIdentifier && isText 1000 s.summary &&
    s.capabilityDelta.all isIdentifier

def ApprovalBinding.valid (b : ApprovalBinding) : Bool :=
  isIdentifier b.proposalId && isSha256 b.payloadDigest &&
    b.expectedGeneration.all (fun generation => decide (0 < generation)) &&
    b.expectedSourceSha256.all (isHex 64)

def ApprovalDecision.valid (d : ApprovalDecision) : Bool :=
  decide (d.status ≠ .pending) && isText 256 d.actor && isText 64 d.decidedAt && isText 1000 d.reason

def ApprovalRequest.valid (r : ApprovalRequest) : Bool :=
  isApprovalId r.requestId && isIdentifier r.action && isText 2000 r.reason &&
    isText 64 r.createdAt && r.expiresAt.all (isText 64) &&
    if r.status = .pending then r.decision.isNone
    else r.decision.any fun decision => decision.status = r.status

/-- `__post_init__` of a value whose checks come out so. -/
def postInit {α : Type} (value : α) (valid : Bool) : Except Failure α :=
  if valid then .ok value else .error .invalid

def decideApproval (request : ApprovalRequest) (status : ApprovalStatus)
    (actor decidedAt reason : PyStr) : Except Failure ApprovalRequest :=
  if status = .pending then .error .invalid
  else do
    let decision : ApprovalDecision := ⟨status, actor, decidedAt, reason⟩
    let decision ← postInit decision decision.valid
    if request.status = .pending then
      let decided := { request with
        status := status
        decision := some decision }
      postInit decided decided.valid
    else if request.status = status ∧ request.decision = some decision then .ok request
    else .error .invalid

/-! ### The two stores -/

/-- What `save` is given, and what a payload file holds. -/
abbrev Record := List (PyStr × Json)

/-- `str` of a list or a dictionary, `int` of a text, and the bounds on encoded records. -/
structure Environment where
  str : Json → PyStr
  int : PyStr → Option Int
  encodes : Nat → ApprovalRequest → Except StateError Unit
  fits : Record → Bool

structure PayloadFile where
  payload : Record
  payloadDigest : Text

structure Stores where
  requests : Collection ApprovalRequest
  payloads : AList fun _ : Text => PayloadFile

def emptyStores : Stores := ⟨∅, ∅⟩

/-- `sha256` of `json.dumps(payload, sort_keys=True, separators=(",", ":"))` -/
def digest (payload : Record) : Except Failure Text :=
  let encoded := Json.dumps (.dict payload)
  if encoded.encodable then .ok (Sha256.hexdigest (utf8 encoded.replaced)) else .error .invalid

section Stores

variable (R : Environment)

def codec : StateCodec ApprovalRequest where
  recordId := isApprovalId
  encodes := R.encodes

/-- A call of the request store. -/
def onRequests {α : Type}
    (call : Collection ApprovalRequest → Except StateError (α × Collection ApprovalRequest))
    (s : Stores) : Except Failure (α × Stores) :=
  match call s.requests with
  | .ok (a, requests) => .ok (a, { s with requests := requests })
  | .error e => .error (.state e)

def findRequest (id : Text) (s : Stores) : Except Failure (Option (StateEnvelope ApprovalRequest)) :=
  (Repository.read (codec R) id s.requests).mapError .state

def checkPayloadId (id : Text) : Except Failure Unit :=
  if isApprovalId id then .ok () else .error (.state .invalid)

/-- `JsonApprovalPayloadStore.read` -/
def findPayload (id : Text) (s : Stores) : Except Failure (Option Record) := do
  checkPayloadId id
  match s.payloads.lookup id with
  | none => .ok none
  | some file => do
    let current ← digest file.payload
    if file.payloadDigest ≠ current then .error (.state .corrupt) else .ok (some file.payload)

/-- `JsonApprovalPayloadStore.save` -/
def savePayload (id : Text) (payload : Record) (s : Stores) : Except Failure (Text × Stores) := do
  let new ← digest payload
  checkPayloadId id
  match ← findPayload id s with
  | some current => do
    let currentDigest ← digest current
    if currentDigest ≠ new then .error (.state .alreadyExists) else .ok (new, s)
  | none =>
    if R.fits payload then .ok (new, { s with payloads := s.payloads.insert id ⟨payload, new⟩ })
    else .error (.state .tooLarge)

/-- `JsonApprovalPayloadStore.delete` -/
def deletePayload (id : Text) (s : Stores) : Except Failure (Unit × Stores) := do
  checkPayloadId id
  .ok ((), { s with payloads := s.payloads.erase id })

end Stores

/-! ### The service -/

/-- What an operation does, for the rules about the runs. -/
inductive Access where
  | look
  /-- `payloads.save` -/
  | store (changeId : Text)
  /-- `approvals.create` -/
  | create (request : ApprovalRequest)
  /-- `payloads.delete` in the handler of `save` -/
  | cleanUp (changeId : Text)
  /-- `approvals.save` -/
  | decide (decided : ApprovalRequest)
  /-- `payloads.delete` after a decision -/
  | drop (changeId : Text)
  deriving DecidableEq

abbrev Script (α : Type) := Scripts.Script Access Stores Failure α

/-- `_MAX_PENDING_CHANGES` -/
def maxPendingChanges : Nat := 20

/-- The bound of the listings. -/
def maxListed : Nat := 2000

section Service

variable (R : Environment)

def readRequest (id : Text) : Script (Option (StateEnvelope ApprovalRequest)) :=
  .look .look (findRequest R id)

def readPayload (id : Text) : Script (Option Record) := .look .look (findPayload id)

/-- A record that cannot be read is left out of a listing. -/
def leaveOut : Failure → Script (Option (StateEnvelope ApprovalRequest))
  | .state _ | .config _ => .ret none
  | .invalid => .raise .invalid
  | .escaped => .raise .escaped

/-- The records of `list_records`. -/
def listRecords : Script (List (StateEnvelope ApprovalRequest)) := do
  let ids ← Script.look .look fun s => .ok (Repository.listIds maxListed 0 s.requests).1
  let found ← Script.collect (fun id => (readRequest R id).handle leaveOut) ids
  -- the revision and the identifier, the greatest first
  .ret (sortBy (fun item => toLex (item.revision, item.recordId)) (found.filterMap fun item => item)).reverse

def str : Json → PyStr
  | .str value => value
  | .null => lit "None"
  | .bool value => if value then lit "True" else lit "False"
  | .int value => Json.ofInt value
  | value => R.str value

def int : Json → Except Failure Int
  | .int value => .ok value
  | .bool value => .ok (if value then 1 else 0)
  | .str value => match R.int value with
    | some n => .ok n
    | none => .error .invalid
  | _ => .error .invalid

/-- The stores take no identifier with a lone surrogate. -/
def idText (value : PyStr) : Except Failure Text :=
  if value.encodable then .ok value.replaced else .error .invalid

def required : List PyStr :=
  ["capability_delta", "change_id", "created_at", "expected_generation", "expected_source_sha256",
    "proposal_id", "reason", "repo_id"].map lit

/-- `_request` -/
def requestOf (record : Record) (payloadDigest : Text) : Except Failure ApprovalRequest :=
  let missing := required.filter fun name => (get record name).isNone
  if missing ≠ [] then .error (.config (.missingFields missing))
  else do
    let value (name : String) : Json := (get record (lit name)).getD .null
    let field (name : String) : PyStr := str R (value name)
    let subject : ApprovalSubject := {
      kind := lit "repository_policy"
      repoId := some (field "repo_id")
      summary := lit "Review repository policy change for " ++ field "repo_id"
      capabilityDelta := some (field "capability_delta") }
    let subject ← postInit subject subject.valid
    let generation ← int R (value "expected_generation")
    let binding : ApprovalBinding := {
      proposalId := field "proposal_id"
      payloadDigest := payloadDigest
      expectedGeneration := some generation
      expectedSourceSha256 := some (field "expected_source_sha256") }
    let binding ← postInit binding binding.valid
    let requestId ← idText (field "change_id")
    let request : ApprovalRequest := {
      requestId := requestId
      action := lit "repository_policy_change"
      subject := subject
      binding := binding
      reason := field "reason"
      createdAt := field "created_at"
      expiresAt := none
      status := .pending
      decision := none }
    postInit request request.valid

/-- The body of the `try` of `save`. -/
def persist (requestId : Text) (record : Record)
    (existing : Option (StateEnvelope ApprovalRequest)) : Script Unit := do
  let payloadDigest ← Script.call (.store requestId) (savePayload R requestId record)
  let request ← Script.ofExcept (requestOf R record payloadDigest)
  match existing with
  | none => do
    let _ ← Script.call (.create request)
      (onRequests (Repository.create (codec R) request.requestId request))
    pure ()
  | some envelope =>
    if envelope.value.status ≠ .pending ∨ envelope.value.binding.payloadDigest ≠ payloadDigest then
      .raise (.config (.differentState requestId))
    else pure ()

/-- The `except` of `save`. -/
def undo (requestId : Text) (existing : Option (StateEnvelope ApprovalRequest)) (e : Failure) :
    Script Unit :=
  let raised : Failure := match e with
    | .config reason => .config reason
    | _ => .config (.cannotPersist requestId)
  if e.caught then
    match existing with
    | none => do
      let _ ← Script.call (.cleanUp requestId) (deletePayload requestId)
      .raise raised
    | some _ => .raise raised
  else .raise e

/-- The request of the change that `save` finds; it looks for none under an empty identifier. -/
def existingRequest (requestId : Text) : Script (Option (StateEnvelope ApprovalRequest)) :=
  if requestId = [] then pure none else readRequest R requestId

def save (record : Record) : Script Unit := do
  let records ← listRecords R
  let pendingCount := records.countP fun envelope => envelope.value.status = .pending
  -- an identifier that no store takes is refused by `approvals.read`
  let requestId ← Script.ofExcept
    ((idText (((get record (lit "change_id")).map (str R)).getD [])).mapError fun _ => .state .invalid)
  let existing ← existingRequest R requestId
  if existing.isNone ∧ maxPendingChanges ≤ pendingCount then .raise (.config .full)
  else (persist R requestId record existing).handle (undo requestId existing)

def load (changeId : Text) : Script Record := do
  match ← readRequest R changeId with
  | none => .raise (.config (.unknown changeId))
  | some request =>
    if request.value.status ≠ .pending then .raise (.config (.unknown changeId))
    else do
      match ← readPayload changeId with
      | none => .raise (.config (.payloadMissing changeId))
      | some payload => do
        let current ← Script.ofExcept (digest payload)
        if current ≠ request.value.binding.payloadDigest then
          .raise (.config (.payloadStale changeId))
        else pure payload

/-- An item of `summaries`. -/
structure Summary where
  changeId : Text
  repoId : Option PyStr
  reason : PyStr
  createdAt : PyStr
  capabilityDelta : Option PyStr
  changes : Json
  expectedGeneration : Option Int

def summaryOf (request : ApprovalRequest) (payload : Record) : Summary where
  changeId := request.requestId
  repoId := request.subject.repoId
  reason := request.reason
  createdAt := request.createdAt
  capabilityDelta := request.subject.capabilityDelta
  changes := (get payload (lit "changes")).getD (.list [])
  expectedGeneration := request.binding.expectedGeneration

/-- One round of the loop of `summaries`. -/
def summarize (request : ApprovalRequest) : Script Summary := do
  match ← readPayload request.requestId with
  | none => .raise (.config (.payloadMissing request.requestId))
  | some payload => pure (summaryOf request payload)

def pendingOf (records : List (StateEnvelope ApprovalRequest)) : List ApprovalRequest :=
  sortBy (fun request => toLex (request.createdAt, request.requestId))
    ((records.map (·.value)).filter fun request => request.status = .pending)

def summaries : Script (List Summary) := do
  let records ← listRecords R
  Script.collect summarize (pendingOf records)

/-- The `try` of `_decide`. -/
def settle (envelope : StateEnvelope ApprovalRequest) (status : ApprovalStatus)
    (actor decidedAt reason : PyStr) : Script Unit := do
  let decided ← Script.ofExcept (decideApproval envelope.value status actor decidedAt reason)
  let _ ← Script.call (.decide decided)
    (onRequests (Repository.save (codec R) decided.requestId decided envelope.revision))
  pure ()

/-- `_decide` -/
def decideChange (changeId : Text) (status : ApprovalStatus) (actor decidedAt reason : PyStr) :
    Script Unit := do
  match ← readRequest R changeId with
  | none => .raise (.config (.unknown changeId))
  | some envelope => do
    (settle R envelope status actor decidedAt reason).handle fun e =>
      .raise (if e.caught then .config (.cannotDecide changeId) else e)
    Script.call (.drop changeId) (deletePayload changeId)

def approve (changeId : Text) (actor decidedAt : PyStr) : Script Unit :=
  decideChange R changeId .accepted actor decidedAt
    (lit "Operator approved the exact bound configuration proposal.")

def reject (changeId : Text) (actor decidedAt : PyStr) : Script Unit :=
  decideChange R changeId .declined actor decidedAt
    (lit "Operator declined the proposed capability change.")

def invalidate (changeId : Text) (actor decidedAt : PyStr) : Script Unit :=
  decideChange R changeId .invalidated actor decidedAt
    (lit "The exact proposal binding became stale or was administratively invalidated.")

inductive Call where
  | save (record : Record)
  | approve (changeId : Text) (actor decidedAt : PyStr)
  | reject (changeId : Text) (actor decidedAt : PyStr)
  | invalidate (changeId : Text) (actor decidedAt : PyStr)

def program : Call → Script Unit
  | .save record => save R record
  | .approve changeId actor decidedAt => approve R changeId actor decidedAt
  | .reject changeId actor decidedAt => reject R changeId actor decidedAt
  | .invalidate changeId actor decidedAt => invalidate R changeId actor decidedAt

/-- Any number of processes; one that dies leaves the files as they are. -/
def kernel (ι : Type) : Kernel ι Call Access Stores Failure Unit where
  program _ call := program R call
  release _ s := s

end Service

abbrev ApprovalMachine (ι : Type) := Machine ι Call Access Stores Failure Unit

/-- Empty stores, and nobody in a call. -/
def start (ι : Type) : ApprovalMachine ι := ⟨emptyStores, fun _ => none⟩

end RepoForge.Approvals
