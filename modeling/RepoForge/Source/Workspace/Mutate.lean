import RepoForge.Source.Transaction.Journal

/-!
# Workspace mutation

Source: `application/workspace/mutate_enhanced.py`, `WorkspaceMutator.execute`: what `run`
does under the workspace lock, `_persist_receipt_only`, `_encode_receipt` and
`_decode_receipt`.

Everything between the receipt lookup and the commit only reads the workspace: the drift and
policy checks, the planner and the syntax analysis are one function `plan` of the tree. The
fields of the result that describe the workspace (diagnostics, fingerprints, metrics) are
the parameter `Details`; the verification record, audit and metrics are left out.

A receipt is canonical JSON behind the redaction of `sanitize_persisted_data`. The codec
stands for both: what it reads back is the receipt it wrote with the result sanitised. The
redaction leaves digests alone, and every workspace id that does not look like a credential.
-/
namespace RepoForge

open Interruptible Interruptible.Proc

/-- The digests of a keyed call. `hashed`: `hash_idempotency_key` is a SHA-256 in lowercase
hexadecimal. -/
structure KeyBinding where
  keyHash : Text
  requestDigest : Text
  hashed : keyHash.length = 64 ∧ ∀ c ∈ keyHash, c.isDigit ∨ c ∈ ['a', 'b', 'c', 'd', 'e', 'f']

def mutateAction : Text := "workspace_mutate".toList

def receiptName (keyHash : Text) : Text := mutateAction ++ '-' :: keyHash ++ ".json".toList

structure MutateResult (Details : Type) where
  workspaceId : Text
  dryRun : Bool
  ready : Bool
  changed : Bool
  wouldChange : Bool
  changedPaths : List Text
  transactionId : Option Text
  details : Details
  deriving DecidableEq, Repr

/-- A receipt as it is read; no result where it does not have the fields of its version. -/
structure StoredReceipt (Details : Type) where
  schemaVersion : Nat
  action : Text
  keyHash : Text
  requestFingerprint : Text
  result : Option (MutateResult Details)
  deriving DecidableEq, Repr

structure ReceiptCodec (Details : Type) where
  encode : StoredReceipt Details → Bytes
  decode : Bytes → Option (StoredReceipt Details)
  sanitize : MutateResult Details → MutateResult Details
  decode_encode : ∀ r, decode (encode r) = some { r with result := r.result.map sanitize }
  sanitize_workspaceId : ∀ result, (sanitize result).workspaceId = result.workspaceId

inductive MutateError where
  | transaction (cause : TransactionError)
  | receiptCorrupt (message : String)
  | idempotencyConflict
  | refused (message : String)
  deriving DecidableEq, Repr

def MutateError.message : MutateError → String
  | transaction _ => ""
  | receiptCorrupt message => "STATE_PERSISTENCE_FAILED: workspace_mutate idempotency " ++ message
  | idempotencyConflict =>
    "IDEMPOTENCY_CONFLICT: the key is already bound to different input or expected state"
  | refused message => message

section Receipts

variable {Details : Type}

def receiptSchemaVersion : Nat := 4

def encodeReceipt (codec : ReceiptCodec Details) (binding : KeyBinding)
    (result : MutateResult Details) : Bytes :=
  codec.encode ⟨receiptSchemaVersion, mutateAction, binding.keyHash, binding.requestDigest,
    some result⟩

def decodeReceipt (codec : ReceiptCodec Details) (workspaceId : Text) (binding : KeyBinding)
    (payload : Bytes) : Except MutateError (MutateResult Details) :=
  match codec.decode payload with
  | none => .error (.receiptCorrupt "receipt is not valid UTF-8 JSON")
  | some raw =>
    if ¬ raw.schemaVersion ∈ [1, 2, 3, receiptSchemaVersion] then
      .error (.receiptCorrupt "receipt schema version is unsupported")
    else if raw.action ≠ mutateAction ∨ raw.keyHash ≠ binding.keyHash then
      .error (.receiptCorrupt "receipt identity does not match its key")
    else if raw.requestFingerprint ≠ binding.requestDigest then .error .idempotencyConflict
    else match raw.result with
      | none => .error (.receiptCorrupt "receipt result fields are invalid")
      | some result =>
        if result.workspaceId ≠ workspaceId then
          .error (.receiptCorrupt "receipt belongs to another workspace")
        else .ok result

end Receipts

/-- What planning makes of the operations on a tree. -/
structure Planned (Details : Type) where
  actions : List (TransactionAction Text)
  ready : Bool
  wouldChange : Bool
  details : Details
  /-- The details of the tree that the actions have made. -/
  detailsAfter : Tree → Except String Details

structure MutateCall (Details : Type) where
  binding : Option KeyBinding
  dryRun : Bool
  plan : Tree → Except String (Planned Details)
  validateBudget : Tree → Except String Unit

section Mutate

variable {Details : Type} (E : Engine) (codec : ReceiptCodec Details) (workspaceId : Text)

/-- The keyed replay lookup. -/
def replay : Option KeyBinding → Proc World MutateError (Option (MutateResult Details))
  | none => pure none
  | some binding => do
    match ← mapError .transaction (loadCommitReceipt (receiptName binding.keyHash)) with
    | none => pure none
    | some payload => do
      let result ← check fun _ => decodeReceipt codec workspaceId binding payload
      pure (some result)

def unchangedResult (planned : Planned Details) (dryRun : Bool) : MutateResult Details :=
  if dryRun then
    ⟨workspaceId, true, planned.ready, false, planned.wouldChange, [], none, planned.details⟩
  else ⟨workspaceId, false, true, false, false, [], none, planned.details⟩

def committedResult (planned : Planned Details) (id : Text) (changed : List Text) (t : Tree) :
    Except String (MutateResult Details) := do
  let details ← planned.detailsAfter t
  .ok ⟨workspaceId, false, true, true, true, changed, some id, details⟩

/-- `_persist_receipt_only`: a commit without actions. -/
def receiptOnly (binding : KeyBinding) (result : MutateResult Details) : CommitOptions where
  precommitValidator _ := .ok ()
  commitReceiptFactory := some fun _ _ _ =>
    .ok (receiptName binding.keyHash, encodeReceipt codec binding result)

def persistReceiptOnly (id : Text) (result : MutateResult Details) :
    Option KeyBinding → Proc World MutateError Unit
  | none => pure ()
  | some binding => do
    let _ ← mapError .transaction (commit E (receiptOnly codec binding result) id [])
    pure ()

/-- The options of the commit; the receipt holds the result on the tree that was made. -/
def mutateOptions (call : MutateCall Details) (planned : Planned Details) : CommitOptions where
  precommitValidator := call.validateBudget
  commitReceiptFactory := call.binding.map fun binding id changed t => do
    let result ← committedResult workspaceId planned id changed t
    .ok (receiptName binding.keyHash, encodeReceipt codec binding result)

def planCall (call : MutateCall Details) : Proc World MutateError (Planned Details) :=
  check fun w => (call.plan w.tree).mapError .refused

/-- `execute` under the workspace lock; `id` is the transaction id it draws. -/
def mutate (id : Text) (call : MutateCall Details) :
    Proc World MutateError (MutateResult Details) := do
  let _ ← mapError .transaction (recoverPending E)
  match ← replay codec workspaceId call.binding with
  | some result => pure result
  | none => do
    let planned ← planCall call
    if call.dryRun ∨ planned.actions = [] then do
      let result := unchangedResult workspaceId planned call.dryRun
      persistReceiptOnly E codec id result call.binding
      pure result
    else do
      let receipt ← mapError .transaction
        (commit E (mutateOptions codec workspaceId call planned) id planned.actions)
      check fun w => (committedResult workspaceId planned receipt.transactionId
        receipt.changedPaths w.tree).mapError .refused

end Mutate

end RepoForge
