import Mathlib.Data.List.AList
import Mathlib.Data.List.Sort
import RepoForge.Library.PyText
import RepoForge.Library.Runs

/-!
# JSON state repositories

Source: `adapters/persistence/json_state_repository.py` and the listing of
`json_state_file_store.py`.

A collection is a directory with one file for each record. Every change of a record holds
its lock from the first read to the write, and a write replaces the file in one rename: a
call here is one step. The bytes of a file are kept as what `_decode` makes of them, a
record or an error; `encodes` stands for `_encode` and the size bound. The schema version of
the envelope is the constant of its codec.
-/
namespace RepoForge

inductive StateError where
  | invalid
  | alreadyExists
  | notFound
  | stale (expected current : Nat)
  | corrupt
  | schemaUnsupported
  | tooLarge
  | persistenceFailed
  deriving DecidableEq, Repr

def StateError.code : StateError → String
  | invalid => "STATE_INVALID"
  | alreadyExists => "ALREADY_EXISTS"
  | notFound => "STATE_NOT_FOUND"
  | stale _ _ => "STATE_STALE"
  | corrupt => "STATE_CORRUPT"
  | schemaUnsupported => "STATE_SCHEMA_UNSUPPORTED"
  | tooLarge => "STATE_TOO_LARGE"
  | persistenceFailed => "STATE_PERSISTENCE_FAILED"

structure StateEnvelope (V : Type) where
  recordId : Text
  revision : Nat
  value : V
  deriving DecidableEq, Repr

/-- A record file as it is read. -/
inductive Stored (V : Type) where
  | readable (revision : Nat) (value : V)
  | unreadable (error : StateError)
  deriving DecidableEq, Repr

structure StateCodec (V : Type) where
  /-- The id validator of the collection and the checks of `record_id`. -/
  recordId : Text → Bool
  /-- Whether the record with this revision is JSON within the size bound. -/
  encodes : Nat → V → Except StateError Unit

abbrev Collection (V : Type) := AList fun _ : Text => Stored V

variable {V : Type}

namespace Repository

section Records

variable (codec : StateCodec V) (id : Text)

def checkId : Except StateError Unit :=
  if codec.recordId id then .ok () else .error .invalid

def read (c : Collection V) : Except StateError (Option (StateEnvelope V)) := do
  checkId codec id
  match c.lookup id with
  | none => .ok none
  | some (.unreadable error) => .error error
  | some (.readable revision value) => .ok (some ⟨id, revision, value⟩)

def create (value : V) (c : Collection V) : Except StateError (StateEnvelope V × Collection V) := do
  checkId codec id
  codec.encodes 1 value
  if id ∈ c then .error .alreadyExists
  else .ok (⟨id, 1, value⟩, c.insert id (.readable 1 value))

def createOrReadEqual [DecidableEq V] (value : V) (c : Collection V) :
    Except StateError (StateEnvelope V × Collection V) := do
  checkId codec id
  codec.encodes 1 value
  match ← read codec id c with
  | some current => if current.value = value then .ok (current, c) else .error .alreadyExists
  | none => .ok (⟨id, 1, value⟩, c.insert id (.readable 1 value))

def save (value : V) (expectedRevision : Nat) (c : Collection V) :
    Except StateError (StateEnvelope V × Collection V) := do
  match ← read codec id c with
  | none => .error .notFound
  | some current =>
    if current.revision ≠ expectedRevision then .error (.stale expectedRevision current.revision)
    else do
      codec.encodes (current.revision + 1) value
      .ok (⟨id, current.revision + 1, value⟩, c.insert id (.readable (current.revision + 1) value))

def delete (c : Collection V) : Except StateError (Collection V) := do
  checkId codec id
  .ok (c.erase id)

def deleteIfRevision (expectedRevision : Nat) (c : Collection V) :
    Except StateError (Bool × Collection V) := do
  match ← read codec id c with
  | none => .ok (false, c)
  | some current =>
    if current.revision ≠ expectedRevision then .ok (false, c) else .ok (true, c.erase id)

def compareAndDelete [DecidableEq V] (expectedRevision : Nat) (expectedValue : V)
    (c : Collection V) : Except StateError (Bool × Collection V) := do
  match ← read codec id c with
  | none => .ok (false, c)
  | some current =>
    if current.revision ≠ expectedRevision ∨ current.value ≠ expectedValue then .ok (false, c)
    else .ok (true, c.erase id)

end Records

section Listing

def fileName (id : Text) : Text := id ++ ['.', 'j', 's', 'o', 'n']

/-- The stems of `sorted(root.glob("*.json"))`. -/
def sortedIds (c : Collection V) : List Text :=
  c.keys.insertionSort fun a b => fileName a ≤ fileName b

def listIds (maxRecords offset : Nat) (c : Collection V) : List Text × Bool :=
  (((sortedIds c).drop offset).take maxRecords, offset + maxRecords < (sortedIds c).length)

end Listing

end Repository

/-- The calls that clients make on one record. -/
inductive RepositoryRequest (V : Type) where
  | create (value : V)
  | createOrReadEqual (value : V)
  | read
  | save (value : V) (expectedRevision : Nat)
  | delete
  | deleteIfRevision (expectedRevision : Nat)
  | compareAndDelete (expectedRevision : Nat) (expectedValue : V)
  deriving DecidableEq, Repr

inductive RepositoryReply (V : Type) where
  | envelope (found : StateEnvelope V)
  | missing
  | done
  | deleted (removed : Bool)
  deriving DecidableEq, Repr

structure ClientCall (V : Type) where
  client : Nat
  recordId : Text
  request : RepositoryRequest V
  deriving DecidableEq, Repr

namespace Repository

variable [DecidableEq V] (codec : StateCodec V)

def perform (x : ClientCall V) (c : Collection V) :
    Except StateError (RepositoryReply V × Collection V) :=
  match x.request with
  | .create value => do
    let (envelope, c') ← create codec x.recordId value c
    .ok (.envelope envelope, c')
  | .createOrReadEqual value => do
    let (envelope, c') ← createOrReadEqual codec x.recordId value c
    .ok (.envelope envelope, c')
  | .read => do
    match ← read codec x.recordId c with
    | none => .ok (.missing, c)
    | some envelope => .ok (.envelope envelope, c)
  | .save value expected => do
    let (envelope, c') ← save codec x.recordId value expected c
    .ok (.envelope envelope, c')
  | .delete => do
    let c' ← delete codec x.recordId c
    .ok (.done, c')
  | .deleteIfRevision expected => do
    let (removed, c') ← deleteIfRevision codec x.recordId expected c
    .ok (.deleted removed, c')
  | .compareAndDelete expected value => do
    let (removed, c') ← compareAndDelete codec x.recordId expected value c
    .ok (.deleted removed, c')

/-- A call that raises leaves the collection alone. -/
def step (c : Collection V) (x : ClientCall V) : Collection V :=
  match perform codec x c with
  | .ok (_, c') => c'
  | .error _ => c

/-- The collection after some calls, in any interleaving of the clients. -/
def run (c : Collection V) (calls : List (ClientCall V)) : Collection V :=
  Runs.run (step codec) c calls

end Repository

end RepoForge
