import Mathlib.Algebra.Ring.Int.Defs
import Mathlib.Data.Rat.Defs
import RepoForge.Library.PyDict
import RepoForge.Library.PyStr
import RepoForge.Library.Sha256

/-!
# External-mutation ledger

Source: `adapters/persistence/json_external_mutation_ledger.py`.

Every repository has one file, named by the digest of its id. A file is what `json.loads` makes of
it; floats, and so all times, are exact numbers. The lock around a reservation makes its calls take
turns, and the disk does not fail.
-/
namespace RepoForge.Persistence.MutationLedger
open PyStr (lit firstThen utf8)

def schemaVersion : Int := 1

def maxRecords : Nat := 10000

inductive Raised where
  | configError (message : String)
  | unicodeEncodeError
  deriving DecidableEq, Repr

/-- What `json.loads` returns. -/
inductive Value where
  | null
  | bool (value : Bool)
  | int (value : Int)
  | float (value : ℚ)
  | str (value : PyStr)
  | list (items : List Value)
  | dict (fields : List (PyStr × Value))

inductive StoredFile where
  | unreadable
  | json (payload : Value)

/-- The files under the root, by the identity in their name. -/
abbrev Ledger := Text → Option StoredFile

structure LedgerEntry where
  marker : PyStr
  count : Int
  reservedAtEpoch : ℚ
  deriving DecidableEq, Repr

def validRepoId : PyStr → Bool :=
  firstThen Char.isAlphanum (fun c => c.isAlphanum || "._-".toList.contains c) 127

def validateRepoId (repoId : PyStr) : Except Raised PyStr :=
  if validRepoId repoId then .ok repoId
  else .error (.configError "external mutation ledger repo_id is invalid")

def validMarker (marker : PyStr) : Bool :=
  decide (1 ≤ marker.length ∧ marker.length ≤ 200) && marker.all fun c => decide (32 ≤ c.value)

def validateMarker (marker : PyStr) : Except Raised PyStr :=
  if validMarker marker then .ok marker
  else .error (.configError "external mutation ledger marker is invalid")

/-- `_identity`; a valid id encodes, so that nothing is replaced. -/
def identity (repoId : PyStr) : Text := Sha256.hexdigest (utf8 repoId.replaced)

/-- `value == 1`, which `True` and `1.0` are too. -/
def Value.isSchemaVersion : Value → Bool
  | .int n => n = schemaVersion
  | .float x => x = schemaVersion
  | .bool b => b
  | _ => false

/-- `float(value)` of a number that is no `bool`. -/
def Value.number : Value → Option ℚ
  | .int n => some n
  | .float x => some x
  | _ => none

def invalidEntry : Raised := .configError "external mutation ledger entry is invalid"

def readEntry : Value → Except Raised LedgerEntry
  | .dict fields =>
    match PyDict.get fields (lit "marker"), PyDict.get fields (lit "count"),
      (PyDict.get fields (lit "reserved_at_epoch")).bind Value.number with
    | some (.str marker), some (.int count), some reservedAtEpoch =>
      if count ≤ 0 then .error invalidEntry
      else (validateMarker marker).map fun marker => ⟨marker, count, reservedAtEpoch⟩
    | _, _, _ => .error invalidEntry
  | _ => .error invalidEntry

def invalidSchema : Raised := .configError "external mutation ledger schema is invalid"

def tooManyRecords : Raised := .configError "external mutation ledger exceeds its record limit"

/-- The part of `_read` after `path.is_file()`. -/
def readFile (repoId : PyStr) : StoredFile → Except Raised (List LedgerEntry)
  | .unreadable => .error (.configError "external mutation ledger is unreadable or corrupt")
  | .json (.dict payload) =>
    match PyDict.get payload (lit "schema_version"), PyDict.get payload (lit "repo_id"),
      PyDict.get payload (lit "entries") with
    | some version, some (.str owner), some (.list raws) =>
      if version.isSchemaVersion ∧ owner = repoId then
        (raws.mapM readEntry).bind fun entries =>
          if maxRecords < entries.length then .error tooManyRecords else .ok entries
      else .error invalidSchema
    | _, _, _ => .error invalidSchema
  | .json _ => .error invalidSchema

def read (ledger : Ledger) (repoId : PyStr) : Except Raised (List LedgerEntry) :=
  match ledger (identity repoId) with
  | none => .ok []
  | some file => readFile repoId file

def LedgerEntry.payload (entry : LedgerEntry) : Value :=
  .dict [(lit "marker", .str entry.marker), (lit "count", .int entry.count),
    (lit "reserved_at_epoch", .float entry.reservedAtEpoch)]

def payload (repoId : PyStr) (entries : List LedgerEntry) : Value :=
  .dict [(lit "schema_version", .int schemaVersion), (lit "repo_id", .str repoId),
    (lit "entries", .list (entries.map LedgerEntry.payload))]

/-- `_write`: the file is encoded before anything is opened. -/
def write (ledger : Ledger) (repoId : PyStr) (entries : List LedgerEntry) :
    Except Raised Unit × Ledger :=
  if entries.all fun entry => entry.marker.encodable then
    (.ok (), Function.update ledger (identity repoId) (some (.json (payload repoId entries))))
  else (.error .unicodeEncodeError, ledger)

/-- The arguments of `reserve`. -/
structure Reservation where
  repoId : PyStr
  marker : PyStr
  count : Int
  nowEpoch : ℚ
  maxInWindow : Int
  windowSeconds : Int
  deriving DecidableEq, Repr

/-- The checks before the lock is taken. -/
def checkArguments (call : Reservation) : Except Raised Unit := do
  let _ ← validateRepoId call.repoId
  let _ ← validateMarker call.marker
  if (1 ≤ call.count ∧ call.count ≤ 20) ∧ (1 ≤ call.maxInWindow ∧ call.maxInWindow ≤ 10000) ∧
      (60 ≤ call.windowSeconds ∧ call.windowSeconds ≤ 604800) then .ok ()
  else .error (.configError "external mutation ledger reservation bounds are invalid")

def Reservation.cutoff (call : Reservation) : ℚ := call.nowEpoch - call.windowSeconds

def rateLimit : Raised := .configError
  "EXTERNAL_MUTATION_RATE_LIMIT: external mutation window limit would be exceeded"

/-- What a call returns or raises, and the files it leaves. -/
def reserve (call : Reservation) (ledger : Ledger) : Except Raised Int × Ledger :=
  match checkArguments call with
  | .error e => (.error e, ledger)
  | .ok () =>
    match read ledger call.repoId with
    | .error e => (.error e, ledger)
    | .ok originalEntries =>
      let entries := originalEntries.filter fun item => decide (call.cutoff ≤ item.reservedAtEpoch)
      let current := (entries.map (·.count)).sum
      if entries.any fun item => decide (item.marker = call.marker) then
        if entries.length ≠ originalEntries.length then
          match write ledger call.repoId entries with
          | (.error e, ledger) => (.error e, ledger)
          | (.ok (), ledger) => (.ok current, ledger)
        else (.ok current, ledger)
      else if call.maxInWindow < current + call.count then (.error rateLimit, ledger)
      else
        let entries := entries ++ [⟨call.marker, call.count, call.nowEpoch⟩]
        if maxRecords < entries.length then (.error tooManyRecords, ledger)
        else
          match write ledger call.repoId entries with
          | (.error e, ledger) => (.error e, ledger)
          | (.ok (), ledger) => (.ok (current + call.count), ledger)

end RepoForge.Persistence.MutationLedger
