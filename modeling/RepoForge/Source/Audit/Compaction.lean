import RepoForge.Library.PyDict
import RepoForge.Library.PyJson
import RepoForge.Library.Sha256

/-!
# What the audit sink writes

`record` of `adapters/audit/jsonl.py`, with `_is_compactable`, `_compaction_key` and the event of
`_append_event`, where the file system does what it is asked. `redact_data` is a parameter; the
clock and the last number in the log, which other sinks write to as well, come with the call.
-/
namespace RepoForge.AuditSink

open PyStr (lit join)

/-- A value of the details: a float by what `json.dumps` writes for it, anything that JSON lacks by
its `str` and whether it can be hashed. -/
inductive Value where
  | null
  | bool (value : Bool)
  | int (value : Int)
  | float (written : PyStr)
  | str (value : PyStr)
  | list (items : List Value)
  | dict (fields : List (PyStr × Value))
  | other (text : PyStr) (hashable : Bool)

abbrev Details := List (PyStr × Value)

inductive RecordError where
  | type
  | unicodeEncode
  deriving DecidableEq

/-- The arguments of `json.dumps`, with `sort_keys=True` and `ensure_ascii=False`. -/
structure JsonStyle where
  comma : PyStr
  colon : PyStr
  /-- `default`, where it is given -/
  default : PyStr → Option PyStr

/-- `separators=(",", ":"), default=str` -/
def JsonStyle.key : JsonStyle := ⟨lit ",", lit ":", fun text => some (Json.quote text)⟩

def JsonStyle.line : JsonStyle := ⟨lit ", ", lit ": ", fun _ => none⟩

mutual

def Value.write (style : JsonStyle) : Value → Option PyStr
  | .null => some (lit "null")
  | .bool value => some (if value then lit "true" else lit "false")
  | .int value => some (Json.ofInt value)
  | .float written => some written
  | .str value => some (Json.quote value)
  | .other text _ => style.default text
  | .list items => (writeItems style items).map fun parts =>
      lit "[" ++ join style.comma parts ++ lit "]"
  | .dict fields => (writeFields style fields).map fun parts =>
      let sorted := parts.insertionSort fun a b => a.1 ≤ b.1
      lit "\x7b" ++ join style.comma (sorted.map fun field =>
        Json.quote field.1 ++ style.colon ++ field.2) ++ lit "\x7d"

def writeItems (style : JsonStyle) : List Value → Option (List PyStr)
  | [] => some []
  | item :: rest => do
    let first ← item.write style
    let others ← writeItems style rest
    return first :: others

def writeFields (style : JsonStyle) : List (PyStr × Value) → Option (List (PyStr × PyStr))
  | [] => some []
  | (key, value) :: rest => do
    let first ← value.write style
    let others ← writeFields style rest
    return (key, first) :: others

end

/-- `encode("utf-8")` -/
def encode (s : PyStr) : Except RecordError Bytes :=
  if s.encodable then .ok (PyStr.utf8 s.replaced) else .error .unicodeEncode

def dumps (style : JsonStyle) (value : Value) : Except RecordError PyStr :=
  match value.write style with
  | some text => .ok text
  | none => .error .type

/-! ### Compaction -/

/-- `_REPO_LIST_COMPACTION_THRESHOLD` -/
def repoListCompactionThreshold : Nat := 25

/-- `_COMPACTION_VOLATILE_FIELDS` -/
def compactionVolatileFields : List PyStr :=
  [lit "correlation_id", lit "correlation_hash", lit "duration_ms", lit "result_bytes"]

def maxCompactionKeys : Nat := 1024

/-- `_compaction_key` -/
def compactionKey (action : PyStr) (details : Details) : Except RecordError Text := do
  let stable := details.filter fun field => !compactionVolatileFields.contains field.1
  let text ← dumps .key (.dict [(lit "action", .str action), (lit "details", .dict stable)])
  let encoded ← encode text
  return Sha256.hexdigest encoded

/-- `value is False` -/
def isFalse : Option Value → Bool
  | some (.bool false) => true
  | _ => false

/-- `value in {"model", "connector", "internal", "background_worker"}` -/
def isOrigin : Option Value → Except RecordError Bool
  | some (.str value) =>
    .ok ([lit "model", lit "connector", lit "internal", lit "background_worker"].contains value)
  | some (.list _) | some (.dict _) | some (.other _ false) => .error .type
  | _ => .ok false

/-- `_is_compactable` -/
def isCompactable (action : PyStr) (success : Bool) (details : Details) : Except RecordError Bool :=
  if action = lit "repo_list" ∧ success ∧ isFalse (PyDict.get details (lit "is_mutating")) then
    isOrigin (PyDict.get details (lit "origin"))
  else .ok false

/-- What is held of the calls under one key. -/
structure Compaction where
  firstTimestamp : PyStr
  lastTimestamp : PyStr
  suppressedCount : Nat

abbrev CompactionTable := List (Text × Compaction)

/-! ### Events -/

structure Summary where
  compactedAction : PyStr
  firstTimestamp : PyStr
  lastTimestamp : PyStr
  suppressedCount : Nat
  origin : Value
  sessionHash : Value
  repoId : Value
  selectionOutcome : Value

/-- The `details` of an event. -/
inductive Payload where
  | own (details : Details)
  | summary (s : Summary)
  | truncated (sha256 : Text) (originalBytes : Nat)

def Payload.value : Payload → Value
  | own details => .dict details
  | summary s => .dict [
      (lit "audit_summary", .bool true),
      (lit "compacted_action", .str s.compactedAction),
      (lit "first_timestamp", .str s.firstTimestamp),
      (lit "last_timestamp", .str s.lastTimestamp),
      (lit "suppressed_count", .int s.suppressedCount),
      (lit "origin", s.origin),
      (lit "session_hash", s.sessionHash),
      (lit "repo_id", s.repoId),
      (lit "selection_outcome", s.selectionOutcome),
      (lit "is_mutating", .bool false)]
  | truncated sha256 originalBytes => .dict [
      (lit "event_truncated", .bool true),
      (lit "event_sha256", .str (PyStr.ofText sha256)),
      (lit "original_bytes", .int originalBytes)]

structure Event where
  timestamp : PyStr
  pid : Nat
  seq : Nat
  action : PyStr
  success : Bool
  details : Payload

/-- The line of an event, newline included. -/
def Event.encoded (event : Event) : Except RecordError Bytes := do
  let text ← dumps .line (.dict [
    (lit "timestamp", .str event.timestamp),
    (lit "pid", .int event.pid),
    (lit "seq", .int event.seq),
    (lit "action", .str event.action),
    (lit "success", .bool event.success),
    (lit "details", event.details.value)])
  encode (text ++ lit "\n")

/-- A call of `record`: its arguments, what the clock says, and the number that
`_recover_last_seq` finds. -/
structure Call where
  action : PyStr
  success : Bool
  details : Details
  timestamp : PyStr
  lastSeq : Nat

/-- `self._seq` and `self._compaction` -/
structure Sink where
  seq : Nat
  compaction : CompactionTable

section Record

variable (redactData : Value → Value) (pid maxEventBytes : Nat)

def Call.safeDetails (call : Call) : Details :=
  match redactData (.dict call.details) with
  | .dict fields => fields
  | _ => []

def Call.isCompactable (call : Call) : Except RecordError Bool :=
  AuditSink.isCompactable call.action call.success (call.safeDetails redactData)

def Call.key (call : Call) : Except RecordError Text :=
  compactionKey call.action (call.safeDetails redactData)

def Call.summary (call : Call) (firstTimestamp : PyStr) (suppressedCount : Nat) : Summary where
  compactedAction := call.action
  firstTimestamp := firstTimestamp
  lastTimestamp := call.timestamp
  suppressedCount := suppressedCount
  origin := (PyDict.get (call.safeDetails redactData) (lit "origin")).getD (.str (lit "internal"))
  sessionHash := (PyDict.get (call.safeDetails redactData) (lit "session_hash")).getD .null
  repoId := (PyDict.get (call.safeDetails redactData) (lit "repo_id")).getD .null
  selectionOutcome :=
    (PyDict.get (call.safeDetails redactData) (lit "selection_outcome")).getD .null

/-- The part of `record` before the append: the table, and what to write, if anything. -/
def compact (table : CompactionTable) (call : Call) :
    Except RecordError (CompactionTable × Option Payload) := do
  if ← call.isCompactable redactData then
    let key ← call.key redactData
    match PyDict.get table key with
    | none =>
      let table := if maxCompactionKeys ≤ table.length then [] else table
      return (PyDict.assign table key ⟨call.timestamp, call.timestamp, 0⟩,
        some (.own (call.safeDetails redactData)))
    | some state =>
      let suppressedCount := state.suppressedCount + 1
      if suppressedCount < repoListCompactionThreshold then
        return (PyDict.assign table key ⟨state.firstTimestamp, call.timestamp, suppressedCount⟩, none)
      else
        return (PyDict.assign table key ⟨call.timestamp, call.timestamp, 0⟩,
          some (.summary (call.summary redactData state.firstTimestamp suppressedCount)))
  else return (table, some (.own (call.safeDetails redactData)))

/-- The event with its number, before its size is looked at. -/
def Sink.event (sink : Sink) (call : Call) (payload : Payload) : Event where
  timestamp := call.timestamp
  pid := pid
  seq := max sink.seq call.lastSeq + 1
  action := call.action
  success := call.success
  details := payload

/-- `_append_event`: what is written. -/
def appendEvent (event : Event) : Except RecordError Event := do
  let encoded ← event.encoded
  if max 1024 maxEventBytes < encoded.length then
    let short := { event with details := .truncated (Sha256.hexdigest encoded) encoded.length }
    let _ ← short.encoded
    return short
  else return event

/-- The event that is written is given back. -/
def record (sink : Sink) (call : Call) : Except RecordError (Sink × Option Event) := do
  let (table, payload) ← compact redactData sink.compaction call
  match payload with
  | none => return (⟨sink.seq, table⟩, none)
  | some payload =>
    let event ← appendEvent maxEventBytes (sink.event pid call payload)
    return (⟨event.seq, table⟩, some event)

/-- Calls one after another, none of which raises. -/
def recordAll : Sink → List Call → Except RecordError (Sink × List Event)
  | sink, [] => .ok (sink, [])
  | sink, call :: rest => do
    let (sink, event) ← record redactData pid maxEventBytes sink call
    let (sink, events) ← recordAll sink rest
    return (sink, event.toList ++ events)

end Record

end RepoForge.AuditSink
