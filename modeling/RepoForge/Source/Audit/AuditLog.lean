import Mathlib.Algebra.GroupWithZero.Nat
import Mathlib.Data.List.Basic
import Mathlib.Logic.Function.Basic
import RepoForge.Library.TextLines

/-!
# The audit log

`JsonlAuditSink` of `adapters/audit/jsonl.py`, `prune_audit_log` and `read_audit_events_since` of
`adapters/audit/query.py`. Appending and pruning hold one lock, so a call is one step; an append that
raises, or whose process dies, ends at some place on its way (`Ending`). Which calls of `record` are
left out by its compaction is open, and so are the clock and the sizes. Rotated files are read by
nothing here.
-/
namespace RepoForge.Audit

/-- The fields of an event that the readers look at; the timestamp as the instant it denotes. -/
structure AuditEvent where
  seq : Nat
  timestamp : Int
  deriving DecidableEq

/-- A line between two newlines, of so many bytes. A torn line has no event, nor has one whose text
has U+0085, U+2028 or U+2029, where `splitlines` breaks it. It is `stray` if `prune_audit_log`
raises at it: a piece of it is JSON but no object, or its bytes are no UTF-8. -/
structure Line where
  event : Option AuditEvent
  size : Nat
  stray : Bool
  deriving DecidableEq

/-- The lines, the newest first; the newest may lack its newline. -/
structure Log where
  lines : List Line
  unfinished : Bool
  deriving DecidableEq

namespace Log

def empty : Log := ⟨[], false⟩

/-- `st_size` -/
def bytes (log : Log) : Nat :=
  (log.lines.map fun line => line.size + 1).sum - if log.unfinished then 1 else 0

/-- The lines that are whole in the last so many bytes. -/
def tailOf : Nat → List Line → List Line
  | _, [] => []
  | budget, line :: older =>
    if budget < line.size + 1 then [] else line :: tailOf (budget - (line.size + 1)) older

def tail (budget : Nat) (log : Log) : List Line :=
  tailOf (budget + if log.unfinished then 1 else 0) log.lines

/-- A line appended to what is there. -/
def write (log : Log) (line : Line) (unfinished : Bool) : Log :=
  match log.unfinished, log.lines with
  | true, torn :: older =>
    ⟨⟨none, torn.size + line.size, torn.stray || line.stray⟩ :: older, unfinished⟩
  | _, lines => ⟨line :: lines, unfinished⟩

end Log

/-! ### Appending -/

/-- `_SEQ_RECOVERY_TAIL_BYTES` -/
def seqRecoveryTailBytes : Nat := 65536

/-- `_recover_last_seq` -/
def recoverLastSeq (log : Log) : Nat :=
  (((log.tail seqRecoveryTailBytes).findSome? Line.event).map AuditEvent.seq).getD 0

/-- How an append ends. -/
inductive Ending where
  /-- before the log is rotated -/
  | kept
  /-- after that, and before anything is written -/
  | moved
  /-- part of the line is written -/
  | torn (size : Nat) (stray : Bool)
  /-- all but its newline -/
  | unterminated
  | whole
  deriving DecidableEq

/-- The event is in the log. -/
def Ending.appends : Ending → Bool
  | .unterminated | .whole => true
  | _ => false

/-- What an append is given: the clock, the size of the line, whether it is one line to the readers,
and whether `prune_audit_log` raises at it. -/
structure Appending where
  timestamp : Int
  size : Nat
  oneLine : Bool
  stray : Bool
  deriving DecidableEq

/-- The sinks with `self._seq`, and the numbers of all events appended so far, the newest first. -/
structure AuditState where
  log : Log
  sinks : Nat → Option Nat
  appended : List Nat

def start : AuditState := ⟨.empty, fun _ => none, []⟩

inductive AuditLabel where
  /-- A new sink; between two steps of a rotation it finds no log. -/
  | opened (sink : Nat) (found : Bool)
  | append (sink : Nat) (given : Appending) (ending : Ending)
  | prune (before : Int)
  /-- The process of a sink ends. -/
  | closed (sink : Nat)
  deriving DecidableEq

/-- `_rotate`: the log without the lines that it moves away. -/
def rotate (maxBytes incoming : Nat) (log : Log) : Log :=
  if log.bytes + incoming ≤ maxBytes then log else .empty

/-- The next number of a sink with this counter. -/
def nextSeq (counter : Nat) (log : Log) : Nat := max counter (recoverLastSeq log) + 1

def lineOf (seq : Nat) (given : Appending) : Line where
  event := if given.oneLine then some ⟨seq, given.timestamp⟩ else none
  size := given.size
  stray := given.stray

/-- `_append_event`, as far as it comes. -/
def appendEvent (maxBytes seq : Nat) (given : Appending) (ending : Ending) (log : Log) : Log :=
  let rotated := rotate maxBytes (given.size + 1) log
  match ending with
  | .kept => log
  | .moved => rotated
  | .torn size stray => rotated.write ⟨none, size, stray⟩ true
  | .unterminated => rotated.write (lineOf seq given) true
  | .whole => rotated.write (lineOf seq given) false

/-- `prune_audit_log` -/
def prune (before : Int) (log : Log) : Log :=
  if log.lines.any Line.stray then log
  else ⟨log.lines.filter fun line => line.event.any fun event => before ≤ event.timestamp, false⟩

section Steps

variable (maxBytes : Nat)

def step (s : AuditState) : AuditLabel → AuditState
  | .opened k found =>
    { s with sinks := Function.update s.sinks k (some (if found then recoverLastSeq s.log else 0)) }
  | .append k given ending =>
    match s.sinks k with
    | none => s
    | some counter =>
      let seq := nextSeq counter s.log
      { log := appendEvent maxBytes seq given ending s.log
        sinks := Function.update s.sinks k (some seq)
        appended := if ending.appends then seq :: s.appended else s.appended }
  | .prune before => { s with log := prune before s.log }
  | .closed k => { s with sinks := Function.update s.sinks k none }

end Steps

/-! ### Reading from a cursor -/

/-- `_MAX_SCAN_BYTES` -/
def maxScanBytes : Nat := 20000000

inductive CursorPage where
  | ok (events : List Nat) (nextCursor : Nat)
  | gap (watermark nextCursor : Nat)
  deriving DecidableEq

/-- The numbers that a reader finds, oldest first. -/
def readable (log : Log) : List Nat :=
  ((log.tail maxScanBytes).filterMap fun line => line.event.map AuditEvent.seq).reverse

inductive QueryError where
  | limit
  deriving DecidableEq

/-- `read_audit_events_since` -/
def readSince (cursor limit : Nat) (log : Log) : Except QueryError CursorPage :=
  if limit = 0 ∨ 5000 < limit then .error .limit
  else
    match (readable log).min? with
    | none => .ok (.ok [] cursor)
    | some watermark =>
      if 0 < cursor ∧ cursor + 1 < watermark then .ok (.gap watermark cursor)
      else
        let matched := ((readable log).filter fun seq => cursor < seq).take limit
        .ok (.ok matched (matched.getLast?.getD cursor))

end RepoForge.Audit

/-!
## The text of the audit log

`prune_audit_log` of `adapters/audit/query.py`, over the bytes of the log, under its lock and with
a disk that does what it is asked. `json.loads`, `datetime.fromisoformat` and `repr` are
parameters.
-/
namespace RepoForge.AuditPrune
open PyStr (lit decode utf8)
open PyText

/-- What `json.loads` makes; a number that is no integer by its literal. -/
inductive Value where
  | null
  | bool (value : Bool)
  | int (value : Int)
  | float (literal : Text)
  | str (value : PyStr)
  | list (items : List Value)
  | dict (fields : List (PyStr × Value))

inductive LoadsError where
  | value
  /-- Nested deeper than the interpreter goes. -/
  | recursion

/-- A `datetime`; one with an offset is compared by its instant. -/
inductive Moment where
  | naive (micros : Int)
  | aware (instant : Int)
  deriving DecidableEq

structure Runtime where
  loads : Text → Except LoadsError Value
  /-- `none` where it raises `ValueError`. -/
  fromisoformat : PyStr → Option Moment
  fromisoformat_empty : fromisoformat (lit "") = none
  repr : PyStr → PyStr

inductive PruneError where
  | config (message : PyStr)
  | unicodeDecode
  | recursion
  | attribute (message : PyStr)
  | type (message : PyStr)

/-- `s.replace("Z", "+00:00")` -/
def zeroOffset (s : PyStr) : PyStr :=
  s.flatMap fun c => if c = .scalar 'Z' then lit "+00:00" else [c]

/-- `type(value).__name__` -/
def Value.typeName : Value → PyStr
  | null => lit "NoneType"
  | bool _ => lit "bool"
  | int _ => lit "int"
  | float _ => lit "float"
  | str _ => lit "str"
  | list _ => lit "list"
  | dict _ => lit "dict"

def noAttribute (value : Value) (name : String) : PruneError :=
  .attribute (lit "'" ++ value.typeName ++ lit "' object has no attribute '" ++ lit name ++ lit "'")

section
variable (R : Runtime) (cutoff : Int)

/-- What the loop does with a stripped line: whether it keeps it. -/
def pruneLine (line : Text) : Except PruneError Bool :=
  match R.loads line with
  | .error .value => .ok false
  | .error .recursion => .error .recursion
  | .ok (.dict fields) =>
    match (fields.lookup (lit "timestamp")).getD (.str (lit "")) with
    | .str ts =>
      match R.fromisoformat (zeroOffset ts) with
      | none => .ok false
      -- only the parsing stands under `except (ValueError, TypeError)`
      | some (.naive _) =>
        .error (.type (lit "can't compare offset-naive and offset-aware datetimes"))
      | some (.aware instant) => .ok (!decide (instant < cutoff))
    | ts => .error (noAttribute ts "replace")
  | .ok event => .error (noAttribute event "get")

def pruneLoop : List Text → List Text → Nat → Except PruneError (List Text × Nat)
  | [], kept, pruned => .ok (kept, pruned)
  | raw :: rest, kept, pruned =>
    let line := strip raw
    if line = [] then pruneLoop rest kept pruned
    else do
      if ← pruneLine R cutoff line then pruneLoop rest (kept ++ [line ++ ['\n']]) pruned
      else pruneLoop rest kept (pruned + 1)

/-- `prune_audit_log`: what it returns, and the log that it leaves. -/
def pruneAuditLog (before : PyStr) (log : Option Bytes) : Except PruneError (Nat × Option Bytes) :=
  match R.fromisoformat (zeroOffset before) with
  | none => .error (.config
      (lit "Invalid --before date " ++ R.repr before ++ lit "; expected ISO-8601"))
  | some (.naive _) => .error (.config (lit
      "--before must include a timezone offset (e.g. 2026-07-16T08:00:00+00:00)"))
  | some (.aware cutoff) =>
    match log with
    | none => .ok (0, none)
    | some content =>
      match decode content with
      | none => .error .unicodeDecode
      | some text => do
        let (kept, pruned) ← pruneLoop R cutoff (splitlines (universalNewlines text)) [] 0
        .ok (pruned, some (utf8 kept.flatten))

end

end RepoForge.AuditPrune
