import RepoForge.Library.Base64
import RepoForge.Library.JsonLoads
import RepoForge.Library.Sha256

/-!
# Pages and their cursors

`_request_binding`, `_encode_cursor`, `_decode_cursor` and `paginate` of
`application/retrieval.py`. The items are of any type; what `_result_item_bytes` and
`getattr(item, "path", None)` make of one is given with it.
-/
namespace RepoForge.Retrieval
open JsonLoads (Value LoadsError)

inductive RetrievalError where
  /-- A `ValueError` of the repository's own. -/
  | value (message : String)
  /-- A `ValueError` of a library. -/
  | library
  | recursion
  | overflow
  | transportBudget (byteBudget requiredBytes itemIndex : Nat) (path : Option Text)
  deriving DecidableEq, Repr

def malformed : RetrievalError := .value "cursor is malformed"

/-- `int(value)` -/
inductive IntResult where
  | int (n : Int)
  | typeError
  | valueError
  | overflowError
  deriving DecidableEq, Repr

structure Runtime where
  /-- `json.loads` of bytes that are no ASCII text. -/
  loads : Bytes → Except LoadsError Value
  /-- `int` of a string or of a floating-point number. -/
  int : Value → IntResult
  /-- `literal == 1` -/
  isOne : Text → Bool
  /-- How deep `json.loads` goes. -/
  depth : Nat
  depth_pos : 0 < depth

/-- What a list is paginated for. The strings of a request have no lone surrogates. -/
structure Query where
  kind : Text
  scope : Text
  request : Json
  clean : request.clean = true

/-- `_request_binding` -/
def requestBinding (query : Query) : Text :=
  Sha256.hexdigest (PyStr.utf8 (PyStr.replaced (Json.dumps (.dict [
    (PyStr.lit "kind", .str (PyStr.ofText query.kind)), (PyStr.lit "request", query.request),
    (PyStr.lit "scope", .str (PyStr.ofText query.scope))]))))

section Cursors

def maxCursorChars : Nat := 4096

/-- `base64.urlsafe_b64encode(data).decode().rstrip("=")` -/
def token (data : Bytes) : Text := Base64.unpadded (Base64.encode data)

def checksum (raw : Bytes) : Text := (Sha256.hexdigest raw).take 24

def cursorPayload (binding : Text) (index : Nat) : Json :=
  .dict [(PyStr.lit "binding", .str (PyStr.ofText binding)), (PyStr.lit "index", .int index),
    (PyStr.lit "v", .int 1)]

def cursorEnvelope (raw : Bytes) : Json :=
  .dict [(PyStr.lit "checksum", .str (PyStr.ofText (checksum raw))),
    (PyStr.lit "payload", .str (PyStr.ofText (token raw)))]

/-- `_encode_cursor` -/
def encodeCursor (binding : Text) (index : Nat) : Text :=
  let raw := PyStr.utf8 (Json.dumpsAscii (cursorPayload binding index))
  token (PyStr.utf8 (Json.dumpsAscii (cursorEnvelope raw)))

variable (R : Runtime)

/-- `base64.urlsafe_b64decode(token + "=" * (-len(token) % 4))` -/
def untoken (token : Text) : Except RetrievalError Bytes :=
  match Base64.decode (Base64.padded token) with
  | none => .error .library
  | some data => .ok data

def isAscii (data : Bytes) : Bool := data.all fun b => b ≠ 0 && b < 128

/-- `json.loads`, where a `JSONDecodeError` or a `UnicodeDecodeError` is caught. -/
def loads (data : Bytes) : Except RetrievalError Value :=
  match if isAscii data then JsonLoads.loads R.depth (data.map fun b => Char.ofNat b.toNat)
    else R.loads data with
  | .ok value => .ok value
  | .error .decode => .error malformed
  | .error .value => .error .library
  | .error .recursion => .error .recursion

/-- `value[key]`, where a `KeyError` or a `TypeError` is caught. -/
def item (value : Value) (key : String) : Except RetrievalError Value :=
  match value with
  | .dict fields =>
    match fields.lookup (PyStr.lit key) with
    | some value => .ok value
    | none => .error malformed
  | _ => .error malformed

/-- `value == text` -/
def isText (value : Value) (text : Text) : Bool :=
  match value with
  | .str s => s = PyStr.ofText text
  | _ => false

/-- `value == 1` -/
def isOne : Value → Bool
  | .int n => n = 1
  | .bool b => b
  | .float literal => R.isOne literal
  | _ => false

/-- A payload token is a string of ASCII characters. -/
def tokenText : Value → Except RetrievalError Text
  | .str s => if s.encodable then .ok (PyStr.replaced s) else .error .library
  | _ => .error malformed

def toInt (value : Value) : Except RetrievalError Int :=
  match value with
  | .int n => .ok n
  | .bool b => .ok (if b then 1 else 0)
  | .null | .list _ | .dict _ => .error malformed
  | value =>
    match R.int value with
    | .int n => .ok n
    | .typeError => .error malformed
    | .valueError => .error .library
    | .overflowError => .error .overflow

/-- `_decode_cursor` -/
def decodeCursor (cursor : Option Text) (binding : Text) (total : Nat) :
    Except RetrievalError Nat :=
  match cursor with
  | none => .ok 0
  | some cursor =>
    if cursor = [] ∨ maxCursorChars < cursor.length then .error malformed
    else do
      let outer ← untoken cursor
      let envelope ← loads R outer
      let payloadToken ← item envelope "payload"
      let payloadToken ← tokenText payloadToken
      let raw ← untoken payloadToken
      let sum ← item envelope "checksum"
      if !isText sum (checksum raw) then .error (.value "checksum")
      else do
        let payload ← loads R raw
        let version ← item payload "v"
        if !isOne R version then
          .error (.value "cursor does not match the exact request or scope")
        else do
          let bound ← item payload "binding"
          if !isText bound binding then
            .error (.value "cursor does not match the exact request or scope")
          else do
            let value ← item payload "index"
            let index ← toInt R value
            if 0 ≤ index ∧ index ≤ total then .ok index.toNat
            else .error (.value "cursor contains an invalid position")

end Cursors

inductive TruncationReason where
  | resultCountLimit | resultTransportBudget
  deriving DecidableEq, Repr

structure Page (α : Type) where
  items : List α
  nextCursor : Option Text
  omittedCount : Nat
  truncated : Bool
  truncationReason : Option TruncationReason
  deriving DecidableEq

/-- `_result_item_bytes` and the path of an item. -/
structure ItemShape (α : Type) where
  bytes : α → Nat
  path : α → Option Text

section Paginate

variable {α : Type} (shape : ItemShape α) (maxItems byteBudget : Nat)

/-- The loop of `paginate` over the items from an index on: what it selects, where it stops and
why. -/
def pageFrom : Nat → List α → Nat → List α →
    Except RetrievalError (List α × Nat × Option TruncationReason)
  | index, selected, _, [] => .ok (selected, index, none)
  | index, selected, used, item :: rest =>
    if maxItems ≤ selected.length then .ok (selected, index, some .resultCountLimit)
    else if selected = [] ∧ byteBudget < shape.bytes item then
      .error (.transportBudget byteBudget (shape.bytes item) index (shape.path item))
    else if selected ≠ [] ∧ byteBudget < used + shape.bytes item then
      .ok (selected, index, some .resultTransportBudget)
    else if byteBudget ≤ used + shape.bytes item then .ok (selected ++ [item], index + 1, none)
    else pageFrom (index + 1) (selected ++ [item]) (used + shape.bytes item) rest

end Paginate

def paginate {α : Type} (R : Runtime) (shape : ItemShape α) (items : List α)
    (query : Query) (maxItems byteBudget : Int) (cursor : Option Text) :
    Except RetrievalError (Page α) :=
  if ¬ (1 ≤ maxItems ∧ maxItems ≤ 2000) then
    .error (.value "max_items must be between 1 and 2000")
  else if ¬ (1 ≤ byteBudget ∧ byteBudget ≤ 120000) then
    .error (.value "byte_budget must be between 1 and 120000")
  else do
    let binding := requestBinding query
    let start ← decodeCursor R cursor binding items.length
    let (selected, index, reason) ←
      pageFrom shape maxItems.toNat byteBudget.toNat start [] 0 (items.drop start)
    let nextCursor := if index < items.length then some (encodeCursor binding index) else none
    .ok {
      items := selected
      nextCursor := nextCursor
      omittedCount := items.length - index
      truncated := nextCursor.isSome
      truncationReason := if nextCursor.isSome then reason else none }

end RepoForge.Retrieval
