import RepoForge.Library.PurePath
import RepoForge.Library.Regex
import RepoForge.Source.Retrieval.Pagination

/-!
# Searches, page by page and whole

`_search_path_matches`, `search_page` and `search_files` of `application/retrieval.py`. Regular
expressions, `casefold`, the files and the size of a match as JSON are parameters. The monotonic
clock is read once for each file, so a run is given the indices at which the deadline has passed.
-/
namespace RepoForge.Retrieval
open PyStr (lit)
open Regex (Pattern)

inductive SearchMode where
  | literal | regex | fileName
  deriving DecidableEq

def SearchMode.value : SearchMode → PyStr
  | literal => lit "literal"
  | regex => lit "regex"
  | fileName => lit "file_name"

/-- The name of the builtin provider. -/
def SearchMode.provider : SearchMode → String
  | literal => "builtin_literal"
  | regex => "builtin_regex"
  | fileName => "builtin_file_name"

structure StructuredSearchMatch where
  path : PyStr
  line : Option Nat
  column : Option Nat
  matched : PyStr
  contextBefore : List PyStr
  contextAfter : List PyStr
  /-- In tenths. -/
  score : Nat
  provider : String
  deriving DecidableEq

inductive SearchError where
  | cursor (error : RetrievalError)
  | value (message : String)
  | security (message : String)
  /-- `UnicodeEncodeError` -/
  | notEncodable
  | deadlineExceeded (scannedPathCount : Nat)
  | transportBudget (byteBudget requiredBytes itemIndex : Nat) (path : PyStr)
  deriving DecidableEq

structure SearchRuntime extends Runtime where
  casefold : PyStr → PyStr
  /-- `re.compile` does not raise. -/
  compiles : PyStr → Bool
  /-- The start and the text of each match of a regular expression in a line. -/
  regexMatches : PyStr → PyStr → List (Nat × PyStr)
  /-- `load_text` -/
  loadText : PyStr → Option PyStr
  /-- `_result_item_bytes` -/
  itemBytes : StructuredSearchMatch → Nat

/-- What is looked for, and where. -/
structure SearchRequest where
  paths : List PyStr
  query : PyStr
  mode : SearchMode
  pathGlob : Option PyStr
  contextLines : Int

section Guards

def isChar (c : Char) (d : CodePoint) : Bool := d = .scalar c

def inside (letters : String) (d : CodePoint) : Bool := d.within letters.toList.contains

/-- `_UNSAFE_REGEX` -/
def unsafeRegex : List (Pattern CodePoint) :=
  [.sequence [.one (isChar '\\'), .one (inside "123456789")],
    .sequence [.one (isChar '('), .one (isChar '?'), .one (isChar '<')],
    .sequence [.one (isChar '('), .star (!isChar ')' ·), .one (inside "+*"), .star (!isChar ')' ·),
      .one (isChar ')'), .one (inside "+*\x7b")],
    .sequence [.one (isChar '.'), .one (isChar '*'), .star (!isChar '\n' ·), .one (isChar '.'),
      .one (isChar '*')]]

def validatePathGlob : Option PyStr → Except SearchError Unit
  | none => .ok ()
  | some glob =>
    if glob.head?.any (inside "/-:") ∨ PurePath.dots ∈ PurePath.parts glob ∨
        glob.any (fun c => c.value < 32) then .error (.security "Unsafe path_glob")
    else .ok ()

variable (S : SearchRuntime)

def validateRegex (query : PyStr) : Except SearchError Unit :=
  if 500 < query.length ∨ unsafeRegex.any (fun guard => (Regex.finditer guard query).length ≠ 0) then
    .error (.security "unsafe regex pattern rejected by the bounded search guard")
  else if !S.compiles query then
    -- the message of `re.error` follows
    .error (.value "Invalid regex: ")
  else .ok ()

/-- The checks that both searches begin with. -/
def checkQuery (request : SearchRequest) : Except SearchError Unit :=
  if request.query = [] ∨ .scalar '\x00' ∈ request.query then
    .error (.value "query must be non-empty and cannot contain NUL")
  else if ¬ (0 ≤ request.contextLines ∧ request.contextLines ≤ 5) then
    .error (.value "context_lines must be between 0 and 5")
  else .ok ()

/-- The checks that both make before they compile the query. -/
def checkPatterns (request : SearchRequest) : Except SearchError Unit := do
  validatePathGlob request.pathGlob
  if request.mode = .regex then validateRegex S request.query

end Guards

section Matches

variable (S : SearchRuntime) (request : SearchRequest)

/-- `PurePosixPath(path).match(path_glob)`, if there is a glob. -/
def chosen (path : PyStr) : Except SearchError Bool :=
  match request.pathGlob with
  | none => .ok true
  | some glob =>
    match PurePath.match path glob with
    | some fits => .ok fits
    | none => .error (.value "empty pattern")

def splitlines (text : PyStr) : List PyStr :=
  (PyStr.linesKept text).map fun line => line.rdropWhile (CodePoint.within PyText.isLineBreak)

/-- Where `find` finds a query that is not empty, each time after the end of the last place;
`skip` code points more belong to that. -/
def occurrencesFrom (query : PyStr) : Nat → Nat → PyStr → List Nat
  | _, _, [] => []
  | skip + 1, index, _ :: rest => occurrencesFrom query skip (index + 1) rest
  | 0, index, c :: rest =>
    if query.isPrefixOf (c :: rest) then
      index :: occurrencesFrom query (query.length - 1) (index + 1) rest
    else occurrencesFrom query 0 (index + 1) rest

/-- The matches in one line. -/
def starts (line : PyStr) : List (Nat × PyStr) :=
  if request.mode = .regex then S.regexMatches request.query line
  else (occurrencesFrom request.query 0 0 line).map fun found => (found, request.query)

/-- The matches in one file; `cut` is what is done to a line of context. -/
def fileMatches (cut : PyStr → PyStr) (path : PyStr) : List StructuredSearchMatch :=
  if request.mode = .fileName then
    if PyStr.contains (S.casefold path) (S.casefold request.query) then
      [⟨path, none, none, path, [], [], 10, request.mode.provider⟩]
    else []
  else match S.loadText path with
    | none => []
    | some text =>
      let lines := splitlines text
      let context := request.contextLines.toNat
      lines.zipIdx.flatMap fun (line, index) =>
        ((starts S request line).filter fun start => start.2 ≠ []).map fun (column, matched) =>
          { path := path
            line := some (index + 1)
            column := some (column + 1)
            matched := matched.take 4000
            contextBefore := ((lines.take index).drop (index - context)).map cut
            contextAfter := ((lines.drop (index + 1)).take context).map cut
            score := if request.mode = .regex then 9 else 10
            provider := request.mode.provider }

/-- `_search_path_matches` -/
def searchPathMatches (path : PyStr) : List StructuredSearchMatch :=
  fileMatches S request (·.take 4000) path

/-- The loop of `search_files`; `searched` files have been searched. -/
def searchFilesFrom (expired : Nat → Bool) (searched : Nat) (found : List StructuredSearchMatch) :
    List PyStr → Except SearchError (List StructuredSearchMatch)
  | [] => .ok found
  | path :: rest => do
    let fits ← chosen request path
    if !fits then searchFilesFrom expired searched found rest
    else if expired searched then
      .error (.deadlineExceeded (found.map (·.path)).dedup.length)
    else searchFilesFrom expired (searched + 1) (found ++ fileMatches S request id path) rest

/-- `search_files` -/
def searchFiles (expired : Nat → Bool) : Except SearchError (List StructuredSearchMatch) := do
  checkQuery request
  checkPatterns S request
  searchFilesFrom S request expired 0 [] (request.paths.insertionSort (· ≤ ·))

/-- The candidates of `search_page`. -/
def candidatesFrom : List PyStr → Except SearchError (List PyStr)
  | [] => .ok []
  | path :: rest => do
    let fits ← chosen request path
    let others ← candidatesFrom rest
    .ok (if fits then path :: others else others)

end Matches

section SearchCursors

structure SearchCursorState where
  pathIndex : Nat
  matchIndex : Nat
  deriving DecidableEq, Repr

def searchCursorPrefix : Text := "search-v1:".toList

def searchPayload (binding : Text) (state : SearchCursorState) : Json :=
  .dict [(lit "binding", .str (PyStr.ofText binding)), (lit "match_index", .int state.matchIndex),
    (lit "path_index", .int state.pathIndex), (lit "v", .int 1)]

/-- `_encode_search_cursor` -/
def encodeSearchCursor (binding : Text) (state : SearchCursorState) : Text :=
  let raw := PyStr.utf8 (Json.dumpsAscii (searchPayload binding state))
  searchCursorPrefix ++ token (PyStr.utf8 (Json.dumpsAscii (cursorEnvelope raw)))

variable (R : Runtime)

/-- `_decode_search_cursor` -/
def decodeSearchCursor (cursor : Option Text) (binding : Text) (totalPaths : Nat) :
    Except RetrievalError SearchCursorState :=
  match cursor with
  | none => .ok ⟨0, 0⟩
  | some cursor =>
    if !searchCursorPrefix.isPrefixOf cursor ∨ maxCursorChars < cursor.length then .error malformed
    else do
      let outer ← untoken (cursor.drop searchCursorPrefix.length)
      let envelope ← loads R outer
      let payloadToken ← item envelope "payload"
      let payloadToken ← tokenText payloadToken
      let raw ← untoken payloadToken
      let sum ← item envelope "checksum"
      if !isText sum (checksum raw) then .error (.value "checksum")
      else do
        let payload ← loads R raw
        let version ← item payload "v"
        if !isOne R version then
          .error (.value "cursor does not match the exact request or scope")
        else do
          let bound ← item payload "binding"
          if !isText bound binding then
            .error (.value "cursor does not match the exact request or scope")
          else do
            let pathValue ← item payload "path_index"
            let pathIndex ← toInt R pathValue
            let matchValue ← item payload "match_index"
            let matchIndex ← toInt R matchValue
            if ¬ (0 ≤ pathIndex ∧ pathIndex ≤ totalPaths) ∨ matchIndex < 0 then
              .error (.value "cursor contains an invalid position")
            else if pathIndex = totalPaths ∧ matchIndex ≠ 0 then
              .error (.value "cursor contains an invalid position")
            else .ok ⟨pathIndex.toNat, matchIndex.toNat⟩

end SearchCursors

section Scanning

inductive SearchTruncation where
  | deadlineExceeded | resultCountLimit | resultTransportBudget | sourceLimit
  deriving DecidableEq

/-- Where a scan stopped, and why. -/
structure ScanStop where
  state : SearchCursorState
  reason : SearchTruncation
  omittedCount : Nat

structure Scan where
  selected : List StructuredSearchMatch
  stop : Option ScanStop
  scannedPathCount : Nat
  /-- A file was searched. -/
  searched : Bool

variable (S : SearchRuntime) (maxResults byteBudget : Nat)

/-- The inner loop of `search_page`, over the matches of one file from an index on. -/
def scanMatches (path : PyStr) (selected : List StructuredSearchMatch) (used index : Nat) :
    List StructuredSearchMatch →
    Except SearchError (List StructuredSearchMatch × Nat × Option (Nat × SearchTruncation))
  | [] => .ok (selected, used, none)
  | item :: rest =>
    if selected = [] ∧ byteBudget < S.itemBytes item then
      .error (.transportBudget byteBudget (S.itemBytes item) index path)
    else if maxResults ≤ selected.length then .ok (selected, used, some (index, .resultCountLimit))
    else if selected ≠ [] ∧ byteBudget < used + S.itemBytes item then
      .ok (selected, used, some (index, .resultTransportBudget))
    else scanMatches path (selected ++ [item]) (used + S.itemBytes item) (index + 1) rest

/-- The outer loop, over the candidates from an index on. -/
def scanPaths (matchesOf : PyStr → List StructuredSearchMatch) (expired : Nat → Bool)
    (searched : Bool) (selected : List StructuredSearchMatch) (used : Nat)
    (state : SearchCursorState) : List PyStr → Except SearchError Scan
  | [] => .ok ⟨selected, none, state.pathIndex, searched⟩
  | path :: rest =>
    if expired state.pathIndex then
      .ok ⟨selected, some ⟨state, .deadlineExceeded, 0⟩, state.pathIndex, searched⟩
    else do
      let matched := matchesOf path
      let (selected, used, stop) ← scanMatches S maxResults byteBudget path selected used
        state.matchIndex (matched.drop state.matchIndex)
      match stop with
      | some (index, reason) =>
        .ok ⟨selected, some ⟨⟨state.pathIndex, index⟩, reason, matched.length - index⟩,
          state.pathIndex + 1, true⟩
      | none => scanPaths matchesOf expired true selected used ⟨state.pathIndex + 1, 0⟩ rest

end Scanning

structure SearchPage where
  found : List StructuredSearchMatch
  nextCursor : Option Text
  omittedCount : Nat
  sourceTruncated : Bool
  truncationReason : Option SearchTruncation
  scannedPathCount : Nat
  candidatePathCount : Nat
  remainingPathCount : Nat
  completedProviders : List String
  recommendedScope : Option String

def recommendation : SearchTruncation → String
  | .deadlineExceeded => "Resume with next_cursor; for faster completion, narrow path_glob without " ++
      "changing the query or search mode."
  | .sourceLimit => "Narrow path_glob because the source path listing reached its bound."
  | _ => "Resume with next_cursor to continue the exact bound search."

/-- The limits of one page, and where its deadline has passed. -/
structure PageLimits where
  maxResults : Int
  byteBudget : Int
  expired : Nat → Bool

/-- The scope that a search is bound to. -/
structure SearchScope where
  kind : Text
  scope : Text
  sourceTruncated : Bool

section SearchPages

variable (S : SearchRuntime) (scope : SearchScope) (request : SearchRequest)

def requestJson : Json :=
  .dict [(lit "context_lines", .int request.contextLines), (lit "mode", .str request.mode.value),
    (lit "path_glob", Json.optional request.pathGlob), (lit "query", .str request.query)]

/-- The binding of the cursors, if the request can be encoded. -/
def searchBinding : Except SearchError Text :=
  if clean : (requestJson request).clean = true then
    .ok (requestBinding ⟨scope.kind, scope.scope, requestJson request, clean⟩)
  else .error .notEncodable

/-- What is returned for a scan. -/
def scannedPage (binding : Text) (candidates : Nat) (scan : Scan) : SearchPage :=
  let reason := match scan.stop with
    | some stop => some stop.reason
    | none => if scope.sourceTruncated then some .sourceLimit else none
  { found := scan.selected
    nextCursor := scan.stop.map fun stop => encodeSearchCursor binding stop.state
    omittedCount := scan.stop.elim 0 (·.omittedCount)
    sourceTruncated := scope.sourceTruncated || decide (reason = some .deadlineExceeded)
    truncationReason := reason
    scannedPathCount := scan.scannedPathCount
    candidatePathCount := candidates
    remainingPathCount := scan.stop.elim 0 fun stop => candidates - stop.state.pathIndex
    completedProviders := if scan.searched then [request.mode.provider] else []
    recommendedScope := reason.map recommendation }

/-- `search_page` -/
def searchPage (limits : PageLimits) (cursor : Option Text) : Except SearchError SearchPage := do
  checkQuery request
  if ¬ (1 ≤ limits.maxResults ∧ limits.maxResults ≤ 200) then
    throw (.value "max_results must be between 1 and 200")
  if ¬ (1 ≤ limits.byteBudget ∧ limits.byteBudget ≤ 120000) then
    throw (.value "byte_budget must be between 1 and 120000")
  checkPatterns S request
  let candidates ← candidatesFrom request (PyStr.sortedDistinct request.paths)
  let binding ← searchBinding scope request
  let state ← (decodeSearchCursor S.toRuntime cursor binding candidates.length).mapError .cursor
  let scan ← scanPaths S limits.maxResults.toNat limits.byteBudget.toNat
    (searchPathMatches S request) limits.expired false [] 0 state (candidates.drop state.pathIndex)
  return scannedPage scope request binding candidates.length scan

end SearchPages

end RepoForge.Retrieval
