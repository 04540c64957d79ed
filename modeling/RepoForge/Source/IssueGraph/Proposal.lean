import RepoForge.Library.Topological
import RepoForge.Library.PyJson
import RepoForge.Library.SortedListing

/-!
# Issue-graph proposals

`domain/issue_graph_proposal.py`: the draft of a desired issue graph, `_validate_graph`,
`_live_delta` and `_topological_nodes`. What is refused where it is constructed is not a value
here. SHA-256, `casefold`, the timestamps of `datetime`, `json.loads` and `str` of what is no
string are parameters.
-/
namespace RepoForge.IssueGraph
open PyStr (lit firstThen isHex sortedDistinct)
open Json (optional texts)

structure Runtime where
  /-- `hashlib.sha256(data).hexdigest()` -/
  sha256 : Bytes → Text
  casefold : PyStr → PyStr
  /-- `datetime.fromisoformat`: `none` where it raises, `some none` without a time zone, else the
  instant in microseconds. -/
  fromisoformat : PyStr → Option (Option Int)
  /-- `json.loads`, `none` where it raises. -/
  loads : PyStr → Option Json
  /-- `str` of a value that is no string. -/
  str : Json → PyStr

structure IssueGraphFinding where
  code : PyStr
  path : PyStr
  message : PyStr
  deriving DecidableEq

/-- What is raised. -/
inductive ProposalError where
  /-- `_proposal_error`, with the code `PROPOSAL_BLOCKED`. -/
  | blocked (findings : List IssueGraphFinding)
  /-- `ValueError`, and `UnicodeEncodeError` under it. -/
  | value (message : String)
  | keyError (key : String)
  deriving DecidableEq

def require (condition : Prop) [Decidable condition] (message : String) :
    Except ProposalError Unit :=
  if condition then .ok () else .error (.value message)

/-- `^[A-Za-z0-9][A-Za-z0-9._-]{0,79}$` -/
def isSafeRef : PyStr → Bool :=
  firstThen Char.isAlphanum (fun c => c.isAlphanum || "._-".toList.contains c) 79

/-- `^(?:[a-f0-9]{40}|[a-f0-9]{64})$` -/
def isGitSha (s : PyStr) : Bool := isHex 40 s || isHex 64 s

def managedMarker (clientRef : PyStr) : PyStr :=
  lit "<!-- repoforge-issue:" ++ clientRef ++ lit " -->"

/-- The group of `_MANAGED_MARKER.fullmatch`. -/
def matchMarker (s : PyStr) : Option PyStr :=
  let ref := ((s.drop (lit "<!-- repoforge-issue:").length).reverse.drop (lit " -->").length).reverse
  if s = managedMarker ref ∧ isSafeRef ref = true then some ref else none

/-! ### Drafts -/

inductive IssueEdgeKind where
  | blockedBy
  | relates
  | supersedes
  deriving DecidableEq

def IssueEdgeKind.value : IssueEdgeKind → PyStr
  | blockedBy => lit "blocked_by"
  | relates => lit "relates"
  | supersedes => lit "supersedes"

/-- The kinds that order their ends. -/
def IssueEdgeKind.directed : IssueEdgeKind → Bool
  | blockedBy | supersedes => true
  | relates => false

structure NodeFields where
  clientRef : PyStr
  title : PyStr
  ticketType : PyStr
  priority : PyStr
  status : PyStr
  parentRef : Option PyStr
  body : PyStr
  deriving DecidableEq

/-- `IssueNodeDraft.__post_init__` -/
def NodeFields.postInit (node : NodeFields) : Except ProposalError Unit := do
  require (isSafeRef node.clientRef = true) "client_ref is invalid"
  require (node.title.strip ≠ [] ∧ node.title.length ≤ 1000) "issue title is invalid"
  require (node.ticketType ∈ [lit "program", lit "epic", lit "task"]) "ticket_type is invalid"
  require (node.priority ∈ [lit "p0", lit "p1", lit "p2", lit "p3"]) "priority is invalid"
  require (node.status ∈
    [lit "planned", lit "ready", lit "in_progress", lit "blocked", lit "done"]) "status is invalid"
  require (∀ ref ∈ node.parentRef, isSafeRef ref = true) "parent_ref is invalid"
  require (node.body ≠ [] ∧ node.body.encodable = true ∧
    (PyStr.utf8 node.body.replaced).length ≤ 20000) "issue body is invalid"

structure IssueNodeDraft extends NodeFields where
  constructed : toNodeFields.postInit = .ok ()
  deriving DecidableEq

structure EdgeFields where
  sourceRef : PyStr
  targetRef : PyStr
  kind : IssueEdgeKind
  deriving DecidableEq

/-- `IssueEdgeDraft.__post_init__` -/
def EdgeFields.postInit (edge : EdgeFields) : Except ProposalError Unit :=
  require (isSafeRef edge.sourceRef = true ∧ isSafeRef edge.targetRef = true)
    "issue edge reference is invalid"

structure IssueEdgeDraft extends EdgeFields where
  constructed : toEdgeFields.postInit = .ok ()
  deriving DecidableEq

structure DraftFields where
  repoId : PyStr
  rootRef : PyStr
  nodes : List IssueNodeDraft
  edges : List IssueEdgeDraft
  deriving DecidableEq

/-- `IssueGraphDraft.__post_init__` -/
def DraftFields.postInit (draft : DraftFields) : Except ProposalError Unit := do
  require (isSafeRef draft.repoId = true) "repo_id is invalid"
  require (isSafeRef draft.rootRef = true) "root_ref is invalid"
  require (draft.nodes ≠ [] ∧ draft.nodes.length ≤ 100) "issue graph node count is invalid"
  require (draft.edges.length ≤ 500) "issue graph edge count is invalid"

structure IssueGraphDraft extends DraftFields where
  constructed : toDraftFields.postInit = .ok ()
  deriving DecidableEq

structure IdentityFields where
  repoId : PyStr
  repositoryFingerprint : PyStr
  baseCommitSha : PyStr
  liveSnapshotSha256 : PyStr
  activeGeneration : Int
  toolSurfaceHash : PyStr
  inputContractDigest : PyStr
  outputContractDigest : PyStr
  templateVersion : Int
  schemaVersion : Int
  deriving DecidableEq

/-- `IssueGraphIdentity.__post_init__` -/
def IdentityFields.postInit (identity : IdentityFields) : Except ProposalError Unit := do
  require (isSafeRef identity.repoId = true) "identity repo_id is invalid"
  require (isHex 64 identity.repositoryFingerprint = true)
    "identity repository_fingerprint must be a lowercase SHA-256"
  require (isHex 64 identity.liveSnapshotSha256 = true)
    "identity live_snapshot_sha256 must be a lowercase SHA-256"
  require (isHex 64 identity.toolSurfaceHash = true)
    "identity tool_surface_hash must be a lowercase SHA-256"
  require (isHex 64 identity.inputContractDigest = true)
    "identity input_contract_digest must be a lowercase SHA-256"
  require (isHex 64 identity.outputContractDigest = true)
    "identity output_contract_digest must be a lowercase SHA-256"
  require (isGitSha identity.baseCommitSha = true) "identity base_commit_sha is invalid"
  require (0 < identity.activeGeneration ∧ 0 < identity.templateVersion ∧
    0 < identity.schemaVersion) "identity versions must be positive"

structure IssueGraphIdentity extends IdentityFields where
  constructed : toIdentityFields.postInit = .ok ()
  deriving DecidableEq

structure CandidateFields where
  issueNumber : Int
  title : PyStr
  managedMarker : Option PyStr
  deriving DecidableEq

/-- `LiveIssueCandidate.__post_init__` -/
def CandidateFields.postInit (issue : CandidateFields) : Except ProposalError Unit := do
  require (0 < issue.issueNumber) "live issue number must be positive"
  require (issue.title ≠ [] ∧ issue.title.length ≤ 1000) "live issue title is invalid"
  require (∀ marker ∈ issue.managedMarker, marker.length ≤ 160) "managed marker is invalid"

structure LiveIssueCandidate extends CandidateFields where
  constructed : toCandidateFields.postInit = .ok ()
  deriving DecidableEq

/-! ### Findings -/

/-- `repr` of a reference, which has neither quotes nor escapes. -/
def quoted (ref : PyStr) : PyStr := lit "'" ++ ref ++ lit "'"

def indexed (list : String) (index : Nat) (field : String) : PyStr :=
  lit list ++ lit "[" ++ PyStr.ofNat index ++ lit "]" ++ lit field

def findingKey (finding : IssueGraphFinding) : PyStr ×ₗ PyStr ×ₗ PyStr :=
  toLex (finding.code, toLex (finding.path, finding.message))

def refs (draft : IssueGraphDraft) : List PyStr := draft.nodes.map (·.clientRef)

/-- `by_ref.get(ref)`: of several nodes with the same reference, the last. -/
def byRef (draft : IssueGraphDraft) (ref : PyStr) : Option IssueNodeDraft :=
  draft.nodes.reverse.find? fun node => node.clientRef = ref

def nodeFindings (draft : IssueGraphDraft) (node : IssueNodeDraft) (index : Nat) :
    List IssueGraphFinding :=
  let missing := [lit "## Objective", lit "## Acceptance criteria"].filter
    fun heading => !node.body.contains heading
  (if node.clientRef ∈ (draft.nodes.take index).map (·.clientRef) then
    [⟨lit "DUPLICATE_CLIENT_REF", indexed "nodes" index ".client_ref",
      lit "client_ref " ++ quoted node.clientRef ++ lit " is repeated"⟩] else []) ++
  if missing ≠ [] then
    [⟨lit "REQUIRED_SECTION_MISSING", indexed "nodes" index ".body",
      lit "missing required sections: " ++ PyStr.join (lit ", ") missing⟩] else []

def rootFindings (draft : IssueGraphDraft) : List IssueGraphFinding :=
  if draft.rootRef ∉ refs draft then
    [⟨lit "ROOT_NOT_FOUND", lit "root_ref", lit "root_ref does not resolve to a node"⟩] else []

def parentFindings (draft : IssueGraphDraft) (node : IssueNodeDraft) (index : Nat) :
    List IssueGraphFinding :=
  (match node.parentRef with
    | some parent =>
      if parent ∉ refs draft then
        [⟨lit "UNKNOWN_PARENT", indexed "nodes" index ".parent_ref",
          lit "parent " ++ quoted parent ++ lit " does not resolve"⟩] else []
    | none => []) ++
  if node.clientRef = draft.rootRef ∧ node.parentRef ≠ none then
    [⟨lit "ROOT_HAS_PARENT", indexed "nodes" index ".parent_ref", lit "root cannot have a parent"⟩]
  else []

def edgeKey (edge : IssueEdgeDraft) : PyStr × PyStr × IssueEdgeKind :=
  (edge.sourceRef, edge.targetRef, edge.kind)

def unresolved (draft : IssueGraphDraft) (index : Nat) (field : String) (ref : PyStr) :
    List IssueGraphFinding :=
  if ref ∉ refs draft then
    [⟨lit "UNRESOLVED_REFERENCE", indexed "edges" index ("." ++ field),
      lit "reference " ++ quoted ref ++ lit " does not resolve"⟩] else []

def edgeFindings (draft : IssueGraphDraft) (edge : IssueEdgeDraft) (index : Nat) :
    List IssueGraphFinding :=
  (if edgeKey edge ∈ (draft.edges.take index).map edgeKey then
    [⟨lit "DUPLICATE_EDGE", indexed "edges" index "", lit "edge is duplicated"⟩] else []) ++
  unresolved draft index "source_ref" edge.sourceRef ++
  unresolved draft index "target_ref" edge.targetRef ++
  (if edge.sourceRef = edge.targetRef then
    [⟨lit "SELF_EDGE", indexed "edges" index "", lit "self-referential edges are invalid"⟩]
  else []) ++
  -- The edge itself has been added to `seen_edges` by now.
  if edge.kind.directed = true ∧ (edge.targetRef, edge.sourceRef, edge.kind) ∈
      (draft.edges.take (index + 1)).map edgeKey then
    [⟨lit "CONFLICTING_RECIPROCAL_INTENT", indexed "edges" index "",
      lit "directed edge intent conflicts with its reciprocal"⟩] else []

/-- The walk up the parents: how many there are, and whether a node is met again. No node is
entered twice, so a round more than there are nodes is never needed. -/
def walkParents (draft : IssueGraphDraft) : Nat → IssueNodeDraft → List PyStr → Nat × Bool
  | 0, _, visited => (visited.length, false)
  | rounds + 1, current, visited =>
    match current.parentRef.bind (byRef draft) with
    | none => (visited.length, false)
    | some parent =>
      if current.clientRef ∈ visited then (visited.length, true)
      else walkParents draft rounds parent (visited ++ [current.clientRef])

def hierarchyFindings (draft : IssueGraphDraft) (node : IssueNodeDraft) :
    List IssueGraphFinding :=
  let (depth, cycle) := walkParents draft (draft.nodes.length + 1) node []
  (if cycle then
    [⟨lit "GRAPH_CYCLE", lit "node:" ++ node.clientRef,
      lit "parent membership contains a cycle"⟩] else []) ++
  if depth > 2 then
    [⟨lit "HIERARCHY_DEPTH_UNSUPPORTED", lit "node:" ++ node.clientRef,
      lit "hierarchy depth " ++ PyStr.ofNat depth ++ lit " exceeds 2"⟩] else []

/-- The edges that order two declared nodes. -/
def orderEdges (draft : IssueGraphDraft) : List IssueEdgeDraft :=
  draft.edges.filter fun edge =>
    decide (edge.sourceRef ∈ refs draft ∧ edge.targetRef ∈ refs draft) && edge.kind.directed

/-- `sorted(adjacency[ref])` -/
def adjacency (draft : IssueGraphDraft) (ref : PyStr) : List PyStr :=
  sortedDistinct (((draft.nodes.filter fun node => node.parentRef = some ref ∧ ref ∈ refs draft).map
      (·.clientRef)) ++
    ((orderEdges draft).filter fun edge => edge.targetRef = ref).map (·.sourceRef))

def cycleFindings (draft : IssueGraphDraft) : List IssueGraphFinding :=
  if DepthFirst.visits (adjacency draft) (sortedDistinct (refs draft)) = some true then
    [⟨lit "GRAPH_CYCLE", lit "graph", lit "issue graph contains a cycle"⟩] else []

/-- `_validate_graph` -/
def validateGraph (draft : IssueGraphDraft) : List IssueGraphFinding :=
  sortBy findingKey (List.dedup (
    draft.nodes.zipIdx.flatMap (fun (node, index) => nodeFindings draft node index) ++
    rootFindings draft ++
    draft.nodes.zipIdx.flatMap (fun (node, index) => parentFindings draft node index) ++
    draft.edges.zipIdx.flatMap (fun (edge, index) => edgeFindings draft edge index) ++
    draft.nodes.flatMap (hierarchyFindings draft) ++
    cycleFindings draft))

/-! ### Live issues -/

structure IssueGraphDelta where
  exactMatches : List (PyStr × Int)
  createRefs : List PyStr
  duplicateCandidates : List (PyStr × Int)
  deriving DecidableEq

/-- `sorted(set(marker_owners.get(ref, ())))` -/
def markerOwners (liveIssues : List LiveIssueCandidate) (ref : PyStr) : List Int :=
  ((liveIssues.filter fun issue =>
    (issue.managedMarker.bind fun marker => matchMarker marker.strip) = some ref).map
      (·.issueNumber)).dedup.insertionSort (· ≤ ·)

def numberTexts (numbers : List Int) : PyStr := PyStr.join (lit ", ") (numbers.map Json.ofInt)

variable (R : Runtime)

/-- The unmarked issues with the title of a node. -/
def titleCandidates (liveIssues : List LiveIssueCandidate) (node : IssueNodeDraft) :
    List (PyStr × Int) :=
  (liveIssues.filter fun issue =>
    issue.managedMarker = none ∧ R.casefold issue.title = R.casefold node.title).map
      fun issue => (node.clientRef, issue.issueNumber)

/-- `_live_delta` -/
def liveDelta (nodes : List IssueNodeDraft) (liveIssues : List LiveIssueCandidate) :
    IssueGraphDelta × List IssueGraphFinding :=
  let sorted := sortBy (fun node : IssueNodeDraft => node.clientRef) nodes
  let owners (node : IssueNodeDraft) := markerOwners liveIssues node.clientRef
  let settled := sorted.filter fun node => (owners node).length ≤ 1
  ({ exactMatches := settled.filterMap fun node =>
        (owners node).head?.map fun number => (node.clientRef, number)
     createRefs := (settled.filter fun node => owners node = []).map (·.clientRef)
     duplicateCandidates := sortBy toLex
        (settled.flatMap (titleCandidates R liveIssues)).dedup },
   sortBy findingKey ((sorted.filter fun node => 1 < (owners node).length).map fun node =>
      ⟨lit "CONFLICTING_MANAGED_MARKER", lit "marker:" ++ node.clientRef,
        lit "managed marker resolves to multiple live issues: " ++ numberTexts (owners node)⟩))

/-! ### The order -/

/-- `dependencies[ref]` -/
def dependencies (draft : IssueGraphDraft) (ref : PyStr) : List PyStr :=
  (((draft.nodes.filter fun node => node.clientRef = ref).filterMap (·.parentRef)).filter
      (· ∈ refs draft) ++
    ((orderEdges draft).filter fun edge => edge.sourceRef = ref).map (·.targetRef)).dedup

def cycleError : ProposalError :=
  .blocked [⟨lit "GRAPH_CYCLE", lit "graph", lit "issue graph contains a cycle"⟩]

/-- What a round takes out of `remaining`. -/
def readyRefs (remaining : List (PyStr × List PyStr)) : List PyStr :=
  ((remaining.filter fun entry => entry.2 = []).map (·.1)).insertionSort (· ≤ ·)

/-- What it leaves there. -/
def waiting (remaining : List (PyStr × List PyStr)) (ready : List PyStr) :
    List (PyStr × List PyStr) :=
  (remaining.filter fun entry => entry.1 ∉ ready).map fun entry =>
    (entry.1, entry.2.filter (· ∉ ready))

/-- `while remaining`: every round takes something out, so there are no more rounds than
references. -/
def takeLayers : Nat → List (PyStr × List PyStr) → List PyStr → Except ProposalError (List PyStr)
  | _, [], ordered => .ok ordered
  | 0, _ :: _, _ => .error cycleError
  | rounds + 1, entry :: rest, ordered =>
    let ready := readyRefs (entry :: rest)
    if ready = [] then .error cycleError
    else takeLayers rounds (waiting (entry :: rest) ready) (ordered ++ ready)

/-- `_topological_nodes` -/
def topologicalNodes (draft : IssueGraphDraft) : Except ProposalError (List PyStr) :=
  let declared := (refs draft).dedup
  takeLayers declared.length (declared.map fun ref => (ref, dependencies draft ref)) []

end RepoForge.IssueGraph
