import RepoForge.Source.IssueGraph.Proposal

/-!
# Planning an issue graph

The second half of `domain/issue_graph_proposal.py`: `plan_issue_graph`, the payload of a proposal
and its decoder. The keys of an object are listed in their order, in which `json.dumps` writes
them.
-/
namespace RepoForge.IssueGraph
open PyStr (lit isHex)
open Json (optional texts)

variable (R : Runtime)

def Runtime.Sha256 (R : Runtime) : Prop :=
  ∀ data, (R.sha256 data).length = 64 ∧ (R.sha256 data).all lowerHex = true

/-- `_timestamp` -/
def timestamp (value : PyStr) (field : String) : Except ProposalError Int :=
  match R.fromisoformat value with
  | none => .error (.value (field ++ " must be an ISO-8601 timestamp"))
  | some none => .error (.value (field ++ " must include a timezone"))
  | some (some instant) => .ok instant

/-- `hashlib.sha256(text.encode("utf-8")).hexdigest()` -/
def hashText (text : PyStr) : Except ProposalError PyStr := do
  require (text.encodable = true) "surrogates not allowed"
  return PyStr.ofText (R.sha256 (PyStr.utf8 text.replaced))

/-- `_hash_json` -/
def hashJson (value : Json) : Except ProposalError PyStr := hashText R value.dumps

/-- A value whose `__post_init__` has passed. -/
def built {α : Type} : (postInit : Except ProposalError Unit) → (postInit = .ok () → α) →
    Except ProposalError α
  | .ok (), make => .ok (make rfl)
  | .error e, _ => .error e

/-! ### Rendering -/

def ticked (ref : PyStr) : PyStr := lit "`" ++ ref ++ lit "`"

def edgeTargets (draft : IssueGraphDraft) (node : IssueNodeDraft) (kind : IssueEdgeKind) :
    List PyStr :=
  ((draft.edges.filter fun edge => edge.sourceRef = node.clientRef ∧ edge.kind = kind).map
    (·.targetRef)).insertionSort (· ≤ ·)

def edgeLine (draft : IssueGraphDraft) (node : IssueNodeDraft) (kind : IssueEdgeKind)
    (label : String) : List PyStr :=
  let targets := edgeTargets draft node kind
  if targets = [] then []
  else [lit label ++ lit ": " ++ PyStr.join (lit ", ") (targets.map ticked)]

def checklist (draft : IssueGraphDraft) : List PyStr :=
  (sortBy (fun item : IssueNodeDraft => item.clientRef)
    (draft.nodes.filter fun item => item.parentRef = some draft.rootRef)).map
      fun item => lit "- [ ] " ++ item.clientRef ++ lit " — " ++ item.title

def graphLines (node : IssueNodeDraft) (draft : IssueGraphDraft) : List PyStr :=
  [lit "## RepoForge graph intent"] ++
  (node.parentRef.toList.map fun parent => lit "Parent: " ++ ticked parent) ++
  edgeLine draft node .blockedBy "Blocked by" ++
  edgeLine draft node .relates "Relates" ++
  edgeLine draft node .supersedes "Supersedes" ++
  if node.clientRef = draft.rootRef then [[], lit "## Delivery checklist"] ++ checklist draft
  else []

def rstrip (s : PyStr) : PyStr := s.rdropWhile (CodePoint.within PyText.isSpace)

/-- `_render_node` -/
def renderNode (node : IssueNodeDraft) (draft : IssueGraphDraft) : PyStr :=
  managedMarker node.clientRef ++ lit "\n\n" ++ rstrip node.body ++ lit "\n\n" ++
    PyStr.join (lit "\n") (graphLines node draft) ++ lit "\n"

/-- `_revision_comment` -/
def revisionComment (node : IssueNodeDraft) (identity : IssueGraphIdentity) : PyStr :=
  lit "<!-- repoforge-revision:" ++ node.clientRef ++ lit ":v" ++
    Json.ofInt identity.templateVersion ++ lit " -->\n" ++
  lit "Desired-state revision for " ++ ticked node.clientRef ++ lit " bound to live snapshot " ++
  ticked identity.liveSnapshotSha256 ++ lit " and generation " ++
  ticked (Json.ofInt identity.activeGeneration) ++ lit "."

/-! ### The payload -/

def nodePayload (node : IssueNodeDraft) : Json :=
  .dict [(lit "body", .str node.body), (lit "client_ref", .str node.clientRef),
    (lit "parent_ref", optional node.parentRef), (lit "priority", .str node.priority),
    (lit "status", .str node.status), (lit "ticket_type", .str node.ticketType),
    (lit "title", .str node.title)]

def edgePayload (edge : IssueEdgeDraft) : Json :=
  .dict [(lit "kind", .str edge.kind.value), (lit "source_ref", .str edge.sourceRef),
    (lit "target_ref", .str edge.targetRef)]

def IssueGraphIdentity.payload (identity : IssueGraphIdentity) : Json :=
  .dict [(lit "active_generation", .int identity.activeGeneration),
    (lit "base_commit_sha", .str identity.baseCommitSha),
    (lit "input_contract_digest", .str identity.inputContractDigest),
    (lit "live_snapshot_sha256", .str identity.liveSnapshotSha256),
    (lit "output_contract_digest", .str identity.outputContractDigest),
    (lit "repo_id", .str identity.repoId),
    (lit "repository_fingerprint", .str identity.repositoryFingerprint),
    (lit "schema_version", .int identity.schemaVersion),
    (lit "template_version", .int identity.templateVersion),
    (lit "tool_surface_hash", .str identity.toolSurfaceHash)]

def numberPair (pair : PyStr × Int) : Json := .list [.str pair.1, .int pair.2]

def textPair (pair : PyStr × PyStr) : Json := .list [.str pair.1, .str pair.2]

def IssueGraphDelta.payload (delta : IssueGraphDelta) : Json :=
  .dict [(lit "create_refs", texts delta.createRefs),
    (lit "duplicate_candidates", .list (delta.duplicateCandidates.map numberPair)),
    (lit "exact_matches", .list (delta.exactMatches.map numberPair))]

def edgeSortKey (edge : IssueEdgeDraft) : PyStr ×ₗ PyStr ×ₗ PyStr :=
  toLex (edge.kind.value, toLex (edge.sourceRef, edge.targetRef))

def sortedNodes (draft : IssueGraphDraft) : List IssueNodeDraft :=
  sortBy (fun node : IssueNodeDraft => node.clientRef) draft.nodes

def sortedEdges (draft : IssueGraphDraft) : List IssueEdgeDraft := sortBy edgeSortKey draft.edges

def IssueGraphDraft.payload (draft : IssueGraphDraft) : Json :=
  .dict [(lit "edges", .list ((sortedEdges draft).map edgePayload)),
    (lit "nodes", .list ((sortedNodes draft).map nodePayload)),
    (lit "repo_id", .str draft.repoId), (lit "root_ref", .str draft.rootRef)]

/-- `_proposal_payload` -/
def payload (draft : IssueGraphDraft) (identity : IssueGraphIdentity)
    (publicationOrder : List PyStr) (renderedNodes revisionComments : List (PyStr × PyStr))
    (delta : IssueGraphDelta) (createdAt expiresAt : PyStr) : Json :=
  .dict [(lit "created_at", .str createdAt), (lit "delta", delta.payload),
    (lit "draft", draft.payload), (lit "expires_at", .str expiresAt),
    (lit "external_writes", .int 0), (lit "identity", identity.payload),
    (lit "publication_order", texts publicationOrder),
    (lit "rendered_nodes", .list (renderedNodes.map textPair)),
    (lit "revision_comments", .list (revisionComments.map textPair)),
    (lit "schema_version", .int 1)]

/-! ### Proposals -/

structure ProposalFields where
  proposalId : PyStr
  proposalHash : PyStr
  draft : IssueGraphDraft
  identity : IssueGraphIdentity
  canonicalJson : PyStr
  publicationOrder : List PyStr
  renderedNodes : List (PyStr × PyStr)
  revisionComments : List (PyStr × PyStr)
  delta : IssueGraphDelta
  createdAt : PyStr
  expiresAt : PyStr
  externalWrites : Int
  schemaVersion : Int

/-- `igp-[a-f0-9]{24}` -/
def isProposalId (s : PyStr) : Bool :=
  decide (s.take 4 = lit "igp-") && isHex 24 (s.drop 4)

/-- `IssueGraphProposal.__post_init__` -/
def ProposalFields.postInit (proposal : ProposalFields) : Except ProposalError Unit := do
  require (isProposalId proposal.proposalId = true) "proposal_id is invalid"
  require (isHex 64 proposal.proposalHash = true) "proposal_hash is invalid"
  match R.loads proposal.canonicalJson with
  | none => .error (.value "Expecting value")
  | some content =>
    require ((← hashJson R content) = proposal.proposalHash)
      "proposal hash does not match canonical content"
  let expires ← timestamp R proposal.expiresAt "expires_at"
  let created ← timestamp R proposal.createdAt "created_at"
  require (created < expires) "proposal expiry must be later than creation"
  require (proposal.externalWrites = 0) "planning proposals cannot contain external writes"
  require (proposal.schemaVersion = 1) "unsupported issue graph proposal schema"

structure IssueGraphProposal extends ProposalFields where
  constructed : toProposalFields.postInit R = .ok ()

def parentSteps (draft : IssueGraphDraft) (nodeOrder : List PyStr) : List PyStr :=
  (sortBy (fun node : IssueNodeDraft => toLex (nodeOrder.idxOf node.clientRef, node.clientRef))
    (draft.nodes.filter fun node => node.parentRef ≠ none)).flatMap fun node =>
      node.parentRef.toList.map fun parent =>
        lit "parent:" ++ node.clientRef ++ lit "->" ++ parent

def edgeSteps (draft : IssueGraphDraft) (nodeOrder : List PyStr) : List PyStr :=
  (sortBy (fun edge : IssueEdgeDraft => toLex (nodeOrder.idxOf edge.sourceRef, edgeSortKey edge))
    draft.edges).map fun edge =>
      edge.kind.value ++ lit ":" ++ edge.sourceRef ++ lit "->" ++ edge.targetRef

def publicationOrder (draft : IssueGraphDraft) (nodeOrder : List PyStr) : List PyStr :=
  nodeOrder.map (lit "node:" ++ ·) ++ parentSteps draft nodeOrder ++ edgeSteps draft nodeOrder ++
    [lit "checklist:" ++ draft.rootRef]

/-- A text for each node of the order, each of which is declared. -/
def perNode (draft : IssueGraphDraft) (nodeOrder : List PyStr) (text : IssueNodeDraft → PyStr) :
    List (PyStr × PyStr) :=
  nodeOrder.filterMap fun ref => (byRef draft ref).map fun node => (ref, text node)

/-- The identifier from the hash, and the checks of the constructor. -/
def buildProposal (proposalHash canonicalJson : PyStr) (draft : IssueGraphDraft)
    (identity : IssueGraphIdentity) (publicationOrder : List PyStr)
    (renderedNodes revisionComments : List (PyStr × PyStr)) (delta : IssueGraphDelta)
    (createdAt expiresAt : PyStr) (externalWrites schemaVersion : Int) :
    Except ProposalError (IssueGraphProposal R) :=
  let fields : ProposalFields :=
    { proposalId := lit "igp-" ++ proposalHash.take 24
      proposalHash, draft, identity, canonicalJson, publicationOrder, renderedNodes
      revisionComments, delta, createdAt, expiresAt, externalWrites, schemaVersion }
  built (fields.postInit R) fun constructed => { fields with constructed }

/-- `plan_issue_graph` -/
def planIssueGraph (draft : IssueGraphDraft) (identity : IssueGraphIdentity)
    (liveIssues : List LiveIssueCandidate) (createdAt expiresAt : PyStr) :
    Except ProposalError (IssueGraphProposal R) := do
  if draft.repoId ≠ identity.repoId then
    throw (.blocked [⟨lit "REPOSITORY_IDENTITY_MISMATCH", lit "repo_id",
      lit "draft and identity differ"⟩])
  let expires ← timestamp R expiresAt "expires_at"
  let created ← timestamp R createdAt "created_at"
  require (created < expires) "proposal expiry must be later than creation"
  let (delta, markerFindings) := liveDelta R draft.nodes liveIssues
  let findings := sortBy findingKey (validateGraph draft ++ markerFindings)
  if findings ≠ [] then throw (.blocked findings)
  let nodeOrder ← topologicalNodes draft
  let order := publicationOrder draft nodeOrder
  let rendered := perNode draft nodeOrder (renderNode · draft)
  let comments := perNode draft nodeOrder (revisionComment · identity)
  let canonicalJson :=
    (payload draft identity order rendered comments delta createdAt expiresAt).dumps
  let proposalHash ← hashText R canonicalJson
  buildProposal R proposalHash canonicalJson draft identity order rendered comments delta
    createdAt expiresAt 0 1

/-! ### Decoding -/

/-- `_object_map` -/
def objectMap (value : Json) (field : String) : Except ProposalError (List (PyStr × Json)) :=
  match value with
  | .dict fields => .ok fields
  | _ => .error (.value (field ++ " must be a JSON object"))

/-- `_object_list` -/
def objectList (value : Json) (field : String) : Except ProposalError (List Json) :=
  match value with
  | .list items => .ok items
  | _ => .error (.value (field ++ " must be a JSON array"))

/-- `_integer` -/
def integer (value : Json) (field : String) : Except ProposalError Int :=
  match value with
  | .int n => .ok n
  | _ => .error (.value (field ++ " must be an integer"))

/-- `fields[key]` -/
def entry (fields : List (PyStr × Json)) (key : String) : Except ProposalError Json :=
  match fields.lookup (lit key) with
  | some value => .ok value
  | none => .error (.keyError key)

/-- `str(value)` -/
def textOf : Json → PyStr
  | .str s => s
  | value => R.str value

/-- `str(fields[key])` -/
def textAt (fields : List (PyStr × Json)) (key : String) : Except ProposalError PyStr :=
  (entry fields key).map (textOf R)

def integerAt (fields : List (PyStr × Json)) (key : String) : Except ProposalError Int := do
  integer (← entry fields key) key

/-- `_pairs` -/
def pairsOf (value : Json) (field : String) : Except ProposalError (List (PyStr × Int)) := do
  (← objectList value field).zipIdx.mapM fun (item, index) => do
    let here := field ++ "[" ++ toString index ++ "]"
    match ← objectList item here with
    | [ref, number] => return (textOf R ref, ← integer number (here ++ "[1]"))
    | _ => throw (.value (here ++ " must contain two values"))

/-- The pairs of texts; a list of another length is left out. -/
def textPairs (items : List Json) (field : String) : Except ProposalError (List (PyStr × PyStr)) := do
  let lists ← items.mapM (objectList · field)
  return lists.filterMap fun values =>
    match values with
    | [ref, body] => some (textOf R ref, textOf R body)
    | _ => none

/-- `IssueEdgeKind(value)` -/
def IssueEdgeKind.ofValue (value : PyStr) : Except ProposalError IssueEdgeKind :=
  match [IssueEdgeKind.blockedBy, .relates, .supersedes].find? (·.value = value) with
  | some kind => .ok kind
  | none => .error (.value "is not a valid IssueEdgeKind")

def nodeOf (value : Json) : Except ProposalError IssueNodeDraft := do
  let item ← objectMap value "draft.nodes[]"
  let fields : NodeFields :=
    { clientRef := ← textAt R item "client_ref"
      title := ← textAt R item "title"
      ticketType := ← textAt R item "ticket_type"
      priority := ← textAt R item "priority"
      status := ← textAt R item "status"
      parentRef := match ← entry item "parent_ref" with
        | .null => none
        | value => some (textOf R value)
      body := ← textAt R item "body" }
  built fields.postInit fun constructed => { fields with constructed }

def edgeOf (value : Json) : Except ProposalError IssueEdgeDraft := do
  let item ← objectMap value "draft.edges[]"
  let fields : EdgeFields :=
    { sourceRef := ← textAt R item "source_ref"
      targetRef := ← textAt R item "target_ref"
      kind := ← IssueEdgeKind.ofValue (← textAt R item "kind") }
  built fields.postInit fun constructed => { fields with constructed }

def identityOf (raw : List (PyStr × Json)) : Except ProposalError IssueGraphIdentity := do
  let fields : IdentityFields :=
    { repoId := ← textAt R raw "repo_id"
      repositoryFingerprint := ← textAt R raw "repository_fingerprint"
      baseCommitSha := ← textAt R raw "base_commit_sha"
      liveSnapshotSha256 := ← textAt R raw "live_snapshot_sha256"
      activeGeneration := ← integerAt raw "active_generation"
      toolSurfaceHash := ← textAt R raw "tool_surface_hash"
      inputContractDigest := ← textAt R raw "input_contract_digest"
      outputContractDigest := ← textAt R raw "output_contract_digest"
      templateVersion := ← integerAt raw "template_version"
      schemaVersion := ← integerAt raw "schema_version" }
  built fields.postInit fun constructed => { fields with constructed }

def deltaOf (raw : List (PyStr × Json)) : Except ProposalError IssueGraphDelta := do
  let exactMatches ← pairsOf R (← entry raw "exact_matches") "delta.exact_matches"
  let createRefs ← objectList (← entry raw "create_refs") "delta.create_refs"
  let duplicates ← pairsOf R (← entry raw "duplicate_candidates") "delta.duplicate_candidates"
  return ⟨exactMatches, createRefs.map (textOf R), duplicates⟩

/-- `proposal_payload` -/
def proposalPayload (proposal : IssueGraphProposal R) :
    Except ProposalError (List (PyStr × Json)) :=
  match R.loads proposal.canonicalJson with
  | none => .error (.value "Expecting value")
  | some decoded => objectMap decoded "proposal"

/-- `proposal_from_payload` -/
def proposalFromPayload (payload : List (PyStr × Json)) :
    Except ProposalError (IssueGraphProposal R) := do
  let identityRaw ← objectMap (← entry payload "identity") "identity"
  let draftRaw ← objectMap (← entry payload "draft") "draft"
  let deltaRaw ← objectMap (← entry payload "delta") "delta"
  let nodesRaw ← objectList (← entry draftRaw "nodes") "draft.nodes"
  let edgesRaw ← objectList (← entry draftRaw "edges") "draft.edges"
  let renderedRaw ← objectList (← entry payload "rendered_nodes") "rendered_nodes"
  let revisionRaw ← objectList (← entry payload "revision_comments") "revision_comments"
  let publicationRaw ← objectList (← entry payload "publication_order") "publication_order"
  let fields : DraftFields :=
    { repoId := ← textAt R draftRaw "repo_id"
      rootRef := ← textAt R draftRaw "root_ref"
      nodes := ← nodesRaw.mapM (nodeOf R)
      edges := ← edgesRaw.mapM (edgeOf R) }
  let draft : IssueGraphDraft ←
    built fields.postInit fun constructed => { fields with constructed }
  let identity ← identityOf R identityRaw
  let delta ← deltaOf R deltaRaw
  let canonicalJson := (Json.dict payload).dumps
  let proposalHash ← hashText R canonicalJson
  buildProposal R proposalHash canonicalJson draft identity (publicationRaw.map (textOf R))
    (← textPairs R renderedRaw "rendered_nodes[]") (← textPairs R revisionRaw "revision_comments[]")
    delta (← textAt R payload "created_at") (← textAt R payload "expires_at")
    (← integerAt payload "external_writes") (← integerAt payload "schema_version")

end RepoForge.IssueGraph
