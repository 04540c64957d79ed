import RepoForge.Source.IssueGraph.Planning
import RepoForge.Library.PyDict

/-!
# Publication plans

`domain/issue_graph_publication.py`: the live graph of an issue graph, and
`build_issue_graph_publication_plan`, which lists the steps from it to the draft of a proposal.
-/
namespace RepoForge.IssueGraph
open PyStr (lit isHex sortedDistinct)
open Json (optional texts)

inductive PublicationError where
  /-- `_stale_error`, with the code `CONFIG_STALE`. -/
  | stale (fields : List String)
  /-- The code `PROPOSAL_BLOCKED`. -/
  | blocked (findings : List IssueGraphFinding)
  | proposal (error : ProposalError)
  deriving DecidableEq

def lifted {α : Type} : Except ProposalError α → Except PublicationError α
  | .ok a => .ok a
  | .error e => .error (.proposal e)

/-- An identifier of `name`, and 24 hexadecimal digits. -/
def isIdentifier (name : String) (s : PyStr) : Bool :=
  decide (s.take (lit name).length = lit name) && isHex 24 (s.drop (lit name).length)

def optionalInt : Option Int → Json
  | none => .null
  | some n => .int n

/-! ### The live graph -/

structure LiveNodeFields where
  clientRef : PyStr
  issueNumber : Int
  databaseId : Int
  managed : Bool
  title : PyStr
  body : PyStr
  deriving DecidableEq

/-- `PublicationLiveNode.__post_init__` -/
def LiveNodeFields.postInit (node : LiveNodeFields) : Except ProposalError Unit := do
  require (isSafeRef node.clientRef = true) "publication live client_ref is invalid"
  require (0 < node.issueNumber ∧ 0 < node.databaseId)
    "publication live issue identity is invalid"
  require (node.title ≠ [] ∧ node.body ≠ []) "publication live issue content is invalid"

structure PublicationLiveNode extends LiveNodeFields where
  constructed : toLiveNodeFields.postInit = .ok ()
  deriving DecidableEq

structure LiveGraphFields where
  nodes : List PublicationLiveNode
  parentByRef : List (PyStr × PyStr)
  blockedByRefs : List (PyStr × PyStr)
  snapshotSha256 : PyStr
  deriving DecidableEq

/-- `PublicationLiveGraph.__post_init__` -/
def LiveGraphFields.postInit (graph : LiveGraphFields) : Except ProposalError Unit := do
  require (isHex 64 graph.snapshotSha256 = true) "publication live snapshot hash is invalid"
  require ((graph.nodes.map (·.clientRef)).Nodup)
    "publication live graph contains duplicate client refs"

structure PublicationLiveGraph extends LiveGraphFields where
  constructed : toLiveGraphFields.postInit = .ok ()
  deriving DecidableEq

/-- `_pairs` -/
def relationPairs (pairs : List (PyStr × PyStr)) : Except ProposalError (List (PyStr × PyStr)) := do
  require (∀ pair ∈ pairs, isSafeRef pair.1 = true ∧ isSafeRef pair.2 = true)
    "publication relationship evidence is invalid"
  return pairs

/-- `dict(pairs).get(ref)`: the last of several. -/
def lastOf (pairs : List (PyStr × PyStr)) (ref : PyStr) : Option PyStr :=
  (pairs.reverse.find? fun pair => pair.1 = ref).map (·.2)

/-- The targets of a source. -/
def targetsOf (pairs : List (PyStr × PyStr)) (source : PyStr) : List PyStr :=
  (pairs.filter fun pair => pair.1 = source).map (·.2)

def liveByRef (graph : PublicationLiveGraph) (ref : PyStr) : Option PublicationLiveNode :=
  graph.nodes.find? fun node => node.clientRef = ref

/-! ### Steps -/

inductive PublicationStepKind where
  | updateNode
  | createNode
  | adoptNode
  | addSubIssue
  | removeSubIssue
  | addDependency
  | removeDependency
  | updateEpic
  deriving DecidableEq

def PublicationStepKind.value : PublicationStepKind → PyStr
  | updateNode => lit "update_node"
  | createNode => lit "create_node"
  | adoptNode => lit "adopt_node"
  | addSubIssue => lit "add_sub_issue"
  | removeSubIssue => lit "remove_sub_issue"
  | addDependency => lit "add_dependency"
  | removeDependency => lit "remove_dependency"
  | updateEpic => lit "update_epic"

structure ProviderFields where
  provider : PyStr
  apiVersion : PyStr
  mediaType : PyStr
  adapter : PyStr
  capabilityHash : PyStr
  deriving DecidableEq

/-- `PublicationProviderIdentity.__post_init__` -/
def ProviderFields.postInit (identity : ProviderFields) : Except ProposalError Unit := do
  require (identity.provider = lit "github") "publication provider must be github"
  require (identity.apiVersion ≠ [] ∧ identity.apiVersion.length ≤ 80)
    "publication API version is invalid"
  require (identity.mediaType ≠ [] ∧ identity.mediaType.length ≤ 160)
    "publication media type is invalid"
  require (identity.adapter ≠ [] ∧ identity.adapter.length ≤ 160)
    "publication adapter identity is invalid"
  require (isHex 64 identity.capabilityHash = true) "publication capability hash is invalid"

structure PublicationProviderIdentity extends ProviderFields where
  constructed : toProviderFields.postInit = .ok ()
  deriving DecidableEq

def PublicationProviderIdentity.payload (identity : PublicationProviderIdentity) : Json :=
  .dict [(lit "adapter", .str identity.adapter), (lit "api_version", .str identity.apiVersion),
    (lit "capability_hash", .str identity.capabilityHash),
    (lit "media_type", .str identity.mediaType), (lit "provider", .str identity.provider)]

/-- What a step is to do. -/
structure StepIntent where
  kind : PublicationStepKind
  sourceRef : PyStr
  targetRef : Option PyStr := none
  title : Option PyStr := none
  body : Option PyStr := none
  expectedIssueNumber : Option Int := none
  deriving DecidableEq

structure PlannedStep extends StepIntent where
  stepId : PyStr
  ordinal : Nat
  deriving DecidableEq

/-- `IssueGraphPublicationStep.__post_init__` for a pending step. -/
def PlannedStep.postInit (step : PlannedStep) : Except ProposalError Unit := do
  require (isIdentifier "igstep-" step.stepId = true) "publication step identity is invalid"
  require (isSafeRef step.sourceRef = true) "publication step source_ref is invalid"
  require (∀ ref ∈ step.targetRef, isSafeRef ref = true) "publication step target_ref is invalid"
  require (∀ number ∈ step.expectedIssueNumber, 0 < number)
    "publication step expected issue number is invalid"

variable (R : Runtime)

/-- `_new_step` -/
def newStep (proposalHash : PyStr) (ordinal : Nat) (intent : StepIntent) :
    Except ProposalError PlannedStep := do
  let hash ← hashJson R (.dict [(lit "body", optional intent.body),
    (lit "expected_issue_number", optionalInt intent.expectedIssueNumber),
    (lit "kind", .str intent.kind.value), (lit "ordinal", .int ordinal),
    (lit "proposal_hash", .str proposalHash), (lit "source_ref", .str intent.sourceRef),
    (lit "target_ref", optional intent.targetRef), (lit "title", optional intent.title)])
  let step : PlannedStep :=
    { intent with stepId := lit "igstep-" ++ hash.take 24, ordinal := ordinal }
  step.postInit
  return step

/-- `_step_payload(step, include_result=False)` -/
def PlannedStep.payload (step : PlannedStep) : Json :=
  .dict [(lit "body", optional step.body),
    (lit "expected_issue_number", optionalInt step.expectedIssueNumber),
    (lit "kind", .str step.kind.value), (lit "ordinal", .int step.ordinal),
    (lit "source_ref", .str step.sourceRef), (lit "state", .str (lit "pending")),
    (lit "step_id", .str step.stepId), (lit "target_ref", optional step.targetRef),
    (lit "title", optional step.title)]

/-! ### The plan -/

structure PlanFields where
  planId : PyStr
  proposalId : PyStr
  proposalHash : PyStr
  identity : IssueGraphIdentity
  effectPlanHash : PyStr
  providerIdentity : PublicationProviderIdentity
  steps : List PlannedStep
  initialMapping : List (PyStr × Int)
  adoptRefs : List PyStr
  createdAt : PyStr
  expiresAt : PyStr

/-- `IssueGraphPublicationPlan.__post_init__` for the current schema and format. -/
def PlanFields.postInit (plan : PlanFields) : Except ProposalError Unit := do
  require (isIdentifier "igplan-" plan.planId = true) "publication plan id is invalid"
  require (isHex 64 plan.proposalHash = true) "publication proposal hash is invalid"
  require (isHex 64 plan.effectPlanHash = true) "publication effect plan hash is invalid"
  require (plan.steps.map (·.ordinal) = List.range plan.steps.length)
    "publication step ordinals are not contiguous"
  let expires ← timestamp R plan.expiresAt "expires_at"
  let created ← timestamp R plan.createdAt "created_at"
  require (created < expires) "publication plan expiry must follow creation"

structure IssueGraphPublicationPlan extends PlanFields where
  constructed : toPlanFields.postInit R = .ok ()

/-- `proposal_stale_fields` -/
def staleFields (expected actual : IssueGraphIdentity) : List String :=
  (if expected.repoId ≠ actual.repoId then ["repo_id"] else []) ++
  (if expected.repositoryFingerprint ≠ actual.repositoryFingerprint
    then ["repository_fingerprint"] else []) ++
  (if expected.baseCommitSha ≠ actual.baseCommitSha then ["base_commit_sha"] else []) ++
  (if expected.liveSnapshotSha256 ≠ actual.liveSnapshotSha256
    then ["live_snapshot_sha256"] else []) ++
  (if expected.activeGeneration ≠ actual.activeGeneration then ["active_generation"] else []) ++
  (if expected.toolSurfaceHash ≠ actual.toolSurfaceHash then ["tool_surface_hash"] else []) ++
  (if expected.inputContractDigest ≠ actual.inputContractDigest
    then ["input_contract_digest"] else []) ++
  (if expected.outputContractDigest ≠ actual.outputContractDigest
    then ["output_contract_digest"] else []) ++
  (if expected.templateVersion ≠ actual.templateVersion then ["template_version"] else []) ++
  if expected.schemaVersion ≠ actual.schemaVersion then ["schema_version"] else []

def bootstrapSentinel : PyStr := lit "<!-- repoforge-publication-bootstrap:v2 -->"

/-- `issue_graph_bootstrap_body` -/
def bootstrapBody (clientRef userBody : PyStr) : PyStr :=
  managedMarker clientRef ++ lit "\n\n" ++ rstrip userBody ++ lit "\n\n" ++ bootstrapSentinel ++
    lit "\n"

def adoptionFindings (draft : IssueGraphDraft) (graph : PublicationLiveGraph)
    (safeAdopt : List PyStr) : List IssueGraphFinding :=
  ((sortBy (fun node : PublicationLiveNode => node.clientRef) graph.nodes).filter fun node =>
    node.clientRef ∈ refs draft ∧ node.managed = false ∧ node.clientRef ∉ safeAdopt).map fun node =>
      ⟨lit "ADOPTION_REQUIRED", lit "node:" ++ node.clientRef,
        lit "unmanaged existing issue requires explicit adoption"⟩

/-- The references that the order of publication names. -/
def nodeOrder (publicationOrder : List PyStr) : List PyStr :=
  (publicationOrder.filter fun item => (lit "node:").isPrefixOf item).map
    (·.drop (lit "node:").length)

/-- `by_ref[ref]` -/
def nodeAt (draft : IssueGraphDraft) (ref : PyStr) : Except ProposalError IssueNodeDraft :=
  match byRef draft ref with
  | some node => .ok node
  | none => .error (.keyError "client_ref")

/-- `rendered[ref]`, with the last of several. -/
def renderedAt (rendered : List (PyStr × PyStr)) (ref : PyStr) : Except ProposalError PyStr :=
  match lastOf rendered ref with
  | some body => .ok body
  | none => .error (.keyError "rendered")

variable (draft : IssueGraphDraft) (graph : PublicationLiveGraph)

/-- Phase A: a missing issue is created. -/
def createIntents (ref : PyStr) : Except ProposalError (List StepIntent) := do
  let node ← nodeAt draft ref
  match liveByRef graph ref with
  | none => return [{
      kind := .createNode
      sourceRef := ref
      title := some node.title
      body := some (bootstrapBody ref node.body) }]
  | some _ => return []

def initialMapping (order : List PyStr) : List (PyStr × Int) :=
  order.filterMap fun ref => (liveByRef graph ref).map fun live => (ref, live.issueNumber)

/-- An issue that exists and is not managed is adopted, and else it is updated. -/
def bodyKind (ref : PyStr) (otherwise : PublicationStepKind) : PublicationStepKind :=
  match liveByRef graph ref with
  | some live => if live.managed then otherwise else .adoptNode
  | none => otherwise

def bodyIntent (rendered : List (PyStr × PyStr)) (otherwise : PublicationStepKind) (ref : PyStr) :
    Except ProposalError StepIntent := do
  let node ← nodeAt draft ref
  return {
    kind := bodyKind graph ref otherwise
    sourceRef := ref
    title := some node.title
    body := some (← renderedAt rendered ref)
    expectedIssueNumber := (liveByRef graph ref).map (·.issueNumber) }

/-- Phase B: the bodies, but for the root. -/
def updateIntents (rendered : List (PyStr × PyStr)) (ref : PyStr) :
    Except ProposalError (List StepIntent) := do
  if ref = draft.rootRef then return []
  return [← bodyIntent draft graph rendered .updateNode ref]

def parentIntents (node : IssueNodeDraft) : List StepIntent :=
  match node.parentRef with
  | none => []
  | some parent =>
    let current := lastOf graph.parentByRef node.clientRef
    (match current with
      | some other =>
        if other ≠ parent then
          [{ kind := .removeSubIssue, sourceRef := other, targetRef := some node.clientRef }]
        else []
      | none => []) ++
    if current ≠ some parent then
      [{ kind := .addSubIssue, sourceRef := parent, targetRef := some node.clientRef }]
    else []

/-- The pairs of `desired_blockers`. -/
def desiredBlockers : List (PyStr × PyStr) :=
  (draft.edges.filter fun edge => edge.kind = .blockedBy).map fun edge =>
    (edge.sourceRef, edge.targetRef)

def dependencyIntents (source : PyStr) : List StepIntent :=
  let current := targetsOf graph.blockedByRefs source
  let desired := targetsOf (desiredBlockers draft) source
  ((sortedDistinct (current.filter (· ∉ desired))).map fun target =>
    { kind := .removeDependency, sourceRef := source, targetRef := some target }) ++
  (sortedDistinct (desired.filter (· ∉ current))).map fun target =>
    { kind := .addDependency, sourceRef := source, targetRef := some target }

/-- `add`, for each. -/
def addSteps (proposalHash : PyStr) (steps : List PlannedStep) (intents : List StepIntent) :
    Except ProposalError (List PlannedStep) :=
  intents.foldlM (fun steps intent => do
    return steps ++ [← newStep R proposalHash steps.length intent]) steps

/-- A loop whose body adds steps. -/
def addEach {α : Type} (proposalHash : PyStr) (intents : α → Except ProposalError (List StepIntent))
    (steps : List PlannedStep) (items : List α) : Except ProposalError (List PlannedStep) :=
  items.foldlM (fun steps item => do addSteps R proposalHash steps (← intents item)) steps

/-- The steps of a plan. -/
def planSteps (proposal : IssueGraphProposal R) : Except ProposalError (List PlannedStep) := do
  let draft := proposal.draft
  let hash := proposal.proposalHash
  let order := nodeOrder proposal.publicationOrder
  let steps ← addEach R hash (createIntents draft graph) [] order
  let steps ← addEach R hash (updateIntents draft graph proposal.renderedNodes) steps order
  let _ ← relationPairs graph.parentByRef
  let steps ← addEach R hash (fun node => .ok (parentIntents graph node)) steps
    (sortBy (fun node : IssueNodeDraft => node.clientRef) draft.nodes)
  let blockers ← relationPairs graph.blockedByRefs
  let steps ← addEach R hash (fun source => .ok (dependencyIntents draft graph source)) steps
    (sortedDistinct (blockers.map (·.1) ++ (desiredBlockers draft).map (·.1)))
  addSteps R hash steps [← bodyIntent draft graph proposal.renderedNodes .updateEpic draft.rootRef]

def effectPayload (proposal : IssueGraphProposal R) (identity : IssueGraphIdentity)
    (provider : PublicationProviderIdentity) (steps : List PlannedStep)
    (mapping : List (PyStr × Int)) (safeAdopt : List PyStr) (createdAt expiresAt : PyStr) : Json :=
  .dict [(lit "adopt_refs", texts safeAdopt), (lit "created_at", .str createdAt),
    (lit "expires_at", .str expiresAt), (lit "identity", identity.payload),
    (lit "initial_mapping", .list (mapping.map numberPair)),
    (lit "plan_format_version", .int 2), (lit "proposal_hash", .str proposal.proposalHash),
    (lit "proposal_id", .str proposal.proposalId), (lit "provider_identity", provider.payload),
    (lit "steps", .list (steps.map PlannedStep.payload))]

/-- `build_issue_graph_publication_plan` -/
def buildPublicationPlan (proposal : IssueGraphProposal R) (actualIdentity : IssueGraphIdentity)
    (graph : PublicationLiveGraph) (adoptRefs : List PyStr)
    (provider : PublicationProviderIdentity) (createdAt expiresAt : PyStr) :
    Except PublicationError (IssueGraphPublicationPlan R) := do
  let stale := staleFields proposal.identity actualIdentity
  if stale ≠ [] then throw (.stale stale)
  if graph.snapshotSha256 ≠ actualIdentity.liveSnapshotSha256 then
    throw (.stale ["live_snapshot_sha256"])
  let safeAdopt := sortedDistinct adoptRefs
  let findings := adoptionFindings proposal.draft graph safeAdopt
  if findings ≠ [] then throw (.blocked findings)
  let steps ← lifted (planSteps R graph proposal)
  let mapping := sortBy toLex (initialMapping graph (nodeOrder proposal.publicationOrder))
  let effectPlanHash ← lifted (hashJson R (effectPayload R proposal actualIdentity provider steps
    mapping safeAdopt createdAt expiresAt))
  let fields : PlanFields :=
    { planId := lit "igplan-" ++ effectPlanHash.take 24
      proposalId := proposal.proposalId
      proposalHash := proposal.proposalHash
      identity := actualIdentity
      effectPlanHash := effectPlanHash
      providerIdentity := provider
      steps := steps
      initialMapping := mapping
      adoptRefs := safeAdopt
      createdAt := createdAt
      expiresAt := expiresAt }
  lifted (built (fields.postInit R) fun constructed => { fields with constructed })

end RepoForge.IssueGraph

/-!
## Live truth

`_marker_ref`, `_snapshot_hash` and `_live_truth` of `application/repository/
issue_graph_workflow.py`: the issues of the repository are claimed for the references of a draft,
by the marker in their body and else by their title, and the relations between them are read. The
gateway is a parameter.
-/
namespace RepoForge.IssueGraph
open PyStr (lit)

structure RemoteIssue where
  issueNumber : Int
  databaseId : Int
  title : PyStr
  state : PyStr
  body : PyStr
  url : PyStr
  deriving DecidableEq

inductive TruthError where
  | gateway (message : String)
  /-- The code `PROPOSAL_BLOCKED`, with the coverage that is missing. -/
  | truncated (coverage : String)
  /-- The code `PROPOSAL_BLOCKED`: several issues have the title of an unmarked node. -/
  | ambiguous (clientRef : PyStr) (candidates : List Int)
  | proposal (error : ProposalError)
  deriving DecidableEq

/-- What `_live_truth` asks of the `IssueMutationGateway`: the issues, at most 100, and whether
there are more. -/
structure Gateway where
  recentIssues : Except TruthError (List RemoteIssue × Bool)
  subIssues : Int → Except TruthError (List RemoteIssue × Bool)
  blockedBy : Int → Except TruthError (List RemoteIssue × Bool)

/-- `_marker_ref`: the marker in the first line that is one. A line ends at a line feed. -/
def markerRef (issue : RemoteIssue) : Option PyStr :=
  (issue.body.splitOn (.scalar '\n')).findSome? matchMarker

def truth {α : Type} : Except ProposalError α → Except TruthError α
  | .ok a => .ok a
  | .error e => .error (.proposal e)

def candidateOf (issue : RemoteIssue) : Except ProposalError LiveIssueCandidate :=
  let fields : CandidateFields :=
    { issueNumber := issue.issueNumber, title := issue.title, managedMarker := markerRef issue }
  built fields.postInit fun constructed => { fields with constructed }

/-- `desired` -/
def desired (draft : IssueGraphDraft) : List (PyStr × IssueNodeDraft) :=
  PyDict.ofPairs (draft.nodes.map fun node => (node.clientRef, node))

/-- The issues with the marker of a desired reference. -/
def markedPairs (draft : IssueGraphDraft) (recent : List RemoteIssue) :
    List (PyStr × RemoteIssue) :=
  recent.filterMap fun issue =>
    match markerRef issue with
    | some ref => if ref ∈ (desired draft).map (·.1) then some (ref, issue) else none
    | none => none

/-- One round of the loop that claims by title. -/
def adoptTitle (recent : List RemoteIssue) (mapped : List (PyStr × RemoteIssue))
    (wanted : PyStr × IssueNodeDraft) : Except TruthError (List (PyStr × RemoteIssue)) :=
  if wanted.1 ∈ mapped.map (·.1) then .ok mapped
  else
    match recent.filter fun issue => issue.title = wanted.2.title with
    | [] => .ok mapped
    | [issue] => .ok (PyDict.assign mapped wanted.1 issue)
    | several => .error (.ambiguous wanted.1 (several.map (·.issueNumber)))

/-- `mapped` -/
def claimed (draft : IssueGraphDraft) (recent : List RemoteIssue) :
    Except TruthError (List (PyStr × RemoteIssue)) :=
  (desired draft).foldlM (adoptTitle recent) (PyDict.ofPairs (markedPairs draft recent))

def sortedItems (mapped : List (PyStr × RemoteIssue)) : List (PyStr × RemoteIssue) :=
  sortBy (fun item : PyStr × RemoteIssue => item.1) mapped

def liveNodeOf (item : PyStr × RemoteIssue) : Except ProposalError PublicationLiveNode :=
  let fields : LiveNodeFields :=
    { clientRef := item.1
      issueNumber := item.2.issueNumber
      databaseId := item.2.databaseId
      managed := decide (markerRef item.2 = some item.1)
      title := item.2.title
      body := item.2.body }
  built fields.postInit fun constructed => { fields with constructed }

/-- The reference of a related issue: by its number (the last that claims it), else by its
marker. -/
def relatedRef (draft : IssueGraphDraft) (mapped : List (PyStr × RemoteIssue))
    (issue : RemoteIssue) : Option PyStr :=
  let numberToRef := (mapped.reverse.find? fun item =>
    item.2.issueNumber = issue.issueNumber).map (·.1)
  (numberToRef.orElse fun _ => markerRef issue).filter (· ∈ (desired draft).map (·.1))

/-- One round of the loop that reads relations. -/
def relationsOf (gateway : Gateway) (draft : IssueGraphDraft) (mapped : List (PyStr × RemoteIssue))
    (item : PyStr × RemoteIssue) :
    Except TruthError (List (PyStr × PyStr) × List (PyStr × PyStr)) := do
  let (children, childrenTruncated) ← gateway.subIssues item.2.issueNumber
  let (blockers, blockersTruncated) ← gateway.blockedBy item.2.issueNumber
  if childrenTruncated ∨ blockersTruncated then throw (.truncated "relationships:truncated")
  return ((children.filterMap (relatedRef draft mapped)).map fun child => (child, item.1),
    (blockers.filterMap (relatedRef draft mapped)).map fun blocker => (item.1, blocker))

def sortedPairs (pairs : List (PyStr × PyStr)) : List (PyStr × PyStr) := sortBy toLex pairs.dedup

variable (R : Runtime)

def issuePayload (issue : RemoteIssue) : Except ProposalError Json := do
  let bodyHash ← hashText R issue.body
  return .dict [(lit "body_sha256", .str bodyHash), (lit "database_id", .int issue.databaseId),
    (lit "number", .int issue.issueNumber), (lit "state", .str issue.state),
    (lit "title", .str issue.title)]

def liveNodePayload (node : PublicationLiveNode) : Json :=
  .dict [(lit "body", .str node.body), (lit "client_ref", .str node.clientRef),
    (lit "database_id", .int node.databaseId), (lit "issue_number", .int node.issueNumber),
    (lit "managed", .bool node.managed), (lit "title", .str node.title)]

/-- `_snapshot_hash` -/
def snapshotHash (issues : List RemoteIssue) (nodes : List PublicationLiveNode)
    (parents blockers : List (PyStr × PyStr)) : Except ProposalError PyStr := do
  let issueList ← (sortBy (fun issue : RemoteIssue => issue.issueNumber) issues).mapM
    (issuePayload R)
  let value : Json := .dict [
    (lit "blockers", .list ((sortBy toLex blockers).map textPair)),
    (lit "issues", .list issueList),
    (lit "nodes", .list ((sortBy (fun node : PublicationLiveNode => node.clientRef) nodes).map
      liveNodePayload)),
    (lit "parents", .list ((sortBy toLex parents).map textPair))]
  return PyStr.ofText (R.sha256 (PyStr.utf8 value.dumpsAscii))

/-- `_live_truth` -/
def liveTruth (gateway : Gateway) (draft : IssueGraphDraft) :
    Except TruthError (List LiveIssueCandidate × PublicationLiveGraph × PyStr) := do
  let (recent, truncated) ← gateway.recentIssues
  if truncated then throw (.truncated "recent_issues:truncated")
  let candidates ← truth (recent.mapM candidateOf)
  let mapped ← claimed draft recent
  let liveNodes ← truth ((sortedItems mapped).mapM liveNodeOf)
  let relations ← (sortedItems mapped).mapM (relationsOf gateway draft mapped)
  let parents := sortedPairs (relations.flatMap (·.1))
  let blockedBy := sortedPairs (relations.flatMap (·.2))
  let snapshot ← truth (snapshotHash R recent liveNodes parents blockedBy)
  let fields : LiveGraphFields :=
    { nodes := liveNodes, parentByRef := parents, blockedByRefs := blockedBy
      snapshotSha256 := snapshot }
  let graph : PublicationLiveGraph ←
    truth (built fields.postInit fun constructed => { fields with constructed })
  return (candidates, graph, snapshot)

end RepoForge.IssueGraph

/-!
# Executing the steps of a plan

What a step of a publication does, as `RepositoryIssueGraphStepExecutor` resolves its references and
mutates the repository, where nothing fails. The relations are kept as the live graph has them, by
the references of the issues; the number of a created issue is a parameter.
-/
namespace RepoForge.IssueGraph

structure Remote where
  /-- `node_mapping` -/
  mapping : List (PyStr × Int)
  /-- A sub-issue and its parent. -/
  parents : List (PyStr × PyStr)
  /-- An issue and one that it is blocked by. -/
  blockers : List (PyStr × PyStr)

/-- `_resolved_number` -/
def resolvedNumber (step : StepIntent) (mapping : List (PyStr × Int)) (ref : PyStr) : Option Int :=
  let number := (PyDict.get mapping ref).or
    (if ref = step.sourceRef then step.expectedIssueNumber else none)
  number.filter (0 < ·)

/-- A relation with one pair more, unless it has it. -/
def withPair (pairs : List (PyStr × PyStr)) (pair : PyStr × PyStr) : List (PyStr × PyStr) :=
  if pair ∈ pairs then pairs else pairs ++ [pair]

def withoutPair (pairs : List (PyStr × PyStr)) (pair : PyStr × PyStr) : List (PyStr × PyStr) :=
  pairs.filter (· ≠ pair)

/-- What a relationship step makes of the relations. -/
def relate (remote : Remote) (kind : PublicationStepKind) (source target : PyStr) : Remote :=
  match kind with
  | .addSubIssue => { remote with parents := withPair remote.parents (target, source) }
  | .removeSubIssue => { remote with parents := withoutPair remote.parents (target, source) }
  | .addDependency => { remote with blockers := withPair remote.blockers (source, target) }
  | .removeDependency => { remote with blockers := withoutPair remote.blockers (source, target) }
  | _ => remote

/-- One step, `none` where a reference does not resolve. -/
def executeStep (created : PyStr → {number : Int // 0 < number}) (remote : Remote)
    (step : StepIntent) : Option Remote :=
  match step.kind with
  | .createNode =>
    some { remote with
      mapping := PyDict.assign remote.mapping step.sourceRef (created step.sourceRef) }
  | .updateNode | .adoptNode | .updateEpic => do
    let _ ← resolvedNumber step remote.mapping step.sourceRef
    return remote
  | kind => do
    let target ← step.targetRef
    let _ ← resolvedNumber step remote.mapping step.sourceRef
    let _ ← resolvedNumber step remote.mapping target
    return relate remote kind step.sourceRef target

def executeSteps (created : PyStr → {number : Int // 0 < number}) (remote : Remote)
    (steps : List StepIntent) : Option Remote :=
  steps.foldlM (executeStep created) remote

/-- The remote graph, with the mapping of a plan. -/
def remoteOf (graph : PublicationLiveGraph) (mapping : List (PyStr × Int)) : Remote where
  mapping := mapping
  parents := graph.parentByRef
  blockers := graph.blockedByRefs

end RepoForge.IssueGraph
