import RepoForge.Source.IssueGraph.Proposal
import RepoForge.Spec.IssueGraph.PlanSteps
import RepoForge.Spec.IssueGraph.Order

/-!
# Drafts without findings

A draft that `_validate_graph` accepts has unique references, its root among them, and neither a
parent nor an end of an edge that it does not declare.
-/
namespace RepoForge.IssueGraph
open PyStr (lit)

variable {draft : IssueGraphDraft}

theorem validateGraph_nil (accepted : validateGraph draft = []) :
    (∀ node index, draft.nodes[index]? = some node → nodeFindings draft node index = []) ∧
    rootFindings draft = [] ∧
    (∀ node index, draft.nodes[index]? = some node → parentFindings draft node index = []) ∧
    ∀ edge index, draft.edges[index]? = some edge → edgeFindings draft edge index = [] := by
  unfold validateGraph at accepted
  have empty := perm_sortBy.symm.trans (List.Perm.of_eq accepted)
  simp only [List.perm_nil, List.dedup_eq_nil, List.append_eq_nil_iff,
    List.flatMap_eq_nil_iff] at empty
  obtain ⟨⟨⟨⟨⟨nodes, root⟩, parents⟩, edges⟩, -⟩, -⟩ := empty
  refine ⟨fun node index here => ?_, root, fun node index here => ?_, fun edge index here => ?_⟩
  · exact nodes (node, index) (List.mem_zipIdx_iff_getElem?.mpr here)
  · exact parents (node, index) (List.mem_zipIdx_iff_getElem?.mpr here)
  · exact edges (edge, index) (List.mem_zipIdx_iff_getElem?.mpr here)

/-- A list none of whose items is among those before it. -/
theorem nodup_of_fresh {α : Type} {items : List α}
    (fresh : ∀ item index, items[index]? = some item → item ∉ items.take index) :
    items.Nodup := by
  rw [List.nodup_iff_pairwise_ne, List.pairwise_iff_getElem]
  intro i j before here below same
  refine fresh items[j] j (List.getElem?_eq_getElem here) ?_
  rw [← same]
  exact List.mem_take_iff_getElem.mpr ⟨i, by omega, rfl⟩

theorem refs_nodup (accepted : validateGraph draft = []) : (refs draft).Nodup := by
  obtain ⟨nodes, -, -, -⟩ := validateGraph_nil accepted
  refine nodup_of_fresh fun ref index here => ?_
  rw [refs, List.getElem?_map] at here
  obtain ⟨node, found, rfl⟩ := Option.map_eq_some_iff.mp here
  have quiet := nodes node index found
  simp [nodeFindings] at quiet
  exact quiet.1

theorem root_declared (accepted : validateGraph draft = []) : draft.rootRef ∈ refs draft := by
  obtain ⟨-, root, -, -⟩ := validateGraph_nil accepted
  by_contra unknown
  simp [rootFindings, unknown] at root

theorem parent_declared (accepted : validateGraph draft = []) {node : IssueNodeDraft}
    (here : node ∈ draft.nodes) {parent : PyStr} (has : node.parentRef = some parent) :
    parent ∈ refs draft := by
  obtain ⟨-, -, parents, -⟩ := validateGraph_nil accepted
  obtain ⟨index, found⟩ := List.mem_iff_getElem?.mp here
  have quiet := parents node index found
  by_contra unknown
  simp [parentFindings, has, unknown] at quiet

theorem edge_declared (accepted : validateGraph draft = []) {edge : IssueEdgeDraft}
    (here : edge ∈ draft.edges) : edge.sourceRef ∈ refs draft ∧ edge.targetRef ∈ refs draft := by
  obtain ⟨-, -, -, edges⟩ := validateGraph_nil accepted
  obtain ⟨index, found⟩ := List.mem_iff_getElem?.mp here
  have quiet := edges edge index found
  simp only [edgeFindings, List.append_eq_nil_iff] at quiet
  obtain ⟨⟨⟨⟨-, source⟩, target⟩, -⟩, -⟩ := quiet
  constructor
  · by_contra unknown
    simp [unresolved, unknown] at source
  · by_contra unknown
    simp [unresolved, unknown] at target

end RepoForge.IssueGraph

/-!
# When a graph is planned

`plan_issue_graph` returns exactly if the draft is plannable by itself and no marker has two owners
(`plans_iff`); `plan_ok` says what it returns.
-/
namespace RepoForge.IssueGraph
open PyStr (lit isHex)

variable {R : Runtime} {draft : IssueGraphDraft} {identity : IssueGraphIdentity}
  {liveIssues : List LiveIssueCandidate} {createdAt expiresAt : PyStr} {order : List PyStr}
  {delta : IssueGraphDelta}

/-- `json.loads` reads what `json.dumps` has written, and what it has read is written alike. -/
def Runtime.Reads (R : Runtime) : Prop :=
  ∀ value : Json, value.canonical = true →
    ∃ read, R.loads value.dumps = some read ∧ read.dumps = value.dumps

/-- What is asked of a draft and its identity, whatever the live issues are. -/
structure Plannable (R : Runtime) (draft : IssueGraphDraft) (identity : IssueGraphIdentity)
    (createdAt expiresAt : PyStr) : Prop where
  repository : draft.repoId = identity.repoId
  expires : ∃ created expires, R.fromisoformat createdAt = some (some created) ∧
    R.fromisoformat expiresAt = some (some expires) ∧ created < expires
  accepted : validateGraph draft = []
  titles : ∀ node ∈ draft.nodes, node.title.encodable = true
  stamps : createdAt.encodable = true ∧ expiresAt.encodable = true

theorem bind_require {α : Type} {condition : Prop} [Decidable condition] {message : String}
    {next : Unit → Except ProposalError α} {a : α} :
    (require condition message >>= next) = .ok a ↔ condition ∧ next () = .ok a := by
  unfold require
  split_ifs with h
  · simp [h, bind, Except.bind]
  · simp [h, bind, Except.bind]

theorem require_iff {condition : Prop} [Decidable condition] {message : String} :
    require condition message = .ok () ↔ condition := by
  simp [require]

theorem timestamp_iff {value : PyStr} {field : String} {instant : Int} :
    timestamp R value field = .ok instant ↔ R.fromisoformat value = some (some instant) := by
  unfold timestamp
  split <;> simp_all

/-! ### The payload -/

def plannedPayload (draft : IssueGraphDraft) (identity : IssueGraphIdentity)
    (delta : IssueGraphDelta) (order : List PyStr) (createdAt expiresAt : PyStr) : Json :=
  payload draft identity (publicationOrder draft order)
    (perNode draft order (renderNode · draft)) (perNode draft order (revisionComment · identity))
    delta createdAt expiresAt

theorem texts_canonical (items : List PyStr) : (Json.texts items).canonical = true :=
  Json.canonicalItems_map.mpr fun _ _ => rfl

theorem textPairs_canonical (pairs : List (PyStr × PyStr)) :
    Json.canonicalItems (pairs.map textPair) = true :=
  Json.canonicalItems_map.mpr fun _ _ => rfl

theorem numberPairs_canonical (pairs : List (PyStr × Int)) :
    Json.canonicalItems (pairs.map numberPair) = true :=
  Json.canonicalItems_map.mpr fun _ _ => rfl

theorem delta_canonical (delta : IssueGraphDelta) : delta.payload.canonical = true := by
  have keys : ([lit "create_refs", lit "duplicate_candidates", lit "exact_matches"] :
      List PyStr).Pairwise (· < ·) := by decide
  simp [IssueGraphDelta.payload, Json.canonical, Json.canonicalFields, texts_canonical,
    numberPairs_canonical, keys]

theorem optional_canonical (item : Option PyStr) : (Json.optional item).canonical = true := by
  cases item <;> rfl

theorem node_canonical (node : IssueNodeDraft) : (nodePayload node).canonical = true := by
  have keys : ([lit "body", lit "client_ref", lit "parent_ref", lit "priority", lit "status",
      lit "ticket_type", lit "title"] : List PyStr).Pairwise (· < ·) := by decide
  simp [nodePayload, Json.canonical, Json.canonicalFields, optional_canonical, keys]

theorem edge_canonical (edge : IssueEdgeDraft) : (edgePayload edge).canonical = true := by
  have keys : ([lit "kind", lit "source_ref", lit "target_ref"] : List PyStr).Pairwise
      (· < ·) := by decide
  simp [edgePayload, Json.canonical, Json.canonicalFields, keys]

theorem draft_canonical (draft : IssueGraphDraft) : draft.payload.canonical = true := by
  have keys : ([lit "edges", lit "nodes", lit "repo_id", lit "root_ref"] : List PyStr).Pairwise
      (· < ·) := by decide
  have edges : Json.canonicalItems ((sortedEdges draft).map edgePayload) = true :=
    Json.canonicalItems_map.mpr fun edge _ => edge_canonical edge
  have nodes : Json.canonicalItems ((sortedNodes draft).map nodePayload) = true :=
    Json.canonicalItems_map.mpr fun node _ => node_canonical node
  simp [IssueGraphDraft.payload, Json.canonical, Json.canonicalFields, edges, nodes, keys]

theorem identity_canonical (identity : IssueGraphIdentity) :
    identity.payload.canonical = true := by
  have keys : ([lit "active_generation", lit "base_commit_sha", lit "input_contract_digest",
      lit "live_snapshot_sha256", lit "output_contract_digest", lit "repo_id",
      lit "repository_fingerprint", lit "schema_version", lit "template_version",
      lit "tool_surface_hash"] : List PyStr).Pairwise (· < ·) := by decide
  simp [IssueGraphIdentity.payload, Json.canonical, Json.canonicalFields, keys]

theorem payload_canonical :
    (plannedPayload draft identity delta order createdAt expiresAt).canonical = true := by
  have keys : ([lit "created_at", lit "delta", lit "draft", lit "expires_at",
      lit "external_writes", lit "identity", lit "publication_order", lit "rendered_nodes",
      lit "revision_comments", lit "schema_version"] : List PyStr).Pairwise (· < ·) := by
    decide
  simp [plannedPayload, payload, Json.canonical, Json.canonicalFields, delta_canonical,
    draft_canonical, identity_canonical, texts_canonical, textPairs_canonical, keys]

/-! ### What can be encoded -/

theorem isSafeRef_encodable {ref : PyStr} (safe : isSafeRef ref = true) : ref.encodable = true :=
  PyStr.firstThen_encodable safe

/-- What the constructor of a node has checked. -/
theorem IssueNodeDraft.checked (node : IssueNodeDraft) :
    isSafeRef node.clientRef = true ∧
    (node.ticketType ∈ [lit "program", lit "epic", lit "task"]) ∧
    (node.priority ∈ [lit "p0", lit "p1", lit "p2", lit "p3"]) ∧
    (node.status ∈
      [lit "planned", lit "ready", lit "in_progress", lit "blocked", lit "done"]) ∧
    (∀ ref ∈ node.parentRef, isSafeRef ref = true) ∧ node.body.encodable = true := by
  have h := node.constructed
  simp only [NodeFields.postInit, bind_require, require_iff] at h
  obtain ⟨safe, -, type, priority, status, parent, -, body, -⟩ := h
  exact ⟨safe, type, priority, status, parent, body⟩

theorem IssueEdgeDraft.checked (edge : IssueEdgeDraft) :
    isSafeRef edge.sourceRef = true ∧ isSafeRef edge.targetRef = true :=
  require_iff.mp edge.constructed

theorem IssueGraphDraft.checked (draft : IssueGraphDraft) :
    isSafeRef draft.repoId = true ∧ isSafeRef draft.rootRef = true := by
  have h := draft.constructed
  simp only [DraftFields.postInit, bind_require] at h
  exact ⟨h.1, h.2.1⟩

theorem isGitSha_encodable {s : PyStr} (h : isGitSha s = true) : s.encodable = true := by
  simp only [isGitSha, Bool.or_eq_true] at h
  exact h.elim PyStr.isHex_encodable PyStr.isHex_encodable

theorem listed_encodable (names : List String) {s : PyStr} (h : s ∈ names.map lit) :
    s.encodable = true := by
  obtain ⟨name, -, rfl⟩ := List.mem_map.mp h
  exact Json.encodable_lit name

theorem nodePayload_clean {node : IssueNodeDraft} :
    (nodePayload node).clean = true ↔ node.title.encodable = true := by
  obtain ⟨safe, type, priority, status, parent, body⟩ := node.checked
  have type := listed_encodable ["program", "epic", "task"] type
  have priority := listed_encodable ["p0", "p1", "p2", "p3"] priority
  have status := listed_encodable
    ["planned", "ready", "in_progress", "blocked", "done"] status
  have parent : (Json.optional node.parentRef).clean = true :=
    Json.optional_clean.mpr fun ref here => isSafeRef_encodable (parent ref here)
  simp [nodePayload, Json.clean, Json.cleanFields, Json.encodable_lit, body,
    isSafeRef_encodable safe, parent, priority, status, type]

theorem kind_encodable (kind : IssueEdgeKind) : kind.value.encodable = true := by
  cases kind <;> exact Json.encodable_lit _

theorem edgePayload_clean (edge : IssueEdgeDraft) : (edgePayload edge).clean = true := by
  simp [edgePayload, Json.clean, Json.cleanFields, Json.encodable_lit, kind_encodable,
    isSafeRef_encodable edge.checked.1, isSafeRef_encodable edge.checked.2]

theorem draftPayload_clean : draft.payload.clean = true ↔
    ∀ node ∈ draft.nodes, node.title.encodable = true := by
  have edges : Json.cleanItems ((sortedEdges draft).map edgePayload) = true :=
    Json.cleanItems_map.mpr fun edge _ => edgePayload_clean edge
  simp only [IssueGraphDraft.payload, Json.clean, Json.cleanFields, Json.encodable_lit, edges,
    isSafeRef_encodable draft.checked.1, isSafeRef_encodable draft.checked.2, Bool.and_eq_true,
    true_and, and_true, Json.cleanItems_map, nodePayload_clean, sortedNodes, mem_sortBy]

theorem identityPayload_clean (identity : IssueGraphIdentity) :
    identity.payload.clean = true := by
  have h := identity.constructed
  simp only [IdentityFields.postInit, bind_require, require_iff] at h
  obtain ⟨repo, fingerprint, snapshot, surface, input, output, base, -⟩ := h
  simp [IssueGraphIdentity.payload, Json.clean, Json.cleanFields, Json.encodable_lit,
    isSafeRef_encodable repo, PyStr.isHex_encodable fingerprint, PyStr.isHex_encodable snapshot,
    PyStr.isHex_encodable surface, PyStr.isHex_encodable input, PyStr.isHex_encodable output,
    isGitSha_encodable base]

theorem ofInt_encodable (n : Int) : (Json.ofInt n).encodable = true := by
  cases n with
  | ofNat n => exact Json.encodable_ofNat n
  | negSucc n => simp [Json.ofInt, Json.encodable_append, Json.encodable_lit, Json.encodable_ofNat]

theorem ticked_encodable {ref : PyStr} : (ticked ref).encodable = ref.encodable := by
  simp [ticked, Json.encodable_append, Json.encodable_lit]

theorem rstrip_encodable {s : PyStr} (h : s.encodable = true) : (rstrip s).encodable = true := by
  simp only [PyStr.encodable, List.all_eq_true, rstrip] at h ⊢
  exact fun c here => h c ((List.rdropWhile_prefix _ s).subset here)

theorem edgeLine_encodable {node : IssueNodeDraft} {kind : IssueEdgeKind} {label : String}
    {line : PyStr} (here : line ∈ edgeLine draft node kind label) : line.encodable = true := by
  simp only [edgeLine] at here
  split_ifs at here
  · cases here
  · rw [List.mem_singleton.mp here, Json.encodable_append, Json.encodable_append,
      Json.encodable_lit, Json.encodable_lit, Json.encodable_join (Json.encodable_lit _)]
    simp only [Bool.true_and, List.all_map, List.all_eq_true, Function.comp_apply,
      ticked_encodable]
    intro ref listed
    simp only [edgeTargets, List.mem_insertionSort, List.mem_map] at listed
    obtain ⟨edge, -, rfl⟩ := listed
    exact isSafeRef_encodable edge.checked.2

theorem renderNode_encodable (titles : ∀ node ∈ draft.nodes, node.title.encodable = true)
    (node : IssueNodeDraft) : (renderNode node draft).encodable = true := by
  obtain ⟨safe, -, -, -, parent, body⟩ := node.checked
  have lines : ∀ line ∈ graphLines node draft, line.encodable = true := by
    intro line here
    simp only [graphLines, List.mem_append, List.mem_singleton, List.mem_map,
      Option.mem_toList] at here
    rcases here with (((((rfl | ⟨ref, has, rfl⟩) | here) | here) | here) | here)
    · exact Json.encodable_lit _
    · rw [Json.encodable_append, Json.encodable_lit, ticked_encodable,
        isSafeRef_encodable (parent ref has), Bool.and_self]
    · exact edgeLine_encodable here
    · exact edgeLine_encodable here
    · exact edgeLine_encodable here
    · split_ifs at here
      · simp only [List.mem_append, List.mem_cons, List.not_mem_nil, or_false, checklist,
          List.mem_map, mem_sortBy, List.mem_filter] at here
        rcases here with (rfl | rfl) | ⟨child, ⟨inside, -⟩, rfl⟩
        · rfl
        · exact Json.encodable_lit _
        · simp [Json.encodable_append, Json.encodable_lit, titles child inside,
            isSafeRef_encodable child.checked.1]
      · cases here
  have joined := Json.encodable_join (Json.encodable_lit "\n") (graphLines node draft)
  rw [List.all_eq_true.mpr lines] at joined
  simp [renderNode, managedMarker, Json.encodable_append, Json.encodable_lit, joined,
    isSafeRef_encodable safe, rstrip_encodable body]

theorem revisionComment_encodable (node : IssueNodeDraft) (identity : IssueGraphIdentity) :
    (revisionComment node identity).encodable = true := by
  have h := identity.constructed
  simp only [IdentityFields.postInit, bind_require, require_iff] at h
  simp [revisionComment, Json.encodable_append, Json.encodable_lit, ticked_encodable,
    ofInt_encodable, isSafeRef_encodable node.checked.1, PyStr.isHex_encodable h.2.2.1]

theorem publicationOrder_encodable (declared : ∀ ref ∈ order, ref ∈ refs draft) :
    ∀ item ∈ publicationOrder draft order, item.encodable = true := by
  intro item here
  simp only [publicationOrder, List.mem_append, List.mem_map, parentSteps, edgeSteps,
    List.mem_flatMap, Option.mem_toList, List.mem_singleton] at here
  rcases here with ((⟨ref, listed, rfl⟩ | ⟨node, -, parent, has, rfl⟩) | ⟨edge, -, rfl⟩) | rfl
  · obtain ⟨node, -, rfl⟩ := List.mem_map.mp (declared ref listed)
    simp [Json.encodable_append, Json.encodable_lit, isSafeRef_encodable node.checked.1]
  · obtain ⟨safe, -, -, -, parents, -⟩ := node.checked
    simp [Json.encodable_append, Json.encodable_lit, isSafeRef_encodable safe,
      isSafeRef_encodable (parents parent has)]
  · simp [Json.encodable_append, Json.encodable_lit, kind_encodable,
      isSafeRef_encodable edge.checked.1, isSafeRef_encodable edge.checked.2]
  · simp [Json.encodable_append, Json.encodable_lit, isSafeRef_encodable draft.checked.2]

theorem perNode_clean {text : IssueNodeDraft → PyStr}
    (plain : ∀ node, (text node).encodable = true) :
    Json.cleanItems ((perNode draft order text).map textPair) = true := by
  rw [Json.cleanItems_map]
  intro pair here
  obtain ⟨ref, -, found⟩ := List.mem_filterMap.mp here
  obtain ⟨node, named, rfl⟩ := Option.map_eq_some_iff.mp found
  obtain ⟨-, rfl⟩ := mem_of_byRef named
  simp [textPair, Json.clean, Json.cleanItems, plain, isSafeRef_encodable node.checked.1]

/-- The references of the delta are those of nodes. -/
theorem deltaPayload_clean :
    (liveDelta R draft.nodes liveIssues).1.payload.clean = true := by
  have pairs : ∀ pairs : List (PyStr × Int), (∀ pair ∈ pairs, pair.1.encodable = true) →
      Json.cleanItems (pairs.map numberPair) = true := by
    intro pairs each
    rw [Json.cleanItems_map]
    intro pair here
    simp [numberPair, Json.clean, Json.cleanItems, each pair here]
  have creates : (Json.texts (liveDelta R draft.nodes liveIssues).1.createRefs).clean = true := by
    rw [Json.texts_clean]
    intro ref here
    obtain ⟨node, -, rfl⟩ := List.mem_map.mp here
    exact isSafeRef_encodable node.checked.1
  have exact' : ∀ pair ∈ (liveDelta R draft.nodes liveIssues).1.exactMatches,
      pair.1.encodable = true := by
    intro pair here
    obtain ⟨node, -, found⟩ := List.mem_filterMap.mp here
    obtain ⟨number, -, rfl⟩ := Option.map_eq_some_iff.mp found
    exact isSafeRef_encodable node.checked.1
  have duplicates : ∀ pair ∈ (liveDelta R draft.nodes liveIssues).1.duplicateCandidates,
      pair.1.encodable = true := by
    intro pair here
    simp only [liveDelta, mem_sortBy, List.mem_dedup, List.mem_flatMap, titleCandidates,
      List.mem_map] at here
    obtain ⟨node, -, issue, -, rfl⟩ := here
    exact isSafeRef_encodable node.checked.1
  simp [IssueGraphDelta.payload, Json.clean, Json.cleanFields, Json.encodable_lit, creates,
    pairs _ exact', pairs _ duplicates]

theorem payload_clean (declared : ∀ ref ∈ order, ref ∈ refs draft) :
    (plannedPayload draft identity (liveDelta R draft.nodes liveIssues).1 order createdAt
      expiresAt).clean = true ↔
    (∀ node ∈ draft.nodes, node.title.encodable = true) ∧ createdAt.encodable = true ∧
      expiresAt.encodable = true := by
  have orders : (Json.texts (publicationOrder draft order)).clean = true :=
    Json.texts_clean.mpr (publicationOrder_encodable declared)
  have comments : Json.cleanItems ((perNode draft order (revisionComment · identity)).map
      textPair) = true := perNode_clean fun node => revisionComment_encodable node identity
  simp only [plannedPayload, payload, Json.clean, Json.cleanFields, Json.encodable_lit,
    deltaPayload_clean, draftPayload_clean, identityPayload_clean, orders, comments,
    Bool.and_eq_true, true_and, and_true]
  constructor
  · rintro ⟨created, titles, expires, -⟩
    exact ⟨titles, created, expires⟩
  · rintro ⟨titles, created, expires⟩
    exact ⟨created, titles, expires, perNode_clean (renderNode_encodable titles)⟩

/-! ### Planning -/

/-- The fields of a planned proposal. -/
def plannedFields (R : Runtime) (draft : IssueGraphDraft) (identity : IssueGraphIdentity)
    (delta : IssueGraphDelta) (order : List PyStr) (createdAt expiresAt : PyStr) :
    ProposalFields :=
  let canonicalJson := (plannedPayload draft identity delta order createdAt expiresAt).dumps
  let proposalHash := PyStr.ofText (R.sha256 (PyStr.utf8 canonicalJson.replaced))
  { proposalId := lit "igp-" ++ proposalHash.take 24
    proposalHash, draft, identity, canonicalJson
    publicationOrder := publicationOrder draft order
    renderedNodes := perNode draft order (renderNode · draft)
    revisionComments := perNode draft order (revisionComment · identity)
    delta, createdAt, expiresAt
    externalWrites := 0
    schemaVersion := 1 }

theorem hashText_iff {text hash : PyStr} : hashText R text = .ok hash ↔
    text.encodable = true ∧ PyStr.ofText (R.sha256 (PyStr.utf8 text.replaced)) = hash := by
  simp [hashText, bind_require, pure, Except.pure]

theorem planIssueGraph_eq_ok {proposal : IssueGraphProposal R}
    (h : planIssueGraph R draft identity liveIssues createdAt expiresAt = .ok proposal) :
    draft.repoId = identity.repoId ∧
    (∃ created expires, R.fromisoformat createdAt = some (some created) ∧
      R.fromisoformat expiresAt = some (some expires) ∧ created < expires) ∧
    validateGraph draft = [] ∧ (liveDelta R draft.nodes liveIssues).2 = [] ∧
    ∃ order, topologicalNodes draft = .ok order ∧
      (plannedPayload draft identity (liveDelta R draft.nodes liveIssues).1 order createdAt
        expiresAt).dumps.encodable = true ∧
      proposal.toProposalFields = plannedFields R draft identity
        (liveDelta R draft.nodes liveIssues).1 order createdAt expiresAt := by
  unfold planIssueGraph at h
  simp only at h
  split at h
  · cases h
  · rename_i same
    obtain ⟨expires, second, h⟩ := bind_ok h
    obtain ⟨created, first, h⟩ := bind_ok h
    obtain ⟨later, h⟩ := bind_require.mp h
    split at h
    · cases h
    · rename_i quiet
      obtain ⟨order, sorted, h⟩ := bind_ok h
      obtain ⟨hash, hashed, h⟩ := bind_ok h
      obtain ⟨passed, rfl⟩ := built_ok h
      obtain ⟨encodable, rfl⟩ := hashText_iff.mp hashed
      rw [not_not] at quiet
      have empty := perm_sortBy.symm.trans (List.Perm.of_eq quiet)
      rw [List.perm_nil, List.append_eq_nil_iff] at empty
      exact ⟨not_not.mp same, ⟨created, expires, timestamp_iff.mp first, timestamp_iff.mp second,
        later⟩, empty.1, empty.2, order, sorted, encodable, rfl⟩

theorem isHex_ofText {t : Text} {n : Nat} (length : t.length = n) (hex : t.all lowerHex = true) :
    isHex n (PyStr.ofText t) = true := by
  simpa [isHex, PyStr.ofText, length, CodePoint.within] using hex

theorem isHex_take {s : PyStr} {n k : Nat} (hex : isHex n s = true) (few : k ≤ n) :
    isHex k (s.take k) = true := by
  simp only [isHex, Bool.and_eq_true, decide_eq_true_eq, List.all_eq_true] at hex ⊢
  refine ⟨by simp [hex.1, few], fun c here => hex.2 c (List.mem_of_mem_take here)⟩

/-- The constructor accepts what is planned. -/
theorem plannedFields_postInit (sha : R.Sha256) (reads : R.Reads) {created expires : Int}
    (first : R.fromisoformat createdAt = some (some created))
    (second : R.fromisoformat expiresAt = some (some expires)) (later : created < expires)
    (encodable : (plannedPayload draft identity delta order createdAt
      expiresAt).dumps.encodable = true) :
    (plannedFields R draft identity delta order createdAt expiresAt).postInit R = .ok () := by
  have hex : isHex 64 (plannedFields R draft identity delta order createdAt
      expiresAt).proposalHash = true := isHex_ofText (sha _).1 (sha _).2
  have named : isProposalId (plannedFields R draft identity delta order createdAt
      expiresAt).proposalId = true := by
    have tail := isHex_take hex (show 24 ≤ 64 by decide)
    simpa [isProposalId, plannedFields, lit, PyStr.ofText] using tail
  obtain ⟨content, read, written⟩ := reads (plannedPayload draft identity delta order createdAt
    expiresAt) payload_canonical
  have read : R.loads (plannedFields R draft identity delta order createdAt
      expiresAt).canonicalJson = some content := read
  have hashed : hashJson R content =
      .ok (plannedFields R draft identity delta order createdAt expiresAt).proposalHash := by
    rw [hashJson, written]
    exact hashText_iff.mpr ⟨encodable, rfl⟩
  have created' : timestamp R createdAt "created_at" = .ok created := timestamp_iff.mpr first
  have expires' : timestamp R expiresAt "expires_at" = .ok expires := timestamp_iff.mpr second
  unfold ProposalFields.postInit
  rw [bind_require]
  refine ⟨named, ?_⟩
  rw [bind_require]
  refine ⟨hex, ?_⟩
  simp only [read, hashed]
  simp only [plannedFields, created', expires', bind, Except.bind, require, if_pos later,
    if_true]

theorem built_of {α : Type} {postInit : Except ProposalError Unit} {make : postInit = .ok () → α}
    (passed : postInit = .ok ()) : built postInit make = .ok (make passed) := by
  subst passed
  rfl

/-- Of a draft without findings the sort returns. -/
theorem topologicalNodes_returns (accepted : validateGraph draft = []) :
    ∃ order, topologicalNodes draft = .ok order := by
  cases sorted : topologicalNodes draft with
  | ok order => exact ⟨order, rfl⟩
  | error e =>
    obtain ⟨finding, here, -⟩ := reports_cycle_iff.mpr (topologicalNodes_raises_iff.mp ⟨e, sorted⟩)
    rw [accepted] at here
    cases here

theorem plans_iff (sha : R.Sha256) (reads : R.Reads) :
    (∃ proposal, planIssueGraph R draft identity liveIssues createdAt expiresAt = .ok proposal) ↔
      Plannable R draft identity createdAt expiresAt ∧
        (liveDelta R draft.nodes liveIssues).2 = [] := by
  constructor
  · rintro ⟨proposal, h⟩
    obtain ⟨same, expires, accepted, quiet, order, sorted, encodable, -⟩ := planIssueGraph_eq_ok h
    rw [Json.dumps_encodable, payload_clean fun ref here =>
      ((topologicalNodes_ok sorted).2.1 ref).mp here] at encodable
    exact ⟨⟨same, expires, accepted, encodable.1, encodable.2⟩, quiet⟩
  · rintro ⟨⟨same, ⟨created, expires, first, second, later⟩, accepted, titles, stamps⟩, quiet⟩
    obtain ⟨order, sorted⟩ := topologicalNodes_returns accepted
    have encodable : (plannedPayload draft identity (liveDelta R draft.nodes liveIssues).1 order
        createdAt expiresAt).dumps.encodable = true := by
      rw [Json.dumps_encodable, payload_clean fun ref here =>
        ((topologicalNodes_ok sorted).2.1 ref).mp here]
      exact ⟨titles, stamps⟩
    have passed := plannedFields_postInit sha reads first
      second later encodable
    refine ⟨⟨_, passed⟩, ?_⟩
    have findings : sortBy findingKey
        (validateGraph draft ++ (liveDelta R draft.nodes liveIssues).2) = [] := by
      rw [accepted, quiet]
      rfl
    have created' : timestamp R createdAt "created_at" = .ok created := timestamp_iff.mpr first
    have expires' : timestamp R expiresAt "expires_at" = .ok expires := timestamp_iff.mpr second
    unfold planIssueGraph
    simp only [same, ne_eq, not_true_eq_false, if_false, findings, sorted, created', expires',
      require, if_pos later, bind, Except.bind]
    rw [← plannedPayload, hashText_iff.mpr ⟨encodable, rfl⟩]
    exact built_of passed

end RepoForge.IssueGraph
