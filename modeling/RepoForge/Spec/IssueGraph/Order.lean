import RepoForge.Source.IssueGraph.Proposal

/-!
# The order of a desired issue graph

`_validate_graph` looks for cycles by a depth-first search along the children, and once more along
the parents of each node; `_topological_nodes` takes the references out in layers. Both see the
same relation (`mem_dependencies`, `mem_adjacency`): the first reports a cycle exactly if it has
one (`reports_cycle_iff`), and the second raises (`topologicalNodes_raises_iff`).
-/
namespace RepoForge.IssueGraph
open PyStr (lit sortedDistinct)
open Topological

variable {draft : IssueGraphDraft} {d x y : PyStr}

/-- `d` is the parent of `x`, or `x` is blocked by `d` or supersedes it, and both are declared. -/
def Precedes (draft : IssueGraphDraft) (d x : PyStr) : Prop :=
  d ∈ refs draft ∧ x ∈ refs draft ∧
    ((∃ node ∈ draft.nodes, node.clientRef = x ∧ node.parentRef = some d) ∨
      ∃ edge ∈ draft.edges, (edge.kind = .blockedBy ∨ edge.kind = .supersedes) ∧
        edge.sourceRef = x ∧ edge.targetRef = d)

def HasCycle (draft : IssueGraphDraft) : Prop := ∃ x, Relation.TransGen (Precedes draft) x x

/-! ### One relation -/

theorem directed_iff {kind : IssueEdgeKind} :
    kind.directed = true ↔ kind = .blockedBy ∨ kind = .supersedes := by
  cases kind <;> simp [IssueEdgeKind.directed]

theorem mem_orderEdges {edge : IssueEdgeDraft} : edge ∈ orderEdges draft ↔
    edge ∈ draft.edges ∧ (edge.sourceRef ∈ refs draft ∧ edge.targetRef ∈ refs draft) ∧
      (edge.kind = .blockedBy ∨ edge.kind = .supersedes) := by
  simp [orderEdges, directed_iff]

theorem mem_sortedDistinct {items : List PyStr} : x ∈ sortedDistinct items ↔ x ∈ items := by
  simp [sortedDistinct]

theorem mem_dependencies : d ∈ dependencies draft x ↔ Precedes draft d x := by
  simp only [dependencies, List.mem_dedup, List.mem_append, List.mem_filter, List.mem_filterMap,
    List.mem_map, mem_orderEdges, decide_eq_true_eq, Precedes]
  constructor
  · rintro (⟨⟨node, ⟨here, rfl⟩, parent⟩, known⟩ | ⟨edge, ⟨⟨here, known, kind⟩, rfl⟩, rfl⟩)
    · exact ⟨known, List.mem_map_of_mem here, .inl ⟨node, here, rfl, parent⟩⟩
    · exact ⟨known.2, known.1, .inr ⟨edge, here, kind, rfl, rfl⟩⟩
  · rintro ⟨known, declared, ⟨node, here, same, parent⟩ | ⟨edge, here, kind, rfl, rfl⟩⟩
    · exact .inl ⟨⟨node, ⟨here, same⟩, parent⟩, known⟩
    · exact .inr ⟨edge, ⟨⟨here, ⟨declared, known⟩, kind⟩, rfl⟩, rfl⟩

theorem mem_adjacency : x ∈ adjacency draft d ↔ Precedes draft d x := by
  simp only [adjacency, mem_sortedDistinct, List.mem_append, List.mem_filter, List.mem_map,
    mem_orderEdges, decide_eq_true_eq, Precedes]
  constructor
  · rintro (⟨node, ⟨here, parent, known⟩, rfl⟩ | ⟨edge, ⟨⟨here, known, kind⟩, rfl⟩, rfl⟩)
    · exact ⟨known, List.mem_map_of_mem here, .inl ⟨node, here, rfl, parent⟩⟩
    · exact ⟨known.2, known.1, .inr ⟨edge, here, kind, rfl, rfl⟩⟩
  · rintro ⟨known, declared, ⟨node, here, rfl, parent⟩ | ⟨edge, here, kind, rfl, rfl⟩⟩
    · exact .inl ⟨node, ⟨here, parent, known⟩, rfl⟩
    · exact .inr ⟨edge, ⟨⟨here, ⟨declared, known⟩, kind⟩, rfl⟩, rfl⟩

theorem cyclic_dependencies : Cyclic (dependencies draft) ↔ HasCycle draft := by
  have same : Needs (dependencies draft) = Precedes draft := by
    funext d x
    exact propext mem_dependencies
  rw [Cyclic, HasCycle, same]

theorem cyclic_adjacency : Cyclic (adjacency draft) ↔ HasCycle draft := by
  have same : Needs (adjacency draft) = Function.swap (Precedes draft) := by
    funext x d
    exact propext mem_adjacency
  rw [Cyclic, HasCycle, same]
  exact exists_congr fun x => Relation.transGen_swap

/-! ### The findings -/

theorem visits_eq : DepthFirst.visits (adjacency draft) (sortedDistinct (refs draft)) = some true ↔
    HasCycle draft := by
  have declared : ∀ x, adjacency draft x ≠ [] → x ∈ sortedDistinct (refs draft) := by
    intro x some
    obtain ⟨y, here⟩ := List.exists_mem_of_ne_nil _ some
    exact mem_sortedDistinct.mpr (mem_adjacency.mp here).1
  have closed : ∀ x ∈ sortedDistinct (refs draft), ∀ y ∈ adjacency draft x,
      y ∈ sortedDistinct (refs draft) :=
    fun x _ y here => mem_sortedDistinct.mpr (mem_adjacency.mp here).2.1
  obtain ⟨found, visited, spec⟩ := DepthFirst.visits_spec closed declared
  rw [visited, ← cyclic_adjacency, ← spec, Option.some.injEq]

theorem byRef_some {node : IssueNodeDraft} (h : byRef draft x = some node) :
    node ∈ draft.nodes ∧ node.clientRef = x :=
  ⟨List.mem_reverse.mp (List.mem_of_find?_eq_some h), by simpa using List.find?_some h⟩

/-- A node that the walk meets again stands on a cycle. -/
theorem walkParents_cycle {rounds : Nat} {current : IssueNodeDraft} {visited : List PyStr}
    (here : current ∈ draft.nodes)
    (above : ∀ ref ∈ visited, Relation.TransGen (Precedes draft) current.clientRef ref)
    (met : (walkParents draft rounds current visited).2 = true) : HasCycle draft := by
  induction rounds generalizing current visited with
  | zero => simp [walkParents] at met
  | succ rounds ih =>
    rw [walkParents] at met
    split at met
    · simp at met
    · rename_i parent found
      split at met
      · rename_i again
        exact ⟨current.clientRef, above _ again⟩
      · obtain ⟨ref, given, stored⟩ := Option.bind_eq_some_iff.mp found
        obtain ⟨member, rfl⟩ := byRef_some stored
        have precedes : Precedes draft parent.clientRef current.clientRef :=
          ⟨List.mem_map_of_mem member, List.mem_map_of_mem here, .inl ⟨current, here, rfl, given⟩⟩
        refine ih member (fun ref listed => ?_) met
        rcases List.mem_append.mp listed with listed | listed
        · exact .head precedes (above ref listed)
        · obtain rfl : ref = current.clientRef := by simpa using listed
          exact .single precedes

theorem mem_validateGraph {finding : IssueGraphFinding} : finding ∈ validateGraph draft ↔
    (∃ node index, (node, index) ∈ draft.nodes.zipIdx ∧
      finding ∈ nodeFindings draft node index) ∨
    finding ∈ rootFindings draft ∨
    (∃ node index, (node, index) ∈ draft.nodes.zipIdx ∧
      finding ∈ parentFindings draft node index) ∨
    (∃ edge index, (edge, index) ∈ draft.edges.zipIdx ∧
      finding ∈ edgeFindings draft edge index) ∨
    (∃ node ∈ draft.nodes, finding ∈ hierarchyFindings draft node) ∨
    finding ∈ cycleFindings draft := by
  simp [validateGraph, mem_sortBy]

/-- The codes that report no cycle. -/
def otherCodes : List PyStr :=
  [lit "DUPLICATE_CLIENT_REF", lit "REQUIRED_SECTION_MISSING", lit "ROOT_NOT_FOUND",
    lit "UNKNOWN_PARENT", lit "ROOT_HAS_PARENT", lit "DUPLICATE_EDGE", lit "UNRESOLVED_REFERENCE",
    lit "SELF_EDGE", lit "CONFLICTING_RECIPROCAL_INTENT", lit "HIERARCHY_DEPTH_UNSUPPORTED"]

theorem otherCodes_ne : ∀ code ∈ otherCodes, code ≠ lit "GRAPH_CYCLE" := by
  decide +kernel

section Codes

variable {finding : IssueGraphFinding} {node : IssueNodeDraft} {edge : IssueEdgeDraft}
  {index : Nat}

theorem nodeFindings_code (h : finding ∈ nodeFindings draft node index) :
    finding.code ∈ otherCodes := by
  simp only [nodeFindings, List.mem_append, List.mem_ite_nil_right, List.mem_singleton] at h
  rcases h with ⟨-, rfl⟩ | ⟨-, rfl⟩ <;> simp [otherCodes]

theorem rootFindings_code (h : finding ∈ rootFindings draft) : finding.code ∈ otherCodes := by
  simp only [rootFindings, List.mem_ite_nil_right, List.mem_singleton] at h
  obtain ⟨-, rfl⟩ := h
  simp [otherCodes]

theorem parentFindings_code (h : finding ∈ parentFindings draft node index) :
    finding.code ∈ otherCodes := by
  simp only [parentFindings, List.mem_append, List.mem_ite_nil_right, List.mem_singleton] at h
  rcases h with h | ⟨-, rfl⟩
  · split at h
    · simp only [List.mem_ite_nil_right, List.mem_singleton] at h
      obtain ⟨-, rfl⟩ := h
      simp [otherCodes]
    · cases h
  · simp [otherCodes]

theorem edgeFindings_code (h : finding ∈ edgeFindings draft edge index) :
    finding.code ∈ otherCodes := by
  simp only [edgeFindings, unresolved, List.mem_append, List.mem_ite_nil_right,
    List.mem_singleton] at h
  rcases h with ((((⟨-, rfl⟩ | ⟨-, rfl⟩) | ⟨-, rfl⟩) | ⟨-, rfl⟩) | ⟨-, rfl⟩) <;> simp [otherCodes]

theorem hierarchyFindings_code (here : node ∈ draft.nodes)
    (h : finding ∈ hierarchyFindings draft node) :
    finding.code ∈ otherCodes ∨ HasCycle draft := by
  simp only [hierarchyFindings, List.mem_append, List.mem_ite_nil_right, List.mem_singleton] at h
  rcases h with ⟨met, -⟩ | ⟨-, rfl⟩
  · exact .inr (walkParents_cycle here (by simp) met)
  · exact .inl (by simp [otherCodes])

end Codes

/-- Only the walks and the search report a cycle. -/
theorem reports_cycle_iff :
    (∃ finding ∈ validateGraph draft, finding.code = lit "GRAPH_CYCLE") ↔ HasCycle draft := by
  constructor
  · rintro ⟨finding, reported, code⟩
    have other : finding.code ∉ otherCodes := fun listed => otherCodes_ne _ listed code
    rcases mem_validateGraph.mp reported with ⟨_, _, _, h⟩ | h | ⟨_, _, _, h⟩ | ⟨_, _, _, h⟩ |
      ⟨node, here, h⟩ | h
    · exact absurd (nodeFindings_code h) other
    · exact absurd (rootFindings_code h) other
    · exact absurd (parentFindings_code h) other
    · exact absurd (edgeFindings_code h) other
    · exact (hierarchyFindings_code here h).resolve_left other
    · simp only [cycleFindings, List.mem_ite_nil_right] at h
      exact visits_eq.mp h.1
  · intro cycle
    have found : ⟨lit "GRAPH_CYCLE", lit "graph", lit "issue graph contains a cycle"⟩ ∈
        cycleFindings draft := by
      rw [cycleFindings, if_pos (visits_eq.mpr cycle)]
      exact List.mem_singleton_self _
    exact ⟨_, mem_validateGraph.mpr (.inr (.inr (.inr (.inr (.inr found))))), rfl⟩

/-! ### The layers -/

/-- What the rounds keep: the rest of the references, each with what it still waits for. -/
structure Layered (draft : IssueGraphDraft) (remaining : List (PyStr × List PyStr))
    (ordered : List PyStr) : Prop where
  nodup : ordered.Nodup
  subset : ordered ⊆ refs draft
  first : DependenciesFirst (dependencies draft) ordered
  rest : remaining = ((refs draft).dedup.filter (· ∉ ordered)).map fun ref =>
    (ref, (dependencies draft ref).filter (· ∉ ordered))

section Round

variable {remaining : List (PyStr × List PyStr)} {ordered : List PyStr}

variable (h : Layered draft remaining ordered)
include h

theorem Layered.mem_ready : x ∈ readyRefs remaining ↔
    Topological.Ready (dependencies draft) (refs draft) ordered x := by
  have perm : (readyRefs remaining).Perm ((remaining.filter fun entry => entry.2 = []).map (·.1)) :=
    List.perm_insertionSort _ _
  rw [perm.mem_iff, h.rest]
  constructor
  · intro listed
    obtain ⟨entry, inside, rfl⟩ := List.mem_map.mp listed
    obtain ⟨inside, none⟩ := List.mem_filter.mp inside
    obtain ⟨ref, left, rfl⟩ := List.mem_map.mp inside
    obtain ⟨declared, fresh⟩ := List.mem_filter.mp left
    refine ⟨List.mem_dedup.mp declared, by simpa using fresh, ?_⟩
    simpa using none
  · intro ready
    refine List.mem_map.mpr ⟨(x, []), List.mem_filter.mpr ⟨List.mem_map.mpr ⟨x, ?_, ?_⟩, by simp⟩, rfl⟩
    · exact List.mem_filter.mpr ⟨List.mem_dedup.mpr ready.node, by simpa using ready.fresh⟩
    · simpa using ready.met

theorem Layered.round (some : readyRefs remaining ≠ []) :
    Layered draft (waiting remaining (readyRefs remaining)) (ordered ++ readyRefs remaining) ∧
      (waiting remaining (readyRefs remaining)).length < remaining.length := by
  have perm : (readyRefs remaining).Perm ((remaining.filter fun entry => entry.2 = []).map (·.1)) :=
    List.perm_insertionSort _ _
  have distinct : (remaining.map (·.1)).Nodup := by
    rw [h.rest, List.map_map]
    simpa [Function.comp_def] using (List.nodup_dedup (refs draft)).filter _
  refine ⟨⟨?_, ?_, ?_, ?_⟩, ?_⟩
  · refine List.nodup_append.mpr ⟨h.nodup, ?_, ?_⟩
    · exact perm.nodup_iff.mpr (distinct.sublist (List.filter_sublist.map _))
    · intro a old b new same
      exact (h.mem_ready.mp new).fresh (same ▸ old)
  · exact List.append_subset.mpr ⟨h.subset, fun y new => (h.mem_ready.mp new).node⟩
  · exact h.first.append fun y new => (h.mem_ready.mp new).met
  · generalize readyRefs remaining = ready
    rw [waiting, h.rest, List.filter_map, List.map_map, List.filter_filter]
    simp only [Function.comp_def, List.filter_filter, List.mem_append, not_or, Bool.decide_and]
    congr 1
    · funext ref
      simp only [Bool.and_comm]
    · simp only [Bool.and_comm]
  · obtain ⟨y, ready⟩ := List.exists_mem_of_ne_nil _ some
    obtain ⟨entry, inside, same⟩ := List.mem_map.mp (perm.mem_iff.mp ready)
    rw [waiting, List.length_map]
    refine List.length_filter_lt_length_iff_exists.mpr ⟨entry, List.mem_of_mem_filter inside, ?_⟩
    simpa [same] using ready

/-- Without a cycle every round takes something out. -/
theorem Layered.progress (acyclic : ¬ HasCycle draft) (left : remaining ≠ []) :
    readyRefs remaining ≠ [] := by
  have acyclic' : ¬ Cyclic (dependencies draft) := fun cycle =>
    acyclic (cyclic_dependencies.mp cycle)
  have some : (refs draft).filter (· ∉ ordered) ≠ [] := by
    intro none
    refine left ?_
    rw [h.rest, List.map_eq_nil_iff, List.filter_eq_nil_iff]
    intro ref declared
    exact List.filter_eq_nil_iff.mp none ref (List.mem_dedup.mp declared)
  obtain ⟨x, inside, ready⟩ := exists_ready acyclic' some
  obtain ⟨declared, fresh⟩ := List.mem_filter.mp inside
  refine List.ne_nil_of_mem (h.mem_ready.mpr ⟨declared, by simpa using fresh, fun d needed => ?_⟩)
  by_contra absent
  exact ready d needed
    (List.mem_filter.mpr ⟨(mem_dependencies.mp needed).1, by simpa using absent⟩)

end Round

theorem takeLayers_ok {rounds : Nat} {remaining : List (PyStr × List PyStr)}
    {ordered order : List PyStr} (h : Layered draft remaining ordered)
    (returned : takeLayers rounds remaining ordered = .ok order) : Layered draft [] order := by
  induction rounds generalizing remaining ordered with
  | zero =>
    cases remaining with
    | nil =>
      cases returned
      exact h
    | cons entry rest => cases returned
  | succ rounds ih =>
    cases remaining with
    | nil =>
      cases returned
      exact h
    | cons entry rest =>
      rw [takeLayers] at returned
      split at returned
      · cases returned
      · rename_i some
        exact ih (h.round some).1 returned

theorem takeLayers_returns {rounds : Nat} {remaining : List (PyStr × List PyStr)}
    {ordered : List PyStr} (acyclic : ¬ HasCycle draft) (h : Layered draft remaining ordered)
    (enough : remaining.length ≤ rounds) :
    ∃ order, takeLayers rounds remaining ordered = .ok order := by
  induction rounds generalizing remaining ordered with
  | zero =>
    obtain rfl : remaining = [] := List.length_eq_zero_iff.mp (by omega)
    exact ⟨ordered, rfl⟩
  | succ rounds ih =>
    cases remaining with
    | nil => exact ⟨ordered, rfl⟩
    | cons entry rest =>
      have some := h.progress acyclic (by simp)
      obtain ⟨next, fewer⟩ := h.round some
      rw [takeLayers, if_neg some]
      exact ih next (by simp only [List.length_cons] at fewer enough ⊢; omega)

theorem layered_start :
    Layered draft ((refs draft).dedup.map fun ref => (ref, dependencies draft ref)) [] :=
  ⟨List.nodup_nil, by simp, dependenciesFirst_nil, by simp⟩

theorem topologicalNodes_ok {order : List PyStr} (returned : topologicalNodes draft = .ok order) :
    order.Nodup ∧ (∀ x, x ∈ order ↔ x ∈ refs draft) ∧
      DependenciesFirst (dependencies draft) order := by
  have h := takeLayers_ok layered_start returned
  refine ⟨h.nodup, fun x => ⟨fun here => h.subset here, fun declared => ?_⟩, h.first⟩
  have none := List.map_eq_nil_iff.mp h.rest.symm
  by_contra absent
  exact List.filter_eq_nil_iff.mp none x (List.mem_dedup.mpr declared) (by simpa using absent)

theorem topologicalNodes_raises_iff :
    (∃ e, topologicalNodes draft = .error e) ↔ HasCycle draft := by
  constructor
  · rintro ⟨e, raised⟩
    by_contra acyclic
    obtain ⟨order, returned⟩ := takeLayers_returns acyclic layered_start
      (le_of_eq (List.length_map (fun ref => (ref, dependencies draft ref))))
    rw [topologicalNodes, returned] at raised
    cases raised
  · intro cycle
    cases result : topologicalNodes draft with
    | error e => exact ⟨e, rfl⟩
    | ok order =>
      obtain ⟨-, complete, first⟩ := topologicalNodes_ok result
      refine absurd (cyclic_dependencies.mpr cycle) (first.not_cyclic fun x some => ?_)
      obtain ⟨d, needed⟩ := List.exists_mem_of_ne_nil _ some
      exact (complete x).mpr (mem_dependencies.mp needed).2.1

end RepoForge.IssueGraph
