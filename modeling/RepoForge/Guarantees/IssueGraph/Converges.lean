import RepoForge.Guarantees.IssueGraph.MatchersAgree
import RepoForge.Spec.IssueGraph.PlanReturns

/-!
# Where publication converges

A plan resolves every reference that it uses, and leaves every node the blockers that are desired.
For a node without a desired parent it has no step, and of several live parents of a node it sees
one; so `publication_converges`: the desired parents come out exactly if no node without a desired
parent has a live one, and none has a live parent besides the desired one and the one that
`parent_map` keeps.
-/
namespace RepoForge.IssueGraph
open PyStr (lit sortedDistinct)

variable {R : Runtime} {created : PyStr → {number : Int // 0 < number}} {remote remote' : Remote}
  {graph : PublicationLiveGraph} {draft : IssueGraphDraft} {proposal : IssueGraphProposal R}
  {identity : IssueGraphIdentity} {adoptRefs order : List PyStr}
  {provider : PublicationProviderIdentity} {createdAt expiresAt ref child parent source : PyStr}
  {plan : IssueGraphPublicationPlan R} {rendered : List (PyStr × PyStr)}

/-- A proposal of a draft without findings, with the order in which it is published. -/
def ValidProposal (proposal : IssueGraphProposal R) : Prop :=
  validateGraph proposal.draft = [] ∧ ∃ order, topologicalNodes proposal.draft = .ok order ∧
    proposal.publicationOrder = publicationOrder proposal.draft order

/-- The relations of the live graph are between desired references. -/
def Connected (draft : IssueGraphDraft) (graph : PublicationLiveGraph) : Prop :=
  ∀ pair ∈ graph.parentByRef ++ graph.blockedByRefs, pair.1 ∈ refs draft ∧ pair.2 ∈ refs draft

/-- The references that a step has to resolve. -/
def usedRefs (step : StepIntent) : List PyStr :=
  if step.kind = .createNode then [] else step.sourceRef :: step.targetRef.toList

structure Converges (created : PyStr → {number : Int // 0 < number}) (draft : IssueGraphDraft)
    (graph : PublicationLiveGraph) (plan : IssueGraphPublicationPlan R) : Prop where
  /-- A reference is in the initial mapping, or created before it is used. -/
  resolved : ∀ before step after, plan.steps = before ++ step :: after →
    ∀ ref ∈ usedRefs step.toStepIntent, ref ∈ plan.initialMapping.map (·.1) ∨
      ∃ earlier ∈ before, earlier.kind = .createNode ∧ earlier.sourceRef = ref
  /-- The steps are executed, and each node has the desired parent and blockers. -/
  reached : ∃ remote, executeSteps created (remoteOf graph plan.initialMapping)
      (plan.steps.map (·.toStepIntent)) = some remote ∧
    ∀ node ∈ draft.nodes,
      (∀ parent, (node.clientRef, parent) ∈ remote.parents ↔ node.parentRef = some parent) ∧
      ∀ blocker, (node.clientRef, blocker) ∈ remote.blockers ↔
        ∃ edge ∈ draft.edges, edge.kind = .blockedBy ∧ edge.sourceRef = node.clientRef ∧
          edge.targetRef = blocker

/-- A live parent of a node is the desired one, or a parent is desired and it is the one that
`parent_map` keeps. -/
def ParentsSeen (draft : IssueGraphDraft) (graph : PublicationLiveGraph) : Prop :=
  ∀ node ∈ draft.nodes, ∀ parent, (node.clientRef, parent) ∈ graph.parentByRef →
    ∃ wanted, node.parentRef = some wanted ∧
      (parent = wanted ∨ lastOf graph.parentByRef node.clientRef = some parent)

/-! ### The order -/

theorem nodeOrder_publicationOrder : nodeOrder (publicationOrder draft order) = order := by
  have nodes : ∀ refs : List PyStr, nodeOrder (refs.map (lit "node:" ++ ·)) = refs := by
    intro refs
    induction refs with
    | nil => rfl
    | cons ref rest ih =>
      have first : (lit "node:").isPrefixOf (lit "node:" ++ ref) = true := by
        simp [List.isPrefixOf_iff_prefix]
      simp only [nodeOrder, List.map_cons, List.filter_cons, first, if_true] at ih ⊢
      rw [ih, List.drop_left]
  have others : ∀ items : List PyStr, (∀ item ∈ items, item.head? ≠ some (.scalar 'n')) →
      nodeOrder items = [] := by
    intro items each
    rw [nodeOrder, List.map_eq_nil_iff, List.filter_eq_nil_iff]
    intro item here begins
    have start := List.isPrefixOf_iff_prefix.mp begins
    obtain ⟨tail, rfl⟩ := start
    exact each _ here rfl
  have appended : ∀ first second : List PyStr,
      nodeOrder (first ++ second) = nodeOrder first ++ nodeOrder second := by
    intro first second
    simp [nodeOrder]
  rw [publicationOrder, appended, appended, appended, nodes]
  have parents : nodeOrder (parentSteps draft order) = [] := by
    apply others
    intro item here
    simp only [parentSteps, List.mem_flatMap, List.mem_map] at here
    obtain ⟨node, -, parent, -, rfl⟩ := here
    exact (by decide +kernel : (lit "parent:").head? ≠ some (.scalar 'n'))
  have edges : nodeOrder (edgeSteps draft order) = [] := by
    apply others
    intro item here
    simp only [edgeSteps, List.mem_map] at here
    obtain ⟨edge, -, rfl⟩ := here
    cases edge.kind
    · exact (by decide +kernel : (lit "blocked_by").head? ≠ some (.scalar 'n'))
    · exact (by decide +kernel : (lit "relates").head? ≠ some (.scalar 'n'))
    · exact (by decide +kernel : (lit "supersedes").head? ≠ some (.scalar 'n'))
  have last : nodeOrder [lit "checklist:" ++ draft.rootRef] = [] := by
    apply others
    intro item here
    rw [List.mem_singleton.mp here]
    exact (by decide +kernel : (lit "checklist:").head? ≠ some (.scalar 'n'))
  rw [parents, edges, last, List.append_nil, List.append_nil, List.append_nil]

theorem ValidProposal.covers (valid : ValidProposal proposal) :
    (nodeOrder proposal.publicationOrder).Nodup ∧
      ∀ ref, ref ∈ nodeOrder proposal.publicationOrder ↔ ref ∈ refs proposal.draft := by
  obtain ⟨-, order, sorted, eq⟩ := valid
  rw [eq, nodeOrder_publicationOrder]
  obtain ⟨once, complete, -⟩ := topologicalNodes_ok sorted
  exact ⟨once, complete⟩

theorem planIssueGraph_valid {liveIssues : List LiveIssueCandidate}
    (planned : planIssueGraph R draft identity liveIssues createdAt expiresAt = .ok proposal) :
    ValidProposal proposal := by
  obtain ⟨-, -, accepted, -, order, sorted, -, fields⟩ := planIssueGraph_eq_ok planned
  rw [ValidProposal, fields]
  exact ⟨accepted, order, sorted, rfl⟩

/-! ### The phases -/

/-- Phase A: what is not live is created, and nothing loses its number. -/
theorem creates_run {creates : List (List StepIntent)}
    (made : List.Forall₂ (fun ref list => createIntents draft graph ref = .ok list) order creates) :
    ∃ mapping, executeSteps created remote creates.flatten =
        some { remote with mapping := mapping } ∧
      (∀ ref, Resolves remote ref → Resolves { remote with mapping := mapping } ref) ∧
      ∀ ref ∈ order, liveByRef graph ref = none →
        Resolves { remote with mapping := mapping } ref := by
  induction made generalizing remote with
  | nil => exact ⟨remote.mapping, rfl, fun _ known => known, fun _ here => by cases here⟩
  | @cons ref list order lists first _ ih =>
    obtain ⟨node, -, first⟩ := bind_ok first
    split at first
    · rename_i missing
      cases first
      let next : Remote := { remote with
        mapping := PyDict.assign remote.mapping ref (created ref) }
      have assigned : Resolves next ref :=
        ⟨created ref, by simp [next, PyDict.get_assign], (created ref).2⟩
      have kept : ∀ other, Resolves remote other → Resolves next other := by
        intro other known
        by_cases same : other = ref
        · exact same ▸ assigned
        · simpa [Resolves, next, PyDict.get_assign, same] using known
      obtain ⟨mapping, run, later, rest⟩ := @ih next
      refine ⟨mapping, ?_, fun other known => later other (kept other known), ?_⟩
      · rw [List.flatten_cons, executeSteps_append]
        exact run
      · intro other here absent
        rcases List.mem_cons.mp here with rfl | here
        · exact later other assigned
        · exact rest other here absent
    · rename_i live
      cases first
      obtain ⟨mapping, run, later, rest⟩ := @ih remote
      refine ⟨mapping, by simpa using run, later, ?_⟩
      intro other here absent
      rcases List.mem_cons.mp here with rfl | here
      · rw [live] at absent
        cases absent
      · exact rest other here absent

theorem bodyIntent_ok {otherwise : PublicationStepKind} {intent : StepIntent}
    (kind : otherwise = .updateNode ∨ otherwise = .updateEpic)
    (h : bodyIntent draft graph rendered otherwise ref = .ok intent) :
    intent.sourceRef = ref ∧ intent.targetRef = none ∧
      (intent.kind = .updateNode ∨ intent.kind = .adoptNode ∨ intent.kind = .updateEpic) := by
  obtain ⟨node, -, h⟩ := bind_ok h
  obtain ⟨body, -, h⟩ := bind_ok h
  cases h
  refine ⟨rfl, rfl, ?_⟩
  simp only [bodyKind]
  split
  · split_ifs <;> rcases kind with rfl | rfl <;> simp
  · rcases kind with rfl | rfl <;> simp

/-- A body is published where its reference resolves, and changes no relation. -/
theorem body_run {step : StepIntent} (known : Resolves remote step.sourceRef)
    (kind : step.kind = .updateNode ∨ step.kind = .adoptNode ∨ step.kind = .updateEpic) :
    executeStep created remote step = some remote := by
  obtain ⟨number, found⟩ := @resolvedNumber_of remote step _ known
  unfold executeStep
  rcases kind with kind | kind | kind <;> simp [kind, found]

theorem mem_updates {updates : List (List StepIntent)} {step : StepIntent}
    (made : List.Forall₂ (fun ref list => updateIntents draft graph rendered ref = .ok list)
      order updates) (here : step ∈ updates.flatten) :
    step.sourceRef ∈ order ∧ step.targetRef = none ∧
      (step.kind = .updateNode ∨ step.kind = .adoptNode ∨ step.kind = .updateEpic) := by
  obtain ⟨list, there, here⟩ := List.mem_flatten.mp here
  obtain ⟨ref, listed, made⟩ := forall₂_mem made.flip there
  unfold updateIntents at made
  split at made
  · cases made
    cases here
  · obtain ⟨intent, ok, made⟩ := bind_ok made
    cases made
    obtain ⟨source, target, kind⟩ := bodyIntent_ok (.inl rfl) ok
    rw [List.mem_singleton.mp here, source]
    exact ⟨listed, target, kind⟩

theorem bodies_run {steps : List StepIntent} (each : ∀ step ∈ steps,
    Resolves remote step.sourceRef ∧
      (step.kind = .updateNode ∨ step.kind = .adoptNode ∨ step.kind = .updateEpic)) :
    executeSteps created remote steps = some remote := by
  induction steps with
  | nil => rfl
  | cons step rest ih =>
    obtain ⟨known, kind⟩ := each step List.mem_cons_self
    rw [executeSteps, List.foldlM_cons, body_run known kind]
    exact ih fun other here => each other (List.mem_cons_of_mem _ here)

/-- A step about the parent of a node is between declared references. -/
theorem mem_parentIntents (accepted : validateGraph draft = []) (connected : Connected draft graph)
    {node : IssueNodeDraft} (inside : node ∈ draft.nodes) {step : StepIntent}
    (here : step ∈ parentIntents graph node) :
    step.targetRef = some node.clientRef ∧ step.sourceRef ∈ refs draft ∧
      (step.kind = .addSubIssue ∨ step.kind = .removeSubIssue) := by
  unfold parentIntents at here
  split at here
  · cases here
  · rename_i wanted has
    rw [List.mem_append] at here
    rcases here with here | here
    · split at here
      · rename_i other current
        split_ifs at here
        · rw [List.mem_singleton.mp here]
          exact ⟨rfl, (connected _ (List.mem_append_left _ (lastOf_mem current))).2, .inr rfl⟩
        · cases here
      · cases here
    · split_ifs at here
      · rw [List.mem_singleton.mp here]
        exact ⟨rfl, parent_declared accepted inside has, .inl rfl⟩
      · cases here

/-- A step about what blocks an issue is between declared references. -/
theorem mem_dependencyIntents (accepted : validateGraph draft = [])
    (connected : Connected draft graph) {step : StepIntent}
    (here : step ∈ dependencyIntents draft graph source) :
    step.sourceRef = source ∧ source ∈ refs draft ∧
      (∃ target ∈ refs draft, step.targetRef = some target) ∧
      (step.kind = .addDependency ∨ step.kind = .removeDependency) := by
  have set : ∀ {target : PyStr} {items : List PyStr}, target ∈ sortedDistinct items ↔
      target ∈ items := by
    intro target items
    simp [sortedDistinct]
  have targets : ∀ {target : PyStr} {pairs : List (PyStr × PyStr)},
      target ∈ targetsOf pairs source ↔ (source, target) ∈ pairs := by
    intro target pairs
    simp [targetsOf]
  simp only [dependencyIntents, List.mem_append, List.mem_map, set, List.mem_filter,
    targets] at here
  rcases here with ⟨target, ⟨live, -⟩, rfl⟩ | ⟨target, ⟨wanted, -⟩, rfl⟩
  · have declared := connected _ (List.mem_append_right _ live)
    exact ⟨rfl, declared.1, ⟨target, declared.2, rfl⟩, .inr rfl⟩
  · obtain ⟨edge, listed, eq⟩ := List.mem_map.mp wanted
    cases eq
    have declared := edge_declared accepted (List.mem_filter.mp listed).1
    exact ⟨rfl, declared.1, ⟨_, declared.2, rfl⟩, .inl rfl⟩

/-! ### The relations -/

/-- After all steps about parents, a node has the desired one, and of its live ones those that its
own steps leave. -/
theorem mem_parentPhase (accepted : validateGraph draft = []) (connected : Connected draft graph)
    (same : remote.parents = graph.parentByRef) {node : IssueNodeDraft}
    (inside : node ∈ draft.nodes) :
    (node.clientRef, parent) ∈ (relateAll remote (parentPhase draft graph)).parents ↔
      node.parentRef = some parent ∨ (node.clientRef, parent) ∈ graph.parentByRef ∧
        (node.parentRef = none ∨ lastOf graph.parentByRef node.clientRef ≠ some parent) := by
  have unique := refs_nodup accepted
  have sorted : node ∈ sortBy (fun node : IssueNodeDraft => node.clientRef) draft.nodes :=
    mem_sortBy.mpr inside
  obtain ⟨before, after, split⟩ := List.append_of_mem sorted
  have perm : (before ++ node :: after).Perm draft.nodes := split ▸ perm_sortBy
  have distinct : ((before ++ node :: after).map (·.clientRef)).Nodup :=
    (perm.map _).nodup_iff.mpr unique
  rw [List.map_append, List.map_cons, List.nodup_append] at distinct
  have apart : ∀ other, other ∈ before ∨ other ∈ after → other.clientRef ≠ node.clientRef := by
    rintro other (here | here) eq
    · exact distinct.2.2 _ (List.mem_map_of_mem here) _ List.mem_cons_self eq
    · exact (List.nodup_cons.mp distinct.2.1).1 (eq ▸ List.mem_map_of_mem here)
  have frame : ∀ nodes : List IssueNodeDraft, (∀ other ∈ nodes, other ∈ before ∨ other ∈ after) →
      ∀ step ∈ nodes.flatMap (parentIntents graph), ElseParent node.clientRef step := by
    intro nodes subset step here _
    obtain ⟨other, listed, here⟩ := List.mem_flatMap.mp here
    have member : other ∈ draft.nodes := by
      refine perm.mem_iff.mp ?_
      rcases subset other listed with there | there
      · exact List.mem_append_left _ there
      · exact List.mem_append_right _ (List.mem_cons_of_mem _ there)
    rw [(mem_parentIntents accepted connected member here).1]
    exact apart other (subset other listed)
  rw [parentPhase, split, List.flatMap_append, List.flatMap_cons, relateAll_append,
    relateAll_append, mem_parents_frame (frame after fun _ => .inr)]
  have start : ∀ p, (node.clientRef, p) ∈
      (relateAll remote (before.flatMap (parentIntents graph))).parents ↔
      (node.clientRef, p) ∈ graph.parentByRef := by
    intro p
    rw [mem_parents_frame (frame before fun _ => .inl), same]
  cases has : node.parentRef with
  | none =>
    have nothing : parentIntents graph node = [] := by simp [parentIntents, has]
    simp [nothing, relateAll, ← start]
  | some wanted =>
    rw [mem_parents_own has start]
    simp [eq_comm]

/-- The steps about parents change no blocker. -/
theorem mem_parentPhase_blockers (accepted : validateGraph draft = [])
    (connected : Connected draft graph) {blocker : PyStr} :
    (source, blocker) ∈ (relateAll remote (parentPhase draft graph)).blockers ↔
      (source, blocker) ∈ remote.blockers := by
  refine mem_blockers_frame fun step here dependency => ?_
  obtain ⟨node, listed, here⟩ := List.mem_flatMap.mp here
  obtain ⟨-, -, kind⟩ := mem_parentIntents accepted connected (mem_sortBy.mp listed) here
  rcases kind with kind | kind <;> simp [kind] at dependency

theorem mem_dependencyPhase_parents (accepted : validateGraph draft = [])
    (connected : Connected draft graph) :
    (child, parent) ∈ (relateAll remote (dependencyPhase draft graph)).parents ↔
      (child, parent) ∈ remote.parents := by
  refine mem_parents_frame fun step here hierarchy => ?_
  obtain ⟨source, -, here⟩ := List.mem_flatMap.mp here
  obtain ⟨-, -, -, kind⟩ := mem_dependencyIntents accepted connected here
  rcases kind with kind | kind <;> simp [kind] at hierarchy

/-- After all steps about dependencies, an issue is blocked by what is desired. -/
theorem mem_dependencyPhase (accepted : validateGraph draft = [])
    (connected : Connected draft graph) {blocker : PyStr}
    (same : ∀ b, (source, b) ∈ remote.blockers ↔ (source, b) ∈ graph.blockedByRefs) :
    (source, blocker) ∈ (relateAll remote (dependencyPhase draft graph)).blockers ↔
      (source, blocker) ∈ desiredBlockers draft := by
  have own : ∀ other, ∀ step ∈ dependencyIntents draft graph other, step.sourceRef = other :=
    fun other step here => (mem_dependencyIntents accepted connected here).1
  have frame : ∀ sources : List PyStr, source ∉ sources →
      ∀ step ∈ sources.flatMap (dependencyIntents draft graph), ElseBlocked source step := by
    intro sources absent step here _
    obtain ⟨other, listed, here⟩ := List.mem_flatMap.mp here
    rw [own other step here]
    exact fun eq => absent (eq ▸ listed)
  let sources := sortedDistinct (graph.blockedByRefs.map (·.1) ++ (desiredBlockers draft).map (·.1))
  have nodup : sources.Nodup :=
    (List.perm_insertionSort _ _).nodup_iff.mpr (List.nodup_dedup _)
  by_cases listed : source ∈ sources
  · obtain ⟨before, after, split⟩ := List.append_of_mem listed
    rw [split, List.nodup_append] at nodup
    have absent : source ∉ before := fun here =>
      nodup.2.2 source here source List.mem_cons_self rfl
    have absent' : source ∉ after := (List.nodup_cons.mp nodup.2.1).1
    have phase : dependencyPhase draft graph = before.flatMap (dependencyIntents draft graph) ++
        (dependencyIntents draft graph source ++
          after.flatMap (dependencyIntents draft graph)) := by
      rw [dependencyPhase, show sortedDistinct _ = before ++ source :: after from split,
        List.flatMap_append, List.flatMap_cons]
    rw [phase, relateAll_append, relateAll_append, mem_blockers_frame (frame after absent')]
    refine mem_blockers_own fun b => ?_
    rw [mem_blockers_frame (frame before absent), same]
  · rw [dependencyPhase, mem_blockers_frame (frame _ listed), same]
    have unlisted : source ∉ graph.blockedByRefs.map (·.1) ∧
        source ∉ (desiredBlockers draft).map (·.1) := by
      simpa [sources, sortedDistinct] using listed
    constructor
    · intro here
      exact absurd (List.mem_map_of_mem (f := (·.1)) here) unlisted.1
    · intro here
      exact absurd (List.mem_map_of_mem (f := (·.1)) here) unlisted.2

theorem mem_desiredBlockers {blocker : PyStr} : (source, blocker) ∈ desiredBlockers draft ↔
    ∃ edge ∈ draft.edges, edge.kind = .blockedBy ∧ edge.sourceRef = source ∧
      edge.targetRef = blocker := by
  simp [desiredBlockers, and_assoc]

/-! ### The run -/

/-- A live reference has its number from the start. -/
theorem initial_resolves {live : PublicationLiveNode} (listed : ref ∈ order)
    (found : liveByRef graph ref = some live) :
    ref ∈ (sortBy toLex (initialMapping graph order)).map (·.1) ∧
      Resolves (remoteOf graph (sortBy toLex (initialMapping graph order))) ref := by
  have inside : (ref, live.issueNumber) ∈ sortBy toLex (initialMapping graph order) :=
    mem_sortBy.mpr (List.mem_filterMap.mpr ⟨ref, listed, by simp [found]⟩)
  have key := List.mem_map_of_mem (f := (·.1)) inside
  obtain ⟨number, got⟩ := Option.isSome_iff_exists.mp (PyDict.get_isSome.mpr key)
  refine ⟨key, number, got, ?_⟩
  obtain ⟨owner, -, -, rfl⟩ := mem_initialMapping (mem_sortBy.mp (PyDict.mem_of_get got))
  have checked := owner.constructed
  simp only [LiveNodeFields.postInit, bind_require] at checked
  exact checked.2.1.1

/-- What the steps of a plan come to. -/
theorem plan_run (valid : ValidProposal proposal) (connected : Connected proposal.draft graph)
    (planned : buildPublicationPlan R proposal identity graph adoptRefs provider createdAt
      expiresAt = .ok plan) :
    ∃ remote, executeSteps created (remoteOf graph plan.initialMapping)
        (plan.steps.map (·.toStepIntent)) = some remote ∧
      ∀ node ∈ proposal.draft.nodes,
        (∀ parent, (node.clientRef, parent) ∈ remote.parents ↔
          node.parentRef = some parent ∨ (node.clientRef, parent) ∈ graph.parentByRef ∧
            (node.parentRef = none ∨
              lastOf graph.parentByRef node.clientRef ≠ some parent)) ∧
        ∀ blocker, (node.clientRef, blocker) ∈ remote.blockers ↔
          ∃ edge ∈ proposal.draft.edges, edge.kind = .blockedBy ∧
            edge.sourceRef = node.clientRef ∧ edge.targetRef = blocker := by
  obtain ⟨⟨phases, all⟩, mapping⟩ := buildPublicationPlan_ok planned
  obtain ⟨once, complete⟩ := valid.covers
  have accepted := valid.1
  rw [all, mapping]
  obtain ⟨full, creates, kept, fresh⟩ := @creates_run created (remoteOf graph (sortBy toLex
    (initialMapping graph (nodeOrder proposal.publicationOrder)))) _ _ _ _ phases.created
  let start : Remote := { remoteOf graph (sortBy toLex
    (initialMapping graph (nodeOrder proposal.publicationOrder))) with mapping := full }
  have resolves : ∀ ref ∈ refs proposal.draft, Resolves start ref := by
    intro ref declared
    have listed := (complete ref).mpr declared
    cases found : liveByRef graph ref with
    | none => exact fresh ref listed found
    | some live => exact kept ref (initial_resolves listed found).2
  have updates : executeSteps created start phases.updates.flatten = some start := by
    refine bodies_run fun step here => ?_
    obtain ⟨listed, -, kind⟩ := mem_updates phases.updated here
    exact ⟨resolves _ ((complete _).mp listed), kind⟩
  have parents : executeSteps created start (parentPhase proposal.draft graph) =
      some (relateAll start (parentPhase proposal.draft graph)) := by
    refine executeSteps_relations fun step here => ?_
    obtain ⟨node, listed, here⟩ := List.mem_flatMap.mp here
    have inside := mem_sortBy.mp listed
    obtain ⟨target, declared, kind⟩ := mem_parentIntents accepted connected inside here
    refine ⟨?_, resolves _ declared, node.clientRef, target,
      resolves _ (List.mem_map_of_mem inside)⟩
    rcases kind with kind | kind <;> rw [kind] <;> rfl
  have dependencies : executeSteps created (relateAll start (parentPhase proposal.draft graph))
      (dependencyPhase proposal.draft graph) = some (relateAll (relateAll start
        (parentPhase proposal.draft graph)) (dependencyPhase proposal.draft graph)) := by
    have resolves' : ∀ ref ∈ refs proposal.draft,
        Resolves (relateAll start (parentPhase proposal.draft graph)) ref := by
      intro ref declared
      simpa [Resolves] using resolves ref declared
    refine executeSteps_relations fun step here => ?_
    obtain ⟨source, -, here⟩ := List.mem_flatMap.mp here
    obtain ⟨own, declared, ⟨target, declared', eq⟩, kind⟩ :=
      mem_dependencyIntents accepted connected here
    refine ⟨?_, own ▸ resolves' _ declared, target, eq, resolves' _ declared'⟩
    rcases kind with kind | kind <;> rw [kind] <;> rfl
  have last : executeSteps created (relateAll (relateAll start (parentPhase proposal.draft graph))
      (dependencyPhase proposal.draft graph)) [phases.last] = some (relateAll (relateAll start
        (parentPhase proposal.draft graph)) (dependencyPhase proposal.draft graph)) := by
    obtain ⟨own, -, kind⟩ := bodyIntent_ok (.inr rfl) phases.finished
    refine bodies_run fun step here => ?_
    rw [List.mem_singleton.mp here, own]
    refine ⟨?_, kind⟩
    simpa [Resolves] using resolves _ (root_declared accepted)
  refine ⟨relateAll (relateAll start (parentPhase proposal.draft graph))
    (dependencyPhase proposal.draft graph), ?_,
    fun node inside => ⟨fun parent => ?_, fun blocker => ?_⟩⟩
  · rw [Phases.all, executeSteps_append, executeSteps_append, executeSteps_append,
      executeSteps_append, creates, Option.bind_some, updates, Option.bind_some, parents,
      Option.bind_some, dependencies, Option.bind_some, last]
  · rw [mem_dependencyPhase_parents accepted connected]
    exact mem_parentPhase accepted connected rfl inside
  · rw [← mem_desiredBlockers]
    refine mem_dependencyPhase accepted connected fun b => ?_
    exact mem_parentPhase_blockers accepted connected

theorem mem_creates {creates : List (List StepIntent)}
    (made : List.Forall₂ (fun ref list => createIntents draft graph ref = .ok list) order creates) :
    (∀ step ∈ creates.flatten, step.kind = .createNode) ∧
      ∀ ref ∈ order, liveByRef graph ref = none →
        ∃ step ∈ creates.flatten, step.kind = .createNode ∧ step.sourceRef = ref := by
  constructor
  · intro step here
    obtain ⟨list, there, here⟩ := List.mem_flatten.mp here
    obtain ⟨ref, -, made⟩ := forall₂_mem made.flip there
    obtain ⟨node, -, made⟩ := bind_ok made
    split at made
    · cases made
      rw [List.mem_singleton.mp here]
    · cases made
      cases here
  · intro ref listed missing
    obtain ⟨list, there, made⟩ := forall₂_mem made listed
    obtain ⟨node, -, made⟩ := bind_ok made
    rw [missing] at made
    cases made
    exact ⟨_, List.mem_flatten.mpr ⟨_, there, List.mem_singleton_self _⟩, rfl, rfl⟩

/-- After phase A, the steps are about declared references. -/
theorem Phases.declared (accepted : validateGraph draft = []) (connected : Connected draft graph)
    (complete : ∀ ref, ref ∈ order ↔ ref ∈ refs draft)
    (phases : Phases draft graph rendered order) {step : StepIntent}
    (here : step ∈ phases.updates.flatten ++ parentPhase draft graph ++
      dependencyPhase draft graph ++ [phases.last]) (used : ref ∈ usedRefs step) :
    ref ∈ refs draft := by
  have ends : ref = step.sourceRef ∨ step.targetRef = some ref := by
    unfold usedRefs at used
    split_ifs at used
    · cases used
    · simpa using used
  simp only [parentPhase, dependencyPhase, List.mem_append, List.mem_flatMap,
    List.mem_singleton] at here
  rcases here with ((here | ⟨node, listed, here⟩) | ⟨source, -, here⟩) | rfl
  · obtain ⟨listed, target, -⟩ := mem_updates phases.updated here
    rcases ends with rfl | found
    · exact (complete _).mp listed
    · rw [target] at found
      cases found
  · have inside := mem_sortBy.mp listed
    obtain ⟨target, declared, -⟩ := mem_parentIntents accepted connected inside here
    rcases ends with rfl | found
    · exact declared
    · rw [target] at found
      cases found
      exact List.mem_map_of_mem inside
  · obtain ⟨own, declared, ⟨target, declared', eq⟩, -⟩ :=
      mem_dependencyIntents accepted connected here
    rcases ends with rfl | found
    · exact own ▸ declared
    · rw [eq] at found
      cases found
      exact declared'
  · obtain ⟨own, target, -⟩ := bodyIntent_ok (.inr rfl) phases.finished
    rcases ends with rfl | found
    · exact own ▸ root_declared accepted
    · rw [target] at found
      cases found

/-- What a plan uses is live from the start, or created before. -/
theorem plan_resolved (valid : ValidProposal proposal) (connected : Connected proposal.draft graph)
    (planned : buildPublicationPlan R proposal identity graph adoptRefs provider createdAt
      expiresAt = .ok plan) {before after : List PlannedStep} {step : PlannedStep}
    (split : plan.steps = before ++ step :: after)
    (used : ref ∈ usedRefs step.toStepIntent) :
    ref ∈ plan.initialMapping.map (·.1) ∨
      ∃ earlier ∈ before, earlier.kind = .createNode ∧ earlier.sourceRef = ref := by
  obtain ⟨⟨phases, all⟩, mapping⟩ := buildPublicationPlan_ok planned
  obtain ⟨-, complete⟩ := valid.covers
  obtain ⟨creating, creator⟩ := mem_creates phases.created
  have other : step.kind ≠ .createNode := by
    intro kind
    simp [usedRefs, kind] at used
  -- The creations come first, so they are all before a step of another kind.
  have cut : before.map (·.toStepIntent) ++ (step.toStepIntent :: after.map (·.toStepIntent)) =
      phases.creates.flatten ++ (phases.updates.flatten ++ parentPhase proposal.draft graph ++
        dependencyPhase proposal.draft graph ++ [phases.last]) := by
    have whole := all
    rw [split, Phases.all] at whole
    simpa using whole
  obtain ⟨middle, earlier, rest⟩ : ∃ middle, before.map (·.toStepIntent) =
      phases.creates.flatten ++ middle ∧ phases.updates.flatten ++
        parentPhase proposal.draft graph ++ dependencyPhase proposal.draft graph ++
        [phases.last] = middle ++ (step.toStepIntent :: after.map (·.toStepIntent)) := by
    rcases List.append_eq_append_iff.mp cut with ⟨tail, longer, rest⟩ | ⟨tail, shorter, rest⟩
    · cases tail with
      | nil => exact ⟨[], by simpa using longer.symm, by simpa using rest.symm⟩
      | cons first tail =>
        rw [List.cons_append] at rest
        obtain ⟨rfl, -⟩ := List.cons.inj rest
        exact absurd (creating _ (by rw [longer]; simp)) other
    · exact ⟨tail, shorter, rest⟩
  have declared := phases.declared valid.1 connected complete (by rw [rest]; simp) used
  have listed := (complete ref).mpr declared
  cases found : liveByRef graph ref with
  | some live =>
    rw [mapping]
    exact .inl (initial_resolves listed found).1
  | none =>
    obtain ⟨intent, here, kind, own⟩ := creator ref listed found
    have inside : intent ∈ before.map (·.toStepIntent) := by
      rw [earlier]
      exact List.mem_append_left _ here
    obtain ⟨made, there, rfl⟩ := List.mem_map.mp inside
    exact .inr ⟨made, there, kind, own⟩

/-- For every valid proposal and every live graph between desired references, a plan converges
exactly if the parents of the live graph are seen by it. -/
theorem publication_converges (valid : ValidProposal proposal)
    (connected : Connected proposal.draft graph)
    (planned : buildPublicationPlan R proposal identity graph adoptRefs provider createdAt
      expiresAt = .ok plan) :
    Converges created proposal.draft graph plan ↔ ParentsSeen proposal.draft graph := by
  obtain ⟨remote, run, relations⟩ := @plan_run R created graph _ _ _ _ _ _ _ valid connected planned
  constructor
  · intro converges node inside parent live
    obtain ⟨remote', run', desired⟩ := converges.reached
    rw [run] at run'
    cases run'
    have wanted := (desired node inside).1 parent
    rw [(relations node inside).1 parent] at wanted
    cases has : node.parentRef with
    | none =>
      have absurd := wanted.mp (.inr ⟨live, .inl has⟩)
      rw [has] at absurd
      cases absurd
    | some wish =>
      refine ⟨wish, rfl, ?_⟩
      by_cases last : lastOf graph.parentByRef node.clientRef = some parent
      · exact .inr last
      · have same := wanted.mp (.inr ⟨live, .inr last⟩)
        rw [has] at same
        exact .inl (Option.some.inj same).symm
  · intro seen
    refine ⟨fun before step after split ref used =>
      plan_resolved valid connected planned split used, remote, run, fun node inside => ?_⟩
    refine ⟨fun parent => ?_, (relations node inside).2⟩
    rw [(relations node inside).1 parent]
    refine ⟨?_, .inl⟩
    rintro (has | ⟨live, unseen⟩)
    · exact has
    · obtain ⟨wish, has, same | last⟩ := seen node inside parent live
      · rw [has, same]
      · rcases unseen with none | unseen
        · rw [has] at none
          cases none
        · exact absurd last unseen

/-- A root, and a node without a parent. -/
def looseDraft : IssueGraphDraft where
  repoId := lit "repo"
  rootRef := lit "b"
  nodes :=
    [{ toNodeFields := sampleFields (lit "b") (lit "B") none, constructed := rootFields_accepted },
      { toNodeFields := sampleFields (lit "c") (lit "C") none, constructed := by decide +kernel }]
  edges := []
  constructed := by decide +kernel

/-- Both nodes are published, with these parents. -/
def looseGraph (parents : List (PyStr × PyStr)) : PublicationLiveGraph where
  nodes :=
    [{ clientRef := lit "b", issueNumber := 7, databaseId := 107, managed := true,
       title := lit "B", body := lit "text", constructed := by decide +kernel },
      { clientRef := lit "c", issueNumber := 8, databaseId := 108, managed := true,
        title := lit "C", body := lit "text", constructed := by decide +kernel }]
  parentByRef := parents
  blockedByRefs := []
  snapshotSha256 := sampleIdentity.liveSnapshotSha256
  constructed := by
    simp only [LiveGraphFields.postInit, bind_require, require_iff]
    decide +kernel

def sampleProvider : PublicationProviderIdentity where
  provider := lit "github"
  apiVersion := lit "2022-11-28"
  mediaType := lit "application/vnd.github+json"
  adapter := lit "Gateway"
  capabilityHash := List.replicate 64 (.scalar 'a')
  constructed := by decide +kernel

theorem looseDraft_plannable :
    Plannable readingRuntime looseDraft sampleIdentity sampleCreated sampleExpires where
  repository := rfl
  expires := ⟨1767225600000000, 1767312000000000, by decide +kernel, by decide +kernel, by decide⟩
  accepted := by decide +kernel
  titles := by decide +kernel
  stamps := by decide +kernel

/-- The draft is planned, and its publication on this graph. -/
theorem loose_planned {parents : List (PyStr × PyStr)}
    (addable : stepsAddable looseDraft (looseGraph parents) (perNode looseDraft
      [lit "b", lit "c"] (renderNode · looseDraft)) [lit "b", lit "c"] = true) :
    ∃ proposal plan, planIssueGraph readingRuntime looseDraft sampleIdentity [] sampleCreated
        sampleExpires = .ok proposal ∧ proposal.draft = looseDraft ∧
      buildPublicationPlan readingRuntime proposal sampleIdentity (looseGraph parents) []
        sampleProvider sampleCreated sampleExpires = .ok plan := by
  obtain ⟨proposal, planned⟩ := (plans_iff readingRuntime_sha256 readingRuntime_reads).mpr
    ⟨looseDraft_plannable, (by decide +kernel :
      (liveDelta readingRuntime looseDraft.nodes []).2 = [])⟩
  obtain ⟨-, -, -, -, order, sorted, -, fields⟩ := planIssueGraph_eq_ok planned
  have known : topologicalNodes looseDraft = .ok [lit "b", lit "c"] := by decide +kernel
  rw [known] at sorted
  cases sorted
  have capable : sampleProvider.payload.clean = true := by decide +kernel
  have adopted : adoptionFindings looseDraft (looseGraph parents) (sortedDistinct []) = [] :=
    (by decide +kernel : adoptionFindings looseDraft (looseGraph []) (sortedDistinct []) = [])
  obtain ⟨created, expires, first, second, later⟩ := looseDraft_plannable.expires
  obtain ⟨plan, made⟩ := @plan_returns readingRuntime (looseGraph parents) proposal sampleIdentity []
    sampleProvider sampleCreated sampleExpires readingRuntime_sha256
    (by rw [fields]; decide +kernel) rfl (by rw [fields]; exact adopted)
    (by rw [fields]; simpa [plannedFields, nodeOrder_publicationOrder] using addable)
    (fun _ here => by cases here) capable looseDraft_plannable.stamps created expires first second
    later
  exact ⟨proposal, plan, planned, by rw [fields]; rfl, made⟩

def sampleCreation (_ : PyStr) : {number : Int // 0 < number} := ⟨9, by decide⟩

/-- The live parent of a node that is to have none stays. -/
theorem publication_diverges : ∃ proposal plan,
    planIssueGraph readingRuntime looseDraft sampleIdentity [] sampleCreated sampleExpires =
      .ok proposal ∧
    buildPublicationPlan readingRuntime proposal sampleIdentity (looseGraph [(lit "c", lit "b")]) []
      sampleProvider sampleCreated sampleExpires = .ok plan ∧
    Connected proposal.draft (looseGraph [(lit "c", lit "b")]) ∧
    ¬ Converges sampleCreation proposal.draft (looseGraph [(lit "c", lit "b")]) plan := by
  obtain ⟨proposal, plan, planned, draft, made⟩ :=
    @loose_planned [(lit "c", lit "b")] (by decide +kernel)
  have connected : Connected proposal.draft (looseGraph [(lit "c", lit "b")]) := by
    rw [draft]
    unfold Connected
    decide +kernel
  refine ⟨proposal, plan, planned, made, connected, fun converges => ?_⟩
  obtain ⟨remote, run, relations⟩ := @plan_run readingRuntime sampleCreation _ _ _ _ _ _ _ _
    (planIssueGraph_valid planned) connected made
  obtain ⟨remote', run', desired⟩ := converges.reached
  rw [run] at run'
  cases run'
  rw [draft] at relations desired
  obtain ⟨node, inside, own, orphan⟩ : ∃ node ∈ looseDraft.nodes, node.clientRef = lit "c" ∧
      node.parentRef = none := by decide +kernel
  have left := ((relations node inside).1 (lit "b")).mpr (.inr ⟨by rw [own]; decide +kernel,
    .inl orphan⟩)
  rw [(desired node inside).1, orphan] at left
  cases left

theorem publication_converges_loose : ∃ proposal plan,
    buildPublicationPlan readingRuntime proposal sampleIdentity (looseGraph []) [] sampleProvider
      sampleCreated sampleExpires = .ok plan ∧
    Converges sampleCreation proposal.draft (looseGraph []) plan := by
  obtain ⟨proposal, plan, planned, -, made⟩ := @loose_planned [] (by decide +kernel)
  refine ⟨proposal, plan, made, ?_⟩
  refine (publication_converges (planIssueGraph_valid planned) ?_ made).mpr ?_
  · intro pair here
    cases here
  · intro node _ parent live
    cases live

end RepoForge.IssueGraph
