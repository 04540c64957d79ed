import RepoForge.Source.IssueGraph.Publication

/-!
# Which issue a reference claims

`claimed` assigns to each desired reference the last issue with its marker, and where there is none
the one issue with its title (`get_claimed`). The nodes of the live graph are these
(`liveTruth_nodes`).
-/
namespace RepoForge.IssueGraph
open PyStr (lit)

variable {R : Runtime} {gateway : Gateway} {draft : IssueGraphDraft} {recent : List RemoteIssue}
  {mapped : List (PyStr × RemoteIssue)} {ref : PyStr} {issue : RemoteIssue}

/-- The last issue with the marker of a reference. -/
def lastMarked (recent : List RemoteIssue) (ref : PyStr) : Option RemoteIssue :=
  recent.reverse.find? fun issue => markerRef issue = some ref

/-- The issues with a title. -/
def titled (recent : List RemoteIssue) (title : PyStr) : List RemoteIssue :=
  recent.filter fun issue => issue.title = title

/-! ### Desired references -/

theorem get_desired : PyDict.get (desired draft) ref = byRef draft ref := by
  rw [desired, PyDict.get_ofPairs, byRef, ← List.map_reverse, List.find?_map, Option.map_map]
  exact Option.map_id'

theorem byRef_isSome : (byRef draft ref).isSome = true ↔ ref ∈ refs draft := by
  simp [byRef, refs]

theorem mem_desired : ref ∈ (desired draft).map (·.1) ↔ ref ∈ refs draft := by
  rw [← PyDict.get_isSome, get_desired, byRef_isSome]

theorem byRef_eq (unique : (refs draft).Nodup) {node : IssueNodeDraft} (here : node ∈ draft.nodes) :
    byRef draft node.clientRef = some node := by
  obtain ⟨found, eq⟩ := Option.isSome_iff_exists.mp
    (byRef_isSome.mpr (List.mem_map_of_mem here))
  have same := List.find?_some eq
  have inside := List.mem_reverse.mp (List.mem_of_find?_eq_some eq)
  simp only [decide_eq_true_eq] at same
  rw [eq, List.inj_on_of_nodup_map unique inside here same]

theorem mem_of_byRef {node : IssueNodeDraft} (found : byRef draft ref = some node) :
    node ∈ draft.nodes ∧ node.clientRef = ref := by
  have same := List.find?_some found
  simp only [decide_eq_true_eq] at same
  exact ⟨List.mem_reverse.mp (List.mem_of_find?_eq_some found), same⟩

/-! ### Claims -/

theorem get_marked (declared : ref ∈ refs draft) :
    PyDict.get (PyDict.ofPairs (markedPairs draft recent)) ref = lastMarked recent ref := by
  rw [PyDict.get_ofPairs]
  induction recent with
  | nil => rfl
  | cons issue rest ih =>
    have split : markedPairs draft (issue :: rest) =
        markedPairs draft [issue] ++ markedPairs draft rest := by
      rw [markedPairs, markedPairs, markedPairs, ← List.filterMap_append, List.singleton_append]
    have last : lastMarked (issue :: rest) ref =
        (lastMarked rest ref).or (lastMarked [issue] ref) := by
      rw [lastMarked, List.reverse_cons, List.find?_append]
      rfl
    rw [split, List.reverse_append, List.find?_append, Option.map_or, ih, last]
    congr 1
    cases mark : markerRef issue with
    | none => simp [markedPairs, lastMarked, mark]
    | some other =>
      by_cases same : other = ref
      · subst same
        simp [markedPairs, lastMarked, mark, mem_desired, declared]
      · by_cases known : other ∈ refs draft
        · simp [markedPairs, lastMarked, mark, mem_desired, known, same]
        · simp [markedPairs, lastMarked, mark, mem_desired, known, same]

theorem get_marked_absent (unknown : ref ∉ refs draft) :
    PyDict.get (PyDict.ofPairs (markedPairs draft recent)) ref = none := by
  rw [PyDict.get_ofPairs, Option.map_eq_none_iff, List.find?_eq_none]
  intro pair here
  obtain ⟨issue, -, eq⟩ := List.mem_filterMap.mp (List.mem_reverse.mp here)
  cases mark : markerRef issue with
  | none => simp [mark] at eq
  | some other =>
    simp only [mark, mem_desired] at eq
    split_ifs at eq with known
    cases eq
    simpa using fun same : other = ref => unknown (same ▸ known)

/-- One round: nothing but the reference of the round is assigned, and only if it was not. -/
theorem get_adoptTitle {wanted : PyStr × IssueNodeDraft} {mapped' : List (PyStr × RemoteIssue)}
    (step : adoptTitle recent mapped wanted = .ok mapped') :
    (∀ ref, PyDict.get mapped' ref = (PyDict.get mapped ref).or
      (if ref = wanted.1 then (titled recent wanted.2.title).head? else none)) ∧
    (PyDict.get mapped wanted.1 = none → (titled recent wanted.2.title).length ≤ 1) := by
  unfold adoptTitle at step
  split at step
  · rename_i present
    cases step
    have some := PyDict.get_isSome.mpr present
    refine ⟨fun ref => ?_, fun absent => by simp [absent] at some⟩
    by_cases same : ref = wanted.1
    · subst same
      obtain ⟨found, eq⟩ := Option.isSome_iff_exists.mp some
      simp [eq]
    · simp [same]
  · rename_i absent
    have absent : PyDict.get mapped wanted.1 = none := by
      rw [← PyDict.get_isSome] at absent
      simpa using absent
    rw [← titled] at step
    split at step
    · rename_i nothing
      cases step
      refine ⟨fun ref => by simp [nothing], fun _ => by simp [nothing]⟩
    · rename_i issue single
      cases step
      refine ⟨fun ref => ?_, fun _ => by simp [single]⟩
      rw [PyDict.get_assign, single]
      by_cases same : ref = wanted.1
      · simp [same, absent]
      · simp [same]
    · cases step

/-- The loop over what is wanted, where no reference is wanted twice. -/
theorem get_adopted {items : List (PyStr × IssueNodeDraft)}
    {mapped' : List (PyStr × RemoteIssue)} (unique : (items.map (·.1)).Nodup)
    (loop : items.foldlM (adoptTitle recent) mapped = .ok mapped') :
    (∀ ref, PyDict.get mapped' ref = (PyDict.get mapped ref).or
      ((PyDict.get items ref).bind fun node => (titled recent node.title).head?)) ∧
    ∀ ref node, PyDict.get items ref = some node → PyDict.get mapped ref = none →
      (titled recent node.title).length ≤ 1 := by
  induction items generalizing mapped with
  | nil =>
    cases loop
    exact ⟨fun ref => by simp [PyDict.get_nil], fun ref node found => by cases found⟩
  | cons wanted rest ih =>
    rw [List.map_cons, List.nodup_cons] at unique
    rw [List.foldlM_cons] at loop
    obtain ⟨next, step, loop⟩ := bind_ok loop
    obtain ⟨here, single⟩ := get_adoptTitle step
    obtain ⟨later, singles⟩ := ih unique.2 loop
    have last : PyDict.get rest wanted.1 = none := by
      rw [← Option.not_isSome_iff_eq_none, PyDict.get_isSome]
      exact unique.1
    constructor
    · intro ref
      rw [later, here, PyDict.get_cons]
      by_cases same : wanted.1 = ref
      · subst same
        simp [last]
      · have other : ¬ ref = wanted.1 := fun h => same h.symm
        simp [same, other]
    · intro ref node found absent
      rw [PyDict.get_cons] at found
      split_ifs at found with same
      · cases found
        subst same
        exact single absent
      · have other : ¬ ref = wanted.1 := fun h => same h.symm
        exact singles ref node found (by simp [here, absent, other])

/-- A declared reference claims the last issue with its marker, and where there is none the one
with its title. -/
theorem get_claimed (returned : claimed draft recent = .ok mapped) :
    (∀ ref, PyDict.get mapped ref = (byRef draft ref).bind fun node =>
      (lastMarked recent ref).or (titled recent node.title).head?) ∧
    ∀ ref node, byRef draft ref = some node → lastMarked recent ref = none →
      (titled recent node.title).length ≤ 1 := by
  obtain ⟨each, singles⟩ := get_adopted (PyDict.ofPairs_nodup _) returned
  constructor
  · intro ref
    rw [each, ← desired, get_desired]
    cases found : byRef draft ref with
    | none =>
      have unknown : ref ∉ refs draft := by
        rw [← byRef_isSome, found]
        simp
      simp [get_marked_absent unknown]
    | some node =>
      have declared : ref ∈ refs draft := byRef_isSome.mp (by rw [found]; rfl)
      simp [get_marked declared]
  · intro ref node found unmarked
    have declared : ref ∈ refs draft := byRef_isSome.mp (by rw [found]; rfl)
    refine singles ref node (by rw [← desired, get_desired, found]) ?_
    rw [get_marked declared, unmarked]

theorem claimed_nodup (returned : claimed draft recent = .ok mapped) :
    (mapped.map (·.1)).Nodup := by
  have kept : ∀ (items : List (PyStr × IssueNodeDraft)) (mapped mapped' : List (PyStr × RemoteIssue)),
      (mapped.map (·.1)).Nodup → items.foldlM (adoptTitle recent) mapped = .ok mapped' →
      (mapped'.map (·.1)).Nodup := by
    intro items
    induction items with
    | nil =>
      intro mapped mapped' unique loop
      cases loop
      exact unique
    | cons wanted rest ih =>
      intro mapped mapped' unique loop
      rw [List.foldlM_cons] at loop
      obtain ⟨next, step, loop⟩ := bind_ok loop
      refine ih next mapped' ?_ loop
      unfold adoptTitle at step
      split at step
      · cases step
        exact unique
      · split at step
        · cases step
          exact unique
        · cases step
          exact PyDict.assign_nodup unique
        · cases step
  exact kept _ _ _ (PyDict.ofPairs_nodup _) returned

/-! ### The live graph -/

theorem built_ok {α : Type} {postInit : Except ProposalError Unit} {make : postInit = .ok () → α}
    {a : α} (h : built postInit make = .ok a) : ∃ passed, make passed = a := by
  cases postInit with
  | error e => cases h
  | ok u =>
    cases h
    exact ⟨rfl, rfl⟩

theorem truth_ok {α : Type} {x : Except ProposalError α} {a : α} (h : truth x = .ok a) :
    x = .ok a := by
  cases x with
  | error e => cases h
  | ok b =>
    cases h
    rfl

theorem liveNodeOf_ok {item : PyStr × RemoteIssue} {node : PublicationLiveNode}
    (h : liveNodeOf item = .ok node) :
    node.clientRef = item.1 ∧ node.issueNumber = item.2.issueNumber ∧
      node.managed = decide (markerRef item.2 = some item.1) := by
  obtain ⟨passed, rfl⟩ := built_ok h
  exact ⟨rfl, rfl, rfl⟩

/-- What a call that returns has read and made. -/
theorem liveTruth_ok {candidates : List LiveIssueCandidate} {graph : PublicationLiveGraph}
    {snapshot : PyStr} (returned : liveTruth R gateway draft = .ok (candidates, graph, snapshot)) :
    ∃ recent mapped, gateway.recentIssues = .ok (recent, false) ∧
      recent.mapM candidateOf = .ok candidates ∧ claimed draft recent = .ok mapped ∧
      (sortedItems mapped).mapM liveNodeOf = .ok graph.nodes := by
  obtain ⟨⟨recent, truncated⟩, read, returned⟩ := bind_ok returned
  cases truncated with
  | true => cases returned
  | false =>
    obtain ⟨-, -, returned⟩ := bind_ok returned
    obtain ⟨candidates', made, returned⟩ := bind_ok returned
    obtain ⟨mapped, mappedOk, returned⟩ := bind_ok returned
    obtain ⟨nodes, nodesOk, returned⟩ := bind_ok returned
    obtain ⟨relations, -, returned⟩ := bind_ok returned
    obtain ⟨snapshot', -, returned⟩ := bind_ok returned
    obtain ⟨graph', graphOk, returned⟩ := bind_ok returned
    obtain ⟨passed, rfl⟩ := built_ok (truth_ok graphOk)
    cases returned
    exact ⟨recent, mapped, read, truth_ok made, mappedOk, truth_ok nodesOk⟩

/-- The nodes of the live graph are the claims. -/
theorem mem_liveNodes {nodes : List PublicationLiveNode}
    (returned : claimed draft recent = .ok mapped)
    (made : (sortedItems mapped).mapM liveNodeOf = .ok nodes) :
    (∀ node ∈ nodes, ∃ issue, PyDict.get mapped node.clientRef = some issue ∧
      node.issueNumber = issue.issueNumber ∧
      node.managed = decide (markerRef issue = some node.clientRef)) ∧
    ∀ ref issue, PyDict.get mapped ref = some issue →
      ∃ node ∈ nodes, node.clientRef = ref ∧ node.issueNumber = issue.issueNumber ∧
        node.managed = decide (markerRef issue = some ref) := by
  have each := mapM_ok made
  constructor
  · intro node here
    obtain ⟨item, inside, ok⟩ := forall₂_mem each.flip here
    obtain ⟨ref, number, managed⟩ := liveNodeOf_ok ok
    refine ⟨item.2, ?_, number, ref ▸ managed⟩
    rw [ref]
    exact PyDict.get_of_mem (claimed_nodup returned) (mem_sortBy.mp inside)
  · intro ref issue found
    obtain ⟨node, here, ok⟩ := forall₂_mem each
      (mem_sortBy.mpr (PyDict.mem_of_get found) : (ref, issue) ∈ sortedItems mapped)
    exact ⟨node, here, liveNodeOf_ok ok⟩

end RepoForge.IssueGraph

/-!
## What the steps of a plan are for

Each loop of `build_issue_graph_publication_plan` adds the steps of its items one after the other
(`addEach_ok`), so a plan lists the creations, the updates, the parents, the dependencies and the
update of the root, in this order (`planSteps_ok`).
-/
namespace RepoForge.IssueGraph
open PyStr (lit sortedDistinct)

variable {R : Runtime} {graph : PublicationLiveGraph} {proposal : IssueGraphProposal R}
  {identity : IssueGraphIdentity} {adoptRefs : List PyStr}
  {provider : PublicationProviderIdentity} {createdAt expiresAt hash ref : PyStr}
  {plan : IssueGraphPublicationPlan R} {steps steps' : List PlannedStep}

theorem lifted_ok {α : Type} {x : Except ProposalError α} {a : α} (h : lifted x = .ok a) :
    x = .ok a := by
  cases x with
  | error e => cases h
  | ok b =>
    cases h
    rfl

theorem newStep_ok {ordinal : Nat} {intent : StepIntent} {step : PlannedStep}
    (h : newStep R hash ordinal intent = .ok step) : step.toStepIntent = intent := by
  obtain ⟨digest, -, h⟩ := bind_ok h
  obtain ⟨-, -, h⟩ := bind_ok h
  cases h
  rfl

theorem addSteps_ok {intents : List StepIntent} (h : addSteps R hash steps intents = .ok steps') :
    steps'.map (·.toStepIntent) = steps.map (·.toStepIntent) ++ intents := by
  unfold addSteps at h
  induction intents generalizing steps with
  | nil =>
    cases h
    simp
  | cons intent rest ih =>
    rw [List.foldlM_cons] at h
    obtain ⟨next, step, h⟩ := bind_ok h
    obtain ⟨made, new, step⟩ := bind_ok step
    cases step
    rw [ih h]
    simp [newStep_ok new]

theorem addEach_ok {α : Type} {intents : α → Except ProposalError (List StepIntent)}
    {items : List α} (h : addEach R hash intents steps items = .ok steps') :
    ∃ lists, List.Forall₂ (fun item list => intents item = .ok list) items lists ∧
      steps'.map (·.toStepIntent) = steps.map (·.toStepIntent) ++ lists.flatten := by
  unfold addEach at h
  induction items generalizing steps with
  | nil =>
    cases h
    exact ⟨[], .nil, by simp⟩
  | cons item rest ih =>
    rw [List.foldlM_cons] at h
    obtain ⟨next, step, h⟩ := bind_ok h
    obtain ⟨list, made, step⟩ := bind_ok step
    obtain ⟨lists, each, all⟩ := ih h
    refine ⟨list :: lists, .cons made each, ?_⟩
    rw [all, addSteps_ok step, List.flatten_cons, List.append_assoc]

theorem addEach_total {α : Type} {intents : α → List StepIntent} {items : List α}
    (h : addEach R hash (fun item => .ok (intents item)) steps items = .ok steps') :
    steps'.map (·.toStepIntent) = steps.map (·.toStepIntent) ++ items.flatMap intents := by
  obtain ⟨lists, each, all⟩ := addEach_ok h
  have same : lists = items.map intents := by
    clear all h
    induction each with
    | nil => rfl
    | cons made _ ih =>
      cases made
      rw [List.map_cons, ih]
  rw [all, same, List.flatMap_def]

/-- The intents of a plan, loop by loop. -/
structure Phases (draft : IssueGraphDraft) (graph : PublicationLiveGraph)
    (rendered : List (PyStr × PyStr)) (order : List PyStr) where
  creates : List (List StepIntent)
  updates : List (List StepIntent)
  last : StepIntent
  created : List.Forall₂ (fun ref list => createIntents draft graph ref = .ok list) order creates
  updated : List.Forall₂ (fun ref list => updateIntents draft graph rendered ref = .ok list)
    order updates
  finished : bodyIntent draft graph rendered .updateEpic draft.rootRef = .ok last

def parentPhase (draft : IssueGraphDraft) (graph : PublicationLiveGraph) : List StepIntent :=
  (sortBy (fun node : IssueNodeDraft => node.clientRef) draft.nodes).flatMap (parentIntents graph)

def dependencyPhase (draft : IssueGraphDraft) (graph : PublicationLiveGraph) : List StepIntent :=
  (sortedDistinct (graph.blockedByRefs.map (·.1) ++ (desiredBlockers draft).map (·.1))).flatMap
    (dependencyIntents draft graph)

def Phases.all {draft : IssueGraphDraft} {rendered : List (PyStr × PyStr)} {order : List PyStr}
    (phases : Phases draft graph rendered order) : List StepIntent :=
  phases.creates.flatten ++ phases.updates.flatten ++ parentPhase draft graph ++
    dependencyPhase draft graph ++ [phases.last]

theorem relationPairs_ok {pairs found : List (PyStr × PyStr)}
    (h : relationPairs pairs = .ok found) : found = pairs := by
  obtain ⟨-, -, h⟩ := bind_ok h
  cases h
  rfl

theorem planSteps_ok (h : planSteps R graph proposal = .ok steps) :
    ∃ phases : Phases proposal.draft graph proposal.renderedNodes
        (nodeOrder proposal.publicationOrder),
      steps.map (·.toStepIntent) = phases.all := by
  obtain ⟨first, created, h⟩ := bind_ok h
  obtain ⟨second, updated, h⟩ := bind_ok h
  obtain ⟨-, -, h⟩ := bind_ok h
  obtain ⟨third, parents, h⟩ := bind_ok h
  obtain ⟨blockers, same, h⟩ := bind_ok h
  obtain rfl := relationPairs_ok same
  obtain ⟨fourth, dependencies, h⟩ := bind_ok h
  obtain ⟨last, finished, h⟩ := bind_ok h
  obtain ⟨creates, created, one⟩ := addEach_ok created
  obtain ⟨updates, updated, two⟩ := addEach_ok updated
  refine ⟨⟨creates, updates, last, created, updated, finished⟩, ?_⟩
  rw [addSteps_ok h, addEach_total dependencies, addEach_total parents, two, one]
  rfl

theorem buildPublicationPlan_ok
    (h : buildPublicationPlan R proposal identity graph adoptRefs provider createdAt expiresAt =
      .ok plan) :
    (∃ phases : Phases proposal.draft graph proposal.renderedNodes
        (nodeOrder proposal.publicationOrder),
      plan.steps.map (·.toStepIntent) = phases.all) ∧
    plan.initialMapping =
      sortBy toLex (initialMapping graph (nodeOrder proposal.publicationOrder)) := by
  unfold buildPublicationPlan at h
  simp only at h
  split at h
  · cases h
  · split at h
    · cases h
    · split at h
      · cases h
      · obtain ⟨steps, planned, h⟩ := bind_ok h
        obtain ⟨digest, -, h⟩ := bind_ok h
        obtain ⟨passed, rfl⟩ := built_ok (lifted_ok h)
        exact ⟨planSteps_ok (lifted_ok planned), rfl⟩

/-! ### Issue numbers -/

theorem mem_of_liveByRef {live : PublicationLiveNode} (found : liveByRef graph ref = some live) :
    live ∈ graph.nodes ∧ live.clientRef = ref := by
  have same := List.find?_some found
  simp only [decide_eq_true_eq] at same
  exact ⟨List.mem_of_find?_eq_some found, same⟩

theorem mem_initialMapping {order : List PyStr} {pair : PyStr × Int}
    (here : pair ∈ initialMapping graph order) :
    ∃ live ∈ graph.nodes, live.clientRef = pair.1 ∧ live.issueNumber = pair.2 := by
  obtain ⟨ref, -, eq⟩ := List.mem_filterMap.mp here
  obtain ⟨live, found, rfl⟩ := Option.map_eq_some_iff.mp eq
  exact ⟨live, (mem_of_liveByRef found).1, (mem_of_liveByRef found).2, rfl⟩

/-- An issue number is expected for a reference only if it is that of its live node. -/
def ExpectsLive (graph : PublicationLiveGraph) (intent : StepIntent) : Prop :=
  ∀ number, intent.expectedIssueNumber = some number →
    ∃ live ∈ graph.nodes, live.clientRef = intent.sourceRef ∧ live.issueNumber = number

theorem bodyIntent_expects {draft : IssueGraphDraft} {rendered : List (PyStr × PyStr)}
    {otherwise : PublicationStepKind} {intent : StepIntent}
    (h : bodyIntent draft graph rendered otherwise ref = .ok intent) :
    ExpectsLive graph intent := by
  obtain ⟨node, -, h⟩ := bind_ok h
  obtain ⟨body, -, h⟩ := bind_ok h
  cases h
  intro number expected
  obtain ⟨live, found, rfl⟩ := Option.map_eq_some_iff.mp expected
  exact ⟨live, (mem_of_liveByRef found).1, (mem_of_liveByRef found).2, rfl⟩

theorem parentIntents_expects {node : IssueNodeDraft} {intent : StepIntent}
    (here : intent ∈ parentIntents graph node) : intent.expectedIssueNumber = none := by
  unfold parentIntents at here
  split at here
  · cases here
  · rw [List.mem_append] at here
    rcases here with here | here
    · split at here
      · split_ifs at here
        · rw [List.mem_singleton.mp here]
        · cases here
      · cases here
    · split_ifs at here
      · rw [List.mem_singleton.mp here]
      · cases here

theorem dependencyIntents_expects {draft : IssueGraphDraft} {source : PyStr} {intent : StepIntent}
    (here : intent ∈ dependencyIntents draft graph source) :
    intent.expectedIssueNumber = none := by
  simp only [dependencyIntents, List.mem_append, List.mem_map] at here
  rcases here with ⟨target, -, rfl⟩ | ⟨target, -, rfl⟩
  · rfl
  · rfl

theorem Phases.expects {draft : IssueGraphDraft} {rendered : List (PyStr × PyStr)}
    {order : List PyStr} (phases : Phases draft graph rendered order) {intent : StepIntent}
    (here : intent ∈ phases.all) : ExpectsLive graph intent := by
  have silent : intent.expectedIssueNumber = none → ExpectsLive graph intent := by
    intro none number expected
    rw [none] at expected
    cases expected
  simp only [Phases.all, parentPhase, dependencyPhase, List.mem_append, List.mem_flatten,
    List.mem_flatMap, List.mem_singleton] at here
  rcases here with (((⟨list, there, here⟩ | ⟨list, there, here⟩) | ⟨node, -, here⟩) |
    ⟨source, -, here⟩) | rfl
  · obtain ⟨ref, -, made⟩ := forall₂_mem phases.created.flip there
    obtain ⟨node, -, made⟩ := bind_ok made
    split at made
    · cases made
      rw [List.mem_singleton.mp here] at silent ⊢
      exact silent rfl
    · cases made
      cases here
  · obtain ⟨ref, -, made⟩ := forall₂_mem phases.updated.flip there
    unfold updateIntents at made
    split at made
    · cases made
      cases here
    · obtain ⟨intent', ok, made⟩ := bind_ok made
      cases made
      rw [List.mem_singleton.mp here]
      exact bodyIntent_expects ok
  · exact silent (parentIntents_expects here)
  · exact silent (dependencyIntents_expects here)
  · exact bodyIntent_expects phases.finished

end RepoForge.IssueGraph
