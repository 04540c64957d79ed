import RepoForge.Spec.Tickets.Readiness

/-!
# Blocker cycles

`_cycle_nodes` records the part of its stack that a back edge closes, and passes by what it is
done with. So an issue on a cycle is not always reported: `missed_on_cycle` is a graph in which
the way back from an issue leads over one that the search is done with.
`circular_exact_iff` says which graphs have all of their cycles reported.
-/
namespace RepoForge.Tickets

variable {graph : TicketGraph} {number : Int}

/-- A blocker of `a` that is an issue of the graph. -/
def BlockedBy (graph : TicketGraph) (a b : Int) : Prop :=
  ∃ node ∈ graph.nodes, node.number = a ∧ b ∈ node.blockers ∧ b ∈ graph.nodes.map (·.number)

def OnBlockerCycle (graph : TicketGraph) (number : Int) : Prop :=
  Relation.TransGen (BlockedBy graph) number number

def ReportedCircular (graph : TicketGraph) (number : Int) : Prop :=
  ∃ d ∈ validateTicketGraph graph, d.code = .circularDependency ∧ d.issueNumber = number

/-- When the search enters the issue, it leads back to itself or to the stack through issues that
the search has not entered before. -/
def LeadsBack (graph : TicketGraph) (number : Int) : Prop :=
  ∃ a ∈ (cycleSearch graph.nodes).arrivals, a.node = number ∧ a.Returns (knownBlockers graph.nodes)

theorem duplicateDiagnostics_code {d : TicketDiagnostic} (h : d ∈ duplicateDiagnostics graph) :
    d.code = .duplicateId := by
  simp only [duplicateDiagnostics, List.mem_flatMap] at h
  obtain ⟨number, -, h⟩ := h
  split at h
  · simp_all
  · cases h

theorem programDiagnostics_code {nodes : List TicketNode} {programIssue : Int}
    {d : TicketDiagnostic} (h : d ∈ programDiagnostics nodes programIssue) :
    d.code ≠ .circularDependency := by
  unfold programDiagnostics at h
  split at h
  · simp_all
  · split at h
    · simp_all
    · cases h

theorem nodeDiagnostics_code {nodes : List TicketNode} {node : TicketNode} {d : TicketDiagnostic}
    (h : d ∈ nodeDiagnostics nodes node) : d.code ≠ .circularDependency := by
  simp only [nodeDiagnostics, List.mem_append, List.mem_flatMap] at h
  rcases h with (h | ⟨blocker, -, h⟩) | ⟨blocked, -, h⟩
  · unfold parentDiagnostics at h
    split at h
    · cases h
    · split at h
      · simp_all
      · cases h
  · unfold blockerDiagnostics at h
    split at h
    · simp_all
    · split at h
      · simp_all
      · cases h
  · unfold blockedDiagnostics at h
    split at h
    · simp_all
    · split at h
      · simp_all
      · cases h

theorem driftDiagnostics_code {nodes : List TicketNode} {node : TicketNode} {d : TicketDiagnostic}
    (h : d ∈ driftDiagnostics nodes node) : d.code ≠ .circularDependency := by
  simp only [driftDiagnostics] at h
  split at h
  · simp_all
  · cases h

/-- The issues that the search records are those that are reported. -/
theorem reported_iff (unique : (graph.nodes.map (·.number)).Nodup) :
    ReportedCircular graph number ↔ number ∈ cycleNodes graph.nodes := by
  simp only [ReportedCircular, validateTicketGraph, mem_sortedDiagnostics, List.mem_append,
    List.mem_flatMap, firstNodes_of_unique unique]
  constructor
  · rintro ⟨d, ((((h | h) | ⟨node, -, h⟩) | ⟨node, -, h⟩) | h), code, rfl⟩
    · rw [duplicateDiagnostics_code h] at code
      cases code
    · exact absurd code (programDiagnostics_code h)
    · exact absurd code (nodeDiagnostics_code h)
    · exact absurd code (driftDiagnostics_code h)
    · simp only [cycleDiagnostics, List.mem_map, mem_sortedNumbers, List.mem_dedup] at h
      obtain ⟨number, found, rfl⟩ := h
      exact found
  · intro found
    refine ⟨⟨.circularDependency, number, "ticket participates in a blocker cycle"⟩, .inr ?_, rfl,
      rfl⟩
    simp only [cycleDiagnostics, List.mem_map, mem_sortedNumbers, List.mem_dedup]
    exact ⟨number, found, rfl⟩

theorem leads_iff (unique : (graph.nodes.map (·.number)).Nodup) {a b : Int} :
    BackEdges.Leads (knownBlockers graph.nodes) a b ↔ BlockedBy graph a b := by
  unfold BackEdges.Leads knownBlockers BlockedBy
  constructor
  · intro h
    split at h
    · cases h
    · rename_i node found
      obtain ⟨member, rfl⟩ := nodeOf_mem found
      obtain ⟨blocker, known⟩ := List.mem_filter.mp h
      exact ⟨node, member, rfl, blocker, nodeOf_isSome.mp known⟩
  · rintro ⟨node, member, rfl, blocker, known⟩
    rw [nodeOf_of_mem unique member]
    exact List.mem_filter.mpr ⟨blocker, nodeOf_isSome.mpr known⟩

theorem onBlockerCycle_iff (unique : (graph.nodes.map (·.number)).Nodup) :
    Relation.TransGen (BackEdges.Leads (knownBlockers graph.nodes)) number number ↔
      OnBlockerCycle graph number := by
  have same : BackEdges.Leads (knownBlockers graph.nodes) = BlockedBy graph := by
    funext a b
    exact propext (leads_iff unique)
  rw [same, OnBlockerCycle]

/-- The issues on cycles are exactly the ones that are reported, if and only if every issue on a
cycle leads back to itself or to the stack through issues that are new when it is entered. -/
theorem circular_exact_iff (graph : TicketGraph) (unique : (graph.nodes.map (·.number)).Nodup) :
    (∀ number, ReportedCircular graph number ↔ OnBlockerCycle graph number) ↔
      ∀ number, OnBlockerCycle graph number → LeadsBack graph number := by
  have exact_ := @BackEdges.found_exact_iff _ _ (knownBlockers graph.nodes)
    (sortedNumbers (graph.nodes.map (·.number))) knownBlockers_closed
  simp only [onBlockerCycle_iff unique] at exact_
  simp only [reported_iff unique]
  exact exact_

namespace Sample

def ticket (number : Int) (blockers : List Int) : TicketNode where
  number := number
  ticketType := .implementationTicket
  priority := .p1
  status := .ready
  parent := none
  blockers := blockers
  blocks := []
  children := []

/-- 3 is blocked by 2, which the search is done with by then. -/
def overlapping : TicketGraph := ⟨1, [ticket 1 [2, 3], ticket 2 [1], ticket 3 [2]]⟩

def twoCycle : TicketGraph := ⟨1, [ticket 1 [2], ticket 2 [1], ticket 3 [2]]⟩

end Sample

/-- In a graph with one cycle it is the cycle that is reported. -/
theorem circular_exact_twoCycle :
    (Sample.twoCycle.nodes.map (·.number)).Nodup ∧
      ∀ number, ReportedCircular Sample.twoCycle number ↔
        OnBlockerCycle Sample.twoCycle number := by
  have unique : (Sample.twoCycle.nodes.map (·.number)).Nodup := by decide
  refine ⟨unique, (circular_exact_iff Sample.twoCycle unique).mpr fun number cyclic => ?_⟩
  obtain ⟨blocked, -, node, member, -, blocker, -⟩ := Relation.TransGen.tail'_iff.mp cyclic
  have few : number = 1 ∨ number = 2 := by
    simp only [Sample.twoCycle, List.mem_cons, List.not_mem_nil, or_false] at member
    rcases member with rfl | rfl | rfl
    all_goals
      simp only [Sample.ticket, List.mem_cons, List.not_mem_nil, or_false] at blocker
      omega
  apply (BackEdges.mem_found (@knownBlockers_closed Sample.twoCycle.nodes)).mp
  rcases few with rfl | rfl
  · decide +kernel
  · decide +kernel

/-- Issue 3 is on a cycle, and is not reported. -/
theorem missed_on_cycle : OnBlockerCycle Sample.overlapping 3 ∧
    ¬ ReportedCircular Sample.overlapping 3 := by
  constructor
  · have first : BlockedBy Sample.overlapping 3 2 := ⟨Sample.ticket 3 [2], by decide⟩
    have second : BlockedBy Sample.overlapping 2 1 := ⟨Sample.ticket 2 [1], by decide⟩
    have third : BlockedBy Sample.overlapping 1 3 := ⟨Sample.ticket 1 [2, 3], by decide⟩
    exact ((Relation.TransGen.single first).tail second).tail third
  · rw [reported_iff (by decide)]
    decide +kernel

end RepoForge.Tickets

/-!
## Recommended tickets

Every recommended ticket meets the rules for one, but for one of them: that another ticket
declares `supersedes` of it is looked at for cycles only, and not where the ticket is assessed.
In `superseded_recommended` such a ticket is recommended, and `readiness_sound_iff` says that
there is no other way for a recommendation to be unsound.
-/
namespace RepoForge.Tickets

variable {policy : TicketReadinessPolicy} {graph : TicketGraph} {live : List TicketLiveState}
  {report : TicketReadinessReport} {number : Int}

/-- An issue that may be recommended: the rules for its ticket, and that no other ticket has
replaced it. -/
def Deliverable (policy : TicketReadinessPolicy) (graph : TicketGraph) (live : List TicketLiveState)
    (number : Int) : Prop :=
  ∃ node ∈ graph.nodes, node.number = number ∧ ∃ state ∈ live, state.number = number ∧
    Eligible policy graph.nodes live node state ∧ ¬ Declared live .supersedes number

/-- The recommendations are the selectable assessments, by priority, wave, sequence and number. -/
structure Listed (graph : TicketGraph) (report : TicketReadinessReport) : Prop where
  selectable : ∀ number, number ∈ report.recommended ↔
    ∃ a ∈ report.assessments, a.number = number ∧ a.selectable = true
  ordered : report.recommended.Pairwise fun m n =>
    ∀ x ∈ graph.nodes, ∀ y ∈ graph.nodes, ∀ a ∈ report.assessments, ∀ b ∈ report.assessments,
      x.number = m → a.number = m → y.number = n → b.number = n →
      toLex (x.priority.order, toLex (a.wave, toLex (a.sequence, m))) <
        toLex (y.priority.order, toLex (b.wave, toLex (b.sequence, n)))

def ReadinessSound (policy : TicketReadinessPolicy) (graph : TicketGraph)
    (live : List TicketLiveState) : Prop :=
  ∀ report, deriveTicketReadiness graph live policy = .ok report →
    (∀ number ∈ report.recommended, Deliverable policy graph live number) ∧ Listed graph report

/-- Neither the graph nor the live states have a defect, and no state comes twice. -/
structure Consistent (graph : TicketGraph) (live : List TicketLiveState) : Prop where
  graph : (validateTicketGraph graph).filter (·.code ≠ .readyWithOpenBlocker) = []
  evolution : evolutionDiagnostics live = []
  single : (live.map (·.number)).Nodup

theorem unique_of_diagnostics
    (none : (validateTicketGraph graph).filter (·.code ≠ .readyWithOpenBlocker) = []) :
    (graph.nodes.map (·.number)).Nodup := by
  rw [List.nodup_iff_count_le_one]
  intro number
  by_contra twice
  have here : number ∈ graph.nodes.map (·.number) := List.count_pos_iff.mp (by omega)
  rw [List.filter_eq_nil_iff] at none
  refine none ⟨.duplicateId, number, s!"issue #{number} appears {(graph.nodes.map
    (·.number)).count number} times"⟩ ?_ (by simp)
  simp only [validateTicketGraph, mem_sortedDiagnostics, List.mem_append]
  refine .inl (.inl (.inl (.inl ?_)))
  simp only [duplicateDiagnostics, List.mem_flatMap, mem_sortedNumbers, List.mem_dedup]
  refine ⟨number, here, ?_⟩
  rw [if_pos (by omega)]
  exact List.mem_singleton_self _

theorem Consistent.unique (h : Consistent graph live) : (graph.nodes.map (·.number)).Nodup :=
  unique_of_diagnostics h.graph

/-- What a run returns. -/
theorem derive_ok (h : deriveTicketReadiness graph live policy = .ok report) :
    report.recommended = [] ∧ report.assessments = [] ∨
      Consistent graph live ∧
        report.assessments = (sortBy TicketNode.number graph.nodes).map
          (assess policy graph.nodes live) ∧
        report.recommended = (sortBy (deliveryKey policy graph.nodes live)
          (graph.nodes.filter fun node =>
            (assess policy graph.nodes live node).selectable)).map (·.number) := by
  simp only [deriveTicketReadiness] at h
  split at h
  · cases h
    exact .inl ⟨rfl, rfl⟩
  · rename_i clean
    obtain ⟨map, single, h⟩ := bind_ok h
    cases h
    simp only [ne_eq, not_not, List.append_eq_nil_iff] at clean
    exact .inr ⟨⟨by simpa using clean.1, clean.2, liveMap_ok single⟩, rfl, rfl⟩

theorem derive_of_consistent (h : Consistent graph live) :
    ∃ report, deriveTicketReadiness graph live policy = .ok report ∧
      report.recommended = (sortBy (deliveryKey policy graph.nodes live)
        (graph.nodes.filter fun node =>
          (assess policy graph.nodes live node).selectable)).map (·.number) := by
  refine ⟨⟨(sortBy TicketNode.number graph.nodes).map (assess policy graph.nodes live),
    (sortBy (deliveryKey policy graph.nodes live) (graph.nodes.filter fun node =>
      (assess policy graph.nodes live node).selectable)).map (·.number), []⟩, ?_, rfl⟩
  have clean : (validateTicketGraph graph).filter (·.code ≠ .readyWithOpenBlocker) ++
      evolutionDiagnostics live = [] := by
    rw [h.graph, h.evolution]
    rfl
  simp only [deriveTicketReadiness]
  rw [if_neg (fun dirty => dirty clean), liveMap_of_nodup h.single]
  rfl

theorem assessLimits_number {nodes : List TicketNode} {node : TicketNode} {wave sequence : Nat} :
    (assessLimits policy nodes live node wave sequence).number = node.number := by
  unfold assessLimits
  extract_lets priority initiative codes conflicts
  split
  · rfl
  · rfl

theorem assess_number {nodes : List TicketNode} {node : TicketNode} :
    (assess policy nodes live node).number = node.number := by
  unfold assess
  split
  · rfl
  · split
    · rfl
    · unfold assessLive
      extract_lets wave sequence initial codes
      split_ifs
      all_goals first | exact assessLimits_number | rfl

theorem mem_recommended (unique : (graph.nodes.map (·.number)).Nodup)
    (single : (live.map (·.number)).Nodup)
    (same : report.recommended = (sortBy (deliveryKey policy graph.nodes live)
      (graph.nodes.filter fun node =>
        (assess policy graph.nodes live node).selectable)).map (·.number)) :
    number ∈ report.recommended ↔ ∃ node ∈ graph.nodes, node.number = number ∧
      ∃ state ∈ live, state.number = number ∧ Eligible policy graph.nodes live node state ∧
        node.status.waiting = true := by
  simp only [same, List.mem_map, mem_sortBy, List.mem_filter, selectable_iff unique single]
  constructor
  · rintro ⟨node, ⟨member, state, here, named, rest⟩, rfl⟩
    exact ⟨node, member, rfl, state, here, named, rest⟩
  · rintro ⟨node, member, rfl, state, here, named, rest⟩
    exact ⟨node, ⟨member, state, here, named, rest⟩, rfl⟩

theorem listed_of_ok (h : deriveTicketReadiness graph live policy = .ok report) :
    Listed graph report := by
  rcases derive_ok h with ⟨none, nothing⟩ | ⟨consistent, assessed, recommended⟩
  · refine ⟨?_, ?_⟩
    · simp [none, nothing]
    · simp [none]
  · have unique := consistent.unique
    have same : ∀ node ∈ graph.nodes, ∀ a ∈ report.assessments, a.number = node.number →
        a = assess policy graph.nodes live node := by
      intro node member a here named
      rw [assessed] at here
      obtain ⟨other, there, rfl⟩ := List.mem_map.mp here
      rw [assess_number] at named
      rw [List.inj_on_of_nodup_map unique (mem_sortBy.mp there) member named]
    refine ⟨?_, ?_⟩
    · intro number
      simp only [recommended, assessed, List.mem_map, mem_sortBy, List.mem_filter]
      constructor
      · rintro ⟨node, ⟨member, selectable⟩, rfl⟩
        exact ⟨_, ⟨node, member, rfl⟩, assess_number, selectable⟩
      · rintro ⟨a, ⟨node, member, rfl⟩, rfl, selectable⟩
        exact ⟨node, ⟨member, selectable⟩, assess_number.symm⟩
    · rw [recommended, List.pairwise_map]
      have distinct : (sortBy (deliveryKey policy graph.nodes live) (graph.nodes.filter fun node =>
          (assess policy graph.nodes live node).selectable)).Nodup :=
        perm_sortBy.nodup_iff.mpr ((List.Nodup.of_map _ unique).filter _)
      refine (List.Pairwise.and_mem.mp (sortBy_sorted.and distinct)).imp ?_
      rintro m n ⟨first, second, le, ne⟩ x xs y ys a as b bs named here named' there
      rw [mem_sortBy] at first second
      have first := List.mem_of_mem_filter first
      have second := List.mem_of_mem_filter second
      obtain rfl := List.inj_on_of_nodup_map unique xs first named
      obtain rfl := List.inj_on_of_nodup_map unique ys second named'
      rw [same x first a as here, same y second b bs there]
      refine lt_of_le_of_ne le fun equal => ne ?_
      simp only [toLex_inj, Prod.mk.injEq] at equal
      exact List.inj_on_of_nodup_map unique first second equal.2.2.2

/-- Every recommendation is deliverable, and they are the selectable assessments in order, if and
only if no live state declares `supersedes` of a ticket that meets all the other rules. -/
theorem readiness_sound_iff (policy : TicketReadinessPolicy) (graph : TicketGraph)
    (live : List TicketLiveState) :
    ReadinessSound policy graph live ↔
      (Consistent graph live → ∀ node ∈ graph.nodes, ∀ state ∈ live, state.number = node.number →
        Eligible policy graph.nodes live node state → node.status.waiting = true →
        ¬ Declared live .supersedes node.number) := by
  constructor
  · intro sound consistent node member state here named eligible waiting
    obtain ⟨report, derived, recommended⟩ := @derive_of_consistent policy _ _ consistent
    have recommends := (mem_recommended consistent.unique consistent.single recommended).mpr
      ⟨node, member, rfl, state, here, named, eligible, waiting⟩
    obtain ⟨-, -, -, -, -, -, -, unsuperseded⟩ := (sound report derived).1 _ recommends
    exact unsuperseded
  · intro unsuperseded report derived
    refine ⟨?_, listed_of_ok derived⟩
    intro number recommends
    rcases derive_ok derived with ⟨none, -⟩ | ⟨consistent, -, recommended⟩
    · rw [none] at recommends
      cases recommends
    · obtain ⟨node, member, rfl, state, here, named, eligible, waiting⟩ :=
        (mem_recommended consistent.unique consistent.single recommended).mp recommends
      exact ⟨node, member, rfl, state, here, named, eligible,
        unsuperseded consistent node member state here named eligible waiting⟩

namespace Sample

def program : TicketNode where
  number := 1
  ticketType := .program
  priority := .p1
  status := .ready
  parent := none
  blockers := []
  blocks := []
  children := [2, 3]

def implementation (number : Int) : TicketNode where
  number := number
  ticketType := .implementationTicket
  priority := .p1
  status := .ready
  parent := some 1
  blockers := []
  blocks := []
  children := []

def delivery : TicketGraph := ⟨1, [program, implementation 2, implementation 3]⟩

def openState (number : Int) (relations : List RequirementRelation) : TicketLiveState where
  number := number
  isOpen := some true
  delivery := { specificationComplete := true, relations }

/-- 3 declares that it supersedes 2. -/
def superseding : List TicketLiveState :=
  [openState 1 [], openState 2 [], openState 3 [⟨.supersedes, 2⟩]]

end Sample

/-- A ticket is recommended although another one supersedes it. -/
theorem superseded_recommended : ¬ ReadinessSound {} Sample.delivery Sample.superseding := by
  intro sound
  have consistent : Consistent Sample.delivery Sample.superseding :=
    ⟨by decide +kernel, by decide +kernel, by decide⟩
  obtain ⟨report, derived, recommended⟩ := @derive_of_consistent {} _ _ consistent
  have recommends : (2 : Int) ∈ report.recommended := by
    simp only [recommended, List.mem_map, mem_sortBy, List.mem_filter]
    exact ⟨Sample.implementation 2, ⟨by decide, by decide +kernel⟩, rfl⟩
  obtain ⟨-, -, -, -, -, -, -, unsuperseded⟩ := (sound report derived).1 2 recommends
  exact unsuperseded ⟨Sample.openState 3 [⟨.supersedes, 2⟩], by decide, by decide⟩

end RepoForge.Tickets

/-!
## The order of the inputs

Nodes and live states are looked up by number, diagnostics are sorted as a set, and the searches
start from sorted numbers. So the validation of a ticket graph and the readiness of its tickets
are functions of which nodes and live states there are: each definition below has its lemma.
-/
namespace RepoForge.Tickets

variable {policy : TicketReadinessPolicy} {nodes nodes' : List TicketNode} {programIssue : Int}
  {live live' : List TicketLiveState} {node : TicketNode}

section Validation

theorem knownBlockers_perm (unique : (nodes.map (·.number)).Nodup) (perm : nodes.Perm nodes') :
    knownBlockers nodes = knownBlockers nodes' := by
  funext number
  simp only [knownBlockers, nodeOf_perm unique perm]

theorem cycleNodes_perm (unique : (nodes.map (·.number)).Nodup) (perm : nodes.Perm nodes') :
    cycleNodes nodes = cycleNodes nodes' := by
  rw [cycleNodes, cycleNodes, cycleSearch, cycleSearch, knownBlockers_perm unique perm,
    sortedNumbers_perm (perm.map (·.number))]

theorem nodeDiagnostics_perm (unique : (nodes.map (·.number)).Nodup) (perm : nodes.Perm nodes') :
    nodeDiagnostics nodes = nodeDiagnostics nodes' := by
  funext node
  have blockers : blockerDiagnostics nodes node = blockerDiagnostics nodes' node := by
    funext blocker
    simp only [blockerDiagnostics, nodeOf_perm unique perm]
  have blocked : blockedDiagnostics nodes node = blockedDiagnostics nodes' node := by
    funext other
    simp only [blockedDiagnostics, nodeOf_perm unique perm]
  simp only [nodeDiagnostics, parentDiagnostics, nodeOf_perm unique perm, blockers, blocked]

theorem driftDiagnostics_perm (perm : nodes.Perm nodes') :
    driftDiagnostics nodes = driftDiagnostics nodes' := by
  funext node
  have children : derivedChildren nodes node.number = derivedChildren nodes' node.number :=
    sortedNumbers_perm ((perm.filter _).map _)
  simp only [driftDiagnostics, children]

theorem mem_duplicateDiagnostics_perm (perm : nodes.Perm nodes') {d : TicketDiagnostic} :
    d ∈ duplicateDiagnostics ⟨programIssue, nodes⟩ ↔
      d ∈ duplicateDiagnostics ⟨programIssue, nodes'⟩ := by
  have numbers := perm.map TicketNode.number
  have counts : ∀ number, (nodes.map (·.number)).count number =
      (nodes'.map (·.number)).count number := numbers.count_eq
  simp only [duplicateDiagnostics, List.mem_flatMap, mem_sortedNumbers, List.mem_dedup, counts,
    numbers.mem_iff]

/-- The diagnostics of a graph are a function of its nodes as a set. -/
theorem validate_perm (unique : (nodes.map (·.number)).Nodup) (perm : nodes.Perm nodes') :
    validateTicketGraph ⟨programIssue, nodes⟩ = validateTicketGraph ⟨programIssue, nodes'⟩ := by
  have unique' := (perm.map TicketNode.number).nodup_iff.mp unique
  simp only [validateTicketGraph, firstNodes_of_unique unique, firstNodes_of_unique unique']
  refine sortedDiagnostics_congr fun d => ?_
  have program : programDiagnostics nodes programIssue = programDiagnostics nodes' programIssue := by
    simp only [programDiagnostics, nodeOf_perm unique perm]
  have cycles : cycleDiagnostics nodes = cycleDiagnostics nodes' := by
    simp only [cycleDiagnostics, cycleNodes_perm unique perm]
  simp only [List.mem_append, List.mem_flatMap, mem_sortBy, perm.mem_iff, program, cycles,
    nodeDiagnostics_perm unique perm, driftDiagnostics_perm perm,
    mem_duplicateDiagnostics_perm perm]

end Validation

section Evolution

theorem evolutionEdges_perm (perm : live.Perm live') :
    (evolutionEdges live).Perm (evolutionEdges live') :=
  perm.flatMap_right _

theorem evolutionTargets_perm (perm : live.Perm live') :
    evolutionTargets live = evolutionTargets live' := by
  funext number
  exact sortedNumbers_perm (((evolutionEdges_perm perm).filter _).map _).dedup

theorem evolutionDiagnostics_perm (perm : live.Perm live') :
    evolutionDiagnostics live = evolutionDiagnostics live' := by
  have edges := evolutionEdges_perm perm
  have roots : sortedNumbers ((evolutionEdges live).map (·.1)).dedup =
      sortedNumbers ((evolutionEdges live').map (·.1)).dedup :=
    sortedNumbers_perm (edges.map _).dedup
  have search : evolutionSearch live = evolutionSearch live' := by
    simp only [evolutionSearch, evolutionNumbers, edges.length_eq, evolutionTargets_perm perm, roots]
  refine sortedDiagnostics_congr fun d => ?_
  simp only [List.mem_append, List.mem_flatMap, perm.mem_iff, search]

end Evolution

section Assessments

theorem liveOf_perm (single : (live.map (·.number)).Nodup) (perm : live.Perm live') :
    liveOf live = liveOf live' := by
  have single' := (perm.map TicketLiveState.number).nodup_iff.mp single
  funext number
  refine Option.ext fun state => ?_
  rw [liveOf_iff single, liveOf_iff single', perm.mem_iff]

theorem initiativeNumber_perm (unique : (nodes.map (·.number)).Nodup) (perm : nodes.Perm nodes') :
    initiativeNumber nodes = initiativeNumber nodes' := by
  have walk : ∀ fuel visited parent,
      initiativeFrom nodes fuel visited parent = initiativeFrom nodes' fuel visited parent := by
    intro fuel
    induction fuel with
    | zero => intro visited parent; rfl
    | succ fuel ih =>
      intro visited parent
      cases parent with
      | none => rfl
      | some parent => simp only [initiativeFrom, nodeOf_perm unique perm, ih]
  funext node
  rw [initiativeNumber, initiativeNumber, perm.length_eq, walk]

theorem activeTickets_perm (unique : (nodes.map (·.number)).Nodup) (perm : nodes.Perm nodes')
    (single : (live.map (·.number)).Nodup) (permLive : live.Perm live') :
    activeTickets nodes live = activeTickets nodes' live' := by
  have active : TicketNode.active live = TicketNode.active live' := by
    funext node
    simp only [TicketNode.active, nodeStatus, liveOf_perm single permLive]
  rw [activeTickets, activeTickets, active]
  refine sortBy_perm ?_ (perm.filter _)
  exact unique.sublist (List.filter_sublist.map _)

theorem assess_perm (unique : (nodes.map (·.number)).Nodup) (perm : nodes.Perm nodes')
    (single : (live.map (·.number)).Nodup) (permLive : live.Perm live') :
    assess policy nodes live = assess policy nodes' live' := by
  have status : nodeStatus live = nodeStatus live' := by
    funext node
    simp only [nodeStatus, liveOf_perm single permLive]
  have invalid : ∀ number, number ∈ invalidatedTargets live ↔ number ∈ invalidatedTargets live' := by
    intro number
    simp only [invalidatedTargets, List.mem_flatMap, permLive.mem_iff]
  have active := activeTickets_perm unique perm single permLive
  have initiatives := initiativeNumber_perm unique perm
  funext node
  have unresolved : unresolvedBlockers live node = unresolvedBlockers live' node := by
    simp only [unresolvedBlockers, liveOf_perm single permLive]
  have parent : parentStatus nodes live node = parentStatus nodes' live' node := by
    simp only [parentStatus, nodeOf_perm unique perm, status]
  have reasons : blockingReasons nodes live node = blockingReasons nodes' live' node := by
    funext state
    rw [blockingReasons, blockingReasons, unresolved, parent]
  have priority : priorityConflicts nodes live node = priorityConflicts nodes' live' node := by
    rw [priorityConflicts, priorityConflicts, active]
  have initiative : initiativeConflicts nodes live node = initiativeConflicts nodes' live' node := by
    simp only [initiativeConflicts, active, initiatives]
  have limits : assessLimits policy nodes live node = assessLimits policy nodes' live' node := by
    funext wave sequence
    rw [assessLimits, assessLimits, priorityLimited, priorityLimited, initiativeLimited,
      initiativeLimited, priority, initiative, initiatives]
  simp only [assess, assessLive, liveOf_perm single permLive, status, invalid, reasons, unresolved,
    limits]

theorem recommended_perm (unique : (nodes.map (·.number)).Nodup) (perm : nodes.Perm nodes')
    (single : (live.map (·.number)).Nodup) (permLive : live.Perm live') :
    sortBy (deliveryKey policy nodes live) (nodes.filter fun node =>
        (assess policy nodes live node).selectable) =
      sortBy (deliveryKey policy nodes' live') (nodes'.filter fun node =>
        (assess policy nodes' live' node).selectable) := by
  have key : deliveryKey policy nodes live = deliveryKey policy nodes' live' := by
    funext node
    rw [deliveryKey, deliveryKey, assess_perm unique perm single permLive]
  rw [key, assess_perm unique perm single permLive]
  refine sortBy_perm ?_ (perm.filter _)
  -- the last part of a key is the number
  apply List.Nodup.of_map fun key => (ofLex (ofLex (ofLex key).2).2).2
  rw [List.map_map]
  exact unique.sublist (List.filter_sublist.map _)

theorem liveMap_error (twice : ¬ (live.map (·.number)).Nodup) : ∃ error, liveMap live = .error error := by
  cases map : liveMap live with
  | error error => exact ⟨error, rfl⟩
  | ok found => exact absurd (liveMap_ok map) twice

end Assessments

/-- Any order of the nodes and of the live states gives the same diagnostics of the graph, and the
same assessments, recommendations and diagnostics of readiness, or none. -/
theorem order_free (policy : TicketReadinessPolicy) (programIssue : Int)
    (nodes nodes' : List TicketNode) (live live' : List TicketLiveState)
    (unique : (nodes.map (·.number)).Nodup) (perm : nodes.Perm nodes')
    (permLive : live.Perm live') :
    validateTicketGraph ⟨programIssue, nodes⟩ = validateTicketGraph ⟨programIssue, nodes'⟩ ∧
      (deriveTicketReadiness ⟨programIssue, nodes⟩ live policy).toOption =
        (deriveTicketReadiness ⟨programIssue, nodes'⟩ live' policy).toOption := by
  refine ⟨validate_perm unique perm, ?_⟩
  simp only [deriveTicketReadiness, @validate_perm _ _ programIssue unique perm,
    evolutionDiagnostics_perm permLive]
  split
  · rfl
  · by_cases single : (live.map (·.number)).Nodup
    · have single' := (permLive.map TicketLiveState.number).nodup_iff.mp single
      rw [liveMap_of_nodup single, liveMap_of_nodup single',
        recommended_perm unique perm single permLive, assess_perm unique perm single permLive,
        sortBy_perm unique perm]
      rfl
    · have single' : ¬ (live'.map (·.number)).Nodup := fun nodup =>
        single ((permLive.map TicketLiveState.number).nodup_iff.mpr nodup)
      obtain ⟨error, raised⟩ := liveMap_error single
      obtain ⟨error', raised'⟩ := liveMap_error single'
      rw [raised, raised']
      rfl

/-- A graph and its live states, turned round. -/
theorem order_free_reversed :
    validateTicketGraph ⟨1, Sample.delivery.nodes⟩ =
        validateTicketGraph ⟨1, Sample.delivery.nodes.reverse⟩ ∧
      (deriveTicketReadiness ⟨1, Sample.delivery.nodes⟩ Sample.superseding {}).toOption =
        (deriveTicketReadiness ⟨1, Sample.delivery.nodes.reverse⟩ Sample.superseding.reverse
          {}).toOption :=
  order_free {} 1 Sample.delivery.nodes Sample.delivery.nodes.reverse Sample.superseding
    Sample.superseding.reverse (by decide) (List.reverse_perm _).symm (List.reverse_perm _).symm

end RepoForge.Tickets
