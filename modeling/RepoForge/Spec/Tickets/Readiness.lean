import RepoForge.Source.Tickets.Readiness

/-!
# What the validation of a ticket graph reads

The diagnostics are a function of which of them there are (`sortedDiagnostics_congr`), and where
the numbers are unique the nodes are looked up as in the list that the graph has.
-/
namespace RepoForge.Tickets

variable {nodes nodes' : List TicketNode} {node : TicketNode} {number : Int}

theorem DiagnosticCode.value_injective : Function.Injective DiagnosticCode.value := by
  intro a b same
  cases a <;> cases b <;> first | rfl | (simp [value] at same)

theorem TicketDiagnostic.key_injective : Function.Injective TicketDiagnostic.key := by
  rintro ⟨code, issue, message⟩ ⟨code', issue', message'⟩ same
  simp only [key, toLex_inj, Prod.mk.injEq] at same
  obtain ⟨codes, rfl, rfl⟩ := same
  rw [DiagnosticCode.value_injective codes]

theorem mem_sortedDiagnostics {diagnostics : List TicketDiagnostic} {d : TicketDiagnostic} :
    d ∈ sortedDiagnostics diagnostics ↔ d ∈ diagnostics := by
  rw [sortedDiagnostics, mem_sortBy, List.mem_dedup]

theorem sortedDiagnostics_congr {diagnostics diagnostics' : List TicketDiagnostic}
    (same : ∀ d, d ∈ diagnostics ↔ d ∈ diagnostics') :
    sortedDiagnostics diagnostics = sortedDiagnostics diagnostics' := by
  refine sortBy_perm ((List.nodup_dedup _).map TicketDiagnostic.key_injective) ?_
  rw [List.perm_ext_iff_of_nodup (List.nodup_dedup _) (List.nodup_dedup _)]
  simpa using same

theorem mem_sortedNumbers {numbers : List Int} : number ∈ sortedNumbers numbers ↔ number ∈ numbers :=
  mem_sortBy

/-- Sorted numbers are the same for any order of the same numbers. -/
theorem sortedNumbers_perm {numbers numbers' : List Int} (perm : numbers.Perm numbers') :
    sortedNumbers numbers = sortedNumbers numbers' := by
  have sorted := @sortBy_sorted _ _ _ id numbers
  have sorted' := @sortBy_sorted _ _ _ id numbers'
  refine List.Perm.eq_of_pairwise (fun a b _ _ below above => ?_) sorted sorted'
    (perm_sortBy.trans (perm.trans perm_sortBy.symm))
  exact Int.le_antisymm below above

/-- Unique numbers: every node is the first of its number. -/
theorem firstNodes_of_unique (unique : (nodes.map (·.number)).Nodup) : firstNodes nodes = nodes := by
  have filled : ∀ first rest : List TicketNode, ((first ++ rest).map (·.number)).Nodup →
      rest.foldl (fun first node => if node.number ∈ first.map (·.number) then first
        else first ++ [node]) first = first ++ rest := by
    intro first rest unique
    induction rest generalizing first with
    | nil => simp
    | cons node rest ih =>
      have new : node.number ∉ first.map (·.number) := by
        rw [List.map_append, List.map_cons, List.nodup_middle, List.nodup_cons] at unique
        exact fun here => unique.1 (List.mem_append_left _ here)
      rw [List.foldl_cons, if_neg new, ih _ (by simpa using unique)]
      simp
  exact filled [] nodes unique

theorem nodeOf_mem (h : nodeOf nodes number = some node) : node ∈ nodes ∧ node.number = number :=
  ⟨List.mem_of_find?_eq_some h, by simpa using List.find?_some h⟩

theorem nodeOf_of_mem (unique : (nodes.map (·.number)).Nodup) (member : node ∈ nodes) :
    nodeOf nodes node.number = some node := by
  obtain ⟨found, here⟩ : ∃ found, nodeOf nodes node.number = some found := by
    rw [← Option.isSome_iff_exists, nodeOf, List.find?_isSome]
    exact ⟨node, member, by simp⟩
  obtain ⟨there, same⟩ := nodeOf_mem here
  rw [here, List.inj_on_of_nodup_map unique there member same]

theorem nodeOf_isSome : (nodeOf nodes number).isSome = true ↔ number ∈ nodes.map (·.number) := by
  rw [nodeOf, List.find?_isSome, List.mem_map]
  simp

theorem nodeOf_perm (unique : (nodes.map (·.number)).Nodup) (perm : nodes.Perm nodes') :
    nodeOf nodes = nodeOf nodes' := by
  have unique' := (perm.map (·.number)).nodup_iff.mp unique
  funext number
  cases here : nodeOf nodes number with
  | none =>
    cases there : nodeOf nodes' number with
    | none => rfl
    | some node =>
      obtain ⟨member, rfl⟩ := nodeOf_mem there
      rw [nodeOf_of_mem unique (perm.mem_iff.mpr member)] at here
      cases here
  | some node =>
    obtain ⟨member, rfl⟩ := nodeOf_mem here
    rw [nodeOf_of_mem unique' (perm.mem_iff.mp member)]

/-- The blockers that the search goes through are nodes. -/
theorem knownBlockers_closed : ∀ number ∈ sortedNumbers (nodes.map (·.number)),
    knownBlockers nodes number ⊆ sortedNumbers (nodes.map (·.number)) := by
  intro number _ blocker here
  unfold knownBlockers at here
  split at here
  · cases here
  · rw [mem_sortedNumbers, ← nodeOf_isSome]
    exact (List.mem_filter.mp here).2

end RepoForge.Tickets

/-!
# Which tickets are selectable

`Eligible` has the rules for a recommendation that the assessment of a ticket goes through, as
conditions on the ticket and the two inputs. `selectable_iff`: these, and a declared status that
waits for work, are exactly what makes an assessment selectable.
-/
namespace RepoForge.Tickets

variable {policy : TicketReadinessPolicy} {nodes : List TicketNode} {live : List TicketLiveState}
  {node : TicketNode} {state : TicketLiveState} {number : Int}

/-- The declared status of a ticket that waits to be taken up. -/
def TicketStatus.waiting : TicketStatus → Bool
  | backlog | ready | blocked => true
  | _ => false

/-- No requirement that the ticket declares replaces it. -/
def Unreplaced (state : TicketLiveState) : Prop :=
  state.delivery.supersededBy = none ∧ ∀ relation ∈ state.delivery.relations,
    relation.relationType ≠ .supersededBy ∧ relation.relationType ≠ .mergedInto

/-- A live state declares this relation to the ticket. -/
def Declared (live : List TicketLiveState) (relationType : RequirementRelationType) (number : Int) :
    Prop :=
  ∃ other ∈ live, ⟨relationType, number⟩ ∈ other.delivery.relations

structure Eligible (policy : TicketReadinessPolicy) (nodes : List TicketNode)
    (live : List TicketLiveState) (node : TicketNode) (state : TicketLiveState) : Prop where
  isOpen : state.isOpen = some true
  implementation : node.ticketType = .implementationTicket
  specified : state.delivery.specificationComplete = true
  decided : state.delivery.unresolvedDesignGate = false
  whole : state.remains = false
  parent : ∃ parent ∈ nodes, node.parent = some parent.number ∧
    (nodeStatus live parent).activeParent = true
  blockers : ∀ blocker ∈ node.blockers, ∃ other ∈ live, other.number = blocker ∧
    other.isOpen = some false
  unreplaced : Unreplaced state
  valid : ¬ Declared live .invalidates node.number
  priority : nodes.countP (fun other => other.active live && other.priority = node.priority) <
    policy.priorityLimit node.priority
  initiative : ∀ initiative, initiativeNumber nodes node = some initiative →
    nodes.countP (fun other => other.active live && initiativeNumber nodes other = some initiative) <
      policy.initiativeLimit

theorem firstRepeated_none {seen numbers : List Int} : firstRepeated seen numbers = none ↔
    numbers.Nodup ∧ ∀ number ∈ numbers, number ∉ seen := by
  induction numbers generalizing seen with
  | nil => simp [firstRepeated]
  | cons number rest ih =>
    by_cases before : number ∈ seen
    · simp [firstRepeated, before]
    · rw [firstRepeated, if_neg before, ih, List.nodup_cons]
      constructor
      · rintro ⟨nodup, apart⟩
        refine ⟨⟨fun here => apart number here List.mem_cons_self, nodup⟩, ?_⟩
        intro other member
        rcases List.mem_cons.mp member with rfl | member
        · exact before
        · exact fun old => apart other member (List.mem_cons_of_mem _ old)
      · rintro ⟨⟨new, nodup⟩, apart⟩
        refine ⟨nodup, fun other member old => ?_⟩
        rcases List.mem_cons.mp old with rfl | old
        · exact new member
        · exact apart other (List.mem_cons_of_mem _ member) old

theorem liveMap_ok {map : Int → Option TicketLiveState} (h : liveMap live = .ok map) :
    (live.map (·.number)).Nodup := by
  unfold liveMap at h
  split at h
  · cases h
  · rename_i none
    exact (firstRepeated_none.mp none).1

theorem liveMap_of_nodup (nodup : (live.map (·.number)).Nodup) : liveMap live = .ok (liveOf live) := by
  rw [liveMap, firstRepeated_none.mpr ⟨nodup, by simp⟩]

theorem liveOf_mem (h : liveOf live number = some state) : state ∈ live ∧ state.number = number :=
  ⟨List.mem_of_find?_eq_some h, by simpa using List.find?_some h⟩

theorem liveOf_iff (nodup : (live.map (·.number)).Nodup) :
    liveOf live number = some state ↔ state ∈ live ∧ state.number = number := by
  refine ⟨liveOf_mem, ?_⟩
  rintro ⟨member, rfl⟩
  exact find_of_key nodup member

theorem replacementTargets_nil : replacementTargets state = [] ↔ Unreplaced state := by
  rw [List.eq_nil_iff_forall_not_mem]
  simp only [replacementTargets, mem_sortedNumbers, List.mem_dedup, List.mem_append, List.mem_map,
    List.mem_filter, Bool.or_eq_true, decide_eq_true_eq, Option.mem_toList, not_or, not_exists,
    not_and]
  constructor
  · intro none
    refine ⟨Option.eq_none_iff_forall_not_mem.mpr fun target => (none target).2, ?_⟩
    intro relation member
    constructor
    · exact fun type => (none relation.targetIssue).1 relation ⟨member, .inl type⟩ rfl
    · exact fun type => (none relation.targetIssue).1 relation ⟨member, .inr type⟩ rfl
  · rintro ⟨none, others⟩ target
    refine ⟨?_, by simp [none]⟩
    rintro relation ⟨member, type | type⟩
    · exact absurd type (others relation member).1
    · exact absurd type (others relation member).2

theorem mem_invalidatedTargets : number ∈ invalidatedTargets live ↔ Declared live .invalidates number := by
  simp only [invalidatedTargets, Declared, List.mem_flatMap, List.mem_map, List.mem_filter,
    decide_eq_true_eq]
  constructor
  · rintro ⟨other, member, ⟨type, target⟩, ⟨relation, rfl⟩, rfl⟩
    exact ⟨other, member, relation⟩
  · rintro ⟨other, member, relation⟩
    exact ⟨other, member, _, ⟨relation, rfl⟩, rfl⟩

/-- The status of a ticket that is open. -/
theorem nodeStatus_open (found : liveOf live node.number = some state)
    (isOpen : state.isOpen = some true) (unreplaced : Unreplaced state) :
    nodeStatus live node = node.status := by
  simp only [nodeStatus, found, baseStatus, isOpen, replacementTargets_nil.mpr unreplaced]
  by_cases declared : node.status = .superseded
  · simp [declared]
  · simp [declared]

/-- A ticket that was read, is not replaced and not done with is open. -/
theorem open_of_nodeStatus {isOpen : Bool} (found : liveOf live node.number = some state)
    (read : state.isOpen = some isOpen) (whole : state.remains = false)
    (current : nodeStatus live node ≠ .superseded) (unfinished : nodeStatus live node ≠ .done) :
    state.isOpen = some true ∧ Unreplaced state := by
  simp only [nodeStatus, found, baseStatus, read] at current unfinished
  by_cases replaced : replacementTargets state ≠ [] ∨ node.status = .superseded
  · simp [replaced] at current
  · rw [if_neg replaced] at current unfinished
    simp only [not_or, not_not] at replaced
    cases isOpen with
    | false => simp [whole] at unfinished
    | true => exact ⟨read, replacementTargets_nil.mp replaced.1⟩

theorem length_activeTickets (p : TicketNode → Bool) :
    ((activeTickets nodes live).filter p).length =
      nodes.countP fun other => other.active live && p other := by
  rw [activeTickets, List.countP_eq_length_filter]
  have perm : ((sortBy TicketNode.number (nodes.filter (TicketNode.active live))).filter p).Perm
      ((nodes.filter (TicketNode.active live)).filter p) := perm_sortBy.filter p
  rw [perm.length_eq, List.filter_filter]
  simp only [Bool.and_comm]

theorem assessment_selectable {wave sequence : Nat} {derived : TicketStatus} {codes : List ReasonCode}
    {unresolved conflicts : List Int} :
    (assessment node wave sequence derived codes unresolved conflicts).selectable = true ↔
      node.ticketType = .implementationTicket ∧ derived = .ready ∧ codes = [] := by
  simp [assessment, and_assoc]

/-- Nothing holds the ticket back but the limits, and these are not reached. -/
theorem assessLimits_selectable {wave sequence : Nat} :
    (assessLimits policy nodes live node wave sequence).selectable = true ↔
      node.ticketType = .implementationTicket ∧ priorityLimited policy nodes live node = false ∧
        initiativeLimited policy nodes live node = false := by
  simp only [assessLimits]
  cases priorityLimited policy nodes live node
  · cases initiativeLimited policy nodes live node
    · simp [assessment_selectable]
    · simp [assessment_selectable]
  · simp [assessment_selectable]

theorem assessLive_selectable : (assessLive policy nodes live node state).selectable = true ↔
    node.ticketType = .implementationTicket ∧
      (nodeStatus live node ≠ .superseded ∧ nodeStatus live node ≠ .done ∧
        (nodeStatus live node).activeWip = false) ∧
      state.remains = false ∧ node.number ∉ invalidatedTargets live ∧
      blockingReasons nodes live node state = [] ∧
      priorityLimited policy nodes live node = false ∧
      initiativeLimited policy nodes live node = false := by
  simp only [assessLive]
  split_ifs with superseded remains invalid done other codes wip
  · simp [assessment_selectable, superseded]
  · simp [assessment_selectable, remains]
  · simp [assessment_selectable, invalid]
  · simp [assessment_selectable, done]
  · simp [assessment_selectable, other]
  · simp [assessment_selectable, codes]
  · have working : nodeStatus live node ≠ .ready := by
      intro ready
      rw [ready] at wip
      cases wip
    simp [assessment_selectable, working, wip]
  · rw [assessLimits_selectable]
    simp_all

theorem blockingReasons_nil (unique : (nodes.map (·.number)).Nodup)
    (single : (live.map (·.number)).Nodup) : blockingReasons nodes live node state = [] ↔
    state.delivery.specificationComplete = true ∧ state.delivery.unresolvedDesignGate = false ∧
      (∃ parent ∈ nodes, node.parent = some parent.number ∧
        (nodeStatus live parent).activeParent = true) ∧
      ∀ blocker ∈ node.blockers, ∃ other ∈ live, other.number = blocker ∧
        other.isOpen = some false := by
  have parent : (parentStatus nodes live node).any TicketStatus.activeParent = true ↔
      ∃ parent ∈ nodes, node.parent = some parent.number ∧
        (nodeStatus live parent).activeParent = true := by
    simp only [parentStatus, Option.any_eq_true, Option.bind_eq_some_iff, Option.map_eq_some_iff]
    constructor
    · rintro ⟨status, ⟨number, named, found, here, rfl⟩, active⟩
      obtain ⟨member, rfl⟩ := nodeOf_mem here
      exact ⟨found, member, named, active⟩
    · rintro ⟨found, member, named, active⟩
      exact ⟨_, ⟨found.number, named, found, nodeOf_of_mem unique member, rfl⟩, active⟩
  have blockers : unresolvedBlockers live node = [] ↔ ∀ blocker ∈ node.blockers,
      ∃ other ∈ live, other.number = blocker ∧ other.isOpen = some false := by
    simp only [unresolvedBlockers, List.filter_eq_nil_iff, Bool.not_eq_true', Bool.not_eq_false,
      Option.any_eq_true, decide_eq_true_eq, liveOf_iff single, and_assoc]
  simp only [blockingReasons, List.append_eq_nil_iff, and_assoc, ← parent, ← blockers]
  simp

theorem limited_iff : priorityLimited policy nodes live node = false ↔
    nodes.countP (fun other => other.active live && other.priority = node.priority) <
      policy.priorityLimit node.priority := by
  simp only [priorityLimited, priorityConflicts, List.length_map, length_activeTickets,
    decide_eq_false_iff_not, not_le]

theorem initiativeLimited_iff : initiativeLimited policy nodes live node = false ↔
    ∀ initiative, initiativeNumber nodes node = some initiative →
      nodes.countP (fun other => other.active live &&
        initiativeNumber nodes other = some initiative) < policy.initiativeLimit := by
  simp only [initiativeLimited, initiativeConflicts, List.length_map, length_activeTickets]
  cases initiativeNumber nodes node with
  | none => simp
  | some initiative => simp

/-- What makes an assessment selectable. -/
theorem selectable_iff (unique : (nodes.map (·.number)).Nodup)
    (single : (live.map (·.number)).Nodup) :
    (assess policy nodes live node).selectable = true ↔
      ∃ state ∈ live, state.number = node.number ∧ Eligible policy nodes live node state ∧
        node.status.waiting = true := by
  constructor
  · intro h
    unfold assess at h
    split at h
    · simp [assessment_selectable] at h
    · rename_i state found
      split at h
      · simp [assessment_selectable] at h
      · rename_i readable
        obtain ⟨isOpen, read⟩ := Option.ne_none_iff_exists'.mp readable
        obtain ⟨implementation, ⟨current, unfinished, idle⟩, whole, valid, unblocked, priority,
          initiative⟩ := assessLive_selectable.mp h
        obtain ⟨isOpen, unreplaced⟩ := open_of_nodeStatus found read whole current unfinished
        obtain ⟨specified, decided, parent, blockers⟩ := (blockingReasons_nil unique single).mp unblocked
        obtain ⟨member, same⟩ := liveOf_mem found
        refine ⟨state, member, same, ⟨isOpen, implementation, specified, decided, whole, parent,
          blockers, unreplaced, ?_, limited_iff.mp priority, initiativeLimited_iff.mp initiative⟩, ?_⟩
        · rwa [mem_invalidatedTargets] at valid
        · rw [nodeStatus_open found isOpen unreplaced] at current unfinished idle
          cases status : node.status <;> simp_all [TicketStatus.waiting, TicketStatus.activeWip]
  · rintro ⟨state, member, same, eligible, waiting⟩
    have found : liveOf live node.number = some state := (liveOf_iff single).mpr ⟨member, same⟩
    have status := nodeStatus_open found eligible.isOpen eligible.unreplaced
    have unblocked := (blockingReasons_nil unique single).mpr
      ⟨eligible.specified, eligible.decided, eligible.parent, eligible.blockers⟩
    simp only [assess, found, eligible.isOpen, reduceCtorEq, if_false]
    rw [assessLive_selectable, status, mem_invalidatedTargets, limited_iff, initiativeLimited_iff]
    refine ⟨eligible.implementation, ?_, eligible.whole, eligible.valid, unblocked,
      eligible.priority, eligible.initiative⟩
    cases declared : node.status <;> simp_all [TicketStatus.waiting, TicketStatus.activeWip]

end RepoForge.Tickets
