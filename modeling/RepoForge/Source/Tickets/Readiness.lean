import Mathlib.Data.Prod.Lex
import Mathlib.Data.String.Basic
import RepoForge.Library.BackEdges
import RepoForge.Library.PyText
import RepoForge.Library.SortedListing

/-!
# Ticket graphs

Source: `validate_ticket_graph` and `_cycle_nodes` of `application/tickets/graph.py`, with the
types of `domain/tickets.py`.

The dictionary of the nodes keeps the first node of a number, in the order of the graph. The
recursion limit of the interpreter is not modelled.
-/
namespace RepoForge.Tickets

inductive TicketType where
  | program | initiative | implementationTicket
  deriving DecidableEq, Repr

inductive TicketPriority where
  | p0 | p1 | p2 | p3
  deriving DecidableEq, Repr

inductive TicketStatus where
  | backlog | ready | inProgress | blocked | inReview | done | superseded
  deriving DecidableEq, Repr

def TicketStatus.value : TicketStatus → String
  | backlog => "Backlog"
  | ready => "Ready"
  | inProgress => "In progress"
  | blocked => "Blocked"
  | inReview => "In review"
  | done => "Done"
  | superseded => "Superseded"

structure TicketNode where
  number : Int
  ticketType : TicketType
  priority : TicketPriority
  status : TicketStatus
  parent : Option Int
  blockers : List Int
  blocks : List Int
  children : List Int
  deriving DecidableEq, Repr

structure TicketGraph where
  programIssue : Int
  nodes : List TicketNode
  deriving DecidableEq, Repr

/-- The codes of the diagnostics of graphs and of readiness. -/
inductive DiagnosticCode where
  | duplicateId | missingProgram | invalidProgram | missingParent | unknownBlocker
  | asymmetricBlocks | unknownBlockedTicket | asymmetricBlockers | parentChildDrift
  | circularDependency | readyWithOpenBlocker | selfRequirementRelation
  | ambiguousSupersession | supersessionCycle
  deriving DecidableEq, Repr

def DiagnosticCode.value : DiagnosticCode → String
  | duplicateId => "DUPLICATE_ID"
  | missingProgram => "MISSING_PROGRAM"
  | invalidProgram => "INVALID_PROGRAM"
  | missingParent => "MISSING_PARENT"
  | unknownBlocker => "UNKNOWN_BLOCKER"
  | asymmetricBlocks => "ASYMMETRIC_BLOCKS"
  | unknownBlockedTicket => "UNKNOWN_BLOCKED_TICKET"
  | asymmetricBlockers => "ASYMMETRIC_BLOCKERS"
  | parentChildDrift => "PARENT_CHILD_DRIFT"
  | circularDependency => "CIRCULAR_DEPENDENCY"
  | readyWithOpenBlocker => "READY_WITH_OPEN_BLOCKER"
  | selfRequirementRelation => "SELF_REQUIREMENT_RELATION"
  | ambiguousSupersession => "AMBIGUOUS_SUPERSESSION"
  | supersessionCycle => "SUPERSESSION_CYCLE"

structure TicketDiagnostic where
  code : DiagnosticCode
  issueNumber : Int
  message : String
  deriving DecidableEq, Repr

/-- The order of the dataclass. -/
def TicketDiagnostic.key (d : TicketDiagnostic) : String ×ₗ Int ×ₗ String :=
  toLex (d.code.value, toLex (d.issueNumber, d.message))

/-- `tuple(sorted(set(diagnostics)))` -/
def sortedDiagnostics (diagnostics : List TicketDiagnostic) : List TicketDiagnostic :=
  sortBy TicketDiagnostic.key diagnostics.dedup

/-- `sorted` of numbers. -/
def sortedNumbers (numbers : List Int) : List Int := sortBy id numbers

/-- The `repr` of a list of numbers. -/
def numbersRepr (numbers : List Int) : String :=
  "[" ++ ", ".intercalate (numbers.map toString) ++ "]"

/-- The dictionary that `setdefault` fills. -/
def firstNodes (nodes : List TicketNode) : List TicketNode :=
  nodes.foldl
    (fun first node => if node.number ∈ first.map (·.number) then first else first ++ [node]) []

/-- `nodes.get(number)` -/
def nodeOf (nodes : List TicketNode) (number : Int) : Option TicketNode :=
  nodes.find? (·.number = number)

/-- The blockers that are nodes. -/
def knownBlockers (nodes : List TicketNode) (number : Int) : List Int :=
  match nodeOf nodes number with
  | none => []
  | some node => node.blockers.filter fun blocker => (nodeOf nodes blocker).isSome

/-- The search of `_cycle_nodes`. -/
def cycleSearch (nodes : List TicketNode) : BackEdges.Search Int :=
  BackEdges.search (knownBlockers nodes) (sortedNumbers (nodes.map (·.number)))

def cycleNodes (nodes : List TicketNode) : List Int := (cycleSearch nodes).found

section Checks

variable (nodes : List TicketNode)

def duplicateDiagnostics (graph : TicketGraph) : List TicketDiagnostic :=
  let numbers := graph.nodes.map (·.number)
  (sortedNumbers numbers.dedup).flatMap fun number =>
    let count := numbers.count number
    if 1 < count then
      [⟨.duplicateId, number, s!"issue #{number} appears {count} times"⟩]
    else []

def programDiagnostics (programIssue : Int) : List TicketDiagnostic :=
  match nodeOf nodes programIssue with
  | none => [⟨.missingProgram, programIssue, "program_issue does not reference a graph node"⟩]
  | some program =>
    if program.ticketType ≠ .program ∨ program.parent ≠ none then
      [⟨.invalidProgram, program.number, "program node must have type program and no parent"⟩]
    else []

def parentDiagnostics (node : TicketNode) : List TicketDiagnostic :=
  match node.parent with
  | none => []
  | some parent =>
    if (nodeOf nodes parent).isNone then
      [⟨.missingParent, node.number, s!"parent issue #{parent} is not present"⟩]
    else []

def blockerDiagnostics (node : TicketNode) (blocker : Int) : List TicketDiagnostic :=
  match nodeOf nodes blocker with
  | none => [⟨.unknownBlocker, node.number, s!"blocker issue #{blocker} is not present"⟩]
  | some target =>
    if node.number ∉ target.blocks then
      [⟨.asymmetricBlocks, node.number,
        s!"blocker issue #{blocker} does not list #{node.number} in blocks"⟩]
    else []

def blockedDiagnostics (node : TicketNode) (blocked : Int) : List TicketDiagnostic :=
  match nodeOf nodes blocked with
  | none => [⟨.unknownBlockedTicket, node.number, s!"blocked issue #{blocked} is not present"⟩]
  | some target =>
    if node.number ∉ target.blockers then
      [⟨.asymmetricBlockers, node.number,
        s!"blocked issue #{blocked} does not list #{node.number} as a blocker"⟩]
    else []

def nodeDiagnostics (node : TicketNode) : List TicketDiagnostic :=
  parentDiagnostics nodes node ++ node.blockers.flatMap (blockerDiagnostics nodes node) ++
    node.blocks.flatMap (blockedDiagnostics nodes node)

/-- `derived_children[number]`, sorted. -/
def derivedChildren (number : Int) : List Int :=
  sortedNumbers ((nodes.filter (·.parent = some number)).map (·.number))

def driftDiagnostics (node : TicketNode) : List TicketDiagnostic :=
  let expected := derivedChildren nodes node.number
  if node.children ≠ expected then
    [⟨.parentChildDrift, node.number, s!"children={numbersRepr node.children} but derived children={numbersRepr expected}"⟩]
  else []

def cycleDiagnostics : List TicketDiagnostic :=
  (sortedNumbers (cycleNodes nodes).dedup).map fun number =>
    ⟨.circularDependency, number, "ticket participates in a blocker cycle"⟩

end Checks

def validateTicketGraph (graph : TicketGraph) : List TicketDiagnostic :=
  let nodes := firstNodes graph.nodes
  sortedDiagnostics (duplicateDiagnostics graph ++ programDiagnostics nodes graph.programIssue ++
    nodes.flatMap (nodeDiagnostics nodes) ++
    (sortBy TicketNode.number nodes).flatMap (driftDiagnostics nodes) ++ cycleDiagnostics nodes)

end RepoForge.Tickets

/-!
# Ticket readiness

Source: `application/tickets/readiness.py`, with the delivery types of `domain/tickets.py`.

The texts of a live state are kept where something reads them: a partial completion is kept as
the three parts that `has_remaining_scope` asks for, a relation without its reason.
-/
namespace RepoForge.Tickets

inductive RequirementRelationType where
  | supersedes | supersededBy | splitInto | mergedInto | invalidates
  deriving DecidableEq, Repr

structure RequirementRelation where
  relationType : RequirementRelationType
  targetIssue : Int
  deriving DecidableEq, Repr

structure PartialCompletion where
  remainingScope : List Text
  newChildIssues : List Int
  unverifiedWork : List Text
  deriving DecidableEq, Repr

def PartialCompletion.hasRemainingScope (p : PartialCompletion) : Bool :=
  p.remainingScope ≠ [] || p.newChildIssues ≠ [] || p.unverifiedWork ≠ []

structure TicketDeliveryMetadata where
  specificationComplete : Bool
  unresolvedDesignGate : Bool := false
  supersededBy : Option Int := none
  relations : List RequirementRelation := []
  partialCompletion : Option PartialCompletion := none
  wave : Nat := 0
  sequence : Nat := 0
  deriving DecidableEq, Repr

/-- `isOpen` is `none` where the state of the issue could not be read. -/
structure TicketLiveState where
  number : Int
  isOpen : Option Bool
  delivery : TicketDeliveryMetadata
  deriving DecidableEq, Repr

structure TicketReadinessPolicy where
  p0Limit : Nat := 2
  p1Limit : Nat := 3
  p2Limit : Nat := 4
  p3Limit : Nat := 4
  initiativeLimit : Nat := 2
  deriving DecidableEq, Repr

def TicketReadinessPolicy.priorityLimit (policy : TicketReadinessPolicy) : TicketPriority → Nat
  | .p0 => policy.p0Limit
  | .p1 => policy.p1Limit
  | .p2 => policy.p2Limit
  | .p3 => policy.p3Limit

/-- `_PRIORITY_ORDER` -/
def TicketPriority.order : TicketPriority → Nat
  | p0 => 0
  | p1 => 1
  | p2 => 2
  | p3 => 3

inductive ReasonCode where
  | liveMetadataUnavailable | superseded | partialCompletionRemains | invalidatedAssumption
  | specificationIncomplete | designGateUnresolved | parentInactive | openBlockers
  | priorityWipLimit | initiativeWipLimit
  deriving DecidableEq, Repr

/-- `_REASON_MESSAGES` -/
def ReasonCode.message : ReasonCode → String
  | liveMetadataUnavailable => "Live issue state could not be read, so readiness fails closed."
  | superseded => "The ticket has an explicit superseding issue."
  | partialCompletionRemains =>
    "The closed or handed-off result still has explicit remaining or unverified scope."
  | invalidatedAssumption =>
    "Another requirement explicitly invalidated an assumption used by this ticket."
  | specificationIncomplete => "The ticket specification is incomplete."
  | designGateUnresolved => "A required design decision is still unresolved."
  | parentInactive => "The parent program or initiative is not active."
  | openBlockers => "One or more blocker issues are not closed."
  | priorityWipLimit => "The configured WIP limit for this priority is already reached."
  | initiativeWipLimit => "The configured WIP limit for this initiative is already reached."

structure TicketReadinessAssessment where
  number : Int
  declaredStatus : TicketStatus
  derivedStatus : TicketStatus
  selectable : Bool
  reasonCodes : List ReasonCode
  reasons : List String
  unresolvedBlockers : List Int
  wipConflicts : List Int
  metadataRepairs : List String
  wave : Nat
  sequence : Nat
  deriving DecidableEq, Repr

structure TicketReadinessReport where
  assessments : List TicketReadinessAssessment
  recommended : List Int
  diagnostics : List TicketDiagnostic
  deriving DecidableEq, Repr

/-- `TicketGraphError` -/
structure TicketGraphError where
  message : String
  deriving DecidableEq, Repr

def TicketStatus.activeParent : TicketStatus → Bool
  | ready | inProgress | inReview => true
  | _ => false

def TicketStatus.activeWip : TicketStatus → Bool
  | inProgress | inReview => true
  | _ => false

/-- The first number that has come before. -/
def firstRepeated : List Int → List Int → Option Int
  | _, [] => none
  | seen, number :: rest =>
    if number ∈ seen then some number else firstRepeated (number :: seen) rest

/-- `live.get(number)` -/
def liveOf (live : List TicketLiveState) (number : Int) : Option TicketLiveState :=
  live.find? (·.number = number)

/-- `_live_map` -/
def liveMap (live : List TicketLiveState) :
    Except TicketGraphError (Int → Option TicketLiveState) :=
  match firstRepeated [] (live.map (·.number)) with
  | some number => .error ⟨s!"duplicate live ticket state for issue #{number}"⟩
  | none => .ok (liveOf live)

def replacementTargets (state : TicketLiveState) : List Int :=
  let targets := (state.delivery.relations.filter fun relation =>
    relation.relationType = .supersededBy || relation.relationType = .mergedInto).map (·.targetIssue)
  sortedNumbers (targets ++ state.delivery.supersededBy.toList).dedup

def TicketLiveState.remains (state : TicketLiveState) : Bool :=
  state.delivery.partialCompletion.any PartialCompletion.hasRemainingScope

def baseStatus (node : TicketNode) (live : Option TicketLiveState) : TicketStatus :=
  match live with
  | none => .blocked
  | some state => match state.isOpen with
    | none => .blocked
    | some isOpen =>
      if replacementTargets state ≠ [] ∨ node.status = .superseded then .superseded
      else if isOpen = false then (if state.remains then .blocked else .done)
      else node.status

/-- `edges` of `_evolution_diagnostics`, from the older requirement to the newer one. -/
def evolutionEdges (live : List TicketLiveState) : List (Int × Int) :=
  live.flatMap fun state => state.delivery.relations.flatMap fun relation =>
    match relation.relationType with
    | .supersedes => [(relation.targetIssue, state.number)]
    | .supersededBy | .mergedInto | .splitInto => [(state.number, relation.targetIssue)]
    | .invalidates => []

/-- `sorted(edges.get(number, ()))` -/
def evolutionTargets (live : List TicketLiveState) (number : Int) : List Int :=
  sortedNumbers (((evolutionEdges live).filter (·.1 = number)).map (·.2)).dedup

/-- A node that the search may come to: where an edge starts or ends. -/
def evolutionNumbers (live : List TicketLiveState) : Nat := 2 * (evolutionEdges live).length

/-- The search of `_evolution_diagnostics`. -/
def evolutionSearch (live : List TicketLiveState) : BackEdges.Search Int :=
  (sortedNumbers ((evolutionEdges live).map (·.1)).dedup).foldl
    (fun s number => BackEdges.visit (evolutionTargets live) (evolutionNumbers live + 1) number s)
    ⟨[], [], [], []⟩

def stateDiagnostics (state : TicketLiveState) : List TicketDiagnostic :=
  (state.delivery.relations.flatMap fun relation =>
    if relation.targetIssue = state.number then
      [⟨.selfRequirementRelation, state.number,
        "requirement evolution cannot target the same issue"⟩]
    else []) ++
  (let replacements := replacementTargets state
  if 1 < replacements.length then
    [⟨.ambiguousSupersession, state.number,
      s!"ticket declares multiple canonical replacements: {numbersRepr replacements}"⟩]
  else [])

def evolutionDiagnostics (live : List TicketLiveState) : List TicketDiagnostic :=
  sortedDiagnostics (live.flatMap stateDiagnostics ++
    (sortedNumbers (evolutionSearch live).found.dedup).map fun number =>
      ⟨.supersessionCycle, number,
        "ticket participates in a supersession, split, or merge cycle"⟩)

/-- `_invalidated_targets` -/
def invalidatedTargets (live : List TicketLiveState) : List Int :=
  live.flatMap fun state =>
    (state.delivery.relations.filter (·.relationType = .invalidates)).map (·.targetIssue)

/-- The loop of `_initiative_number`; an ancestor is visited once. -/
def initiativeFrom (nodes : List TicketNode) : Nat → List Int → Option Int → Option Int
  | 0, _, _ => none
  | _ + 1, _, none => none
  | fuel + 1, visited, some parent =>
    if parent ∈ visited then none
    else match nodeOf nodes parent with
    | none => none
    | some ancestor =>
      if ancestor.ticketType = .initiative then some ancestor.number
      else initiativeFrom nodes fuel (parent :: visited) ancestor.parent

def initiativeNumber (nodes : List TicketNode) (node : TicketNode) : Option Int :=
  initiativeFrom nodes (nodes.length + 1) [] node.parent

def metadataRepairs (node : TicketNode) (derived : TicketStatus) : List String :=
  if node.status = derived then []
  else [s!"status: {node.status.value} -> {derived.value}"]

/-- `_assessment` -/
def assessment (node : TicketNode) (wave sequence : Nat) (derived : TicketStatus)
    (reasonCodes : List ReasonCode := []) (unresolvedBlockers wipConflicts : List Int := []) :
    TicketReadinessAssessment where
  number := node.number
  declaredStatus := node.status
  derivedStatus := derived
  selectable := node.ticketType = .implementationTicket && derived = .ready && reasonCodes = []
  reasonCodes := reasonCodes
  reasons := reasonCodes.map ReasonCode.message
  unresolvedBlockers := unresolvedBlockers
  wipConflicts := wipConflicts
  metadataRepairs := metadataRepairs node derived
  wave := wave
  sequence := sequence

section Readiness

variable (policy : TicketReadinessPolicy) (nodes : List TicketNode) (live : List TicketLiveState)

/-- `base_status` -/
def nodeStatus (node : TicketNode) : TicketStatus := baseStatus node (liveOf live node.number)

/-- `base_status.get(node.parent)` -/
def parentStatus (node : TicketNode) : Option TicketStatus :=
  node.parent.bind fun parent => (nodeOf nodes parent).map (nodeStatus live)

def TicketNode.active (node : TicketNode) : Bool :=
  node.ticketType = .implementationTicket && (nodeStatus live node).activeWip &&
    (liveOf live node.number).any (·.isOpen = some true)

/-- `active_ticket_ids`, as nodes. -/
def activeTickets : List TicketNode :=
  sortBy TicketNode.number (nodes.filter (TicketNode.active live))

def unresolvedBlockers (node : TicketNode) : List Int :=
  node.blockers.filter fun blocker => !(liveOf live blocker).any (·.isOpen = some false)

/-- The reasons that block a ticket before the limits are looked at. -/
def blockingReasons (node : TicketNode) (state : TicketLiveState) : List ReasonCode :=
  (if state.delivery.specificationComplete then [] else [.specificationIncomplete]) ++
    (if state.delivery.unresolvedDesignGate then [.designGateUnresolved] else []) ++
    (if (parentStatus nodes live node).any TicketStatus.activeParent then [] else [.parentInactive]) ++
    (if unresolvedBlockers live node = [] then [] else [.openBlockers])

def priorityConflicts (node : TicketNode) : List Int :=
  ((activeTickets nodes live).filter (·.priority = node.priority)).map (·.number)

def initiativeConflicts (node : TicketNode) : List Int :=
  let initiative := initiativeNumber nodes node
  ((activeTickets nodes live).filter fun other =>
    initiative ≠ none && initiativeNumber nodes other = initiative).map (·.number)

def priorityLimited (node : TicketNode) : Bool :=
  policy.priorityLimit node.priority ≤ (priorityConflicts nodes live node).length

def initiativeLimited (node : TicketNode) : Bool :=
  (initiativeNumber nodes node).isSome &&
    policy.initiativeLimit ≤ (initiativeConflicts nodes live node).length

/-- The end of the loop body: a ticket that nothing else holds back, against the limits. -/
def assessLimits (node : TicketNode) (wave sequence : Nat) : TicketReadinessAssessment :=
  let priority := priorityLimited policy nodes live node
  let initiative := initiativeLimited policy nodes live node
  let codes := (if priority then [ReasonCode.priorityWipLimit] else []) ++
    (if initiative then [.initiativeWipLimit] else [])
  let conflicts := (if priority then priorityConflicts nodes live node else []) ++
    (if initiative then initiativeConflicts nodes live node else [])
  if codes ≠ [] then
    assessment node wave sequence .blocked codes [] (sortedNumbers conflicts.dedup)
  else assessment node wave sequence .ready

/-- The loop body for a ticket whose live state was read. -/
def assessLive (node : TicketNode) (state : TicketLiveState) : TicketReadinessAssessment :=
  let wave := state.delivery.wave
  let sequence := state.delivery.sequence
  let initial := nodeStatus live node
  let codes := blockingReasons nodes live node state
  if initial = .superseded then assessment node wave sequence .superseded [.superseded]
  else if state.remains then assessment node wave sequence .blocked [.partialCompletionRemains]
  else if node.number ∈ invalidatedTargets live then
    assessment node wave sequence .blocked [.invalidatedAssumption]
  else if initial = .done then assessment node wave sequence .done
  else if node.ticketType ≠ .implementationTicket then assessment node wave sequence initial
  else if codes ≠ [] then
    assessment node wave sequence .blocked codes (unresolvedBlockers live node)
  else if initial.activeWip then assessment node wave sequence initial
  else assessLimits policy nodes live node wave sequence

def assess (node : TicketNode) : TicketReadinessAssessment :=
  match liveOf live node.number with
  | none => assessment node 0 0 .blocked [.liveMetadataUnavailable]
  | some state =>
    if state.isOpen = none then
      assessment node state.delivery.wave state.delivery.sequence .blocked
        [.liveMetadataUnavailable]
    else assessLive policy nodes live node state

/-- The order of the recommendations. -/
def deliveryKey (node : TicketNode) : Nat ×ₗ Nat ×ₗ Nat ×ₗ Int :=
  let a := assess policy nodes live node
  toLex (node.priority.order, toLex (a.wave, toLex (a.sequence, node.number)))

end Readiness

def deriveTicketReadiness (graph : TicketGraph) (live : List TicketLiveState)
    (policy : TicketReadinessPolicy) : Except TicketGraphError TicketReadinessReport := do
  let diagnostics := (validateTicketGraph graph).filter (·.code ≠ .readyWithOpenBlocker) ++
    evolutionDiagnostics live
  if diagnostics ≠ [] then .ok ⟨[], [], diagnostics⟩
  else do
    let _ ← liveMap live
    let assessments := (sortBy TicketNode.number graph.nodes).map
      (assess policy graph.nodes live)
    let recommended := graph.nodes.filter fun node =>
      (assess policy graph.nodes live node).selectable
    .ok ⟨assessments, (sortBy (deliveryKey policy graph.nodes live) recommended).map (·.number),
      []⟩

end RepoForge.Tickets
