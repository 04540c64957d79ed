import RepoForge.Library.Sha256
import RepoForge.Spec.IssueGraph.Order
import RepoForge.Spec.IssueGraph.PlanSteps
import RepoForge.Spec.IssueGraph.Planned

/-!
# Cycles of a desired issue graph

`cycles_agree`: `_validate_graph` reports a cycle, and `_topological_nodes` raises, exactly if the
declared relation has one, and else the references come out once each, in its order.
-/
namespace RepoForge.IssueGraph
open PyStr (lit)

variable {draft : IssueGraphDraft}

/-- For every draft with unique references: a cycle is reported, and the sort raises, exactly if
the declared relation has one; and otherwise every reference comes once, after its parent and
what it is blocked by or supersedes. -/
theorem cycles_agree (unique : (refs draft).Nodup) :
    ((∃ finding ∈ validateGraph draft, finding.code = lit "GRAPH_CYCLE") ↔ HasCycle draft) ∧
    ((∃ e, topologicalNodes draft = .error e) ↔ HasCycle draft) ∧
    ∀ order, topologicalNodes draft = .ok order →
      order.Perm (refs draft) ∧
      ∀ before x after, order = before ++ x :: after → ∀ d, Precedes draft d x → d ∈ before := by
  refine ⟨reports_cycle_iff, topologicalNodes_raises_iff, fun order returned => ?_⟩
  obtain ⟨once, complete, first⟩ := topologicalNodes_ok returned
  refine ⟨(List.perm_ext_iff_of_nodup once unique).mpr complete, ?_⟩
  intro before x after split d precedes
  exact first before x after split d (mem_dependencies.mpr precedes)

def sampleFields (ref title : PyStr) (parent : Option PyStr) : NodeFields where
  clientRef := ref
  title := title
  ticketType := lit "task"
  priority := lit "p1"
  status := lit "planned"
  parentRef := parent
  body := lit "## Objective\n## Acceptance criteria\n"

theorem rootFields_accepted : (sampleFields (lit "b") (lit "B") none).postInit = .ok () := by
  decide +kernel

/-- A root with one child, which supersedes the root. -/
def sampleDraft : IssueGraphDraft where
  repoId := lit "repo"
  rootRef := lit "b"
  nodes :=
    [{ toNodeFields := sampleFields (lit "b") (lit "B") none, constructed := rootFields_accepted },
      { toNodeFields := sampleFields (lit "a") (lit "A") (some (lit "b")),
        constructed := by decide +kernel }]
  edges := [{ toEdgeFields := ⟨lit "a", lit "b", .supersedes⟩, constructed := by decide +kernel }]
  constructed := by decide +kernel

theorem cycles_agree_sample : ¬ HasCycle sampleDraft ∧
    ∀ order, topologicalNodes sampleDraft = .ok order → order.Perm (refs sampleDraft) := by
  have unique : (refs sampleDraft).Nodup := by decide +kernel
  have agree := cycles_agree unique
  constructor
  · rw [← agree.1]
    decide +kernel
  · intro order returned
    exact (agree.2.2 order returned).1

end RepoForge.IssueGraph

/-!
# An issue claimed for two references

`_live_truth` looks for the title of an unmarked node among all issues, those that another
reference has claimed included. So two references can have one issue, and `claimed_once` says
when: exactly if two unmarked nodes have one title and an issue has it, or an unmarked node has
the title of the issue that is claimed by the marker of another.
-/
namespace RepoForge.IssueGraph
open PyStr (lit)

variable {R : Runtime} {gateway : Gateway} {draft : IssueGraphDraft} {recent : List RemoteIssue}
  {mapped : List (PyStr × RemoteIssue)} {candidates : List LiveIssueCandidate}
  {graph : PublicationLiveGraph} {snapshot : PyStr}

/-- No two references of the live graph have one issue; nor have they in the initial mapping of a
plan, and no two references have steps that update one issue. -/
structure ClaimedOnce (R : Runtime) (graph : PublicationLiveGraph) : Prop where
  nodes : ∀ a ∈ graph.nodes, ∀ b ∈ graph.nodes, a.issueNumber = b.issueNumber →
    a.clientRef = b.clientRef
  mapping : ∀ proposal identity adoptRefs provider createdAt expiresAt plan,
    buildPublicationPlan R proposal identity graph adoptRefs provider createdAt expiresAt =
      .ok plan →
    ∀ a ∈ plan.initialMapping, ∀ b ∈ plan.initialMapping, a.2 = b.2 → a.1 = b.1
  steps : ∀ proposal identity adoptRefs provider createdAt expiresAt plan,
    buildPublicationPlan R proposal identity graph adoptRefs provider createdAt expiresAt =
      .ok plan →
    ∀ s ∈ plan.steps, ∀ t ∈ plan.steps, ∀ number, s.expectedIssueNumber = some number →
      t.expectedIssueNumber = some number → s.sourceRef = t.sourceRef

/-- No issue has the marker of the reference. -/
def Unmarked (recent : List RemoteIssue) (ref : PyStr) : Prop :=
  ∀ issue ∈ recent, markerRef issue ≠ some ref

instance (recent : List RemoteIssue) (ref : PyStr) : Decidable (Unmarked recent ref) :=
  inferInstanceAs (Decidable (∀ issue ∈ recent, markerRef issue ≠ some ref))

structure TitlesApart (draft : IssueGraphDraft) (recent : List RemoteIssue) : Prop where
  /-- Two unmarked nodes with one title find no issue with it. -/
  unmarked : ∀ m ∈ draft.nodes, ∀ n ∈ draft.nodes, m.clientRef ≠ n.clientRef →
    Unmarked recent m.clientRef → Unmarked recent n.clientRef → m.title = n.title →
    ∀ issue ∈ recent, issue.title ≠ n.title
  /-- The last issue with the marker of a node has not the title of an unmarked one. -/
  marked : ∀ m ∈ draft.nodes, ∀ n ∈ draft.nodes, Unmarked recent n.clientRef →
    ∀ issue, lastMarked recent m.clientRef = some issue → issue.title ≠ n.title

/-- Within a repository, a number is of one issue. -/
def Identified (recent : List RemoteIssue) : Prop :=
  ∀ i ∈ recent, ∀ j ∈ recent, i.issueNumber = j.issueNumber → i = j

theorem lastMarked_eq_none {ref : PyStr} : lastMarked recent ref = none ↔ Unmarked recent ref := by
  simp [lastMarked, Unmarked]

theorem mem_of_lastMarked {ref : PyStr} {issue : RemoteIssue}
    (found : lastMarked recent ref = some issue) :
    issue ∈ recent ∧ markerRef issue = some ref := by
  have marked := List.find?_some found
  simp only [decide_eq_true_eq] at marked
  exact ⟨List.mem_reverse.mp (List.mem_of_find?_eq_some found), marked⟩

/-- The two ways to claim an issue. -/
theorem claims_iff (unique : (refs draft).Nodup) (returned : claimed draft recent = .ok mapped)
    {node : IssueNodeDraft} (here : node ∈ draft.nodes) {issue : RemoteIssue} :
    PyDict.get mapped node.clientRef = some issue ↔
      lastMarked recent node.clientRef = some issue ∨
      Unmarked recent node.clientRef ∧ issue ∈ recent ∧ issue.title = node.title := by
  obtain ⟨each, single⟩ := get_claimed returned
  have found := byRef_eq unique here
  rw [each, found, Option.bind_some]
  cases marked : lastMarked recent node.clientRef with
  | some other =>
    have notUnmarked : ¬ Unmarked recent node.clientRef := by
      rw [← lastMarked_eq_none, marked]
      simp
    simp [notUnmarked]
  | none =>
    have unmarked := lastMarked_eq_none.mp marked
    have few := single _ _ found marked
    have inside : issue ∈ titled recent node.title ↔
        issue ∈ recent ∧ issue.title = node.title := by simp [titled]
    rw [Option.none_or, ← inside]
    constructor
    · intro first
      exact .inr ⟨unmarked, List.mem_of_head? first⟩
    · rintro (absent | ⟨-, there⟩)
      · cases absent
      · cases h : titled recent node.title with
        | nil => simp [h] at there
        | cons only others =>
          cases others with
          | nil =>
            rw [h] at there
            rw [List.mem_singleton.mp there]
            rfl
          | cons => simp [h] at few

/-- The claims do not meet. -/
theorem apart_iff (unique : (refs draft).Nodup) (identified : Identified recent)
    (returned : claimed draft recent = .ok mapped) :
    (∀ m ∈ draft.nodes, ∀ n ∈ draft.nodes, ∀ i j, PyDict.get mapped m.clientRef = some i →
      PyDict.get mapped n.clientRef = some j → i.issueNumber = j.issueNumber →
      m.clientRef = n.clientRef) ↔ TitlesApart draft recent := by
  constructor
  · intro once
    constructor
    · intro m here n there other free free' title issue listed named
      refine other (once m here n there issue issue ?_ ?_ rfl)
      · exact (claims_iff unique returned here).mpr (.inr ⟨free, listed, named.trans title.symm⟩)
      · exact (claims_iff unique returned there).mpr (.inr ⟨free', listed, named⟩)
    · intro m here n there free issue last named
      obtain ⟨listed, marked⟩ := mem_of_lastMarked last
      have same := once m here n there issue issue
        ((claims_iff unique returned here).mpr (.inl last))
        ((claims_iff unique returned there).mpr (.inr ⟨free, listed, named⟩)) rfl
      exact free issue listed (same ▸ marked)
  · intro apart m here n there i j first second same
    by_contra other
    rcases (claims_iff unique returned here).mp first with last | ⟨free, listed, named⟩
    · obtain ⟨listed, marked⟩ := mem_of_lastMarked last
      rcases (claims_iff unique returned there).mp second with last' | ⟨free', listed', named'⟩
      · obtain ⟨listed', marked'⟩ := mem_of_lastMarked last'
        rw [identified i listed j listed' same, marked'] at marked
        exact other (Option.some.inj marked).symm
      · rw [identified i listed j listed' same] at last
        exact apart.marked m here n there free' j last named'
    · rcases (claims_iff unique returned there).mp second with last' | ⟨free', listed', named'⟩
      · obtain ⟨listed', -⟩ := mem_of_lastMarked last'
        rw [← identified i listed j listed' same] at last'
        exact apart.marked n there m here free i last' named
      · have issue := identified i listed j listed' same
        subst issue
        exact apart.unmarked m here n there other free free' (named.symm.trans named') i listed
          named'

/-- What the live graph keeps apart, the plans from it do. -/
theorem ClaimedOnce.of_nodes (nodes : ∀ a ∈ graph.nodes, ∀ b ∈ graph.nodes,
    a.issueNumber = b.issueNumber → a.clientRef = b.clientRef) : ClaimedOnce R graph := by
  refine ⟨nodes, ?_, ?_⟩
  · intro proposal identity adoptRefs provider createdAt expiresAt plan built a here b there same
    rw [(buildPublicationPlan_ok built).2] at here there
    obtain ⟨live, inside, ref, number⟩ := mem_initialMapping (mem_sortBy.mp here)
    obtain ⟨live', inside', ref', number'⟩ := mem_initialMapping (mem_sortBy.mp there)
    rw [← ref, ← ref']
    exact nodes live inside live' inside' (by rw [number, number', same])
  · intro proposal identity adoptRefs provider createdAt expiresAt plan built s here t there number
      expected expected'
    obtain ⟨⟨phases, all⟩, -⟩ := buildPublicationPlan_ok built
    have expects : ∀ step ∈ plan.steps, ExpectsLive graph step.toStepIntent := fun step inside =>
      phases.expects (all ▸ List.mem_map_of_mem inside)
    obtain ⟨live, inside, ref, same⟩ := expects s here number expected
    obtain ⟨live', inside', ref', same'⟩ := expects t there number expected'
    rw [← ref, ← ref']
    exact nodes live inside live' inside' (same.trans same'.symm)

/-- For every accepted draft and every list of issues: no issue is claimed twice exactly if no two
unmarked nodes have the title of one issue, and none has that of an issue claimed by a marker. -/
theorem claimed_once (accepted : validateGraph draft = []) {truncated : Bool}
    (read : gateway.recentIssues = .ok (recent, truncated)) (identified : Identified recent)
    (returned : liveTruth R gateway draft = .ok (candidates, graph, snapshot)) :
    ClaimedOnce R graph ↔ TitlesApart draft recent := by
  obtain ⟨recent', mapped, read', -, mappedOk, made⟩ := liveTruth_ok returned
  rw [read] at read'
  cases read'
  have unique := refs_nodup accepted
  obtain ⟨back, forth⟩ := mem_liveNodes mappedOk made
  rw [← apart_iff unique identified mappedOk]
  constructor
  · intro once m here n there i j first second same
    obtain ⟨a, inside, ref, number, -⟩ := forth _ _ first
    obtain ⟨b, inside', ref', number', -⟩ := forth _ _ second
    rw [← ref, ← ref']
    exact once.nodes a inside b inside' (by rw [number, number', same])
  · intro once
    refine ClaimedOnce.of_nodes fun a inside b inside' same => ?_
    obtain ⟨i, first, number, -⟩ := back a inside
    obtain ⟨j, second, number', -⟩ := back b inside'
    have declared : ∀ ref issue, PyDict.get mapped ref = some issue →
        ∃ node ∈ draft.nodes, node.clientRef = ref := by
      intro ref issue claim
      rw [(get_claimed mappedOk).1] at claim
      obtain ⟨node, found, -⟩ := Option.bind_eq_some_iff.mp claim
      exact ⟨node, mem_of_byRef found⟩
    obtain ⟨m, here, ref⟩ := declared _ _ first
    obtain ⟨n, there, ref'⟩ := declared _ _ second
    rw [← ref, ← ref']
    exact once m here n there i j (ref ▸ first) (ref' ▸ second) (by rw [← number, ← number', same])

/-- A runtime that reads two instants, and these documents. -/
def sampleRuntime (documents : List Json) : Runtime where
  sha256 := Sha256.hexdigest
  casefold s := s.map fun c =>
    match c with
    | .scalar c => .scalar c.toLower
    | other => other
  fromisoformat s :=
    if s = lit "2026-01-01T00:00:00+00:00" then some (some 1767225600000000)
    else if s = lit "2026-01-02T00:00:00+00:00" then some (some 1767312000000000)
    else none
  loads s := documents.find? fun document => document.dumps = s
  str _ := []

def sampleIssue (number : Int) (title body : PyStr) : RemoteIssue where
  issueNumber := number
  databaseId := 100 + number
  title := title
  state := lit "open"
  body := body
  url := []

/-- A repository with these issues and no relations. -/
def sampleGateway (recent : List RemoteIssue) : Gateway where
  recentIssues := .ok (recent, false)
  subIssues _ := .ok ([], false)
  blockedBy _ := .ok ([], false)

/-- A root and its child, with one title. -/
def twinDraft : IssueGraphDraft where
  repoId := lit "repo"
  rootRef := lit "b"
  nodes :=
    [{ toNodeFields := sampleFields (lit "b") (lit "B") none, constructed := rootFields_accepted },
      { toNodeFields := sampleFields (lit "a") (lit "B") (some (lit "b")),
        constructed := by decide +kernel }]
  edges := []
  constructed := by decide +kernel

def plainIssues : List RemoteIssue := [sampleIssue 7 (lit "B") (lit "text")]

theorem claimed_once_twins : validateGraph twinDraft = [] ∧ ∃ candidates graph snapshot,
    liveTruth (sampleRuntime []) (sampleGateway plainIssues) twinDraft =
      .ok (candidates, graph, snapshot) ∧ ¬ ClaimedOnce (sampleRuntime []) graph := by
  refine ⟨by decide +kernel, ?_⟩
  have nodes : (liveTruth (sampleRuntime []) (sampleGateway plainIssues) twinDraft).map
      (fun result => result.2.1.nodes.map fun node => (node.clientRef, node.issueNumber)) =
      .ok [(lit "a", 7), (lit "b", 7)] := by decide +kernel
  cases result : liveTruth (sampleRuntime []) (sampleGateway plainIssues) twinDraft with
  | error e =>
    rw [result] at nodes
    cases nodes
  | ok value =>
    obtain ⟨candidates, graph, snapshot⟩ := value
    rw [result] at nodes
    refine ⟨candidates, graph, snapshot, rfl, fun once => ?_⟩
    have listed : graph.nodes.map (fun node => (node.clientRef, node.issueNumber)) =
        [(lit "a", 7), (lit "b", 7)] := Except.ok.inj nodes
    have first : (lit "a", (7 : Int)) ∈
        graph.nodes.map fun node => (node.clientRef, node.issueNumber) := by simp [listed]
    have second : (lit "b", (7 : Int)) ∈
        graph.nodes.map fun node => (node.clientRef, node.issueNumber) := by simp [listed]
    obtain ⟨a, here, same⟩ := List.mem_map.mp first
    obtain ⟨b, there, same'⟩ := List.mem_map.mp second
    obtain ⟨ref, number⟩ := Prod.mk.inj same
    obtain ⟨ref', number'⟩ := Prod.mk.inj same'
    have one := once.nodes a here b there (number.trans number'.symm)
    rw [ref, ref'] at one
    exact absurd one (by decide +kernel)

theorem claimed_once_sample : ∃ candidates graph snapshot,
    liveTruth (sampleRuntime []) (sampleGateway plainIssues) sampleDraft =
      .ok (candidates, graph, snapshot) ∧ ClaimedOnce (sampleRuntime []) graph := by
  have accepted : validateGraph sampleDraft = [] := by decide +kernel
  have some : (liveTruth (sampleRuntime []) (sampleGateway plainIssues) sampleDraft).toBool =
      true := by decide +kernel
  cases result : liveTruth (sampleRuntime []) (sampleGateway plainIssues) sampleDraft with
  | error e =>
    rw [result] at some
    cases some
  | ok value =>
    obtain ⟨candidates, graph, snapshot⟩ := value
    have identified : Identified plainIssues := by
      intro i here j there _
      rw [List.mem_singleton.mp here, List.mem_singleton.mp there]
    have apart : TitlesApart sampleDraft plainIssues := by
      constructor
      · decide +kernel
      · intro m here n there _ issue last
        have none : lastMarked plainIssues m.clientRef = none := by
          rw [lastMarked_eq_none]
          have silent : ∀ issue ∈ plainIssues, markerRef issue = Option.none := by decide +kernel
          intro issue listed
          simp [silent issue listed]
        rw [none] at last
        cases last
    exact ⟨candidates, graph, snapshot, rfl,
      (claimed_once accepted rfl identified result).mpr apart⟩

end RepoForge.IssueGraph
