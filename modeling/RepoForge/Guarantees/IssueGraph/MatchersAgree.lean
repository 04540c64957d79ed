import RepoForge.Guarantees.IssueGraph.ClaimedOnce
import RepoForge.Spec.IssueGraph.Planned

/-!
# Markers lost between the two matchers

`_live_truth` hands the reference of a marker to the planner, where `_live_delta` expects the
marker itself. So the planner matches no issue by its marker (`markerOwners_candidates`), and
`matchers_agree` says when this makes no difference: exactly if no issue has the marker of a desired
reference, or the draft is rejected for another reason and no two issues have one such marker.
-/
namespace RepoForge.IssueGraph
open PyStr (lit)

variable {R : Runtime} {gateway : Gateway} {draft : IssueGraphDraft}
  {identity : IssueGraphIdentity} {recent : List RemoteIssue}
  {mapped : List (PyStr × RemoteIssue)} {candidates : List LiveIssueCandidate}
  {graph : PublicationLiveGraph} {snapshot createdAt expiresAt ref : PyStr}

/-- An issue has the marker of a desired reference. -/
def Marked (draft : IssueGraphDraft) (recent : List RemoteIssue) : Prop :=
  ∃ issue ∈ recent, ∃ ref ∈ refs draft, markerRef issue = some ref

/-- Two issues have the marker of one desired reference. -/
def Contested (draft : IssueGraphDraft) (recent : List RemoteIssue) : Prop :=
  ∃ i ∈ recent, ∃ j ∈ recent, i.issueNumber ≠ j.issueNumber ∧
    ∃ ref ∈ refs draft, markerRef i = some ref ∧ markerRef j = some ref

/-- The planner, given what `_live_truth` has made, rejects a contested marker where it rejects, and
else matches the managed nodes of the live graph. -/
structure MatchersAgree (R : Runtime) (draft : IssueGraphDraft) (identity : IssueGraphIdentity)
    (createdAt expiresAt : PyStr) (recent : List RemoteIssue)
    (candidates : List LiveIssueCandidate) (graph : PublicationLiveGraph) : Prop where
  rejected : ∀ error, planIssueGraph R draft identity candidates createdAt expiresAt =
    .error error → Contested draft recent → ∃ findings, error = .blocked findings ∧
      ∃ finding ∈ findings, finding.code = lit "CONFLICTING_MANAGED_MARKER"
  matched : ∀ proposal, planIssueGraph R draft identity candidates createdAt expiresAt =
    .ok proposal → ∀ pair, pair ∈ proposal.delta.exactMatches ↔
      ∃ node ∈ graph.nodes, node.managed = true ∧ pair = (node.clientRef, node.issueNumber)

/-! ### No owner -/

theorem mem_of_mem_strip {s : PyStr} {c : CodePoint} (here : c ∈ s.strip) : c ∈ s :=
  (List.dropWhile_sublist _).subset ((List.rdropWhile_prefix _ _).subset here)

/-- A reference is not a marker. -/
theorem matchMarker_of_safe (safe : isSafeRef ref = true) : matchMarker ref.strip = none := by
  unfold matchMarker
  rw [if_neg]
  rintro ⟨same, -⟩
  have opened : CodePoint.scalar '<' ∈ ref.strip := by
    rw [same, managedMarker]
    simp [lit, PyStr.ofText]
  have inside := mem_of_mem_strip opened
  cases ref with
  | nil => cases safe
  | cons c rest =>
    simp only [isSafeRef, PyStr.firstThen, Bool.and_eq_true, List.all_eq_true] at safe
    rcases List.mem_cons.mp inside with rfl | later
    · exact absurd safe.1.1 (by decide +kernel)
    · exact absurd (safe.1.2 _ later) (by decide +kernel)

theorem matchMarker_safe {s : PyStr} (found : matchMarker s = some ref) : isSafeRef ref = true := by
  unfold matchMarker at found
  simp only at found
  split_ifs at found with matched
  cases found
  exact matched.2

theorem markerRef_safe {issue : RemoteIssue} (found : markerRef issue = some ref) :
    isSafeRef ref = true := by
  obtain ⟨line, -, matched⟩ := List.exists_of_findSome?_eq_some found
  exact matchMarker_safe matched

theorem markerOwners_candidates (made : recent.mapM candidateOf = .ok candidates) :
    markerOwners candidates ref = [] := by
  have none : ∀ issue ∈ candidates,
      (issue.managedMarker.bind fun marker => matchMarker marker.strip) ≠ some ref := by
    intro issue here
    obtain ⟨remote, -, ok⟩ := forall₂_mem (mapM_ok made).flip here
    obtain ⟨passed, same⟩ := built_ok ok
    have marker : issue.managedMarker = markerRef remote := by rw [← same]
    rw [marker]
    cases mark : markerRef remote with
    | none => simp
    | some found => simp [matchMarker_of_safe (markerRef_safe mark)]
  rw [markerOwners, List.filter_eq_nil_iff.mpr fun issue here => by simpa using none issue here]
  rfl

theorem liveDelta_candidates (made : recent.mapM candidateOf = .ok candidates) :
    (liveDelta R draft.nodes candidates).1.exactMatches = [] ∧
      (liveDelta R draft.nodes candidates).2 = [] := by
  constructor
  · simp [liveDelta, markerOwners_candidates made]
  · simp [liveDelta, markerOwners_candidates made, sortBy]

/-! ### Rejections -/

theorem validateGraph_code {finding : IssueGraphFinding} (h : finding ∈ validateGraph draft) :
    finding.code ∈ lit "GRAPH_CYCLE" :: otherCodes := by
  rcases mem_validateGraph.mp h with ⟨_, _, _, h⟩ | h | ⟨_, _, _, h⟩ | ⟨_, _, _, h⟩ |
    ⟨node, -, h⟩ | h
  · exact List.mem_cons_of_mem _ (nodeFindings_code h)
  · exact List.mem_cons_of_mem _ (rootFindings_code h)
  · exact List.mem_cons_of_mem _ (parentFindings_code h)
  · exact List.mem_cons_of_mem _ (edgeFindings_code h)
  · simp only [hierarchyFindings, List.mem_append, List.mem_ite_nil_right,
      List.mem_singleton] at h
    rcases h with ⟨-, rfl⟩ | ⟨-, rfl⟩
    · simp
    · simp [otherCodes]
  · simp only [cycleFindings, List.mem_ite_nil_right, List.mem_singleton] at h
    rw [h.2]
    exact List.mem_cons_self

/-- It does not raise findings. -/
def Plain {α : Type} (x : Except ProposalError α) : Prop := ∀ findings, x ≠ .error (.blocked findings)

theorem Plain.bind {α β : Type} {x : Except ProposalError α} {f : α → Except ProposalError β}
    (first : Plain x) (next : ∀ a, x = .ok a → Plain (f a)) : Plain (x >>= f) := by
  intro findings raised
  rcases bind_error raised with raised | ⟨a, ok, raised⟩
  · exact first findings raised
  · exact next a ok findings raised

theorem plain_ok {α : Type} (a : α) : Plain (.ok a : Except ProposalError α) :=
  fun _ raised => by cases raised

theorem plain_require {condition : Prop} [Decidable condition] {message : String} :
    Plain (require condition message) := by
  intro findings raised
  unfold require at raised
  split_ifs at raised
  cases raised

theorem plain_timestamp {value : PyStr} {field : String} : Plain (timestamp R value field) := by
  intro findings raised
  unfold timestamp at raised
  split at raised <;> cases raised

theorem plain_hashText {text : PyStr} : Plain (hashText R text) :=
  plain_require.bind fun _ _ => plain_ok _

theorem plain_postInit {fields : ProposalFields} : Plain (fields.postInit R) := by
  unfold ProposalFields.postInit
  refine plain_require.bind fun _ _ => plain_require.bind fun _ _ => ?_
  simp only
  split
  · intro findings raised
    cases raised
  · refine plain_hashText.bind fun _ _ => plain_require.bind fun _ _ => ?_
    refine plain_timestamp.bind fun _ _ => plain_timestamp.bind fun _ _ => ?_
    exact plain_require.bind fun _ _ => plain_require.bind fun _ _ => plain_require

theorem plain_built {α : Type} {postInit : Except ProposalError Unit}
    {make : postInit = .ok () → α} (plain : Plain postInit) : Plain (built postInit make) := by
  cases postInit with
  | ok u => exact plain_ok _
  | error e =>
    intro findings raised
    cases raised
    exact plain findings rfl

theorem takeLayers_error {rounds : Nat} {remaining : List (PyStr × List PyStr)}
    {ordered : List PyStr} {e : ProposalError}
    (raised : takeLayers rounds remaining ordered = .error e) : e = cycleError := by
  induction rounds generalizing remaining ordered with
  | zero =>
    cases remaining with
    | nil => cases raised
    | cons entry rest =>
      cases raised
      rfl
  | succ rounds ih =>
    cases remaining with
    | nil => cases raised
    | cons entry rest =>
      simp only [takeLayers] at raised
      split_ifs at raised
      · cases raised
        rfl
      · exact ih raised

/-- Where no marker is contested, the findings are of other kinds. -/
theorem plan_findings {liveIssues : List LiveIssueCandidate} {findings : List IssueGraphFinding}
    (quiet : (liveDelta R draft.nodes liveIssues).2 = [])
    (raised : planIssueGraph R draft identity liveIssues createdAt expiresAt =
      .error (.blocked findings)) :
    ∀ finding ∈ findings, finding.code ≠ lit "CONFLICTING_MANAGED_MARKER" := by
  have codes : ∀ code ∈ lit "GRAPH_CYCLE" :: otherCodes,
      code ≠ lit "CONFLICTING_MANAGED_MARKER" := by decide +kernel
  unfold planIssueGraph at raised
  simp only [quiet, List.append_nil] at raised
  split at raised
  · cases raised
    decide +kernel
  · rcases bind_error raised with raised | ⟨expires, -, raised⟩
    · exact absurd raised (plain_timestamp _)
    rcases bind_error raised with raised | ⟨created, -, raised⟩
    · exact absurd raised (plain_timestamp _)
    rcases bind_error raised with raised | ⟨_, -, raised⟩
    · exact absurd raised (plain_require _)
    split at raised
    · cases raised
      intro finding here
      exact codes _ (validateGraph_code (mem_sortBy.mp here))
    · rcases bind_error raised with raised | ⟨order, -, raised⟩
      · cases takeLayers_error raised
        intro finding here
        rw [List.mem_singleton.mp here]
        exact codes _ List.mem_cons_self
      rcases bind_error raised with raised | ⟨hash, -, raised⟩
      · exact absurd raised (plain_hashText _)
      · exact absurd raised (plain_built plain_postInit _)

/-! ### Agreement -/

/-- A live node is managed exactly if an issue has its marker. -/
theorem managed_iff (returned : claimed draft recent = .ok mapped)
    (made : (sortedItems mapped).mapM liveNodeOf = .ok graph.nodes) :
    (∃ node ∈ graph.nodes, node.managed = true) ↔ Marked draft recent := by
  obtain ⟨each, -⟩ := get_claimed returned
  obtain ⟨back, forth⟩ := mem_liveNodes returned made
  constructor
  · rintro ⟨node, here, managed⟩
    obtain ⟨issue, claim, -, eq⟩ := back node here
    rw [managed, eq_comm, decide_eq_true_eq] at eq
    rw [each] at claim
    obtain ⟨wanted, named, claim⟩ := Option.bind_eq_some_iff.mp claim
    obtain ⟨declared, ref⟩ := mem_of_byRef named
    have listed : issue ∈ recent := by
      rcases Option.or_eq_some_iff.mp claim with last | ⟨-, first⟩
      · exact (mem_of_lastMarked last).1
      · exact (List.mem_filter.mp (List.mem_of_head? first)).1
    exact ⟨issue, listed, node.clientRef, ref ▸ List.mem_map_of_mem declared, eq⟩
  · rintro ⟨issue, listed, ref, declared, marked⟩
    cases last : lastMarked recent ref with
    | none => exact absurd marked (lastMarked_eq_none.mp last issue listed)
    | some owner =>
      obtain ⟨wanted, named⟩ := Option.isSome_iff_exists.mp (byRef_isSome.mpr declared)
      have claim : PyDict.get mapped ref = some owner := by simp [each, named, last]
      obtain ⟨node, here, -, -, managed⟩ := forth ref owner claim
      exact ⟨node, here, by simp [managed, (mem_of_lastMarked last).2]⟩

/-- A draft that is planned matches nothing, so it must not have to. -/
theorem not_agree (sha : R.Sha256) (reads : R.Reads)
    (made : recent.mapM candidateOf = .ok candidates) (returned : claimed draft recent = .ok mapped)
    (nodes : (sortedItems mapped).mapM liveNodeOf = .ok graph.nodes)
    (plannable : Plannable R draft identity createdAt expiresAt) (marked : Marked draft recent) :
    ¬ MatchersAgree R draft identity createdAt expiresAt recent candidates graph := by
  intro agree
  obtain ⟨none, quiet⟩ := @liveDelta_candidates R draft _ _ made
  obtain ⟨proposal, planned⟩ := (plans_iff sha reads).mpr ⟨plannable, quiet⟩
  obtain ⟨-, -, -, -, order, -, -, fields⟩ := planIssueGraph_eq_ok planned
  obtain ⟨node, here, flag⟩ := (managed_iff returned nodes).mpr marked
  have matched := (agree.matched proposal planned _).mpr ⟨node, here, flag, rfl⟩
  rw [fields] at matched
  simp [plannedFields, none] at matched

/-- For every draft and every list of issues on which `_live_truth` returns: the matchers agree
exactly if no desired marker is on an issue, or the draft cannot be planned anyway and no desired
marker is on two. -/
theorem matchers_agree (sha : R.Sha256) (reads : R.Reads) {truncated : Bool}
    (read : gateway.recentIssues = .ok (recent, truncated))
    (returned : liveTruth R gateway draft = .ok (candidates, graph, snapshot)) :
    MatchersAgree R draft identity createdAt expiresAt recent candidates graph ↔
      ¬ Marked draft recent ∨
        ¬ Plannable R draft identity createdAt expiresAt ∧ ¬ Contested draft recent := by
  obtain ⟨recent', mapped, read', made, mappedOk, nodes⟩ := liveTruth_ok returned
  rw [read] at read'
  cases read'
  obtain ⟨none, quiet⟩ := @liveDelta_candidates R draft _ _ made
  have plans := @plans_iff R draft identity candidates createdAt expiresAt sha reads
  simp only [quiet, and_true] at plans
  have managed := managed_iff mappedOk nodes
  constructor
  · intro agree
    by_cases marked : Marked draft recent
    · right
      have rejects : ¬ Plannable R draft identity createdAt expiresAt := fun plannable =>
        not_agree sha reads made mappedOk nodes plannable marked agree
      refine ⟨rejects, fun contested => ?_⟩
      cases planned : planIssueGraph R draft identity candidates createdAt expiresAt with
      | ok proposal => exact rejects (plans.mp ⟨proposal, planned⟩)
      | error e =>
        obtain ⟨findings, rfl, finding, here, code⟩ := agree.rejected e planned contested
        exact plan_findings quiet planned finding here code
    · exact .inl marked
  · intro holds
    have uncontested : ¬ Contested draft recent := by
      rcases holds with unmarked | ⟨-, uncontested⟩
      · rintro ⟨i, listed, -, -, -, ref, declared, marked, -⟩
        exact unmarked ⟨i, listed, ref, declared, marked⟩
      · exact uncontested
    refine ⟨fun error _ contested => absurd contested uncontested, ?_⟩
    intro proposal planned pair
    have unmarked : ¬ Marked draft recent := holds.resolve_right fun rejected =>
      rejected.1 (plans.mp ⟨proposal, planned⟩)
    obtain ⟨-, -, -, -, order, -, -, fields⟩ := planIssueGraph_eq_ok planned
    rw [fields]
    simp only [plannedFields, none, List.not_mem_nil, false_iff]
    rintro ⟨node, here, flag, -⟩
    exact unmarked (managed.mp ⟨node, here, flag⟩)

/-- It reads whatever has been written. -/
noncomputable def readingRuntime : Runtime :=
  open Classical in
  { sampleRuntime [] with
    loads := fun s =>
      if h : ∃ value : Json, value.canonical = true ∧ value.dumps = s then some h.choose else none }

theorem readingRuntime_sha256 : readingRuntime.Sha256 := Sha256.hexdigest_hex

theorem readingRuntime_reads : readingRuntime.Reads := by
  intro value canonical
  have h : ∃ v : Json, v.canonical = true ∧ v.dumps = value.dumps := ⟨value, canonical, rfl⟩
  exact ⟨h.choose, dif_pos h, h.choose_spec.2⟩

def sampleIdentity : IssueGraphIdentity where
  repoId := lit "repo"
  repositoryFingerprint := List.replicate 64 (.scalar 'a')
  baseCommitSha := List.replicate 40 (.scalar 'b')
  liveSnapshotSha256 := List.replicate 64 (.scalar 'c')
  activeGeneration := 1
  toolSurfaceHash := List.replicate 64 (.scalar 'd')
  inputContractDigest := List.replicate 64 (.scalar 'e')
  outputContractDigest := List.replicate 64 (.scalar 'f')
  templateVersion := 2
  schemaVersion := 1
  constructed := by decide +kernel

def sampleCreated : PyStr := lit "2026-01-01T00:00:00+00:00"

def sampleExpires : PyStr := lit "2026-01-02T00:00:00+00:00"

/-- The root of the sample, published before. -/
def markedIssues : List RemoteIssue :=
  [sampleIssue 7 (lit "B") (managedMarker (lit "b") ++ lit "\n\ntext")]

theorem sampleDraft_plannable :
    Plannable readingRuntime sampleDraft sampleIdentity sampleCreated sampleExpires where
  repository := rfl
  expires := ⟨1767225600000000, 1767312000000000, by decide +kernel, by decide +kernel, by decide⟩
  accepted := by decide +kernel
  titles := by decide +kernel
  stamps := by decide +kernel

theorem matchers_agree_marked : ∃ candidates graph snapshot,
    liveTruth readingRuntime (sampleGateway markedIssues) sampleDraft =
      .ok (candidates, graph, snapshot) ∧
    ¬ MatchersAgree readingRuntime sampleDraft sampleIdentity sampleCreated sampleExpires
      markedIssues candidates graph := by
  have some : (liveTruth readingRuntime (sampleGateway markedIssues) sampleDraft).toBool =
      true := by decide +kernel
  have marked : Marked sampleDraft markedIssues := by
    refine ⟨_, List.mem_singleton_self _, lit "b", ?_, ?_⟩ <;> decide +kernel
  cases result : liveTruth readingRuntime (sampleGateway markedIssues) sampleDraft with
  | error e =>
    rw [result] at some
    cases some
  | ok value =>
    obtain ⟨candidates, graph, snapshot⟩ := value
    obtain ⟨recent, mapped, read, made, mappedOk, nodes⟩ := liveTruth_ok result
    cases read
    exact ⟨candidates, graph, snapshot, rfl, not_agree readingRuntime_sha256 readingRuntime_reads
      made mappedOk nodes sampleDraft_plannable marked⟩

theorem matchers_agree_plain : ∃ candidates graph snapshot,
    liveTruth readingRuntime (sampleGateway plainIssues) sampleDraft =
      .ok (candidates, graph, snapshot) ∧
    MatchersAgree readingRuntime sampleDraft sampleIdentity sampleCreated sampleExpires
      plainIssues candidates graph := by
  have some : (liveTruth readingRuntime (sampleGateway plainIssues) sampleDraft).toBool =
      true := by decide +kernel
  have silent : ∀ issue ∈ plainIssues, markerRef issue = none := by decide +kernel
  have unmarked : ¬ Marked sampleDraft plainIssues := by
    rintro ⟨issue, listed, ref, -, marked⟩
    rw [silent issue listed] at marked
    cases marked
  cases result : liveTruth readingRuntime (sampleGateway plainIssues) sampleDraft with
  | error e =>
    rw [result] at some
    cases some
  | ok value =>
    obtain ⟨candidates, graph, snapshot⟩ := value
    exact ⟨candidates, graph, snapshot, rfl, (matchers_agree readingRuntime_sha256
      readingRuntime_reads rfl result).mpr (.inl unmarked)⟩

end RepoForge.IssueGraph
