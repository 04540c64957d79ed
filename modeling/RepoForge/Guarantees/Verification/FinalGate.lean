import RepoForge.Library.Sha256
import RepoForge.Spec.Verification.DagOrder

/-!
# The final stage of a verification DAG

What `create_verification_dag` accepts comes in the order of the dependencies, whatever the order
in which the stages are supplied, and a cycle is what is left to refuse once the sizes and names
are right (`createVerificationDag_canonical`). That every stage is needed by the final one is
looked at for the stages before the last only: where the final stage is not the last itself, one
stage may be needed by nobody. `createVerificationDag_gates_iff`: the final stage needs all the
others exactly if each of them is a dependency of some stage.
-/
namespace RepoForge.Verification
open PyStr (lit isHex)
open Topological

variable {Instant : Type} {R : Runtime Instant} {planId planHash finalStageId : PyStr}
  {stages stages' ordered : List VerificationDagStage} {final : VerificationDagStage}
  {dag : VerificationDag}

/-- Every stage comes after its dependencies. -/
def InOrder (ordered : List VerificationDagStage) : Prop :=
  ∀ before stage after, ordered = before ++ stage :: after →
    ∀ d ∈ stage.dependencies, d ∈ stageIds before

/-- The stage with this id depends on all the others, directly or through others. -/
def Gates (stages : List VerificationDagStage) (stageId : PyStr) : Prop :=
  ∀ stage ∈ stages, stage.stageId ≠ stageId →
    Relation.TransGen (Needs (dependencies stages)) stage.stageId stageId

/-! ### What is accepted -/

/-- Everything that an accepted DAG went through. -/
structure Created (R : Runtime Instant) (planId planHash : PyStr)
    (stages : List VerificationDagStage) (finalStageId : PyStr) (dag : VerificationDag) : Prop where
  identity : isPlanId planId = true ∧ isHex 64 planHash = true
  sorted : Sorted stages dag.stages
  final : ∃ final, byId dag.stages finalStageId = some final ∧ final.final = true ∧
    (dag.stages.filter (·.final)).map (·.stageId) = [finalStageId] ∧
    checkBranches dag.stages final = .ok ()
  hash : digest R (dagPayload planId planHash finalStageId dag.stages) = .ok dag.dagHash

theorem created (h : createVerificationDag R planId planHash stages finalStageId = .ok dag) :
    Created R planId planHash stages finalStageId dag := by
  obtain ⟨_, identity, h⟩ := bind_ok h
  obtain ⟨ordered, sorted, h⟩ := bind_ok h
  split at h
  · cases h
  · rename_i final found
    obtain ⟨_, flagged, h⟩ := bind_ok h
    obtain ⟨_, single, h⟩ := bind_ok h
    obtain ⟨_, branches, h⟩ := bind_ok h
    obtain ⟨hash, hashed, h⟩ := bind_ok h
    cases h
    exact ⟨require_ok identity, topological_sorted.mp sorted,
      ⟨final, found, require_ok flagged, require_ok single, branches⟩, hashed⟩

theorem digest_of_clean (payload : Json) (clean : payload.clean = true) :
    ∃ hash, digest R payload = .ok hash := by
  have encodable : payload.dumps.encodable = true := by rw [Json.dumps_encodable, clean]
  simp [digest, encodable]

/-- And what goes through it is accepted. -/
theorem create_of (identity : isPlanId planId = true ∧ isHex 64 planHash = true)
    (sorted : topological stages = .ok ordered) (found : byId ordered finalStageId = some final)
    (flagged : final.final = true)
    (single : (ordered.filter (·.final)).map (·.stageId) = [finalStageId])
    (branches : checkBranches ordered final = .ok ())
    (clean : (dagPayload planId planHash finalStageId ordered).clean = true) :
    ∃ dag, createVerificationDag R planId planHash stages finalStageId = .ok dag ∧
      dag.stages = ordered := by
  obtain ⟨hash, hashed⟩ := digest_of_clean (R := R) _ clean
  rw [createVerificationDag, require_of identity, sorted]
  simp only [bind, Except.bind, found, require_of flagged, require_of single, branches, hashed]
  exact ⟨_, rfl, rfl⟩

theorem dependencies_perm (unique : (stageIds stages).Nodup) (perm : stages.Perm stages') :
    dependencies stages = dependencies stages' := by
  funext id
  rw [dependencies, dependencies, byId_perm unique perm]

theorem Sorted.dependencies_eq (h : Sorted stages ordered) :
    dependencies ordered = dependencies stages :=
  (dependencies_perm h.admissible.unique h.perm.symm).symm

theorem Sorted.inOrder (h : Sorted stages ordered) : InOrder ordered := by
  intro before stage after split d named
  have here : stage ∈ ordered := by simp [split]
  have first := h.least.greedy.dependenciesFirst (stageIds before) stage.stageId (stageIds after)
    (by simp [stageIds, split])
  rw [dependencies_mem h.admissible.unique (h.perm.subset here)] at first
  exact first d named

theorem Sorted.gates (h : Sorted stages ordered) {id : PyStr} :
    Gates ordered id ↔ Gates stages id := by
  unfold Gates
  rw [h.dependencies_eq]
  exact forall_congr' fun stage => imp_congr_left h.perm.mem_iff

/-- The final stage needs all the others where each of them is needed. -/
theorem gates_iff (acyclic : ¬ Cyclic (dependencies stages)) (unique : (stageIds stages).Nodup) :
    Gates stages finalStageId ↔
      ∀ stage ∈ stages, stage.stageId ≠ finalStageId →
        ∃ other ∈ stages, stage.stageId ∈ other.dependencies := by
  constructor
  · intro gates stage here other
    obtain ⟨y, needed, -⟩ := needed_of_reaches (gates stage here other)
    obtain ⟨next, member, -, named⟩ := dependencies_declared needed
    exact ⟨next, member, named⟩
  · intro needed stage here other
    have named : ∀ id ∈ stageIds stages, id ≠ finalStageId →
        ∃ y ∈ stageIds stages, id ∈ dependencies stages y := by
      intro id node different
      obtain ⟨stage, here, rfl⟩ := List.mem_map.mp node
      obtain ⟨next, member, named⟩ := needed stage here different
      refine ⟨next.stageId, List.mem_map_of_mem member, ?_⟩
      rw [dependencies_mem unique member]
      exact named
    exact reaches_of_needed acyclic named stage.stageId (List.mem_map_of_mem here) other

/-- On a list that is accepted, the stages come in the order of their dependencies, and the final
one depends on all the others exactly if each of the others is a dependency of some stage. -/
theorem createVerificationDag_gates_iff
    (accepted : createVerificationDag R planId planHash stages finalStageId = .ok dag) :
    InOrder dag.stages ∧ Gates dag.stages finalStageId ↔
      ∀ stage ∈ stages, stage.stageId ≠ finalStageId →
        ∃ other ∈ stages, stage.stageId ∈ other.dependencies := by
  have h := (created accepted).sorted
  rw [h.gates, gates_iff h.acyclic h.admissible.unique]
  exact and_iff_right h.inOrder

/-- A read-only stage of a profile. -/
def sampleFields (id : PyStr) (dependencies : List PyStr) (final : Bool) : DagStageFields where
  stageId := id
  version := 1
  dependencies := dependencies
  kind := lit "profile"
  target := lit "check"
  selector := none
  environmentAdapter := lit "native"
  workingDirectory := lit "."
  timeoutSeconds := 60
  networkPolicy := lit "none"
  filesystemPolicy := lit "read_only"
  processPolicy := lit "bounded_subprocess"
  credentialPolicy := lit "none"
  mutability := lit "read_only"
  requiredRiskLevel := lit "unknown"
  artifactPaths := []
  cachePolicy := .disabled
  failureSeverity := .required
  final := final

def constructed (fields : List DagStageFields) : List VerificationDagStage :=
  fields.filterMap fun fields => fields.construct.toOption

def sampleRuntime : Runtime Unit where
  sha256 := Sha256.hexdigest
  fromisoformat _ := some ()
  notAfter _ _ := some false

def samplePlanId : PyStr := lit "plan-" ++ List.replicate 24 (.scalar '0')

def samplePlanHash : PyStr := List.replicate 64 (.scalar '0')

theorem sample_identity : isPlanId samplePlanId = true ∧ isHex 64 samplePlanHash = true := by
  decide +kernel

/-- The final stage needs the other one. -/
def chainedStages : List VerificationDagStage :=
  constructed [sampleFields (lit "a") [] false, sampleFields (lit "b") [lit "a"] true]

theorem createVerificationDag_gates_chained :
    ∃ dag, createVerificationDag sampleRuntime samplePlanId samplePlanHash chainedStages (lit "b") =
        .ok dag ∧ InOrder dag.stages ∧ Gates dag.stages (lit "b") := by
  have sorted : topological chainedStages = .ok chainedStages := by decide +kernel
  obtain ⟨final, found, flagged, branches⟩ : ∃ final, byId chainedStages (lit "b") = some final ∧
      final.final = true ∧ checkBranches chainedStages final = .ok () :=
    ⟨_, rfl, by decide +kernel, by decide +kernel⟩
  obtain ⟨dag, accepted, -⟩ := create_of (R := sampleRuntime) sample_identity sorted found
    flagged (by decide +kernel) branches (by decide +kernel)
  exact ⟨dag, accepted, (createVerificationDag_gates_iff accepted).mpr (by decide +kernel)⟩

/-- The final stage comes first, and the other one is needed by nobody. -/
def strayStages : List VerificationDagStage :=
  constructed [sampleFields (lit "a") [] true, sampleFields (lit "b") [] false]

theorem stray_stage_accepted :
    ∃ dag, createVerificationDag sampleRuntime samplePlanId samplePlanHash strayStages (lit "a") =
        .ok dag ∧ ¬ Gates dag.stages (lit "a") := by
  have sorted : topological strayStages = .ok strayStages := by decide +kernel
  obtain ⟨final, found, flagged, branches⟩ : ∃ final, byId strayStages (lit "a") = some final ∧
      final.final = true ∧ checkBranches strayStages final = .ok () :=
    ⟨_, rfl, by decide +kernel, by decide +kernel⟩
  obtain ⟨dag, accepted, -⟩ := create_of (R := sampleRuntime) sample_identity sorted found
    flagged (by decide +kernel) branches (by decide +kernel)
  refine ⟨dag, accepted, fun gates => ?_⟩
  have sorted := (created accepted).sorted
  rw [sorted.gates, gates_iff sorted.acyclic sorted.admissible.unique] at gates
  exact absurd gates (by decide +kernel)

/-! ### Any order of the list -/

theorem Admissible.perm (h : Admissible stages) (perm : stages.Perm stages') :
    Admissible stages' := by
  refine ⟨⟨fun none => h.sized.1 (List.perm_nil.mp (none ▸ perm)), ?_⟩, ?_, ?_⟩
  · rw [← perm.length_eq]
    exact h.sized.2
  · exact (perm.map _).nodup_iff.mp h.unique
  · intro stage here d named
    exact (perm.map _).subset (h.known stage (perm.mem_iff.mpr here) d named)

theorem Sorted.of_perm (h : Sorted stages ordered) (perm : stages.Perm stages') :
    Sorted stages' ordered := by
  have same : dependencies stages = dependencies stages' :=
    dependencies_perm h.admissible.unique perm
  refine ⟨h.admissible.perm perm, same ▸ h.acyclic, ?_, h.perm.trans perm⟩
  rw [← same]
  exact h.least.congr fun id => (perm.map _).mem_iff

theorem topological_perm (perm : stages.Perm stages') :
    (∃ r r', topological stages = .error r ∧ topological stages' = .error r') ∨
      ∃ ordered, topological stages = .ok ordered ∧ topological stages' = .ok ordered := by
  cases h : topological stages with
  | ok ordered =>
    exact .inr ⟨ordered, rfl,
      topological_sorted.mpr ((topological_sorted.mp h).of_perm perm)⟩
  | error r =>
    cases h' : topological stages' with
    | ok ordered =>
      have sorted := (topological_sorted.mp h').of_perm perm.symm
      rw [topological_sorted.mpr sorted] at h
      cases h
    | error r' => exact .inl ⟨r, r', rfl, rfl⟩

theorem require_error {condition : Prop} [Decidable condition] {message : String} {e : Rejection}
    (h : require condition message = .error e) : e = .invalid message := by
  unfold require at h
  split at h
  · cases h
  · exact (Except.error.inj h).symm

theorem checkBranches_error {e : Rejection} (h : checkBranches ordered final = .error e) :
    e = .invalid
      "Verification DAG final stage must depend on every required execution branch" := by
  unfold checkBranches at h
  split at h
  · exact require_error h
  · cases h

theorem digest_error {payload : Json} {e : Rejection} (h : digest R payload = .error e) :
    e = .notEncodable := by
  simp only [digest] at h
  split at h
  · cases h
  · exact (Except.error.inj h).symm

/-- Once the sizes and names are right, a list is refused for a cycle exactly if it has one. -/
theorem createVerificationDag_cycle (identity : isPlanId planId = true ∧ isHex 64 planHash = true)
    (h : Admissible stages) :
    createVerificationDag R planId planHash stages finalStageId =
        .error (.invalid "Verification DAG contains a dependency cycle") ↔
      Cyclic (dependencies stages) := by
  obtain ⟨order, least⟩ := exists_least h.unique
  have sorted := topological_eq h least
  have cycle := Least.length_eq h least
  by_cases whole : order.length = stages.length
  · rw [if_pos whole] at sorted
    refine iff_of_false (fun refused => ?_) (cycle.mp whole)
    rw [createVerificationDag, require_of identity, sorted] at refused
    -- None of the later checks has this message.
    simp only [ok_bind] at refused
    split at refused
    · simp at refused
    · rcases bind_error refused with raised | ⟨_, -, refused⟩
      · simpa using require_error raised
      rcases bind_error refused with raised | ⟨_, -, refused⟩
      · simpa using require_error raised
      rcases bind_error refused with raised | ⟨_, -, refused⟩
      · simpa using checkBranches_error raised
      rcases bind_error refused with raised | ⟨_, -, refused⟩
      · simpa using digest_error raised
      cases refused
  · rw [if_neg whole] at sorted
    refine iff_of_true ?_ (by simpa using mt cycle.mpr whole)
    simp only [createVerificationDag, require_of identity, sorted, bind, Except.bind]

/-- A list and its permutations are all refused, or all accepted as the same DAG; and of the lists
with 1 to 128 stages, distinct ids and known dependencies, for a proper plan, those with a cycle are
refused for it. -/
theorem createVerificationDag_canonical (R : Runtime Instant) (planId planHash finalStageId : PyStr) :
    (∀ stages stages', stages.Perm stages' →
      (∃ r r', createVerificationDag R planId planHash stages finalStageId = .error r ∧
        createVerificationDag R planId planHash stages' finalStageId = .error r') ∨
      ∃ dag, createVerificationDag R planId planHash stages finalStageId = .ok dag ∧
        createVerificationDag R planId planHash stages' finalStageId = .ok dag) ∧
    ∀ stages, Admissible stages → isPlanId planId = true ∧ isHex 64 planHash = true →
      (createVerificationDag R planId planHash stages finalStageId =
          .error (.invalid "Verification DAG contains a dependency cycle") ↔
        Cyclic (dependencies stages)) := by
  refine ⟨fun stages stages' perm => ?_, fun stages h identity =>
    createVerificationDag_cycle identity h⟩
  by_cases identity : isPlanId planId = true ∧ isHex 64 planHash = true
  · rcases topological_perm perm with ⟨r, r', h, h'⟩ | ⟨ordered, h, h'⟩
    · refine .inl ⟨r, r', ?_, ?_⟩
      · simp only [createVerificationDag, require_of identity, h, bind, Except.bind]
      · simp only [createVerificationDag, require_of identity, h', bind, Except.bind]
    · have same : createVerificationDag R planId planHash stages' finalStageId =
          createVerificationDag R planId planHash stages finalStageId := by
        rw [createVerificationDag, createVerificationDag, h, h']
      rw [same]
      cases createVerificationDag R planId planHash stages finalStageId with
      | error r => exact .inl ⟨r, r, rfl, rfl⟩
      | ok dag => exact .inr ⟨dag, rfl, rfl⟩
  · have refused : ∀ stages, createVerificationDag R planId planHash stages finalStageId =
        .error (.invalid "Verification DAG plan identity is invalid") := by
      intro stages
      simp only [createVerificationDag, require, if_neg identity, bind, Except.bind]
    exact .inl ⟨_, _, refused stages, refused stages'⟩

/-- Two stages that need each other. -/
def circularStages : List VerificationDagStage :=
  constructed [sampleFields (lit "a") [lit "b"] false, sampleFields (lit "b") [lit "a"] true]

theorem createVerificationDag_canonical_circular :
    createVerificationDag sampleRuntime samplePlanId samplePlanHash circularStages (lit "b") =
        .error (.invalid "Verification DAG contains a dependency cycle") ∧
      Cyclic (dependencies circularStages) := by
  have first : dependencies circularStages (lit "a") = [lit "b"] := by decide +kernel
  have second : dependencies circularStages (lit "b") = [lit "a"] := by decide +kernel
  have cyclic : Cyclic (dependencies circularStages) :=
    ⟨lit "a", .head (b := lit "b") (by simp [Needs, second]) (.single (by simp [Needs, first]))⟩
  have admissible : Admissible circularStages :=
    ⟨by decide +kernel, by decide +kernel, by decide +kernel⟩
  exact ⟨((createVerificationDag_canonical sampleRuntime samplePlanId samplePlanHash
    (lit "b")).2 circularStages admissible sample_identity).mpr cyclic, cyclic⟩

def crowdedId (n : Nat) : PyStr := lit "s" ++ List.replicate n (.scalar 'a')

/-- More stages than are allowed, of which the first two need each other. -/
def crowdedStages : List VerificationDagStage :=
  constructed ((List.range 129).map fun n => sampleFields (crowdedId n)
    (if n = 0 then [crowdedId 1] else if n = 1 then [crowdedId 0] else []) (n = 128))

theorem crowded_cycle_refused_for_size :
    (stageIds crowdedStages).Nodup ∧
    (∀ stage ∈ crowdedStages, ∀ d ∈ stage.dependencies, d ∈ stageIds crowdedStages) ∧
    Cyclic (dependencies crowdedStages) ∧
    createVerificationDag sampleRuntime samplePlanId samplePlanHash crowdedStages
      (crowdedId 128) =
        .error (.invalid "Verification DAG must contain between 1 and 128 stages") := by
  have ids : stageIds crowdedStages = (List.range 129).map crowdedId := by decide +kernel
  have first : dependencies crowdedStages (crowdedId 0) = [crowdedId 1] := by decide +kernel
  have second : dependencies crowdedStages (crowdedId 1) = [crowdedId 0] := by decide +kernel
  have cyclic : Cyclic (dependencies crowdedStages) :=
    ⟨crowdedId 0, .head (b := crowdedId 1) (by simp [Needs, second])
      (.single (by simp [Needs, first]))⟩
  refine ⟨?_, by decide +kernel, cyclic, ?_⟩
  · rw [ids]
    refine List.nodup_range.map fun m n same => ?_
    simpa [crowdedId] using congrArg List.length same
  · have crowded : crowdedStages.length = 129 := by
      rw [← List.length_map (·.stageId), ← stageIds, ids]
      simp
    have sized : ¬ (crowdedStages ≠ [] ∧ crowdedStages.length ≤ 128) := by simp [crowded]
    simp only [createVerificationDag, topological, require, if_pos sample_identity, if_neg sized, bind,
      Except.bind]

end RepoForge.Verification
