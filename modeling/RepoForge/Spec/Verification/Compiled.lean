import RepoForge.Spec.Verification.DagOrder

/-!
# Stages of a plan as stages of a DAG

What `create_execution_plan` checks (`planned`), and which of its stages can be compiled: only the
length of the working directory and the control characters of the artifact paths are checked
there for the first time (`compiledFields_postInit`).
-/
namespace RepoForge.Verification
open PyStr (lit firstThen_mono isHex sortedDistinct_eq_nil)
open Topological

variable {Instant : Type} {R : Runtime Instant}

/-! ### A stage -/

theorem bind_require {α : Type} {condition : Prop} [Decidable condition] {message : String}
    {next : Unit → Except Rejection α} {a : α} :
    (require condition message >>= next) = .ok a ↔ condition ∧ next () = .ok a := by
  constructor
  · intro h
    obtain ⟨_, first, h⟩ := bind_ok h
    exact ⟨require_ok first, h⟩
  · intro h
    rw [require_of h.1]
    exact h.2

theorem require_iff {condition : Prop} [Decidable condition] {message : String} :
    require condition message = .ok () ↔ condition :=
  ⟨require_ok, require_of⟩

theorem isSafeId_of_isSafeTarget {s : PyStr} (h : isSafeTarget s = true) : isSafeId s = true :=
  firstThen_mono (fun _ h => h) (fun _ h => h) (by decide) h

theorem isAlphanum_of_isLower {c : Char} (h : c.isLower = true) : c.isAlphanum = true := by
  change ((c.isUpper || c.isLower) || c.isDigit) = true
  simp [h]

theorem isSafeId_of_isStageId {s : PyStr} (h : isStageId s = true) : isSafeId s = true := by
  refine firstThen_mono (fun c => isAlphanum_of_isLower) (fun c inside => ?_) (by decide) h
  simp only [Bool.or_eq_true] at inside ⊢
  rcases inside with (lower | digit) | mark
  · exact .inl (isAlphanum_of_isLower lower)
  · exact .inl (by simp [Char.isAlphanum, digit])
  · refine .inr ?_
    simp only [List.contains_eq_mem, decide_eq_true_eq] at mark ⊢
    have marks : ∀ d ∈ "._-".toList, d ∈ "._:-".toList := by simp
    exact marks c mark

/-- What `PlanStage.__post_init__` has checked. -/
structure PlanStage.Checked (stage : PlanStage) : Prop where
  stageId : isStageId stage.stageId = true
  target : isSafeTarget stage.target = true
  dependencies : stage.dependencies.length ≤ 32 ∧ stage.dependencies.Nodup
  timeout : 1 ≤ stage.timeoutSeconds ∧ stage.timeoutSeconds ≤ 86400
  network : stage.networkPolicy ∈ networkPolicies
  paths : stage.artifactPaths.length ≤ 32
  path : ∀ path ∈ stage.artifactPaths, path ≠ [] ∧ path.length ≤ 256 ∧
    path.head? ≠ some (.scalar '/') ∧ climbs path = false

theorem PlanStage.checked (stage : PlanStage) : stage.Checked := by
  have h := stage.constructed
  simp only [PlanStageFields.postInit, bind_require] at h
  obtain ⟨stageId, target, -, dependencies, timeout, network, paths, h⟩ := h
  obtain ⟨_, path, -⟩ := bind_ok h
  exact ⟨stageId, target, dependencies, timeout, network, paths,
    fun p here => require_ok (forM_ok.mp path p here)⟩

/-- What is checked of a stage only when it is compiled. -/
structure Fits (stage : PlanStage) : Prop where
  directory : ∀ directory ∈ stage.workingDirectory, directory.length ≤ 512
  paths : ∀ path ∈ stage.artifactPaths, hasControl path = false

theorem compiledFields_directory {stage : PlanStage} :
    ((compiledFields stage).workingDirectory ≠ [] ∧
      (compiledFields stage).workingDirectory.length ≤ 512) ↔
    ∀ directory ∈ stage.workingDirectory, directory.length ≤ 512 := by
  unfold compiledFields
  rcases stage.workingDirectory with _ | (_ | ⟨c, rest⟩)
  · simp [lit, PyStr.ofText]
  · simp [lit, PyStr.ofText]
  · simp

theorem isSafeId_networkPolicies : ∀ policy ∈ networkPolicies, isSafeId policy = true := by
  decide

theorem isSafeId_kind (kind : PlanStageKind) : isSafeId kind.value = true := by
  cases kind <;> decide

theorem isSafeId_mutability (mutability : PlanStageMutability) :
    isSafeId mutability.value = true := by
  cases mutability <;> decide

theorem mutability_supported (mutability : PlanStageMutability) :
    mutability.value ∈ [lit "read_only", lit "workspace_write"] := by
  cases mutability <;> decide

theorem compiledFields_postInit {stage : PlanStage}
    (free : stage.stageId ∉ stage.dependencies) :
    (compiledFields stage).postInit = .ok () ↔ Fits stage := by
  have checked := stage.checked
  simp only [DagStageFields.postInit, bind_require, forM_ok, require_iff]
  constructor
  · intro h
    obtain ⟨-, -, -, -, -, -, -, -, -, -, -, -, -, directory, -, -, -, -, -, paths⟩ := h
    exact ⟨compiledFields_directory.mp directory, fun path here => (paths path here).2.2.2.2⟩
  · intro fits
    have bounds := checked.dependencies
    have few := checked.paths
    have native : isSafeId (lit "native") = true := by decide
    have bounded : isSafeId (lit "bounded_subprocess") = true := by decide
    have none : isSafeId (lit "none") = true := by decide
    have unknown : isSafeId (lit "unknown") = true := by decide
    refine ⟨isSafeId_of_isStageId checked.stageId, isSafeId_kind _,
      isSafeId_of_isSafeTarget checked.target, native,
      isSafeId_networkPolicies _ checked.network, isSafeId_mutability _, bounded, none,
      isSafeId_mutability _, unknown, le_refl _, ?_, free,
      compiledFields_directory.mpr fits.directory, checked.timeout, mutability_supported _, ?_, ?_,
      ?_, ?_⟩
    · exact ⟨by simp only [compiledFields]; omega, bounds.2⟩
    · -- Only the read-only stages of an iteration are cached.
      rintro ⟨cached, other⟩
      simp only [compiledFields] at cached other
      split at cached
      · rename_i iteration
        rw [iteration.1, iteration.2] at other
        simp [PlanStageMutability.value] at other
      · cases cached
    · rintro ⟨final, cached⟩
      simp only [compiledFields, decide_eq_true_eq] at final cached
      simp [final] at cached
    · simp only [compiledFields]
      omega
    · intro path here
      obtain ⟨some, short, relative, within⟩ := checked.path path here
      exact ⟨some, by omega, relative, within, fits.paths path here⟩

theorem construct_ok {fields : DagStageFields} {stage : VerificationDagStage} :
    fields.construct = .ok stage ↔ stage.toDagStageFields = fields := by
  unfold DagStageFields.construct
  constructor
  · intro h
    split at h
    · cases h
      rfl
    · cases h
  · rintro rfl
    split
    · rfl
    · rename_i rejection raised
      rw [stage.constructed] at raised
      cases raised

/-! ### A plan -/

/-- What `_validate_graph` has checked. -/
structure ValidGraph (stages : List PlanStage) (finalProfile : PyStr) : Prop where
  sized : stages ≠ [] ∧ stages.length ≤ 128
  unique : (stages.map (·.stageId)).Nodup
  known : ∀ stage ∈ stages, ∀ d ∈ stage.dependencies, d ∈ stages.map (·.stageId)
  free : ∀ stage ∈ stages, stage.stageId ∉ stage.dependencies
  ordered : ∀ stage ∈ stages, ∀ d ∈ stage.dependencies,
    (stages.map (·.stageId)).idxOf d < (stages.map (·.stageId)).idxOf stage.stageId
  final : ∃ final, stages.filter (fun stage => stage.boundary = .final) = [final] ∧
    stages.getLast? = some final ∧ final.target = finalProfile

theorem checkDependencies_ok {stages : List PlanStage} {stage : PlanStage}
    (h : checkDependencies stages stage = .ok ()) :
    (∀ d ∈ stage.dependencies, d ∈ stages.map (·.stageId)) ∧
      stage.stageId ∉ stage.dependencies ∧
      ∀ d ∈ stage.dependencies,
        (stages.map (·.stageId)).idxOf d < (stages.map (·.stageId)).idxOf stage.stageId := by
  simp only [checkDependencies] at h
  split at h
  · obtain ⟨_, raised, -⟩ := bind_ok h
    cases raised
  · rename_i none
    rw [bind_require, require_iff] at h
    refine ⟨?_, h⟩
    simpa [sortedDistinct_eq_nil] using none

theorem validateGraph_ok {stages : List PlanStage} {finalProfile : PyStr}
    (h : validateGraph stages finalProfile = .ok ()) : ValidGraph stages finalProfile := by
  simp only [validateGraph, bind_require] at h
  obtain ⟨sized, unique, h⟩ := h
  obtain ⟨_, each, h⟩ := bind_ok h
  simp only [bind_require] at h
  obtain ⟨-, h⟩ := h
  have each := fun stage here => checkDependencies_ok (forM_ok.mp each stage here)
  refine ⟨sized, unique, fun stage here => (each stage here).1,
    fun stage here => (each stage here).2.1, fun stage here => (each stage here).2.2, ?_⟩
  split at h
  · rename_i final single
    exact ⟨final, single, require_ok h⟩
  · cases h

theorem digest_ok {payload : Json} {hash : PyStr} (h : digest R payload = .ok hash) :
    payload.clean = true ∧ ∃ data, hash = PyStr.ofText (R.sha256 data) := by
  simp only [digest] at h
  split at h
  · rename_i encodable
    rw [Json.dumps_encodable] at encodable
    exact ⟨encodable, _, (Except.ok.inj h).symm⟩
  · cases h

theorem isHex_take (hashes : R.Hashes) (data : Bytes) {n : Nat} (few : n ≤ 64) :
    isHex n ((PyStr.ofText (R.sha256 data)).take n) = true := by
  obtain ⟨long, hex⟩ := hashes data
  simp only [isHex, Bool.and_eq_true, decide_eq_true_eq, List.all_eq_true] at hex ⊢
  constructor
  · simp [PyStr.ofText, long, few]
  · intro c here
    obtain ⟨d, member, rfl⟩ := List.mem_map.mp (List.mem_of_mem_take here)
    exact hex d member

theorem isHex_sha256 (hashes : R.Hashes) (data : Bytes) :
    isHex 64 (PyStr.ofText (R.sha256 data)) = true := by
  have long : (PyStr.ofText (R.sha256 data)).length = 64 := by simp [PyStr.ofText, hashes data]
  have taken := isHex_take hashes data (le_refl 64)
  rwa [List.take_of_length_le (by omega)] at taken

theorem isPlanId_concat {s : PyStr} (h : isHex 24 s = true) : isPlanId (lit "plan-" ++ s) = true := by
  simpa [isPlanId, lit, PyStr.ofText, List.isPrefixOf] using h

theorem encodable_of_isPlanId {s : PyStr} (h : isPlanId s = true) : s.encodable = true := by
  simp only [isPlanId, Bool.and_eq_true, List.isPrefixOf_iff_prefix] at h
  obtain ⟨rest, rfl⟩ := h.1
  have same : (lit "plan-" ++ rest).drop 5 = rest := by simp [lit, PyStr.ofText]
  rw [Json.encodable_append, Json.encodable_lit, PyStr.isHex_encodable (same ▸ h.2), Bool.and_self]

/-- What an accepted plan went through, and the looks of its identity. -/
structure Planned (R : Runtime Instant) (plan : ExecutionPlan) : Prop where
  graph : ValidGraph plan.orderedStages plan.finalProfile
  valid : validateExecutionPlan R plan = .ok plan
  identity : isPlanId plan.planId = true ∧ isHex 64 plan.planHash = true
  clean : ∀ stage ∈ plan.orderedStages, stage.definitionPayload.clean = true

theorem planned (hashes : R.Hashes) {taskId : Option PyStr} {workspaceId : PyStr}
    {binding : ExecutionPlanBinding} {orderedStages : List PlanStage}
    {finalProfile createdAt : PyStr} {expiresAt : Option PyStr} {plan : ExecutionPlan}
    (accepted : createExecutionPlan R taskId workspaceId binding orderedStages finalProfile
      createdAt expiresAt = .ok plan) : Planned R plan := by
  have h := accepted
  simp only [createExecutionPlan, bind_require] at h
  obtain ⟨-, -, -, h⟩ := h
  obtain ⟨created, -, h⟩ := bind_ok h
  obtain ⟨_, -, h⟩ := bind_ok h
  obtain ⟨_, graph, h⟩ := bind_ok h
  obtain ⟨definitionHash, defined, h⟩ := bind_ok h
  obtain ⟨planHash, hashed, h⟩ := bind_ok h
  cases h
  obtain ⟨-, data, rfl⟩ := digest_ok hashed
  have identity : isPlanId (lit "plan-" ++ (PyStr.ofText (R.sha256 data)).take 24) = true :=
    isPlanId_concat (isHex_take hashes data (by decide))
  refine ⟨validateGraph_ok graph, ?_, ⟨identity, isHex_sha256 hashes data⟩,
    Json.cleanItems_map.mp (digest_ok defined).1⟩
  simp only [validateExecutionPlan, accepted, identity, bind, Except.bind, require_of, and_self]

end RepoForge.Verification
