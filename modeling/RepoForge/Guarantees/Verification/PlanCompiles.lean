import RepoForge.Guarantees.Verification.FinalGate
import RepoForge.Spec.Verification.Compiled

/-!
# Accepted plans and their DAGs

Plans and DAGs are checked by two sets of rules. `compilePlanDag_iff`: an accepted plan compiles,
to a DAG with exactly its stages, where its working directories are short, its artifact paths
without control characters, and every stage but the final one is a dependency of some stage; or
where the one stage that the final one does not name comes last in the least order of the ids, so
that the DAG's own check passes over it.
-/
namespace RepoForge.Verification
open PyStr (lit isHex)
open Json (texts_clean optional_clean)
open Topological

variable {Instant : Type} {R : Runtime Instant} {stages ordered : List VerificationDagStage}
  {final : VerificationDagStage} {planStages : List PlanStage}

/-! ### The branches of a DAG -/

theorem mem_ancestors (h : Sorted stages ordered) (node : final ∈ ordered) {id : PyStr} :
    id ∈ ancestors ordered final.stageId ↔
      Relation.TransGen (Needs (dependencies stages)) id final.stageId := by
  have closed : ∀ x ∈ stageIds ordered, ∀ d ∈ dependencies ordered x, d ∈ stageIds ordered := by
    intro x _ d needed
    rw [h.dependencies_eq] at needed
    exact (h.perm.map _).mem_iff.mpr (h.admissible.known_id x d needed)
  have length : ordered.length = (stageIds ordered).length := by simp [stageIds]
  rw [ancestors, length, DepthFirst.mem_collect closed (List.mem_map_of_mem node),
    h.dependencies_eq]

theorem checkBranches_ok : checkBranches ordered final = .ok () ↔
    (∀ stage ∈ ordered.dropLast, stage.stageId ∈ final.dependencies ∨ stage = final) ∨
      ∀ stage ∈ ordered, stage ≠ final → stage.stageId ∈ ancestors ordered final.stageId := by
  unfold checkBranches
  split
  · rename_i some
    rw [require_iff]
    refine ⟨.inr, fun h => h.resolve_left fun all => ?_⟩
    obtain ⟨stage, here, other⟩ := List.any_eq_true.mp some
    have other : stage.stageId ∉ final.dependencies ∧ stage ≠ final := by simpa using other
    exact (all stage here).elim other.1 other.2
  · rename_i none
    refine iff_of_true rfl (.inl fun stage here => ?_)
    by_contra other
    refine none (List.any_eq_true.mpr ⟨stage, here, ?_⟩)
    simpa [not_or] using other

/-- The stage with this id comes last of all, whatever it needs. -/
def ComesLast (deps : PyStr → List PyStr) (ids : List PyStr) (id : PyStr) : Prop :=
  ∃ order, Least deps ids order ∧ order.getLast? = some id

theorem stage_ext (unique : (stageIds stages).Nodup) {a b : VerificationDagStage}
    (ha : a ∈ stages) (hb : b ∈ stages) (same : a.stageId = b.stageId) : a = b := by
  have found := byId_mem unique ha
  rw [same, byId_mem unique hb] at found
  exact (Option.some.inj found).symm

/-- The check passes where the final stage needs all the others, or where the one that it does not
name comes last. -/
theorem checkBranches_iff (h : Sorted stages ordered) (node : final ∈ stages) :
    checkBranches ordered final = .ok () ↔
      Gates stages final.stageId ∨
      ∃ stray ∈ stages, stray.stageId ≠ final.stageId ∧
        (∀ other ∈ stages, other.stageId ≠ final.stageId → other.stageId ≠ stray.stageId →
          other.stageId ∈ final.dependencies) ∧
        ComesLast (dependencies stages) (stageIds stages) stray.stageId := by
  have unique := h.admissible.unique
  have unique' : (stageIds ordered).Nodup := h.least.greedy.nodup
  have node' : final ∈ ordered := h.perm.mem_iff.mpr node
  have gates : (∀ stage ∈ ordered, stage ≠ final →
      stage.stageId ∈ ancestors ordered final.stageId) ↔ Gates stages final.stageId := by
    simp only [Gates, mem_ancestors h node', h.perm.mem_iff]
    refine forall₂_congr fun stage here => imp_congr_left (not_congr ?_)
    exact ⟨fun same => same ▸ rfl, stage_ext unique here node⟩
  have nonempty : ordered ≠ [] := List.ne_nil_of_mem node'
  have split := List.dropLast_append_getLast nonempty
  rw [checkBranches_ok, gates]
  constructor
  · rintro (direct | gated)
    · by_cases last : ordered.getLast nonempty = final
      · left
        rw [gates_iff h.acyclic unique]
        intro stage here other
        have here' : stage ∈ ordered := h.perm.mem_iff.mpr here
        rw [← split, last] at here'
        rcases List.mem_append.mp here' with early | late
        · rcases direct stage early with named | same
          · exact ⟨final, node, named⟩
          · exact absurd (congrArg (·.stageId) same) other
        · exact absurd (congrArg (·.stageId) (List.mem_singleton.mp late)) other
      · refine .inr ⟨ordered.getLast nonempty, h.perm.subset (List.getLast_mem nonempty),
          fun same => last (stage_ext unique (h.perm.subset (List.getLast_mem nonempty)) node same),
          ?_, stageIds ordered, h.least, ?_⟩
        · intro other here different apart
          have here' : other ∈ ordered := h.perm.mem_iff.mpr here
          rw [← split] at here'
          rcases List.mem_append.mp here' with early | late
          · exact (direct other early).resolve_right fun same => different (same ▸ rfl)
          · exact absurd (congrArg (·.stageId) (List.mem_singleton.mp late)) apart
        · rw [stageIds, List.getLast?_map, List.getLast?_eq_getLast_of_ne_nil nonempty]
          rfl
    · exact .inl gated
  · rintro (gated | ⟨stray, member, different, direct, order, least, last⟩)
    · exact .inr gated
    · left
      intro stage early
      obtain rfl := least.unique h.least
      have here : stage ∈ ordered := List.mem_of_mem_dropLast early
      by_cases same : stage = final
      · exact .inr same
      · refine .inl (direct stage (h.perm.subset here)
          (fun equal => same (stage_ext unique (h.perm.subset here) node equal)) fun equal => ?_)
        -- The stray stage is the last and stands nowhere else.
        have final_id : (ordered.getLast nonempty).stageId = stray.stageId := by
          rw [stageIds, List.getLast?_map, List.getLast?_eq_getLast_of_ne_nil nonempty] at last
          simpa using last
        have twice := unique'
        rw [stageIds, ← split, List.map_append] at twice
        exact (List.nodup_append.mp twice).2.2 stage.stageId (List.mem_map_of_mem early)
          stage.stageId (by simp [final_id, equal]) rfl

/-! ### The stages of a plan -/

/-- The stages of a DAG are those of the plan, in the same order. -/
def Compiled (planStages : List PlanStage) (stages : List VerificationDagStage) : Prop :=
  stages.map (·.toDagStageFields) = planStages.map compiledFields

theorem compiled_iff : (planStages.mapM fun stage => (compiledFields stage).construct) = .ok stages ↔
    Compiled planStages stages := by
  constructor
  · intro h
    have each := mapM_ok h
    clear h
    induction each with
    | nil => rfl
    | cons first _ ih =>
      rw [Compiled, List.map_cons, List.map_cons, construct_ok.mp first, ih]
  · intro h
    induction planStages generalizing stages with
    | nil =>
      obtain rfl : stages = [] := by simpa [Compiled] using h
      rfl
    | cons stage rest ih =>
      cases stages with
      | nil => simp [Compiled] at h
      | cons first others =>
        obtain ⟨same, tail⟩ := List.cons.inj h
        rw [List.mapM_cons, construct_ok.mpr same, ih tail]
        rfl

theorem exists_compiled (fits : ∀ stage ∈ planStages, Fits stage)
    (free : ∀ stage ∈ planStages, stage.stageId ∉ stage.dependencies) :
    ∃ stages, Compiled planStages stages := by
  induction planStages with
  | nil => exact ⟨[], rfl⟩
  | cons stage rest ih =>
    obtain ⟨others, tail⟩ := ih (fun s here => fits s (by simp [here]))
      fun s here => free s (by simp [here])
    have accepted := (compiledFields_postInit (free stage (by simp))).mpr (fits stage (by simp))
    refine ⟨{ toDagStageFields := compiledFields stage, constructed := accepted } :: others, ?_⟩
    rw [Compiled, List.map_cons, List.map_cons, tail]

section Compiled

variable (h : Compiled planStages stages)
include h

theorem Compiled.forall {P : DagStageFields → Prop} :
    (∀ stage ∈ stages, P stage.toDagStageFields) ↔ ∀ stage ∈ planStages, P (compiledFields stage) := by
  rw [← List.forall_mem_map, h, List.forall_mem_map]

theorem Compiled.exists {P : DagStageFields → Prop} :
    (∃ stage ∈ stages, P stage.toDagStageFields) ↔ ∃ stage ∈ planStages, P (compiledFields stage) := by
  have same : (∃ fields ∈ stages.map (·.toDagStageFields), P fields) ↔
      ∃ fields ∈ planStages.map compiledFields, P fields := by rw [h]
  simpa using same

theorem Compiled.source {stage : VerificationDagStage} (here : stage ∈ stages) :
    ∃ planStage ∈ planStages, stage.toDagStageFields = compiledFields planStage :=
  (h.forall (P := fun fields => ∃ planStage ∈ planStages, fields = compiledFields planStage)).mpr
    (fun planStage member => ⟨planStage, member, rfl⟩) stage here

theorem Compiled.image {planStage : PlanStage} (here : planStage ∈ planStages) :
    ∃ stage ∈ stages, stage.toDagStageFields = compiledFields planStage :=
  (h.exists (P := fun fields => fields = compiledFields planStage)).mpr ⟨planStage, here, rfl⟩

theorem Compiled.stageIds : stageIds stages = planStages.map (·.stageId) := by
  have same := congrArg (List.map (·.stageId)) h
  rw [List.map_map, List.map_map] at same
  exact same

theorem Compiled.finals : (stages.filter (·.final)).map (·.stageId) =
    (planStages.filter fun stage => stage.boundary = .final).map (·.stageId) := by
  have same := congrArg (fun fields : List DagStageFields =>
    (fields.filter (·.final)).map (·.stageId)) h
  simp only [List.filter_map, List.map_map] at same
  exact same

theorem Compiled.dependencies : dependencies stages = planDependencies planStages := by
  funext id
  have same := congrArg (fun fields : List DagStageFields =>
    ((fields.find? fun field => field.stageId = id).map (·.dependencies)).getD []) h
  simp only [List.find?_map, Function.comp_def, Option.map_map] at same
  exact same

theorem Compiled.fits (free : ∀ stage ∈ planStages, stage.stageId ∉ stage.dependencies) :
    ∀ stage ∈ planStages, Fits stage := by
  intro stage here
  refine (compiledFields_postInit (free stage here)).mp ?_
  exact (h.forall (P := fun fields => fields.postInit = .ok ())).mp
    (fun stage _ => stage.constructed) stage here

theorem Compiled.admissible {finalProfile : PyStr} (graph : ValidGraph planStages finalProfile) :
    Admissible stages := by
  have length : stages.length = planStages.length := by
    simpa using congrArg List.length h
  refine ⟨⟨fun none => graph.sized.1 ?_, by rw [length]; exact graph.sized.2⟩, ?_, ?_⟩
  · rw [← List.length_eq_zero_iff, ← length, none, List.length_nil]
  · rw [h.stageIds]
    exact graph.unique
  · rw [h.stageIds]
    exact (h.forall (P := fun fields => ∀ d ∈ fields.dependencies,
      d ∈ planStages.map fun stage : PlanStage => stage.stageId)).mpr graph.known

end Compiled

/-- Supplied in dependency order, the stages have no cycle. -/
theorem ValidGraph.acyclic {finalProfile : PyStr} (graph : ValidGraph planStages finalProfile) :
    ¬ Cyclic (planDependencies planStages) := by
  rintro ⟨id, round⟩
  have rises : ∀ {a b : PyStr}, Relation.TransGen (Needs (planDependencies planStages)) a b →
      (planStages.map (·.stageId)).idxOf a < (planStages.map (·.stageId)).idxOf b := by
    intro a b path
    have one : ∀ {a b : PyStr}, Needs (planDependencies planStages) a b →
        (planStages.map (·.stageId)).idxOf a < (planStages.map (·.stageId)).idxOf b := by
      intro a b needed
      unfold Needs planDependencies at needed
      cases found : planStages.find? fun stage => stage.stageId = b with
      | none => simp [found] at needed
      | some stage =>
        obtain rfl : stage.stageId = b := by simpa using List.find?_some found
        exact graph.ordered stage (List.mem_of_find?_eq_some found) a (by simpa [found] using needed)
    induction path with
    | single needed => exact one needed
    | tail _ needed ih => exact ih.trans (one needed)
  exact lt_irrefl _ (rises round)

/-! ### When a plan compiles -/

/-- Every stage but the final one is a dependency of some stage. -/
def AllNeeded (stages : List PlanStage) : Prop :=
  ∀ stage ∈ stages, stage.boundary ≠ .final →
    ∃ other ∈ stages, stage.stageId ∈ other.dependencies

/-- The final stage names all the others but `stray`, which comes last. -/
structure StraysLast (stages : List PlanStage) (stray : PlanStage) : Prop where
  member : stray ∈ stages
  iteration : stray.boundary ≠ .final
  direct : ∀ final ∈ stages, final.boundary = .final → ∀ other ∈ stages,
    other.boundary ≠ .final → other.stageId ≠ stray.stageId →
      other.stageId ∈ final.dependencies
  last : ComesLast (planDependencies stages) (stages.map (·.stageId)) stray.stageId

structure Compilable (stages : List PlanStage) : Prop where
  fits : ∀ stage ∈ stages, Fits stage
  branches : AllNeeded stages ∨ ∃ stray, StraysLast stages stray

section Branches

variable {planFinal : PlanStage}
  (single : planStages.filter (fun stage => stage.boundary = .final) = [planFinal])
include single

theorem boundary_iff (unique : (planStages.map (·.stageId)).Nodup) {stage : PlanStage}
    (here : stage ∈ planStages) :
    stage.boundary = .final ↔ stage.stageId = planFinal.stageId := by
  have last : planFinal ∈ planStages.filter fun stage => stage.boundary = .final := by
    simp [single]
  constructor
  · intro final
    have inside : stage ∈ planStages.filter fun stage => stage.boundary = .final :=
      List.mem_filter.mpr ⟨here, by simpa using final⟩
    rw [single] at inside
    rw [List.mem_singleton.mp inside]
  · intro same
    obtain ⟨member, final⟩ := List.mem_filter.mp last
    have found := find_of_key unique here
    rw [same, find_of_key unique member] at found
    rw [← Option.some.inj found]
    simpa using final

theorem branches_iff {finalProfile : PyStr} (graph : ValidGraph planStages finalProfile)
    (h : Compiled planStages stages) (sorted : Sorted stages ordered) (node : final ∈ stages)
    (same : final.toDagStageFields = compiledFields planFinal) :
    checkBranches ordered final = .ok () ↔
      AllNeeded planStages ∨ ∃ stray, StraysLast planStages stray := by
  have boundary : ∀ stage ∈ planStages,
      stage.boundary = .final ↔ stage.stageId = planFinal.stageId :=
    fun stage here => boundary_iff single graph.unique here
  have planned : planFinal ∈ planStages :=
    List.mem_of_mem_filter (by rw [single]; exact List.mem_singleton_self planFinal)
  have id : final.stageId = planFinal.stageId := congrArg (·.stageId) same
  have named : final.dependencies = planFinal.dependencies := congrArg (·.dependencies) same
  rw [checkBranches_iff sorted node, gates_iff sorted.acyclic sorted.admissible.unique,
    h.dependencies, h.stageIds, id, named]
  refine or_congr ?_ ?_
  · rw [h.forall (P := fun fields => fields.stageId ≠ planFinal.stageId →
      ∃ other ∈ stages, fields.stageId ∈ other.dependencies)]
    refine forall₂_congr fun stage here => imp_congr (not_congr (boundary stage here).symm) ?_
    exact h.exists (P := fun fields => stage.stageId ∈ fields.dependencies)
  · rw [h.exists (P := fun fields => fields.stageId ≠ planFinal.stageId ∧
      (∀ other ∈ stages, other.stageId ≠ planFinal.stageId → other.stageId ≠ fields.stageId →
        other.stageId ∈ planFinal.dependencies) ∧
      ComesLast (planDependencies planStages) (planStages.map fun stage : PlanStage => stage.stageId)
        fields.stageId)]
    refine exists_congr fun stray => ?_
    rw [h.forall (P := fun fields => fields.stageId ≠ planFinal.stageId →
      fields.stageId ≠ (compiledFields stray).stageId → fields.stageId ∈ planFinal.dependencies)]
    constructor
    · rintro ⟨member, different, direct, last⟩
      refine ⟨member, fun final => different ((boundary stray member).mp final), ?_, last⟩
      intro final' here isFinal other inside notFinal apart
      obtain rfl : final' = planFinal := by
        have inside : final' ∈ planStages.filter fun stage => stage.boundary = .final :=
          List.mem_filter.mpr ⟨here, by simpa using isFinal⟩
        rw [single] at inside
        exact List.mem_singleton.mp inside
      exact direct other inside (fun equal => notFinal ((boundary other inside).mpr equal)) apart
    · rintro ⟨member, iteration, direct, last⟩
      refine ⟨member, fun equal => iteration ((boundary stray member).mpr equal), ?_, last⟩
      intro other inside different apart
      exact direct planFinal planned ((boundary planFinal planned).mpr rfl) other inside
        (fun final => different ((boundary other inside).mp final)) apart

end Branches

theorem encodable_kind (kind : PlanStageKind) : kind.value.encodable = true := by
  cases kind <;> exact Json.encodable_lit _

theorem encodable_mutability (mutability : PlanStageMutability) :
    mutability.value.encodable = true := by
  cases mutability <;> exact Json.encodable_lit _

theorem encodable_cachePolicy (policy : CachePolicy) : policy.value.encodable = true := by
  cases policy <;> exact Json.encodable_lit _

theorem encodable_severity (severity : DagFailureSeverity) : severity.value.encodable = true := by
  cases severity <;> exact Json.encodable_lit _

/-- A stage whose plan has a digest has one itself. -/
theorem definitionPayload_clean {stage : VerificationDagStage} {planStage : PlanStage}
    (same : stage.toDagStageFields = compiledFields planStage)
    (clean : planStage.definitionPayload.clean = true) : stage.definitionPayload.clean = true := by
  simp only [PlanStage.definitionPayload, Json.clean, Json.cleanFields, Bool.and_eq_true,
    Json.encodable_lit, texts_clean, optional_clean, true_and, and_true] at clean
  obtain ⟨paths, -, named, -, -, -, network, selector, id, target, given⟩ := clean
  have directory : (compiledFields planStage).workingDirectory.encodable = true := by
    unfold compiledFields
    rcases given' : planStage.workingDirectory with _ | (_ | ⟨c, rest⟩)
    · exact Json.encodable_lit _
    · exact Json.encodable_lit _
    · exact given _ given'
  simp only [VerificationDagStage.definitionPayload, same, Json.clean, Json.cleanFields,
    Bool.and_eq_true, Json.encodable_lit, texts_clean, optional_clean, directory, true_and,
    and_true]
  refine ⟨paths, encodable_cachePolicy _, Json.encodable_lit _, named, Json.encodable_lit _,
    encodable_severity _, encodable_mutability _, encodable_kind _, encodable_mutability _,
    network, Json.encodable_lit _, Json.encodable_lit _, selector, id, target⟩

theorem dagPayload_clean {plan : ExecutionPlan} (planned : Planned R plan)
    (h : Compiled plan.orderedStages stages) (sorted : Sorted stages ordered) {id : PyStr}
    (clean : id.encodable = true) :
    (dagPayload plan.planId plan.planHash id ordered).clean = true := by
  have each : ∀ stage ∈ ordered, stage.definitionPayload.clean = true := by
    intro stage here
    obtain ⟨planStage, member, same⟩ := h.source (sorted.perm.subset here)
    exact definitionPayload_clean same (planned.clean planStage member)
  simp only [dagPayload, Json.clean, Json.cleanFields, Bool.and_eq_true, Json.encodable_lit, clean,
    encodable_of_isPlanId planned.identity.1, PyStr.isHex_encodable planned.identity.2,
    Json.cleanItems_map.mpr each, and_self]

section Plan

variable {plan : ExecutionPlan} {planFinal : PlanStage}

theorem ValidGraph.find {finalProfile : PyStr} (graph : ValidGraph planStages finalProfile) :
    ∃ planFinal ∈ planStages, planFinal.boundary = .final ∧
      planStages.filter (fun stage => stage.boundary = .final) = [planFinal] ∧
      (planStages.find? fun stage => stage.boundary = .final) = some planFinal := by
  obtain ⟨planFinal, single, -, -⟩ := graph.final
  have found : (planStages.find? fun stage => stage.boundary = .final) = some planFinal := by
    rw [← List.head?_filter, single]
    rfl
  exact ⟨planFinal, List.mem_of_find?_eq_some found, by simpa using List.find?_some found, single,
    found⟩

theorem compilePlanDag_eq (planned : Planned R plan)
    (found : (plan.orderedStages.find? fun stage => stage.boundary = .final) = some planFinal)
    (h : Compiled plan.orderedStages stages) : compilePlanDag R plan =
      createVerificationDag R plan.planId plan.planHash stages planFinal.stageId := by
  simp only [compilePlanDag, planned.valid, compiled_iff.mpr h, found, bind, Except.bind]

theorem compilable_of_compiled (planned : Planned R plan) {dag : VerificationDag}
    (success : compilePlanDag R plan = .ok dag) : Compilable plan.orderedStages := by
  obtain ⟨planFinal, member, -, single, found⟩ := planned.graph.find
  obtain ⟨stages, h⟩ : ∃ stages, Compiled plan.orderedStages stages := by
    obtain ⟨_, -, rest⟩ := bind_ok success
    obtain ⟨stages, compiled, -⟩ := bind_ok rest
    exact ⟨stages, compiled_iff.mp compiled⟩
  refine ⟨h.fits planned.graph.free, ?_⟩
  rw [compilePlanDag_eq planned found h] at success
  have made := created success
  obtain ⟨final, there, flagged, -, branches⟩ := made.final
  obtain ⟨here, id⟩ := byId_some there
  have node := made.sorted.perm.subset here
  obtain ⟨planStage, inside, same⟩ := h.source node
  obtain rfl : planStage = planFinal := by
    have key : planStage.stageId = planFinal.stageId :=
      (congrArg (·.stageId) same).symm.trans id
    have stored := find_of_key planned.graph.unique inside
    rw [key, find_of_key planned.graph.unique member] at stored
    exact (Option.some.inj stored).symm
  exact (branches_iff single planned.graph h made.sorted node same).mp branches

theorem compiled_of_compilable (planned : Planned R plan)
    (compilable : Compilable plan.orderedStages) :
    ∃ dag, compilePlanDag R plan = .ok dag ∧
      (dag.stages.map (·.toDagStageFields)).Perm (plan.orderedStages.map compiledFields) := by
  obtain ⟨planFinal, member, boundary, single, found⟩ := planned.graph.find
  obtain ⟨stages, h⟩ := exists_compiled compilable.fits planned.graph.free
  obtain ⟨ordered, sorted⟩ := exists_sorted (h.admissible planned.graph)
    (h.dependencies ▸ planned.graph.acyclic)
  obtain ⟨final, node, same⟩ := h.image member
  have id : final.stageId = planFinal.stageId := congrArg (·.stageId) same
  have there : byId ordered planFinal.stageId = some final := by
    rw [← id, ← byId_perm sorted.admissible.unique sorted.perm.symm]
    exact byId_mem sorted.admissible.unique node
  have flagged : final.final = true := by simp [same, compiledFields, boundary]
  have unique : (ordered.filter (·.final)).map (·.stageId) = [planFinal.stageId] := by
    rw [← List.perm_singleton]
    refine ((sorted.perm.filter _).map _).trans ?_
    rw [h.finals, single]
    rfl
  have branches : checkBranches ordered final = .ok () :=
    (branches_iff single planned.graph h sorted node same).mpr compilable.branches
  have clean : planFinal.stageId.encodable = true := by
    have payload := planned.clean planFinal member
    simp only [PlanStage.definitionPayload, Json.clean, Json.cleanFields,
      Bool.and_eq_true] at payload
    exact payload.2.2.2.2.2.2.2.2.1.2
  obtain ⟨dag, success, result⟩ := create_of (R := R) planned.identity
    (topological_sorted.mpr sorted) there flagged unique branches
    (dagPayload_clean planned h sorted clean)
  refine ⟨dag, (compilePlanDag_eq planned found h).trans success, ?_⟩
  rw [result, ← h]
  exact sorted.perm.map _

end Plan

/-- An accepted plan compiles to exactly its stages, in the cases of `Compilable` and no others. -/
theorem compilePlanDag_iff (hashes : R.Hashes) {taskId : Option PyStr} {workspaceId : PyStr}
    {binding : ExecutionPlanBinding} {orderedStages : List PlanStage}
    {finalProfile createdAt : PyStr} {expiresAt : Option PyStr} {plan : ExecutionPlan}
    (accepted : createExecutionPlan R taskId workspaceId binding orderedStages finalProfile
      createdAt expiresAt = .ok plan) :
    (∃ dag, compilePlanDag R plan = .ok dag ∧
      (dag.stages.map (·.toDagStageFields)).Perm (plan.orderedStages.map compiledFields)) ↔
      Compilable plan.orderedStages := by
  have planned := planned hashes accepted
  constructor
  · intro h
    obtain ⟨dag, success, -⟩ := h
    exact compilable_of_compiled planned success
  · exact compiled_of_compilable planned

/-- The checks of `create_execution_plan`, one by one. -/
theorem plan_of (planStages : List PlanStage) (binding : ExecutionPlanBinding)
    (finalProfile : PyStr) (safe : isSafeTarget finalProfile = true)
    (graph : validateGraph planStages finalProfile = .ok ())
    (clean : ∀ stage ∈ planStages, stage.definitionPayload.clean = true)
    (plain : binding.payload.clean = true ∧ finalProfile.encodable = true)
    (dated : (R.fromisoformat (lit "2026-01-01")).isSome = true) :
    ∃ plan, createExecutionPlan R none (lit "workspace") binding planStages finalProfile
        (lit "2026-01-01") none = .ok plan ∧
      plan.orderedStages = planStages ∧ plan.workspaceId = lit "workspace" := by
  obtain ⟨definitionHash, defined⟩ := digest_of_clean (R := R)
    (.list (planStages.map PlanStage.definitionPayload)) (Json.cleanItems_map.mpr clean)
  have hex : definitionHash.encodable = true := by
    obtain ⟨-, data, rfl⟩ := digest_ok defined
    exact PyStr.ofText_encodable _
  have semantic : (semanticPayload none (lit "workspace") binding planStages finalProfile
      definitionHash (lit "2026-01-01") none 1).clean = true := by
    simp only [semanticPayload, Json.optional, Json.clean, Json.cleanFields, Json.encodable_lit,
      plain.1, plain.2, hex, Json.cleanItems_map.mpr clean, Bool.and_self]
  obtain ⟨planHash, hashed⟩ := digest_of_clean (R := R) _ semantic
  have named : lit "workspace" ≠ [] ∧ (lit "workspace").length ≤ 128 := by decide +kernel
  have anonymous : ∀ id ∈ (none : Option PyStr), id ≠ [] ∧ id.length ≤ 128 := by simp
  obtain ⟨instant, read⟩ := Option.isSome_iff_exists.mp dated
  have created : iso R (lit "2026-01-01") "created_at" = .ok instant := by simp [iso, read]
  simp only [createExecutionPlan, stageDefinitionsHash, checkExpiry, require_of named,
    require_of anonymous, require_of safe, created, graph, defined, hashed, bind, Except.bind]
  exact ⟨_, rfl, rfl, rfl⟩

def samplePlanFields (id : PyStr) (dependencies : List PyStr) (boundary : PlanStageBoundary) :
    PlanStageFields where
  stageId := id
  kind := .profile
  target := lit "check"
  selector := none
  dependencies := dependencies
  boundary := boundary
  workingDirectory := none
  timeoutSeconds := 60
  mutability := .readOnly
  networkPolicy := lit "none"
  failurePolicy := .required
  artifactPaths := []

def sampleBinding : ExecutionPlanBinding where
  headSha := List.replicate 40 (.scalar '0')
  workspaceFingerprint := samplePlanHash
  configGeneration := samplePlanHash
  policyHash := samplePlanHash
  assessmentSnapshotId := samplePlanHash
  evidenceSnapshotIds := []
  riskAssessmentHash := samplePlanHash
  recommendationHash := samplePlanHash
  constructed := by decide +kernel

theorem sampleRuntime_hashes : sampleRuntime.Hashes := Sha256.hexdigest_hex

theorem first_accepted : (samplePlanFields (lit "a") [] .iteration).postInit = .ok () := by
  decide +kernel

/-- The final stage needs the other one. -/
def chainedPlan : List PlanStage :=
  [{ toPlanStageFields := samplePlanFields (lit "a") [] .iteration, constructed := first_accepted },
    { toPlanStageFields := samplePlanFields (lit "z") [lit "a"] .final,
      constructed := by decide +kernel }]

theorem chainedPlan_compilable : Compilable chainedPlan := by
  have directories : ∀ stage ∈ chainedPlan, stage.workingDirectory = none := by decide +kernel
  have paths : ∀ stage ∈ chainedPlan, stage.artifactPaths = [] := by decide +kernel
  refine ⟨fun stage here => ⟨by simp [directories stage here], by simp [paths stage here]⟩, .inl ?_⟩
  unfold AllNeeded
  decide +kernel

theorem compilePlanDag_chained :
    ∃ plan, createExecutionPlan sampleRuntime none (lit "workspace") sampleBinding chainedPlan
        (lit "check") (lit "2026-01-01") none = .ok plan ∧
      ∃ dag, compilePlanDag sampleRuntime plan = .ok dag ∧
        (dag.stages.map (·.toDagStageFields)).Perm (plan.orderedStages.map compiledFields) := by
  obtain ⟨plan, accepted, result, -⟩ := plan_of (R := sampleRuntime) chainedPlan sampleBinding
    (lit "check") (by decide +kernel) (by decide +kernel) (by decide +kernel) (by decide +kernel)
    rfl
  refine ⟨plan, accepted, (compilePlanDag_iff sampleRuntime_hashes accepted).mpr ?_⟩
  rw [result]
  exact chainedPlan_compilable

/-- The final stage needs neither of the others. -/
def loosePlan : List PlanStage :=
  [{ toPlanStageFields := samplePlanFields (lit "a") [] .iteration, constructed := first_accepted },
    { toPlanStageFields := samplePlanFields (lit "b") [] .iteration,
      constructed := by decide +kernel },
    { toPlanStageFields := samplePlanFields (lit "z") [] .final, constructed := by decide +kernel }]

theorem loose_plan_does_not_compile :
    ∃ plan, createExecutionPlan sampleRuntime none (lit "workspace") sampleBinding loosePlan
        (lit "check") (lit "2026-01-01") none = .ok plan ∧
      ∀ dag, compilePlanDag sampleRuntime plan ≠ .ok dag := by
  obtain ⟨plan, accepted, result, -⟩ := plan_of (R := sampleRuntime) loosePlan sampleBinding
    (lit "check") (by decide +kernel) (by decide +kernel) (by decide +kernel) (by decide +kernel)
    rfl
  refine ⟨plan, accepted, fun dag success => ?_⟩
  have branches := (compilable_of_compiled (planned sampleRuntime_hashes accepted) success).branches
  rw [result] at branches
  rcases branches with needed | ⟨stray, strays⟩
  · unfold AllNeeded at needed
    revert needed
    decide +kernel
  · -- The final stage would name one of the other two.
    have direct := strays.direct
    have none : ∀ final ∈ loosePlan, final.dependencies = [] := by decide +kernel
    have other : ∀ stray ∈ loosePlan, ∃ final ∈ loosePlan, final.boundary = .final ∧
        ∃ other ∈ loosePlan, other.boundary ≠ .final ∧ other.stageId ≠ stray.stageId := by
      decide +kernel
    obtain ⟨final, here, isFinal, other, inside, iteration, apart⟩ := other stray strays.member
    have named := direct final here isFinal other inside iteration apart
    rw [none final here] at named
    cases named

end RepoForge.Verification
