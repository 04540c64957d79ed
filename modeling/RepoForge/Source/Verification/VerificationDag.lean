import RepoForge.Source.Verification.ExecutionPlan

/-!
# Verification DAGs

`domain/verification_dag.py`: the stages of a DAG, `_topological`, `create_verification_dag` and
`compile_plan_dag`. The queue of `_topological` takes the smallest id that is ready; a stage
enters it when the last of its dependencies has left it.
-/
namespace RepoForge.Verification
open PyStr (lit firstThen isHex sortedDistinct)
open Json (optional texts)

inductive CachePolicy where
  | disabled
  | readOnly
  deriving DecidableEq

def CachePolicy.value : CachePolicy → PyStr
  | disabled => lit "disabled"
  | readOnly => lit "read_only"

inductive DagFailureSeverity where
  | required
  | optional
  deriving DecidableEq

def DagFailureSeverity.value : DagFailureSeverity → PyStr
  | required => lit "required"
  | optional => lit "optional"

structure DagStageFields where
  stageId : PyStr
  version : Int
  dependencies : List PyStr
  kind : PyStr
  target : PyStr
  selector : Option PyStr
  environmentAdapter : PyStr
  workingDirectory : PyStr
  timeoutSeconds : Int
  networkPolicy : PyStr
  filesystemPolicy : PyStr
  processPolicy : PyStr
  credentialPolicy : PyStr
  mutability : PyStr
  requiredRiskLevel : PyStr
  artifactPaths : List PyStr
  cachePolicy : CachePolicy
  failureSeverity : DagFailureSeverity
  final : Bool
  deriving DecidableEq

/-- `^[A-Za-z0-9][A-Za-z0-9._:-]{0,159}$` -/
def isSafeId : PyStr → Bool :=
  firstThen Char.isAlphanum (fun c => c.isAlphanum || "._:-".toList.contains c) 159

/-- `VerificationDagStage.__post_init__` -/
def DagStageFields.postInit (stage : DagStageFields) : Except Rejection Unit := do
  require (isSafeId stage.stageId = true) "Verification DAG stage_id is invalid"
  require (isSafeId stage.kind = true) "Verification DAG kind is invalid"
  require (isSafeId stage.target = true) "Verification DAG target is invalid"
  require (isSafeId stage.environmentAdapter = true)
    "Verification DAG environment_adapter is invalid"
  require (isSafeId stage.networkPolicy = true) "Verification DAG network_policy is invalid"
  require (isSafeId stage.filesystemPolicy = true)
    "Verification DAG filesystem_policy is invalid"
  require (isSafeId stage.processPolicy = true) "Verification DAG process_policy is invalid"
  require (isSafeId stage.credentialPolicy = true)
    "Verification DAG credential_policy is invalid"
  require (isSafeId stage.mutability = true) "Verification DAG mutability is invalid"
  require (isSafeId stage.requiredRiskLevel = true)
    "Verification DAG required_risk_level is invalid"
  require (1 ≤ stage.version) "Verification DAG stage version must be a positive integer"
  require (stage.dependencies.length ≤ 64 ∧ stage.dependencies.Nodup)
    "Verification DAG dependencies must be unique and bounded"
  require (stage.stageId ∉ stage.dependencies) "Verification DAG stage cannot depend on itself"
  require (stage.workingDirectory ≠ [] ∧ stage.workingDirectory.length ≤ 512)
    "Verification DAG working directory is invalid"
  require (1 ≤ stage.timeoutSeconds ∧ stage.timeoutSeconds ≤ 86400)
    "Verification DAG stage timeout is invalid"
  require (stage.mutability ∈ [lit "read_only", lit "workspace_write"])
    "Verification DAG mutability is unsupported"
  require (¬ (stage.cachePolicy = .readOnly ∧
      (stage.mutability ≠ lit "read_only" ∨ stage.final = true)))
    "Only read-only non-final DAG stages may be cacheable"
  require (¬ (stage.final = true ∧ stage.cachePolicy ≠ .disabled))
    "Final verification stage must be non-cacheable"
  require (stage.artifactPaths.length ≤ 64)
    "Verification DAG artifact list exceeds the reviewed bound"
  stage.artifactPaths.forM fun path =>
    require (path ≠ [] ∧ path.length ≤ 512 ∧ path.head? ≠ some (.scalar '/') ∧
      climbs path = false ∧ hasControl path = false) "Verification DAG artifact path is unsafe"

/-- A stage that could be constructed. -/
structure VerificationDagStage extends DagStageFields where
  constructed : toDagStageFields.postInit = .ok ()
  deriving DecidableEq

/-- `VerificationDagStage(...)` -/
def DagStageFields.construct (fields : DagStageFields) : Except Rejection VerificationDagStage :=
  match h : fields.postInit with
  | .ok () => .ok { toDagStageFields := fields, constructed := h }
  | .error rejection => .error rejection

def VerificationDagStage.definitionPayload (stage : VerificationDagStage) : Json :=
  .dict [(lit "artifact_paths", texts stage.artifactPaths),
    (lit "cache_policy", .str stage.cachePolicy.value),
    (lit "credential_policy", .str stage.credentialPolicy),
    (lit "dependencies", texts stage.dependencies),
    (lit "environment_adapter", .str stage.environmentAdapter),
    (lit "failure_severity", .str stage.failureSeverity.value),
    (lit "filesystem_policy", .str stage.filesystemPolicy),
    (lit "final", .bool stage.final),
    (lit "kind", .str stage.kind),
    (lit "mutability", .str stage.mutability),
    (lit "network_policy", .str stage.networkPolicy),
    (lit "process_policy", .str stage.processPolicy),
    (lit "required_risk_level", .str stage.requiredRiskLevel),
    (lit "selector", optional stage.selector),
    (lit "stage_id", .str stage.stageId),
    (lit "target", .str stage.target),
    (lit "timeout_seconds", .int stage.timeoutSeconds),
    (lit "version", .int stage.version),
    (lit "working_directory", .str stage.workingDirectory)]

structure VerificationDag where
  dagId : PyStr
  dagHash : PyStr
  planId : PyStr
  planHash : PyStr
  stages : List VerificationDagStage
  finalStageId : PyStr
  schemaVersion : Int

/-! ### The order -/

def stageIds (stages : List VerificationDagStage) : List PyStr := stages.map (·.stageId)

/-- `by_id.get(stage_id)` -/
def byId (stages : List VerificationDagStage) (stageId : PyStr) : Option VerificationDagStage :=
  stages.find? fun stage => stage.stageId = stageId

/-- `by_id[stage_id].dependencies` -/
def dependencies (stages : List VerificationDagStage) (stageId : PyStr) : List PyStr :=
  ((byId stages stageId).map (·.dependencies)).getD []

/-- `children[stage_id]`: a stage once for each dependency that names `stage_id`. -/
def children (stages : List VerificationDagStage) (stageId : PyStr) : List PyStr :=
  stages.flatMap fun stage =>
    (stage.dependencies.filter (· = stageId)).map fun _ => stage.stageId

/-- The variables of the loop; `ordered` holds the ids. -/
structure Queue where
  indegree : PyStr → Int
  ready : List PyStr
  ordered : List PyStr

/-- One child of a stage that has left the queue. -/
def release (queue : Queue) (child : PyStr) : Queue :=
  let count := queue.indegree child - 1
  let indegree := Function.update queue.indegree child count
  if count = 0 then
    { queue with indegree, ready := (queue.ready ++ [child]).insertionSort (· ≤ ·) }
  else { queue with indegree }

/-- `while ready`, for so many rounds. -/
def drain (stages : List VerificationDagStage) : Nat → Queue → Queue
  | 0, queue => queue
  | rounds + 1, queue =>
    match queue.ready with
    | [] => queue
    | stageId :: ready =>
      drain stages rounds (((children stages stageId).insertionSort (· ≤ ·)).foldl release
        { queue with ready, ordered := queue.ordered ++ [stageId] })

def initialQueue (stages : List VerificationDagStage) : Queue :=
  let indegree stageId := ((dependencies stages stageId).length : Int)
  { indegree, ordered := []
    ready := ((stageIds stages).filter fun id => indegree id = 0).insertionSort (· ≤ ·) }

def checkKnown (stages : List VerificationDagStage) (stage : VerificationDagStage) :
    Except Rejection Unit :=
  let unknown := sortedDistinct (stage.dependencies.filter (· ∉ stageIds stages))
  if unknown ≠ [] then
    .error (.unknownDependencies "Verification DAG" stage.stageId unknown)
  else .ok ()

/-- `_topological` -/
def topological (stages : List VerificationDagStage) :
    Except Rejection (List VerificationDagStage) := do
  require (stages ≠ [] ∧ stages.length ≤ 128)
    "Verification DAG must contain between 1 and 128 stages"
  require (stageIds stages).Nodup "Verification DAG stage ids must be unique"
  stages.forM (checkKnown stages)
  -- A stage leaves the queue once, so there are no more rounds than stages.
  let ordered := (drain stages stages.length (initialQueue stages)).ordered
  require (ordered.length = stages.length) "Verification DAG contains a dependency cycle"
  .ok (ordered.filterMap (byId stages))

/-! ### The final stage -/

/-- The stages that `collect(final_stage_id)` adds. -/
def ancestors (stages : List VerificationDagStage) (stageId : PyStr) : List PyStr :=
  DepthFirst.collect (dependencies stages) (stages.length + 1) stageId []

/-- The test of the stages before the last, and then of all. -/
def checkBranches (ordered : List VerificationDagStage) (final : VerificationDagStage) :
    Except Rejection Unit :=
  if ordered.dropLast.any fun stage =>
      decide (stage.stageId ∉ final.dependencies ∧ stage ≠ final) then
    require (∀ stage ∈ ordered, stage ≠ final → stage.stageId ∈ ancestors ordered final.stageId)
      "Verification DAG final stage must depend on every required execution branch"
  else .ok ()

variable {Instant : Type} (R : Runtime Instant)

/-- The payload of the digest. -/
def dagPayload (planId planHash finalStageId : PyStr) (ordered : List VerificationDagStage) :
    Json :=
  .dict [(lit "final_stage_id", .str finalStageId),
    (lit "plan_hash", .str planHash),
    (lit "plan_id", .str planId),
    (lit "schema_version", .int 1),
    (lit "stages", .list (ordered.map VerificationDagStage.definitionPayload))]

/-- `create_verification_dag` -/
def createVerificationDag (planId planHash : PyStr) (stages : List VerificationDagStage)
    (finalStageId : PyStr) : Except Rejection VerificationDag := do
  require (isPlanId planId = true ∧ isHex 64 planHash = true)
    "Verification DAG plan identity is invalid"
  let ordered ← topological stages
  match byId ordered finalStageId with
  | none => .error (.invalid "Verification DAG final stage is missing")
  | some final => do
    require (final.final = true) "Verification DAG final stage is missing"
    require ((ordered.filter (·.final)).map (·.stageId) = [finalStageId])
      "Verification DAG requires exactly one declared final stage"
    checkBranches ordered final
    let dagHash ← digest R (dagPayload planId planHash finalStageId ordered)
    .ok { dagId := lit "dag-" ++ dagHash.take 24, dagHash, planId, planHash, stages := ordered,
          finalStageId, schemaVersion := 1 }

/-! ### Plans -/

def compiledFields (stage : PlanStage) : DagStageFields where
  stageId := stage.stageId
  version := 1
  dependencies := stage.dependencies
  kind := stage.kind.value
  target := stage.target
  selector := stage.selector
  environmentAdapter := lit "native"
  -- `stage.working_directory or "."`
  workingDirectory := match stage.workingDirectory with
    | none | some [] => lit "."
    | some directory => directory
  timeoutSeconds := stage.timeoutSeconds
  networkPolicy := stage.networkPolicy
  filesystemPolicy := stage.mutability.value
  processPolicy := lit "bounded_subprocess"
  credentialPolicy := lit "none"
  mutability := stage.mutability.value
  requiredRiskLevel := lit "unknown"
  artifactPaths := stage.artifactPaths
  cachePolicy :=
    if stage.boundary = .iteration ∧ stage.mutability = .readOnly then .readOnly else .disabled
  failureSeverity := if stage.failurePolicy = .required then .required else .optional
  final := stage.boundary = .final

/-- `compile_plan_dag`; without a final stage `next` raises `StopIteration`, which an accepted plan
never reaches. -/
def compilePlanDag (plan : ExecutionPlan) : Except Rejection VerificationDag := do
  let _ ← validateExecutionPlan R plan
  let stages ← plan.orderedStages.mapM fun stage => (compiledFields stage).construct
  match plan.orderedStages.find? fun stage => stage.boundary = .final with
  | none => .error (.invalid "StopIteration")
  | some final => createVerificationDag R plan.planId plan.planHash stages final.stageId

end RepoForge.Verification
