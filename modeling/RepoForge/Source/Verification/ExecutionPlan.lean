import RepoForge.Library.Topological
import RepoForge.Library.PyJson

/-!
# Execution plans

`domain/execution_plan.py`: the stages of a plan, `create_execution_plan` and
`validate_execution_plan`. A stage, or a binding, that is refused where it is constructed is not a
value here. SHA-256 and the timestamps of `datetime` are parameters; a digest raises where the
payload has a lone surrogate, which UTF-8 cannot encode.
-/
namespace RepoForge.Verification
open PyStr (lit firstThen isHex sortedDistinct)
open Json (optional texts)

/-- What is raised. -/
inductive Rejection where
  /-- `RepoForgeError` with the code `STATE_INVALID`. -/
  | invalid (message : String)
  /-- The message is "{subject} stage {stage!r} has unknown dependencies: {unknown}". -/
  | unknownDependencies (subject : String) (stage : PyStr) (unknown : List PyStr)
  /-- The message is "Execution plan {field} is not an ISO timestamp". -/
  | notIso (field : String)
  /-- `UnicodeEncodeError` -/
  | notEncodable
  /-- `TypeError`: of two timestamps one has a time zone. -/
  | notComparable
  deriving DecidableEq

def require (condition : Prop) [Decidable condition] (message : String) : Except Rejection Unit :=
  if condition then .ok () else .error (.invalid message)

structure Runtime (Instant : Type) where
  /-- `hashlib.sha256(data).hexdigest()` -/
  sha256 : Bytes → Text
  /-- `datetime.fromisoformat`, `none` where it raises. -/
  fromisoformat : PyStr → Option Instant
  /-- `a <= b`, `none` where it raises. -/
  notAfter : Instant → Instant → Option Bool

/-- The digests are SHA-256 in lowercase hexadecimal. -/
def Runtime.Hashes {Instant : Type} (R : Runtime Instant) : Prop :=
  ∀ data, (R.sha256 data).length = 64 ∧ (R.sha256 data).all lowerHex = true

/-! ### Texts -/

/-- `^[a-z][a-z0-9._-]{0,63}$` -/
def isStageId : PyStr → Bool :=
  firstThen Char.isLower (fun c => c.isLower || c.isDigit || "._-".toList.contains c) 63

/-- `^[A-Za-z0-9][A-Za-z0-9._:-]{0,127}$` -/
def isSafeTarget : PyStr → Bool :=
  firstThen Char.isAlphanum (fun c => c.isAlphanum || "._:-".toList.contains c) 127

/-- `^plan-[0-9a-f]{24}$` -/
def isPlanId (s : PyStr) : Bool := (lit "plan-").isPrefixOf s && isHex 24 (s.drop 5)

/-- `any(ord(c) < 32 for c in s)` -/
def hasControl (s : PyStr) : Bool := s.any fun c => c.value < 32

/-- `".." in path.split("/")` -/
def climbs (path : PyStr) : Bool := (path.splitOn (.scalar '/')).contains (lit "..")

/-! ### Stages -/

inductive PlanStageKind where
  | diagnostic
  | profile
  deriving DecidableEq

def PlanStageKind.value : PlanStageKind → PyStr
  | diagnostic => lit "diagnostic"
  | profile => lit "profile"

inductive PlanStageBoundary where
  | iteration
  | final
  deriving DecidableEq

def PlanStageBoundary.value : PlanStageBoundary → PyStr
  | iteration => lit "iteration"
  | final => lit "final"

inductive PlanStageMutability where
  | readOnly
  | workspaceWrite
  deriving DecidableEq

def PlanStageMutability.value : PlanStageMutability → PyStr
  | readOnly => lit "read_only"
  | workspaceWrite => lit "workspace_write"

inductive StageFailurePolicy where
  | required
  | optional
  deriving DecidableEq

def StageFailurePolicy.value : StageFailurePolicy → PyStr
  | required => lit "required"
  | optional => lit "optional"

structure PlanStageFields where
  stageId : PyStr
  kind : PlanStageKind
  target : PyStr
  selector : Option PyStr
  dependencies : List PyStr
  boundary : PlanStageBoundary
  workingDirectory : Option PyStr
  timeoutSeconds : Int
  mutability : PlanStageMutability
  networkPolicy : PyStr
  failurePolicy : StageFailurePolicy
  artifactPaths : List PyStr
  deriving DecidableEq

def networkPolicies : List PyStr :=
  [lit "none", lit "local_only", lit "restricted", lit "external"]

/-- `PlanStage.__post_init__` -/
def PlanStageFields.postInit (stage : PlanStageFields) : Except Rejection Unit := do
  require (isStageId stage.stageId = true) "Plan stage id is invalid"
  require (isSafeTarget stage.target = true) "Plan stage target is invalid"
  require (∀ selector ∈ stage.selector,
      selector ≠ [] ∧ selector.length ≤ 256 ∧ hasControl selector = false)
    "Plan stage selector is invalid"
  require (stage.dependencies.length ≤ 32 ∧ stage.dependencies.Nodup)
    "Plan stage dependencies must be unique and bounded"
  require (1 ≤ stage.timeoutSeconds ∧ stage.timeoutSeconds ≤ 86400)
    "Plan stage timeout must be between 1 and 86400 seconds"
  require (stage.networkPolicy ∈ networkPolicies) "Plan stage network policy is unsupported"
  require (stage.artifactPaths.length ≤ 32) "Plan stage artifact paths exceed the reviewed bound"
  stage.artifactPaths.forM fun path =>
    require (path ≠ [] ∧ path.length ≤ 256 ∧ path.head? ≠ some (.scalar '/') ∧
      climbs path = false) "Plan stage artifact path is unsafe"
  if stage.boundary = .final then
    require (stage.kind = .profile) "The final plan stage must be a profile"
    require (stage.failurePolicy = .required) "The final plan stage must be required"

/-- A stage that could be constructed. -/
structure PlanStage extends PlanStageFields where
  constructed : toPlanStageFields.postInit = .ok ()
  deriving DecidableEq

def PlanStage.definitionPayload (stage : PlanStage) : Json :=
  .dict [(lit "artifact_paths", texts stage.artifactPaths),
    (lit "boundary", .str stage.boundary.value),
    (lit "dependencies", texts stage.dependencies),
    (lit "failure_policy", .str stage.failurePolicy.value),
    (lit "kind", .str stage.kind.value),
    (lit "mutability", .str stage.mutability.value),
    (lit "network_policy", .str stage.networkPolicy),
    (lit "selector", optional stage.selector),
    (lit "stage_id", .str stage.stageId),
    (lit "target", .str stage.target),
    (lit "timeout_seconds", .int stage.timeoutSeconds),
    (lit "working_directory", optional stage.workingDirectory)]

structure BindingFields where
  headSha : PyStr
  workspaceFingerprint : PyStr
  configGeneration : PyStr
  policyHash : PyStr
  assessmentSnapshotId : PyStr
  evidenceSnapshotIds : List PyStr
  riskAssessmentHash : PyStr
  recommendationHash : PyStr
  deriving DecidableEq

/-- `ExecutionPlanBinding.__post_init__` -/
def BindingFields.postInit (binding : BindingFields) : Except Rejection Unit := do
  require (isHex 40 binding.headSha = true) "Execution plan HEAD SHA is invalid"
  require (isHex 64 binding.workspaceFingerprint = true)
    "Execution plan workspace fingerprint is invalid"
  require (isHex 64 binding.configGeneration = true)
    "Execution plan configuration generation is invalid"
  require (isHex 64 binding.policyHash = true) "Execution plan policy hash is invalid"
  require (isHex 64 binding.assessmentSnapshotId = true)
    "Execution plan assessment snapshot id is invalid"
  require (isHex 64 binding.riskAssessmentHash = true)
    "Execution plan risk assessment hash is invalid"
  require (isHex 64 binding.recommendationHash = true)
    "Execution plan recommendation hash is invalid"
  require (binding.evidenceSnapshotIds.length ≤ 64)
    "Execution plan evidence snapshot list is too large"
  require binding.evidenceSnapshotIds.Nodup "Execution plan evidence snapshot ids must be unique"
  require (∀ id ∈ binding.evidenceSnapshotIds, isHex 64 id = true)
    "Execution plan evidence snapshot id is invalid"

structure ExecutionPlanBinding extends BindingFields where
  constructed : toBindingFields.postInit = .ok ()
  deriving DecidableEq

def ExecutionPlanBinding.payload (binding : ExecutionPlanBinding) : Json :=
  .dict [(lit "assessment_snapshot_id", .str binding.assessmentSnapshotId),
    (lit "config_generation", .str binding.configGeneration),
    (lit "evidence_snapshot_ids", texts binding.evidenceSnapshotIds),
    (lit "head_sha", .str binding.headSha),
    (lit "policy_hash", .str binding.policyHash),
    (lit "recommendation_hash", .str binding.recommendationHash),
    (lit "risk_assessment_hash", .str binding.riskAssessmentHash),
    (lit "workspace_fingerprint", .str binding.workspaceFingerprint)]

/-! ### Plans -/

structure ExecutionPlan where
  planId : PyStr
  planHash : PyStr
  taskId : Option PyStr
  workspaceId : PyStr
  binding : ExecutionPlanBinding
  orderedStages : List PlanStage
  finalProfile : PyStr
  stageDefinitionHash : PyStr
  createdAt : PyStr
  expiresAt : Option PyStr
  schemaVersion : Int

variable {Instant : Type} (R : Runtime Instant)

/-- `_digest` -/
def digest (payload : Json) : Except Rejection PyStr :=
  let text := payload.dumps
  if text.encodable then .ok (PyStr.ofText (R.sha256 (PyStr.utf8 text.replaced)))
  else .error .notEncodable

/-- `_iso` -/
def iso (value : PyStr) (field : String) : Except Rejection Instant :=
  match R.fromisoformat value with
  | some instant => .ok instant
  | none => .error (.notIso field)

def stageDefinitionsHash (stages : List PlanStage) : Except Rejection PyStr :=
  digest R (.list (stages.map PlanStage.definitionPayload))

/-- `by_id[stage_id].dependencies` -/
def planDependencies (stages : List PlanStage) (stageId : PyStr) : List PyStr :=
  ((stages.find? fun stage => stage.stageId = stageId).map (·.dependencies)).getD []

def checkDependencies (stages : List PlanStage) (stage : PlanStage) : Except Rejection Unit := do
  let ids := stages.map (·.stageId)
  let unknown := sortedDistinct (stage.dependencies.filter (· ∉ ids))
  if unknown ≠ [] then
    .error (.unknownDependencies "Execution plan" stage.stageId unknown)
  require (stage.stageId ∉ stage.dependencies) "Execution plan stage cannot depend on itself"
  require (∀ dependency ∈ stage.dependencies, ids.idxOf dependency < ids.idxOf stage.stageId)
    "Execution plan stages must be supplied in dependency order"

/-- `_validate_graph` -/
def validateGraph (stages : List PlanStage) (finalProfile : PyStr) : Except Rejection Unit := do
  require (stages ≠ [] ∧ stages.length ≤ 128)
    "Execution plan must contain between 1 and 128 stages"
  let ids := stages.map (·.stageId)
  require ids.Nodup "Execution plan stage ids must be unique"
  stages.forM (checkDependencies stages)
  require (DepthFirst.visits (planDependencies stages) ids ≠ some true)
    "Execution plan dependency graph contains a cycle"
  match stages.filter fun stage => stage.boundary = .final with
  | [final] =>
    require (stages.getLast? = some final ∧ final.target = finalProfile)
      "Execution plan final stage must be last and target final_profile"
  | _ => .error (.invalid "Execution plan requires exactly one final stage")

/-- `_semantic_payload` -/
def semanticPayload (taskId : Option PyStr) (workspaceId : PyStr) (binding : ExecutionPlanBinding)
    (orderedStages : List PlanStage) (finalProfile stageDefinitionHash createdAt : PyStr)
    (expiresAt : Option PyStr) (schemaVersion : Int) : Json :=
  .dict [(lit "binding", binding.payload),
    (lit "created_at", .str createdAt),
    (lit "expires_at", optional expiresAt),
    (lit "final_profile", .str finalProfile),
    (lit "ordered_stages", .list (orderedStages.map PlanStage.definitionPayload)),
    (lit "schema_version", .int schemaVersion),
    (lit "stage_definition_hash", .str stageDefinitionHash),
    (lit "task_id", optional taskId),
    (lit "workspace_id", .str workspaceId)]

/-- The expiry, where there is one, comes after the creation. -/
def checkExpiry (created : Instant) : Option PyStr → Except Rejection Unit
  | none => .ok ()
  | some expiresAt => do
    let expires ← iso R expiresAt "expires_at"
    match R.notAfter expires created with
    | some early => require (early = false) "Execution plan expiry must be after creation"
    | none => .error .notComparable

/-- `create_execution_plan` -/
def createExecutionPlan (taskId : Option PyStr) (workspaceId : PyStr)
    (binding : ExecutionPlanBinding) (orderedStages : List PlanStage)
    (finalProfile createdAt : PyStr) (expiresAt : Option PyStr) :
    Except Rejection ExecutionPlan := do
  require (workspaceId ≠ [] ∧ workspaceId.length ≤ 128) "Execution plan workspace id is invalid"
  require (∀ id ∈ taskId, id ≠ [] ∧ id.length ≤ 128) "Execution plan task id is invalid"
  require (isSafeTarget finalProfile = true) "Execution plan final profile is invalid"
  let created ← iso R createdAt "created_at"
  checkExpiry R created expiresAt
  validateGraph orderedStages finalProfile
  let definitionHash ← stageDefinitionsHash R orderedStages
  let planHash ← digest R (semanticPayload taskId workspaceId binding orderedStages finalProfile
    definitionHash createdAt expiresAt 1)
  .ok { planId := lit "plan-" ++ planHash.take 24, planHash, taskId, workspaceId, binding,
        orderedStages, finalProfile, stageDefinitionHash := definitionHash, createdAt, expiresAt,
        schemaVersion := 1 }

/-- `validate_execution_plan` -/
def validateExecutionPlan (plan : ExecutionPlan) : Except Rejection ExecutionPlan := do
  require (plan.schemaVersion = 1) "Execution plan schema version is unsupported"
  let expected ← createExecutionPlan R plan.taskId plan.workspaceId plan.binding
    plan.orderedStages plan.finalProfile plan.createdAt plan.expiresAt
  require (plan.planId = expected.planId ∧ isPlanId plan.planId = true)
    "Execution plan id does not match its content"
  require (plan.planHash = expected.planHash ∧
      plan.stageDefinitionHash = expected.stageDefinitionHash)
    "Execution plan hashes do not match its content"
  .ok plan

end RepoForge.Verification
