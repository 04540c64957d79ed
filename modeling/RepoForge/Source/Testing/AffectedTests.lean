import Mathlib.Algebra.Ring.Int.Defs
import RepoForge.Library.PyDict
import RepoForge.Library.PyJson
import RepoForge.Library.Regex

/-!
# Affected tests

`scripts/select_affected_tests.py`: the manifest of the test groups, the selection for a list of
changed paths, and how it is run. The reasons of a selection stand in the order in which they are
found; their texts, by which the source sorts them, are left out.
-/
namespace RepoForge.AffectedTests
open PyStr (lit)
open Regex

structure Group where
  name : PyStr
  parallel : Bool
  sourceGlobs : List PyStr
  testFiles : List PyStr
  parallelShardSizes : List Int := []
  deriving DecidableEq

structure Manifest where
  groups : List Group
  safetyBundle : List PyStr
  conftestConsumers : List PyStr
  /-- Empty where there is no coverage map. -/
  coverageMap : List (PyStr × List PyStr) := []
  deriving DecidableEq

inductive ShardError where
  | serialShards (group : PyStr)
  | notPositive (group : PyStr)
  | notCovering (group : PyStr) (files : Nat)
  | unassigned (files : List PyStr)
  deriving DecidableEq

/-! ### Globs -/

def notNewline (c : CodePoint) : Bool := decide (c ≠ .scalar '\n')

def notSlash (c : CodePoint) : Bool := decide (c ≠ .scalar '/')

/-- `_glob_to_regex`, between `^` and `$`. -/
def globToRegex : PyStr → Pattern CodePoint
  | [] => .nothing
  | c :: rest =>
    if c = .scalar '*' then
      match rest with
      | [] => .star notSlash
      | d :: after =>
        if d = .scalar '*' then
          match after with
          | [] => .star notNewline
          | e :: later =>
            if e = .scalar '/' then
              .next (.optional (.next (.star notNewline) (.one fun c => !notSlash c)))
                (globToRegex later)
            else .next (.star notNewline) (globToRegex (e :: later))
        else .next (.star notSlash) (globToRegex (d :: after))
    else if c = .scalar '?' then .next (.one notSlash) (globToRegex rest)
    else .next (.one fun d => decide (d = c)) (globToRegex rest)

/-- `$` also matches before a last line break. -/
def atEnd (rest : PyStr) : Bool := decide (rest = [] ∨ rest = [.scalar '\n'])

/-- `_matches_any` -/
def matchesAny (path : PyStr) (globs : List PyStr) : Bool :=
  globs.any fun glob => ((globToRegex glob).run ⟨none, path, 0, []⟩).any (atEnd ·.rest)

/-! ### The manifest -/

/-- `_validated_parallel_shard_sizes` -/
def validatedParallelShardSizes (group : Group) : Except ShardError (List Int) :=
  let sizes :=
    if group.parallelShardSizes = [] then [(group.testFiles.length : Int)]
    else group.parallelShardSizes
  if group.parallelShardSizes ≠ [] ∧ group.parallel = false then .error (.serialShards group.name)
  else if ∃ size ∈ sizes, size ≤ 0 then .error (.notPositive group.name)
  else if sizes.sum ≠ group.testFiles.length then
    .error (.notCovering group.name group.testFiles.length)
  else .ok sizes

/-- `load_manifest`, of the groups in the order of the file. -/
def loadManifest (groups : List Group) (safetyBundle conftestConsumers : List PyStr)
    (coverageMap : List (PyStr × List PyStr)) : Except ShardError Manifest := do
  let _ ← groups.mapM validatedParallelShardSizes
  return ⟨groups, safetyBundle, conftestConsumers, coverageMap⟩

namespace Manifest

variable (manifest : Manifest)

/-- All files of the groups. -/
def groupFiles : List PyStr := manifest.groups.flatMap (·.testFiles)

def groupByName (name : PyStr) : Option Group := manifest.groups.find? fun group => group.name = name

def serialFiles : List PyStr := (manifest.groups.filter fun group => !group.parallel).flatMap (·.testFiles)

/-- `_exact_reviewed_group_owner` -/
def exactReviewedGroupOwner (path : PyStr) : Option Group :=
  match manifest.groups.filter fun group => decide (path ∈ group.sourceGlobs) with
  | [owner] => some owner
  | _ => none

end Manifest

/-! ### Completeness -/

/-- What `tests_dir.glob("test_*.py")` finds: the names, with the texts that can be read. -/
abbrev TestsDir := List (PyStr × Option PyStr)

def onDisk (testsDir : TestsDir) : List PyStr := testsDir.map fun file => lit "tests/" ++ file.1

section Conftest

-- What `\w` accepts, apart from the underscore.
variable (isAlnum : CodePoint → Bool)

def isWord (c : CodePoint) : Bool := isAlnum c || c = .scalar '_'

def exactly (text : String) : Pattern CodePoint :=
  .sequence ((lit text).map fun c => .one fun d => decide (d = c))

/-- `_CONFTEST_SYMBOL_RE` -/
def conftestSymbol : Pattern CodePoint :=
  .sequence [.boundary (isWord isAlnum),
    .anyOf (["forge_env", "create_forge_environment", "ForgeEnvironment",
      "execution_coordinator_for_tests", "build_test_service"].map exactly),
    .boundary (isWord isAlnum)]

/-- `_actual_conftest_consumers` -/
def actualConftestConsumers (testsDir : TestsDir) : List PyStr :=
  (testsDir.filter fun file => file.2.any fun text =>
    !(finditer (conftestSymbol isAlnum) text).isEmpty).map fun file => lit "tests/" ++ file.1

end Conftest

inductive Violation where
  | consumerMissing (file : PyStr) | consumerStale (file : PyStr) | consumerAbsent (file : PyStr)
  | claimedTwice (file : PyStr) (owners : List PyStr)
  | absent (file : PyStr) | unmapped (file : PyStr)
  | safetyUnowned (file : PyStr) | safetyAbsent (file : PyStr)
  | coverageAbsent (file : PyStr)
  deriving DecidableEq

/-- `sorted(found - expected)`, each as a violation. -/
def beyond (found expected : List PyStr) (violation : PyStr → Violation) : List Violation :=
  (PyStr.sortedDistinct (found.filter fun file => decide (file ∉ expected))).map violation

/-- The names of the groups that list the file, once for each time. -/
def ownersOf (manifest : Manifest) (file : PyStr) : List PyStr :=
  manifest.groups.flatMap fun group => List.replicate (group.testFiles.count file) group.name

/-- `check_completeness` -/
def checkCompleteness (isAlnum : CodePoint → Bool) (manifest : Manifest) (testsDir : TestsDir) :
    List Violation :=
  let disk := onDisk testsDir
  let actual := actualConftestConsumers isAlnum testsDir
  let owned := manifest.groupFiles
  beyond actual manifest.conftestConsumers .consumerMissing ++
  beyond manifest.conftestConsumers actual .consumerStale ++
  beyond manifest.conftestConsumers disk .consumerAbsent ++
  (PyStr.sortedDistinct owned).flatMap (fun file =>
    (if 1 < (ownersOf manifest file).length then
      [.claimedTwice file ((ownersOf manifest file).insertionSort (· ≤ ·))] else []) ++
    if file ∈ disk then [] else [.absent file]) ++
  beyond disk owned .unmapped ++
  manifest.safetyBundle.flatMap (fun file =>
    (if file ∈ owned then [] else [.safetyUnowned file]) ++
    if file ∈ disk then [] else [.safetyAbsent file]) ++
  beyond (manifest.coverageMap.flatMap (·.2)) disk .coverageAbsent

/-! ### Selection -/

inductive Reason where
  | noChangedPaths
  | alwaysWide (path : PyStr)
  | itself (path : PyStr)
  | exactOwner (path group : PyStr)
  | covering (path : PyStr) (covering consumers : Nat)
  | matched (path group : PyStr)
  | conftestConsumers
  | fullRequested
  deriving DecidableEq

inductive EscalationReason where
  | affectsVerification (path : PyStr)
  | noCoverage (paths : List PyStr)
  | noGroup (paths : List PyStr)
  | fullRequested
  deriving DecidableEq

structure Selection where
  selectedGroups : List PyStr
  selectedFiles : List PyStr
  omittedGroups : List PyStr
  reasons : List Reason
  escalationReason : Option EscalationReason
  deriving DecidableEq

/-- `escalated_to_wide`, which is set with its reason. -/
def Selection.escalatedToWide (selection : Selection) : Bool := selection.escalationReason.isSome

def packageSrcPrefix : PyStr := lit "src/repoforge/"

def alwaysWideGlobs : List PyStr := [lit "pyproject.toml", lit "uv.lock"]

def conftestPath : PyStr := lit "tests/conftest.py"

/-- `_GITHUB_CAPABILITY_PREFLIGHT_CONSUMERS` -/
def preflightConsumers : List (PyStr × List PyStr) := [
  (lit "src/repoforge/ports/github_capability_preflight.py",
    [lit "tests/test_github_capability_preflight_adapter.py"]),
  (lit "src/repoforge/adapters/github/api_identity.py",
    [lit "tests/test_github_api_identity.py",
      lit "tests/test_github_capability_preflight_adapter.py"]),
  (lit "src/repoforge/domain/repository_identity.py",
    [lit "tests/test_github_api_identity.py", lit "tests/test_operation_identity_leases.py",
      lit "tests/test_repository_identity_contracts.py"]),
  (lit "src/repoforge/adapters/publication.py",
    [lit "tests/test_github_api_identity.py", lit "tests/test_publication_adapter.py"]),
  (lit "src/repoforge/application/publication.py",
    [lit "tests/test_github_api_identity.py", lit "tests/test_publication_guards.py"]),
  (lit "src/repoforge/application/context.py",
    [lit "tests/test_github_api_identity.py", lit "tests/test_integration.py"]),
  (lit "src/repoforge/bootstrap.py",
    [lit "tests/test_github_api_identity.py", lit "tests/test_integration.py"])]

section Select

variable (manifest : Manifest)

/-- `_escalated_selection` -/
def escalatedSelection (reasons : List Reason) (escalationReason : EscalationReason) : Selection where
  selectedGroups := manifest.groups.map (·.name)
  selectedFiles := PyStr.sortedDistinct
    (manifest.groupFiles ++ manifest.safetyBundle ++ manifest.conftestConsumers)
  omittedGroups := []
  reasons
  escalationReason := some escalationReason

/-- The groups one of whose globs matches. -/
def matchingGroups (path : PyStr) : List Group :=
  manifest.groups.filter fun group => matchesAny path group.sourceGlobs

/-- One round of the loop of `_select_via_coverage`: the files and the reasons that it adds, none
for a path that is not mapped. -/
def coverageRound (path : PyStr) : Option (List PyStr × List Reason) :=
  if path ∈ manifest.groupFiles then some ([path], [.itself path])
  else if packageSrcPrefix.isPrefixOf path ∧ (lit ".py").isSuffixOf path then
    let covering := PyDict.get manifest.coverageMap path
    let consumers := (PyDict.get preflightConsumers path).getD []
    if covering = none ∧ consumers = [] then
      (manifest.exactReviewedGroupOwner path).map fun owner =>
        (owner.testFiles, [.exactOwner path owner.name])
    else some (covering.getD [] ++ consumers,
      [.covering path (covering.getD []).length consumers.length])
  else
    let groups := matchingGroups manifest path
    if groups = [] then none
    else some (groups.flatMap (·.testFiles), groups.map fun group => .matched path group.name)

/-- `_select_via_coverage` -/
def selectViaCoverage (remainingPaths : List PyStr) (conftestChanged : Bool) : Selection :=
  let unmapped := remainingPaths.filter fun path => (coverageRound manifest path).isNone
  let rounds := remainingPaths.filterMap (coverageRound manifest)
  let reasons := rounds.flatMap (·.2)
  if unmapped ≠ [] then
    escalatedSelection manifest reasons (.noCoverage (unmapped.insertionSort (· ≤ ·)))
  else {
    selectedGroups := []
    selectedFiles := PyStr.sortedDistinct (manifest.safetyBundle ++ rounds.flatMap (·.1) ++
      if conftestChanged then manifest.conftestConsumers else [])
    omittedGroups := []
    reasons := reasons ++ if conftestChanged then [.conftestConsumers] else []
    escalationReason := none }

/-- `_select_via_groups` -/
def selectViaGroups (remainingPaths : List PyStr) (conftestChanged : Bool) : Selection :=
  let matched := remainingPaths.flatMap fun path => (matchingGroups manifest path).map (·.name)
  let reasons := remainingPaths.flatMap fun path =>
    (matchingGroups manifest path).map fun group => .matched path group.name
  let unmapped := remainingPaths.filter fun path => decide (matchingGroups manifest path = [])
  if unmapped ≠ [] then
    escalatedSelection manifest reasons (.noGroup (unmapped.insertionSort (· ≤ ·)))
  else
    let selected := (manifest.groups.map (·.name)).filter fun name => decide (name ∈ matched)
    let selectedGroups := selected ++ if conftestChanged then [lit "conftest_consumers"] else []
    { selectedGroups
      selectedFiles := PyStr.sortedDistinct (manifest.safetyBundle ++
        selected.flatMap (fun name => ((manifest.groupByName name).map (·.testFiles)).getD []) ++
        if conftestChanged then manifest.conftestConsumers else [])
      omittedGroups := (manifest.groups.map (·.name)).filter fun name => decide (name ∉ selectedGroups)
      reasons := reasons ++ if conftestChanged then [.conftestConsumers] else []
      escalationReason := none }

def selectAffectedTests (changedPaths : List PyStr) : Selection :=
  if changedPaths = [] then {
    selectedGroups := []
    selectedFiles := PyStr.sortedDistinct manifest.safetyBundle
    omittedGroups := manifest.groups.map (·.name)
    reasons := [.noChangedPaths]
    escalationReason := none }
  else
    let conftestChanged := decide (conftestPath ∈ changedPaths)
    let remainingPaths := changedPaths.filter fun path => decide (path ≠ conftestPath)
    match remainingPaths.find? fun path => matchesAny path alwaysWideGlobs with
    | some path => escalatedSelection manifest [.alwaysWide path] (.affectsVerification path)
    | none =>
      if manifest.coverageMap ≠ [] then selectViaCoverage manifest remainingPaths conftestChanged
      else selectViaGroups manifest remainingPaths conftestChanged

end Select

/-! ### Changed paths -/

/-- What a line `XY path` or `XY old -> new` of `git status --porcelain` is read as. -/
def porcelainCandidate (line : PyStr) : PyStr :=
  let candidate := PyStr.strip (line.drop 3)
  let (_, found, after) := PyStr.partition (lit " -> ") candidate
  if found then after else candidate

/-- `changed_paths_from_git`, of the decoded output of `git diff --name-only` and of `git status`;
the exit codes are not looked at. -/
def changedPathsFromGit (committed uncommitted : Text) : List PyStr :=
  let paths := (PyText.splitlines committed).map PyStr.ofText ++
    (((PyText.splitlines uncommitted).map PyStr.ofText).map porcelainCandidate).filter
      fun candidate => !candidate.isEmpty
  PyStr.sortedDistinct (paths.filter fun path => !path.isEmpty)

/-! ### Lanes -/

structure Lane where
  name : PyStr
  files : List PyStr
  deriving DecidableEq

/-- The slices of a group's files, each with those that are selected. -/
def shardsFrom (name : Nat → PyStr) (selected : List PyStr) : Nat → List PyStr → List Int → List Lane
  | _, _, [] => []
  | index, testFiles, size :: sizes =>
    let shardFiles := (testFiles.take size.toNat).filter fun file => decide (file ∈ selected)
    let later := shardsFrom name selected (index + 1) (testFiles.drop size.toNat) sizes
    if shardFiles = [] then later else ⟨name index, shardFiles⟩ :: later

def shardName (group : Group) (sizes : List Int) (index : Nat) : PyStr :=
  if sizes.length = 1 then group.name else group.name ++ lit "-" ++ PyStr.ofNat index

/-- The shards of the parallel groups, in turn. -/
def groupShards (selected : List PyStr) : List Group → Except ShardError (List Lane)
  | [] => .ok []
  | group :: rest =>
    if group.parallel = false then groupShards selected rest
    else do
      let sizes ← validatedParallelShardSizes group
      let later ← groupShards selected rest
      return shardsFrom (shardName group sizes) selected 1 group.testFiles sizes ++ later

/-- `Manifest.parallel_shards` -/
def parallelShards (manifest : Manifest) (files : List PyStr) : Except ShardError (List Lane) := do
  let shards ← groupShards files manifest.groups
  let unassigned := files.filter fun file => decide (file ∉ shards.flatMap (·.files))
  if unassigned ≠ [] then .error (.unassigned (PyStr.sortedDistinct unassigned)) else .ok shards

/-- A lane that was run, with the exit code of `pytest`. -/
structure LaneRun extends Lane where
  returncode : Int
  deriving DecidableEq

section Run

-- The exit code of `pytest` in a lane.
variable (pytest : Lane → Int)

/-- Each lane in turn, until one fails. -/
def runEach : List Lane → List LaneRun
  | [] => []
  | lane :: rest =>
    ⟨lane, pytest lane⟩ :: if pytest lane ≠ 0 then [] else runEach rest

/-- `_run_in_lanes`: the exit code, and the lanes that were run. -/
def runInLanes (manifest : Manifest) (files : List PyStr) :
    Except ShardError (Int × List LaneRun) := do
  let serial := (files.filter fun file => decide (file ∈ manifest.serialFiles)).insertionSort (· ≤ ·)
  let parallel := (files.filter fun file => decide (file ∉ manifest.serialFiles)).insertionSort (· ≤ ·)
  let shards ← parallelShards manifest parallel
  let runs := runEach pytest ((if serial = [] then [] else [⟨lit "serial", serial⟩]) ++ shards)
  return ((runs.map (·.returncode)).find? (· ≠ 0) |>.getD 0, runs)

end Run

end RepoForge.AffectedTests
