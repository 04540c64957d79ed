import RepoForge.Library.PyDict
import RepoForge.Library.PyJson
import RepoForge.Library.SortedListing

/-!
# Profiles and tables of a policy patch

Source: `domain/verification_steps.py` and, of `domain/policy_patch.py`, `ProfilePatch` and the
validators of diagnostics and formatters.

Where Python keeps a value of any type until a check meets it, an argument here is the JSON value; a
parameter gives the text that `str` makes of a list or a dict. An error that quotes a value has the
value.
-/
namespace RepoForge.PolicyPatch
open PyStr (lit ofNat replaceChar firstThen sortedDistinct)

inductive PolicyPatchError where
  | message (text : PyStr)
  | quoting (text : PyStr) (values : List Json)
  | invalidStep (context : PyStr) (cause : PolicyPatchError)
  /-- Python's own, of a value that cannot be hashed or iterated -/
  | typeError

def ensure (ok : Bool) (error : PolicyPatchError) : Except PolicyPatchError Unit :=
  if ok then .ok () else .error error

def said (context : PyStr) (problem : String) : PolicyPatchError := .message (context ++ lit problem)

def maxCommandsPerProfile : Nat := 16
def maxArgumentsPerCommand : Nat := 64
def maxArgumentLength : Nat := 512
def maxDescriptionLength : Nat := 500
def maxTimeoutSeconds : Int := 7200

/-- `^[A-Za-z0-9._-]{1,64}$` -/
def isSafeName (name : PyStr) : Bool :=
  let allowed (c : Char) : Bool := c.isAlphanum || "._-".toList.contains c
  firstThen allowed allowed 63 name

def safeName (value : Json) (context : PyStr) : Except PolicyPatchError PyStr :=
  let error : PolicyPatchError := .quoting
    (context ++ lit " must match [A-Za-z0-9._-] and be at most 64 characters") [value]
  match value with
  | .str name => if isSafeName name then .ok name else .error error
  | _ => .error error

def boundedStr (value : Json) (context : PyStr) (limit : Nat) : Except PolicyPatchError PyStr :=
  match value with
  | .str text =>
    if limit < text.length then
      .error (.message (context ++ lit " exceeds " ++ ofNat limit ++ lit " characters"))
    else .ok text
  | _ => .error (said context " must be a string")

/-- `{context}[{index}]` -/
def indexed (context : PyStr) (index : Nat) : PyStr := context ++ lit "[" ++ ofNat index ++ lit "]"

def validateArgument (context : PyStr) (argument : Json) : Except PolicyPatchError PyStr := do
  let text ← boundedStr argument context maxArgumentLength
  ensure (decide (text ≠ [])) (said context " must be a non-empty string")
  .ok text

def validateCommand (command : Json) (context : PyStr) : Except PolicyPatchError (List PyStr) :=
  match command with
  | .list arguments => do
    ensure (!arguments.isEmpty) (said context " must be a non-empty argument array")
    ensure (decide (arguments.length ≤ maxArgumentsPerCommand))
      (.message (context ++ lit " exceeds " ++ ofNat maxArgumentsPerCommand ++ lit " arguments"))
    arguments.zipIdx.mapM fun item => validateArgument (indexed context item.2) item.1
  | _ => .error (said context " must be a non-empty argument array")

/-! ## Verification steps -/

inductive VerificationStepKind where
  | unknown | hygiene | staticAnalysis | typecheck | businessTests | security | contract | build
  deriving DecidableEq, Repr

def VerificationStepKind.value : VerificationStepKind → String
  | unknown => "unknown"
  | hygiene => "hygiene"
  | staticAnalysis => "static_analysis"
  | typecheck => "typecheck"
  | businessTests => "business_tests"
  | security => "security"
  | contract => "contract"
  | build => "build"

def stepKinds : List VerificationStepKind :=
  [.unknown, .hygiene, .staticAnalysis, .typecheck, .businessTests, .security, .contract, .build]

/-- `VerificationStepKind(value)` -/
def VerificationStepKind.ofValue (value : PyStr) : Option VerificationStepKind :=
  stepKinds.find? fun kind => decide (lit kind.value = value)

inductive HygieneBaselinePolicy where
  | strictClean | noRegression
  deriving DecidableEq, Repr

def HygieneBaselinePolicy.value : HygieneBaselinePolicy → String
  | strictClean => "strict_clean"
  | noRegression => "no_regression"

/-- `HygieneBaselinePolicy(value)` -/
def HygieneBaselinePolicy.ofValue (value : PyStr) : Option HygieneBaselinePolicy :=
  [strictClean, noRegression].find? fun policy => decide (lit policy.value = value)

structure StepFields where
  stepId : PyStr
  kind : VerificationStepKind
  command : List PyStr
  deriving DecidableEq, Repr

/-- `^[A-Za-z0-9][A-Za-z0-9._-]{0,63}$` -/
def isStepId : PyStr → Bool :=
  firstThen Char.isAlphanum (fun c => c.isAlphanum || "._-".toList.contains c) 63

def isStepArgument (argument : PyStr) : Bool :=
  decide (argument ≠ []) && decide (argument.length ≤ 512) &&
    argument.all fun c => decide (32 ≤ c.value)

/-- `VerificationStep.__post_init__` does not raise. -/
def StepFields.valid (step : StepFields) : Bool :=
  isStepId step.stepId && decide (step.command ≠ []) && decide (step.command.length ≤ 64) &&
    step.command.all isStepArgument

structure VerificationStep extends StepFields where
  constructed : toStepFields.valid = true

instance : DecidableEq VerificationStep := fun a b =>
  decidable_of_iff (a.toStepFields = b.toStepFields) <| by
    cases a
    cases b
    simp

/-- The constructor, which says what is wrong. -/
def StepFields.construct (step : StepFields) : Except PolicyPatchError VerificationStep :=
  if constructed : step.valid = true then .ok ⟨step, constructed⟩
  else if isStepId step.stepId = false then .error (.message (lit "verification step id is invalid"))
  else if step.command = [] ∨ 64 < step.command.length then
    .error (.message (lit "verification step command must contain 1..64 arguments"))
  else .error (.message (lit "verification step command contains an invalid argument"))

/-! ## Profiles -/

/-- The arguments of `ProfilePatch`. -/
structure ProfileArguments where
  name : PyStr
  description : PyStr
  commands : List (List PyStr)
  verification : Bool := false
  timeoutSeconds : Json := .null
  workingDirectory : Json := .null
  steps : List VerificationStep := []
  baselinePolicy : HygieneBaselinePolicy := .strictClean
  modelInvocable : Bool := true
  minIntervalSeconds : Int := 0

structure ProfileFields where
  name : PyStr
  description : PyStr
  commands : List (List PyStr)
  verification : Bool
  timeoutSeconds : Option Int
  workingDirectory : Option PyStr
  steps : List VerificationStep
  baselinePolicy : HygieneBaselinePolicy
  modelInvocable : Bool
  minIntervalSeconds : Int
  deriving DecidableEq

def profileContext (name : PyStr) : PyStr := lit "profile " ++ name

/-- None, or an integer from 1 to a maximum. -/
def optionalSeconds (value : Json) (maximum : Int) (error : PolicyPatchError) :
    Except PolicyPatchError (Option Int) :=
  match value with
  | .null => .ok none
  | .int n => if 1 ≤ n ∧ n ≤ maximum then .ok (some n) else .error error
  | _ => .error error

def isSlash (c : CodePoint) : Bool := decide (c = .scalar '/')

/-- `.replace("\\", "/").strip("/")` -/
def stripSlashes (text : PyStr) : PyStr :=
  ((replaceChar '\\' '/' text).dropWhile isSlash).rdropWhile isSlash

def isSafeWorkdir (workdir : PyStr) : Bool :=
  decide (workdir ≠ []) && !(lit "-").isPrefixOf workdir &&
    (workdir.splitOn (.scalar '/')).all fun part => decide (part ∉ [[], lit ".", lit ".."])

def optionalWorkdir (value : Json) (context : PyStr) : Except PolicyPatchError (Option PyStr) :=
  match value with
  | .null => .ok none
  | value => do
    let text ← boundedStr value context maxArgumentLength
    ensure (isSafeWorkdir (stripSlashes text)) (said context " must be a safe relative path")
    .ok (some (stripSlashes text))

/-- `ProfilePatch.__post_init__` -/
def ProfileArguments.postInit (a : ProfileArguments) : Except PolicyPatchError ProfileFields := do
  let context := profileContext a.name
  let _ ← safeName (.str a.name) (lit "profile name")
  let _ ← boundedStr (.str a.description) (context ++ lit ".description") maxDescriptionLength
  ensure (decide (a.commands ≠ [])) (said context " requires at least one command")
  ensure (decide (a.commands.length ≤ maxCommandsPerProfile))
    (.message (context ++ lit " exceeds " ++ ofNat maxCommandsPerProfile ++ lit " commands"))
  let commands ← a.commands.zipIdx.mapM fun item =>
    validateCommand (.texts item.1) (indexed (context ++ lit ".commands") item.2)
  let timeoutSeconds ← optionalSeconds a.timeoutSeconds maxTimeoutSeconds
    (said context ".timeout_seconds must be an integer in 1..7200")
  let workingDirectory ← optionalWorkdir a.workingDirectory (context ++ lit ".working_directory")
  ensure (decide (a.steps.map (·.stepId)).Nodup) (said context ".steps contains duplicate ids")
  ensure (decide (a.steps = [] ∨ a.steps.map (·.command) = commands))
    (said context ".commands must match steps commands")
  ensure (decide (a.baselinePolicy = .noRegression → ∃ step ∈ a.steps, step.kind = .hygiene))
    (said context ".baseline_policy=no_regression requires a hygiene step")
  .ok {
    name := a.name
    description := a.description
    commands
    verification := a.verification
    timeoutSeconds
    workingDirectory
    steps := a.steps
    baselinePolicy := a.baselinePolicy
    modelInvocable := a.modelInvocable
    minIntervalSeconds := a.minIntervalSeconds }

/-- A profile that the constructor accepts. -/
structure ProfilePatch extends ProfileFields where
  accepted : ∃ arguments : ProfileArguments, arguments.postInit = .ok toProfileFields

instance : DecidableEq ProfilePatch := fun a b =>
  decidable_of_iff (a.toProfileFields = b.toProfileFields) <| by
    cases a
    cases b
    simp

def ProfileArguments.construct (a : ProfileArguments) : Except PolicyPatchError ProfilePatch :=
  match accepted : a.postInit with
  | .ok fields => .ok ⟨fields, a, accepted⟩
  | .error e => .error e

def VerificationStep.asTable (step : VerificationStep) : Json :=
  .dict [(lit "id", .str step.stepId), (lit "kind", .str (lit step.kind.value)),
    (lit "command", .texts step.command)]

/-- The entries of the table, those that are written only for some values as options. -/
def ProfileFields.entries (p : ProfileFields) : List (PyStr × Option Json) := [
  (lit "description", some (.str p.description)),
  (lit "verification", some (.bool p.verification)),
  (lit "commands", some (.list (p.commands.map Json.texts))),
  (lit "timeout_seconds", p.timeoutSeconds.map .int),
  (lit "working_directory", p.workingDirectory.map .str),
  (lit "steps", if p.steps = [] then none else some (.list (p.steps.map VerificationStep.asTable))),
  (lit "baseline_policy", if p.baselinePolicy = .strictClean then none
    else some (.str (lit p.baselinePolicy.value))),
  (lit "model_invocable", if p.modelInvocable then none else some (.bool false)),
  (lit "min_interval_seconds", if p.minIntervalSeconds = 0 then none
    else some (.int p.minIntervalSeconds))]

/-- `ProfilePatch.as_table` -/
def ProfileFields.asTable (p : ProfileFields) : Json := .dict (PyDict.present p.entries)

/-- `sorted(set(fields) - allowed)` -/
def keysOutside (fields : List (PyStr × Json)) (allowed : List PyStr) : List PyStr :=
  sortedDistinct ((fields.map (·.1)).filter fun key => decide (key ∉ allowed))

def profileKeys : List PyStr :=
  ["description", "verification", "commands", "timeout_seconds", "working_directory", "steps",
    "baseline_policy", "model_invocable", "min_interval_seconds"].map lit

section Decoding

variable (repr : Json → PyStr)

/-- `str(value)` -/
def textOf : Json → PyStr
  | .str text => text
  | .null => lit "None"
  | .bool value => if value then lit "True" else lit "False"
  | .int value => Json.ofInt value
  | value => repr value

def stepFields (context : PyStr) (id kind command : Json) :
    Except PolicyPatchError VerificationStep := do
  match VerificationStepKind.ofValue (textOf repr kind) with
  | none => .error (.quoting (lit "is not a valid VerificationStepKind") [kind])
  | some kind =>
    let command ← validateCommand command (context ++ lit ".command")
    StepFields.construct ⟨textOf repr id, kind, command⟩

/-- One round of the loop over the steps. -/
def stepOfTable (context : PyStr) (rawStep : Json) : Except PolicyPatchError VerificationStep :=
  match rawStep with
  | .dict fields =>
    match PyDict.get fields (lit "id"), PyDict.get fields (lit "kind"),
      PyDict.get fields (lit "command") with
    | some id, some kind, some command =>
      if keysOutside fields (["id", "kind", "command"].map lit) = [] then
        match stepFields repr context id kind command with
        | .ok step => .ok step
        | .error cause => .error (.invalidStep context cause)
      else .error (said context " must contain id, kind, and command")
    | _, _, _ => .error (said context " must contain id, kind, and command")
  | _ => .error (said context " must contain id, kind, and command")

def boolean (value : Json) (error : PolicyPatchError) : Except PolicyPatchError Bool :=
  match value with
  | .bool b => .ok b
  | _ => .error error

def array (value : Json) (error : PolicyPatchError) : Except PolicyPatchError (List Json) :=
  match value with
  | .list items => .ok items
  | _ => .error error

def boundedInterval (value : Json) (error : PolicyPatchError) : Except PolicyPatchError Int :=
  match value with
  | .int n => if 0 ≤ n ∧ n ≤ 24 * 60 * 60 then .ok n else .error error
  | _ => .error error

/-- `ProfilePatch.from_table` -/
def profileFromTable (name : PyStr) (raw : Json) : Except PolicyPatchError ProfilePatch :=
  let context := profileContext name
  match raw with
  | .dict fields => do
    let value (key : String) (default : Json) : Json := (PyDict.get fields (lit key)).getD default
    let unknown := keysOutside fields profileKeys
    ensure (decide (unknown = [])) (.quoting (context ++ lit " patch has unsupported keys: ")
      (unknown.map .str))
    let commandsRaw ← array (value "commands" .null)
      (said context " patch requires a commands array")
    let verification ← boolean (value "verification" (.bool false))
      (said context ".verification must be a boolean")
    let commands ← commandsRaw.zipIdx.mapM fun item =>
      validateCommand item.1 (indexed (context ++ lit ".commands") item.2)
    let rawSteps ← array (value "steps" (.list []))
      (said context ".steps must be an array of inline tables")
    let steps ← rawSteps.zipIdx.mapM fun item =>
      stepOfTable repr (indexed (context ++ lit ".steps") item.2) item.1
    let baselinePolicy ← match HygieneBaselinePolicy.ofValue (textOf repr
        (value "baseline_policy" (.str (lit "strict_clean")))) with
      | some policy => Except.ok policy
      | none => .error (said context ".baseline_policy is invalid")
    let modelInvocable ← boolean (value "model_invocable" (.bool true))
      (said context ".model_invocable must be a boolean")
    let minIntervalSeconds ← boundedInterval (value "min_interval_seconds" (.int 0))
      (said context ".min_interval_seconds must be an integer between 0 and 86400")
    ProfileArguments.construct {
      name
      description := textOf repr (value "description" (.str []))
      commands
      verification
      timeoutSeconds := value "timeout_seconds" .null
      workingDirectory := value "working_directory" .null
      steps
      baselinePolicy
      modelInvocable
      minIntervalSeconds }
  | _ => .error (said context " patch must be a table")

end Decoding

/-! ## Diagnostics and formatters -/

abbrev Table := List (PyStr × Json)

def diagnosticScalarKeys : List PyStr :=
  ["summary", "selector_kind", "selector_max_length", "selector_max_values", "selector_expansion",
    "selector_separator", "selector_prefix", "selector_suffix", "selector_allow_leading_dash",
    "timeout_seconds", "network_policy", "mutability", "parser", "output_limit",
    "working_directory"].map lit

def diagnosticListKeys : List PyStr :=
  ["argv", "selector_values", "selector_char_classes", "artifact_paths"].map lit

def diagnosticSelectorScalarKeys : List PyStr :=
  ["kind", "max_length", "max_values", "expansion", "separator", "prefix", "suffix",
    "allow_leading_dash"].map lit

def diagnosticSelectorListKeys : List PyStr := ["values", "char_classes"].map lit

def formatterScalarKeys : List PyStr :=
  ["summary", "timeout_seconds", "output_limit", "max_paths", "baseline_cache_ttl_seconds",
    "network_policy", "parser"].map lit

def formatterListKeys : List PyStr := ["check_argv", "fix_argv", "include_globs"].map lit

/-- A nested key, and what checks its value. -/
abbrev Nested := Option (PyStr × (Json → PyStr → Except PolicyPatchError Json))

/-- One round of the loop of `_validate_bounded_table`. -/
def boundedValue (context : PyStr) (scalarKeys listKeys : List PyStr) (nested : Nested)
    (key : PyStr) (value : Json) : Except PolicyPatchError Json :=
  let here := context ++ lit "." ++ key
  if key ∈ scalarKeys then
    match value with
    | .str _ => (boundedStr value here maxArgumentLength).map .str
    | .int n => .ok (.int n)
    | .bool b => .ok (.bool b)
    | _ => .error (said here " must be a string, integer, or boolean")
  else if key ∈ listKeys then
    match value with
    | .list items => do
      ensure (decide (items.length ≤ maxArgumentsPerCommand))
        (said here " must be a string array of at most 64 entries")
      let texts ← items.mapM fun item => boundedStr item (here ++ lit "[]") maxArgumentLength
      .ok (.list (texts.map .str))
    | _ => .error (said here " must be a string array of at most 64 entries")
  else
    match nested with
    | some (_, validate) => validate value here
    | none => .ok value

def validateBoundedTable (raw : Json) (context : PyStr) (scalarKeys listKeys : List PyStr)
    (nested : Nested) : Except PolicyPatchError Table :=
  match raw with
  | .dict fields => do
    let unknown := keysOutside fields (scalarKeys ++ listKeys ++ nested.toList.map (·.1))
    ensure (decide (unknown = [])) (.quoting
      (context ++ lit " has unrenderable or unsupported keys: ") (unknown.map .str))
    (sortBy (·.1) fields).mapM fun field =>
      (boundedValue context scalarKeys listKeys nested field.1 field.2).map fun value =>
        (field.1, value)
  | _ => .error (said context " must be a table")

/-- The value of `selectors`. -/
def validateSelectors (value : Json) (context : PyStr) : Except PolicyPatchError Json :=
  match value with
  | .dict fields => do
    ensure (decide (fields.length ≤ 1)) (said context " supports at most one named selector")
    let selectors ← (sortBy (·.1) fields).mapM fun field => do
      let name ← safeName (.str field.1) (context ++ lit " name")
      let table ← validateBoundedTable field.2 (context ++ lit "." ++ field.1)
        diagnosticSelectorScalarKeys diagnosticSelectorListKeys none
      .ok (name, Json.dict table)
    .ok (.dict selectors)
  | _ => .error (said context " supports at most one named selector")

/-- `bool(table.get(key))` of a validated list -/
def nonEmpty (table : Table) (key : String) : Bool :=
  match PyDict.get table (lit key) with
  | some (.list items) => !items.isEmpty
  | _ => false

def validateDiagnosticTable (name : PyStr) (raw : Json) : Except PolicyPatchError Table := do
  let table ← validateBoundedTable raw (lit "diagnostic " ++ name) diagnosticScalarKeys
    diagnosticListKeys (some (lit "selectors", validateSelectors))
  ensure (nonEmpty table "argv")
    (.message (lit "diagnostic " ++ name ++ lit " requires a non-empty argv array"))
  .ok table

def validateFormatterTable (name : PyStr) (raw : Json) : Except PolicyPatchError Table := do
  let table ← validateBoundedTable raw (lit "formatter " ++ name) formatterScalarKeys
    formatterListKeys none
  ensure (nonEmpty table "check_argv")
    (.message (lit "formatter " ++ name ++ lit " requires a non-empty check_argv array"))
  .ok table

end RepoForge.PolicyPatch
