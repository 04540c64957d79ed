import RepoForge.Library.Overlays
import RepoForge.Source.Configuration.ProfilePatch

/-!
# Policy patches

Source: `domain/policy_patch.py`, `RepositoryPolicyPatch`, and `validate_adhoc_runners` of
`domain/adhoc.py`.
-/
namespace RepoForge.PolicyPatch
open PyStr (lit ofNat firstThen sortedDistinct)
open Overlays (Layer)

def maxPatchEntries : Nat := 16
def maxAdhocTimeoutSeconds : Int := 3600
def maxAdhocRunners : Nat := 32

inductive ExecutionMode where
  | strict | relaxed
  deriving DecidableEq, Repr

def ExecutionMode.value : ExecutionMode → String
  | strict => "strict"
  | relaxed => "relaxed"

/-- The arguments of `RepositoryPolicyPatch`. -/
structure PatchArguments where
  profiles : List ProfilePatch := []
  diagnostics : List (PyStr × Json) := []
  formatters : List (PyStr × Json) := []
  executionMode : Json := .null
  adhocRunners : Option (List Json) := none
  adhocShellRunners : Option (List Json) := none
  adhocTimeoutSeconds : Json := .null
  removeProfiles : Json := .list []
  removeDiagnostics : Json := .list []
  removeFormatters : Json := .list []

structure PatchFields where
  profiles : List ProfilePatch
  diagnostics : List (PyStr × Table)
  formatters : List (PyStr × Table)
  executionMode : Option ExecutionMode
  adhocRunners : Option (List PyStr)
  adhocShellRunners : Option (List PyStr)
  adhocTimeoutSeconds : Option Int
  removeProfiles : List PyStr
  removeDiagnostics : List PyStr
  removeFormatters : List PyStr

/-- What tells a value in a set from another; a list and a dict cannot be in one, and True is 1. -/
def hashed : Json → Except PolicyPatchError (Option (Int ⊕ PyStr))
  | .null => .ok none
  | .bool b => .ok (some (.inl b.toInt))
  | .int n => .ok (some (.inl n))
  | .str text => .ok (some (.inr text))
  | .list _ => .error .typeError
  | .dict _ => .error .typeError

/-- `value in {None, "strict", "relaxed"}` -/
def optionalMode (value : Json) : Except PolicyPatchError (Option ExecutionMode) := do
  let key ← hashed value
  if key = none then .ok none
  else if key = some (.inr (lit "strict")) then .ok (some .strict)
  else if key = some (.inr (lit "relaxed")) then .ok (some .relaxed)
  else .error (.message (lit "execution_mode must be 'strict' or 'relaxed'"))

/-- `^[A-Za-z0-9][A-Za-z0-9._-]{0,63}$`, which has no slash -/
def isRunnerBasename : PyStr → Bool :=
  firstThen Char.isAlphanum (fun c => c.isAlphanum || "._-".toList.contains c) 63

def validateRunner (context : PyStr) (runner : Json) : Except PolicyPatchError PyStr :=
  let error : PolicyPatchError := .quoting (context ++ lit " contains an invalid runner basename: ")
    [runner]
  match runner with
  | .str name => if isRunnerBasename name then .ok name else .error error
  | _ => .error error

def validateAdhocRunners (runners : List Json) (fieldName : String) :
    Except PolicyPatchError (List PyStr) := do
  let context := lit "repositories.policy_patch." ++ lit fieldName
  ensure (decide (runners.length ≤ maxAdhocRunners))
    (.message (context ++ lit " must not exceed " ++ ofNat maxAdhocRunners ++ lit " entries"))
  let keys ← runners.mapM hashed
  ensure (decide keys.Nodup) (said context " contains duplicates")
  runners.mapM (validateRunner context)

def optionalRunners (runners : Option (List Json)) (fieldName : String) :
    Except PolicyPatchError (Option (List PyStr)) :=
  match runners with
  | none => .ok none
  | some runners => (validateAdhocRunners runners fieldName).map some

/-- `_validate_names` -/
def validateNames (values : Json) (context : String) : Except PolicyPatchError (List PyStr) :=
  match values with
  | .null => .ok []
  | .list values => do
    ensure (decide (values.length ≤ maxPatchEntries))
      (.message (lit context ++ lit " exceeds " ++ ofNat maxPatchEntries ++ lit " entries"))
    let names ← values.mapM fun value => safeName value (lit context)
    .ok (sortedDistinct names)
  | _ => .error (said (lit context) " must be an array of names")

def adhocTimeoutError : PolicyPatchError :=
  .message (lit "adhoc_timeout_seconds must be an integer in 1..3600")

def ensureBounded (label : String) (entries : Nat) : Except PolicyPatchError Unit :=
  ensure (decide (entries ≤ maxPatchEntries)) (.message
    (lit "patch " ++ lit label ++ lit " exceeds " ++ ofNat maxPatchEntries ++ lit " entries"))

/-- A round of the loop over the diagnostics and the formatters. -/
def validateTables (label : String) (validator : PyStr → Json → Except PolicyPatchError Table)
    (entries : List (PyStr × Json)) : Except PolicyPatchError (List (PyStr × Table)) := do
  ensure (decide (entries.map (·.1)).Nodup)
    (.message (lit "patch " ++ lit label ++ lit " contain duplicate names"))
  (sortBy (·.1) entries).mapM fun entry => do
    let name ← safeName (.str entry.1) (lit label ++ lit " name")
    let table ← validator entry.1 entry.2
    .ok (name, table)

def ensureApart (label : String) (names removed : List PyStr) : Except PolicyPatchError Unit :=
  let overlap := sortedDistinct (names.filter fun name => decide (name ∈ removed))
  ensure (decide (overlap = [])) (.quoting
    (lit "patch " ++ lit label ++ lit " both set and remove: ") (overlap.map .str))

/-- `RepositoryPolicyPatch.__post_init__` -/
def PatchArguments.postInit (a : PatchArguments) : Except PolicyPatchError PatchFields := do
  let executionMode ← optionalMode a.executionMode
  let adhocRunners ← optionalRunners a.adhocRunners "adhoc_runners"
  let adhocShellRunners ← optionalRunners a.adhocShellRunners "adhoc_shell_runners"
  let adhocTimeoutSeconds ← optionalSeconds a.adhocTimeoutSeconds maxAdhocTimeoutSeconds
    adhocTimeoutError
  ensureBounded "profiles" a.profiles.length
  ensureBounded "diagnostics" a.diagnostics.length
  ensureBounded "formatters" a.formatters.length
  ensure (decide (a.profiles.map (·.name)).Nodup)
    (.message (lit "patch profiles contain duplicate names"))
  let diagnostics ← validateTables "diagnostics" validateDiagnosticTable a.diagnostics
  let formatters ← validateTables "formatters" validateFormatterTable a.formatters
  let removeProfiles ← validateNames a.removeProfiles "remove_profiles"
  let removeDiagnostics ← validateNames a.removeDiagnostics "remove_diagnostics"
  let removeFormatters ← validateNames a.removeFormatters "remove_formatters"
  ensureApart "profiles" (a.profiles.map (·.name)) removeProfiles
  ensureApart "diagnostics" (diagnostics.map (·.1)) removeDiagnostics
  ensureApart "formatters" (formatters.map (·.1)) removeFormatters
  .ok {
    profiles := sortBy (·.name) a.profiles
    diagnostics
    formatters
    executionMode
    adhocRunners
    adhocShellRunners
    adhocTimeoutSeconds
    removeProfiles
    removeDiagnostics
    removeFormatters }

/-- A patch that the constructor accepts. -/
structure RepositoryPolicyPatch extends PatchFields where
  accepted : ∃ arguments : PatchArguments, arguments.postInit = .ok toPatchFields

def PatchArguments.construct (a : PatchArguments) : Except PolicyPatchError RepositoryPolicyPatch :=
  match accepted : a.postInit with
  | .ok fields => .ok ⟨fields, a, accepted⟩
  | .error e => .error e

/-- `RepositoryPolicyPatch()` -/
def RepositoryPolicyPatch.empty : RepositoryPolicyPatch where
  profiles := []
  diagnostics := []
  formatters := []
  executionMode := none
  adhocRunners := none
  adhocShellRunners := none
  adhocTimeoutSeconds := none
  removeProfiles := []
  removeDiagnostics := []
  removeFormatters := []
  accepted := ⟨{}, rfl⟩

def PatchFields.isEmpty (p : PatchFields) : Bool :=
  p.profiles.isEmpty && p.diagnostics.isEmpty && p.formatters.isEmpty &&
    p.executionMode.isNone && p.adhocRunners.isNone && p.adhocShellRunners.isNone &&
    p.adhocTimeoutSeconds.isNone && p.removeProfiles.isEmpty && p.removeDiagnostics.isEmpty &&
    p.removeFormatters.isEmpty

/-! ## Merging -/

namespace PatchFields

def profileLayer (p : PatchFields) : Layer PyStr ProfilePatch :=
  ⟨p.profiles.map fun profile => (profile.name, profile), p.removeProfiles⟩

def diagnosticLayer (p : PatchFields) : Layer PyStr Table := ⟨p.diagnostics, p.removeDiagnostics⟩

def formatterLayer (p : PatchFields) : Layer PyStr Table := ⟨p.formatters, p.removeFormatters⟩

end PatchFields

def dicts (entries : List (PyStr × Table)) : List (PyStr × Json) :=
  entries.map fun entry => (entry.1, .dict entry.2)

/-- The arguments that set and remove what the layers do. -/
def layered (profiles : Layer PyStr ProfilePatch) (diagnostics formatters : Layer PyStr Table)
    (executionMode : Option ExecutionMode) (adhocRunners adhocShellRunners : Option (List PyStr))
    (adhocTimeoutSeconds : Option Int) : PatchArguments where
  profiles := profiles.sets.map (·.2)
  diagnostics := dicts diagnostics.sets
  formatters := dicts formatters.sets
  executionMode := Json.optional (executionMode.map fun mode => lit mode.value)
  adhocRunners := adhocRunners.map fun runners => runners.map .str
  adhocShellRunners := adhocShellRunners.map fun runners => runners.map .str
  adhocTimeoutSeconds := (adhocTimeoutSeconds.map Json.int).getD .null
  removeProfiles := .texts profiles.removes
  removeDiagnostics := .texts diagnostics.removes
  removeFormatters := .texts formatters.removes

/-- `self.merge(other)` -/
def RepositoryPolicyPatch.merge (self other : RepositoryPolicyPatch) :
    Except PolicyPatchError RepositoryPolicyPatch :=
  (layered (self.profileLayer.merge other.profileLayer)
    (self.diagnosticLayer.merge other.diagnosticLayer)
    (self.formatterLayer.merge other.formatterLayer)
    (other.executionMode.or self.executionMode)
    (other.adhocRunners.or self.adhocRunners)
    (other.adhocShellRunners.or self.adhocShellRunners)
    (other.adhocTimeoutSeconds.or self.adhocTimeoutSeconds)).construct

/-! ## The table form -/

/-- A list that is not empty. -/
def listing (items : List α) (value : Json) : Option Json :=
  if items.isEmpty then none else some value

def PatchFields.profileTables (p : PatchFields) : List (PyStr × Json) :=
  p.profiles.map fun profile => (profile.name, profile.asTable)

def PatchFields.entries (p : PatchFields) : List (PyStr × Option Json) := [
  (lit "execution_mode", p.executionMode.map fun mode => .str (lit mode.value)),
  (lit "adhoc_runners", p.adhocRunners.map Json.texts),
  (lit "adhoc_shell_runners", p.adhocShellRunners.map Json.texts),
  (lit "adhoc_timeout_seconds", p.adhocTimeoutSeconds.map .int),
  (lit "remove_profiles", listing p.removeProfiles (.texts p.removeProfiles)),
  (lit "remove_diagnostics", listing p.removeDiagnostics (.texts p.removeDiagnostics)),
  (lit "remove_formatters", listing p.removeFormatters (.texts p.removeFormatters)),
  (lit "profiles", listing p.profiles (.dict (PyDict.ofPairs p.profileTables))),
  (lit "diagnostics", listing p.diagnostics (.dict (PyDict.ofPairs (dicts p.diagnostics)))),
  (lit "formatters", listing p.formatters (.dict (PyDict.ofPairs (dicts p.formatters))))]

/-- `RepositoryPolicyPatch.as_table` -/
def PatchFields.asTable (p : PatchFields) : Json := .dict (PyDict.present p.entries)

def patchKeys : List PyStr :=
  ["profiles", "diagnostics", "formatters", "execution_mode", "adhoc_runners",
    "adhoc_shell_runners", "adhoc_timeout_seconds", "remove_profiles", "remove_diagnostics",
    "remove_formatters"].map lit

/-- `tuple(value)` -/
def tuple : Json → Except PolicyPatchError (List Json)
  | .list items => .ok items
  | .str text => .ok (text.map fun c => .str [c])
  | .dict fields => .ok (fields.map fun field => .str field.1)
  | _ => .error .typeError

def table (value : Json) (context : String) : Except PolicyPatchError (List (PyStr × Json)) :=
  match value with
  | .dict fields => .ok fields
  | _ => .error (said (lit context) " must be a table")

/-- `tuple(value) if isinstance(value, (list, tuple)) else None` -/
def items : Json → Option (List Json)
  | .list items => some items
  | _ => none

/-- `RepositoryPolicyPatch.from_table` -/
def patchFromTable (repr : Json → PyStr) (raw : Json) :
    Except PolicyPatchError RepositoryPolicyPatch :=
  match raw with
  | .null => ({} : PatchArguments).construct
  | .dict fields => do
    let value (key : String) (default : Json) : Json := (PyDict.get fields (lit key)).getD default
    let unknown := keysOutside fields patchKeys
    ensure (decide (unknown = [])) (.quoting (lit "policy_patch has unsupported keys: ")
      (unknown.map .str))
    let profilesRaw ← table (value "profiles" (.dict [])) "policy_patch.profiles"
    let diagnosticsRaw ← table (value "diagnostics" (.dict [])) "policy_patch.diagnostics"
    let formattersRaw ← table (value "formatters" (.dict [])) "policy_patch.formatters"
    let profiles ← (sortBy (·.1) profilesRaw).mapM fun item => do
      let name ← safeName (.str item.1) (lit "profile name")
      profileFromTable repr name item.2
    let removeProfiles ← tuple (value "remove_profiles" (.list []))
    let removeDiagnostics ← tuple (value "remove_diagnostics" (.list []))
    let removeFormatters ← tuple (value "remove_formatters" (.list []))
    PatchArguments.construct {
      profiles
      diagnostics := sortBy (·.1) diagnosticsRaw
      formatters := sortBy (·.1) formattersRaw
      executionMode := value "execution_mode" .null
      adhocRunners := items (value "adhoc_runners" .null)
      adhocShellRunners := items (value "adhoc_shell_runners" .null)
      adhocTimeoutSeconds := value "adhoc_timeout_seconds" .null
      removeProfiles := .list removeProfiles
      removeDiagnostics := .list removeDiagnostics
      removeFormatters := .list removeFormatters }
  | _ => .error (.message (lit "policy_patch must be a table"))

end RepoForge.PolicyPatch

/-!
# A policy patch applied to a resolved document

Source: `application/configuration/document.py`, `apply_policy_patch`. A document is the items of its
table; `Same` is Python's equality, for which the order of the items of a dict is nothing.
-/
namespace RepoForge.PolicyPatch
open PyStr (lit sortedDistinct)
open Overlays (Layer)

/-- `a == b` -/
inductive Same : Json → Json → Prop
  | refl (value : Json) : Same value value
  | list {xs ys : List Json} (items : List.Forall₂ Same xs ys) : Same (.list xs) (.list ys)
  | dict {a b : Table} (fields : ∀ key, Option.Rel Same (PyDict.get a key) (PyDict.get b key)) :
      Same (.dict a) (.dict b)

inductive DocumentError where
  | unknownRepository (repoId : PyStr)
  | notATable (field : PyStr)
  | typeError

/-- `repositories.{repo_id}` -/
def repositoryField (repoId : PyStr) : PyStr := lit "repositories." ++ repoId

/-- `repo.setdefault(field, {})`, which must be a table. -/
def tableAt (repoId : PyStr) (repo : Table) (field : String) : Except DocumentError Table :=
  match PyDict.get repo (lit field) with
  | none => .ok []
  | some (.dict items) => .ok items
  | some _ => .error (.notATable (repositoryField repoId ++ lit "." ++ lit field))

/-- `repo[field] = value`, unless the value is None. -/
def assignGiven (repo : Table) (field : String) (value : Option Json) : Table :=
  match value with
  | none => repo
  | some value => PyDict.assign repo (lit field) value

def isVerification (table : Option Json) : Bool :=
  match table with
  | some (.dict fields) =>
    match PyDict.get fields (lit "verification") with
    | some (.bool value) => value
    | _ => false
  | _ => false

/-- `verification_profiles` -/
def verificationProfiles (profiles : Table) : List PyStr :=
  sortedDistinct ((profiles.map (·.1)).filter fun name => isVerification (PyDict.get profiles name))

/-- `value in names`, or in a dict with these keys. -/
def among (value : Option Json) (names : List PyStr) : Bool :=
  match value with
  | some (.str name) => decide (name ∈ names)
  | _ => false

def hashable : Option Json → Bool
  | some (.list _) => false
  | some (.dict _) => false
  | _ => true

def fallback (verification : List PyStr) : Option PyStr :=
  if lit "full" ∈ verification then some (lit "full") else verification.head?

/-- The default profile, and the gate for commits, after the profiles have changed. -/
def rederive (repo profiles : Table) : Except DocumentError Table :=
  let default := PyDict.get repo (lit "default_verification_profile")
  let verification := verificationProfiles profiles
  if hashable default = false then .error .typeError
  else if among default (profiles.map (·.1)) = false ∨
      (verification ≠ [] ∧ among default verification = false) then
    match fallback verification with
    | none => .ok (PyDict.assign (PyDict.pop repo (lit "default_verification_profile"))
        (lit "require_verification_before_commit") (.bool false))
    | some name => .ok (PyDict.assign repo (lit "default_verification_profile") (.str name))
  else .ok repo

def PatchFields.profileTableLayer (patch : PatchFields) : Layer PyStr Json :=
  patch.profileLayer.map fun profile => profile.asTable

def PatchFields.diagnosticTableLayer (patch : PatchFields) : Layer PyStr Json :=
  patch.diagnosticLayer.map .dict

def PatchFields.formatterTableLayer (patch : PatchFields) : Layer PyStr Json :=
  patch.formatterLayer.map .dict

/-- The entries that a patch sets and then those that it removes, in a table of the repository. -/
def patchTable (repoId : PyStr) (repo : Table) (field : String) (layer : Layer PyStr Json) :
    Except DocumentError Table := do
  let table ← tableAt repoId repo field
  .ok (PyDict.assign repo (lit field) (.dict (layer.apply table)))

/-- What is done to the entry of the repository. -/
def patchRepository (repoId : PyStr) (repo : Table) (patch : PatchFields) :
    Except DocumentError Table := do
  let repo := assignGiven repo "execution_mode"
    (patch.executionMode.map fun mode => .str (lit mode.value))
  let repo := assignGiven repo "adhoc_runners" (patch.adhocRunners.map Json.texts)
  let repo := assignGiven repo "adhoc_shell_runners" (patch.adhocShellRunners.map Json.texts)
  let repo := assignGiven repo "adhoc_timeout_seconds" (patch.adhocTimeoutSeconds.map .int)
  let repo ← patchTable repoId repo "profiles" patch.profileTableLayer
  let profiles ← tableAt repoId repo "profiles"
  let repo ← rederive repo profiles
  let repo ← patchTable repoId repo "diagnostics" patch.diagnosticTableLayer
  patchTable repoId repo "formatters" patch.formatterTableLayer

/-- The repositories of a document, and the entry of one. -/
def findRepository (document : Table) (repoId : PyStr) : Except DocumentError (Table × Table) :=
  match PyDict.get document (lit "repositories") with
  | some (.dict repositories) =>
    match PyDict.get repositories repoId with
    | some (.dict repo) => .ok (repositories, repo)
    | some _ => .error (.notATable (repositoryField repoId))
    | none => .error (.unknownRepository repoId)
  | _ => .error (.unknownRepository repoId)

/-- `apply_policy_patch(document, repo_id, patch)` -/
def applyPolicyPatch (document : Table) (repoId : PyStr) (patch : PatchFields) :
    Except DocumentError Table :=
  if patch.isEmpty then .ok document
  else do
    let found ← findRepository document repoId
    let repo ← patchRepository repoId found.2 patch
    .ok (PyDict.assign document (lit "repositories")
      (.dict (PyDict.assign found.1 repoId (.dict repo))))

end RepoForge.PolicyPatch
