import RepoForge.Spec.Configuration.PatchConstruction
import RepoForge.Source.Configuration.PolicyPatch

/-!
# A patch read back from its table

A profile is read back where its interval is one that the reader takes, and no other
(`profileFromTable_asTable`); a patch where all its profiles are (`patchFromTable_asTable`).
-/
namespace RepoForge.PolicyPatch
open PyStr (lit ofNat sortedDistinct)
open Overlays (Layer)

variable {repr : Json → PyStr}

/-! ## Profiles -/

theorem textOf_str (text : PyStr) : textOf repr (.str text) = text := rfl

theorem VerificationStepKind.ofValue_value (kind : VerificationStepKind) :
    VerificationStepKind.ofValue (lit kind.value) = some kind := by
  cases kind <;> decide

theorem HygieneBaselinePolicy.ofValue_value (policy : HygieneBaselinePolicy) :
    HygieneBaselinePolicy.ofValue (lit policy.value) = some policy := by
  cases policy <;> decide

theorem VerificationStep.construct_again (step : VerificationStep) :
    step.toStepFields.construct = .ok step := dif_pos step.constructed

theorem stepOfTable_asTable (step : VerificationStep) (context : PyStr) :
    stepOfTable repr context step.asTable = .ok step := by
  have checked := step.constructed
  simp only [StepFields.valid, Bool.and_eq_true, decide_eq_true_eq, List.all_eq_true] at checked
  have command : IsCommand step.command := {
    nonempty := checked.1.1.2
    bounded := checked.1.2
    arguments := by
      intro argument here
      have valid := checked.2 argument here
      simp only [isStepArgument, Bool.and_eq_true, decide_eq_true_eq] at valid
      exact valid.1 }
  have known : keysOutside [(lit "id", Json.str step.stepId),
      (lit "kind", .str (lit step.kind.value)), (lit "command", .texts step.command)]
      (["id", "kind", "command"].map lit) = [] := by
    rw [keysOutside_eq_nil]
    simp
  have made : stepFields repr context (.str step.stepId) (.str (lit step.kind.value))
      (.texts step.command) = .ok step := by
    simp only [stepFields, textOf_str, step.kind.ofValue_value, validateCommand_of_valid command,
      ok_bind]
    exact step.construct_again
  have id : PyDict.get [(lit "id", Json.str step.stepId), (lit "kind", .str (lit step.kind.value)),
      (lit "command", .texts step.command)] (lit "id") = some (.str step.stepId) := rfl
  have kindOf : PyDict.get [(lit "id", Json.str step.stepId),
      (lit "kind", .str (lit step.kind.value)), (lit "command", .texts step.command)] (lit "kind") =
      some (.str (lit step.kind.value)) := rfl
  have commandOf : PyDict.get [(lit "id", Json.str step.stepId),
      (lit "kind", .str (lit step.kind.value)), (lit "command", .texts step.command)]
      (lit "command") = some (.texts step.command) := rfl
  simp only [stepOfTable, VerificationStep.asTable, id, kindOf, commandOf]
  rw [if_pos known]
  simp only [made]

/-- The interval is one that `from_table` takes. -/
def ProfileFields.ReadableInterval (p : ProfileFields) : Prop :=
  0 ≤ p.minIntervalSeconds ∧ p.minIntervalSeconds ≤ 24 * 60 * 60

instance (p : ProfileFields) : Decidable p.ReadableInterval :=
  inferInstanceAs (Decidable (_ ∧ _))

theorem keys_entries (p : ProfileFields) : p.entries.map (·.1) = profileKeys := rfl

/-- A key of the table of a profile. -/
theorem get_entries (p : ProfileFields) (key : PyStr) :
    PyDict.get (PyDict.present p.entries) key = (PyDict.get p.entries key).join := by
  apply PyDict.get_present
  rw [keys_entries]
  decide

theorem boundedInterval_entries (p : ProfileFields) (e : PolicyPatchError) :
    boundedInterval (((PyDict.get p.entries (lit "min_interval_seconds")).join).getD (.int 0)) e =
      if p.ReadableInterval then .ok p.minIntervalSeconds else .error e := by
  change boundedInterval ((if p.minIntervalSeconds = 0 then none
    else some (Json.int p.minIntervalSeconds)).getD (.int 0)) e = _
  by_cases zero : p.minIntervalSeconds = 0
  · have readable : p.ReadableInterval := by
      unfold ProfileFields.ReadableInterval
      omega
    rw [if_pos zero, if_pos readable, zero]
    rfl
  · rw [if_neg zero]
    rfl

theorem profileFromTable_asTable (profile : ProfilePatch) :
    profileFromTable repr profile.name profile.asTable =
      if profile.ReadableInterval then .ok profile
      else .error (said (profileContext profile.name)
        ".min_interval_seconds must be an integer between 0 and 86400") := by
  have checked := profile.checked
  have known : keysOutside (PyDict.present profile.entries) profileKeys = [] := by
    rw [keysOutside_eq_nil]
    intro key here
    exact keys_entries profile.toProfileFields ▸ PyDict.keys_present here
  have commandsRaw : (PyDict.get profile.entries (lit "commands")).join =
      some (.list (profile.commands.map Json.texts)) := rfl
  have verification : (PyDict.get profile.entries (lit "verification")).join =
      some (.bool profile.verification) := rfl
  have description : (PyDict.get profile.entries (lit "description")).join =
      some (.str profile.description) := rfl
  have seconds : (PyDict.get profile.entries (lit "timeout_seconds")).join =
      profile.timeoutSeconds.map .int := rfl
  have workdir : (PyDict.get profile.entries (lit "working_directory")).join =
      profile.workingDirectory.map .str := rfl
  have rawSteps : ((PyDict.get profile.entries (lit "steps")).join).getD (.list []) =
      .list (profile.steps.map VerificationStep.asTable) := by
    change (if profile.steps = [] then none
      else some (Json.list (profile.steps.map VerificationStep.asTable))).getD (.list []) = _
    split_ifs with none
    · rw [none]
      rfl
    · rfl
  have baseline : textOf repr (((PyDict.get profile.entries (lit "baseline_policy")).join).getD
      (.str (lit "strict_clean"))) = lit profile.baselinePolicy.value := by
    change textOf repr ((if profile.baselinePolicy = .strictClean then none
      else some (Json.str (lit profile.baselinePolicy.value))).getD _) = _
    cases profile.baselinePolicy <;> rfl
  have invocable : ((PyDict.get profile.entries (lit "model_invocable")).join).getD (.bool true) =
      .bool profile.modelInvocable := by
    change (if profile.modelInvocable then none else some (Json.bool false)).getD _ = _
    cases profile.modelInvocable <;> rfl
  have commands : ((profile.commands.map Json.texts).zipIdx.mapM fun item =>
      validateCommand item.1 (indexed (profileContext profile.name ++ lit ".commands") item.2)) =
      .ok profile.commands := by
    rw [List.zipIdx_map, List.mapM_map]
    exact validateCommands_of_valid checked.commands
  have steps : ((profile.steps.map VerificationStep.asTable).zipIdx.mapM fun item =>
      stepOfTable repr (indexed (profileContext profile.name ++ lit ".steps") item.2) item.1) =
      .ok profile.steps := by
    rw [List.zipIdx_map, List.mapM_map]
    have each := @mapM_zipIdx _ _ _ (fun (step : VerificationStep) i => stepOfTable repr
      (indexed (profileContext profile.name ++ lit ".steps") i) step.asTable) id profile.steps 0
      fun step _ i => stepOfTable_asTable step _
    rwa [List.map_id] at each
  simp only [profileFromTable, ProfileFields.asTable, get_entries, known, commandsRaw,
    verification, description, seconds, workdir, rawSteps, baseline,
    HygieneBaselinePolicy.ofValue_value, invocable, commands, steps,
    boundedInterval_entries, array, boolean, ensure_of trivial, ok_bind, Option.getD_some]
  by_cases readable : profile.ReadableInterval
  · rw [if_pos readable, if_pos readable, ok_bind]
    exact profile.again
  · rw [if_neg readable, if_neg readable]
    rfl

/-! ## Patches -/

theorem keys_patchEntries (p : PatchFields) : p.entries.map (·.1) =
    ["execution_mode", "adhoc_runners", "adhoc_shell_runners", "adhoc_timeout_seconds",
      "remove_profiles", "remove_diagnostics", "remove_formatters", "profiles", "diagnostics",
      "formatters"].map lit := rfl

theorem get_patchEntries (p : PatchFields) (key : PyStr) :
    PyDict.get (PyDict.present p.entries) key = (PyDict.get p.entries key).join := by
  apply PyDict.get_present
  rw [keys_patchEntries]
  decide

theorem known_patchEntries (p : PatchFields) :
    keysOutside (PyDict.present p.entries) patchKeys = [] := by
  rw [keysOutside_eq_nil]
  intro key here
  have subset : ∀ key ∈ ["execution_mode", "adhoc_runners", "adhoc_shell_runners",
      "adhoc_timeout_seconds", "remove_profiles", "remove_diagnostics", "remove_formatters",
      "profiles", "diagnostics", "formatters"].map lit, key ∈ patchKeys := by
    decide
  exact subset key (keys_patchEntries p ▸ PyDict.keys_present here)

/-- A list that is written unless it is empty, read with the empty list as its default. -/
theorem listing_getD {α : Type} {xs : List α} {value default : Json}
    (empty : xs = [] → value = default) : (listing xs value).getD default = value := by
  cases xs with
  | nil => exact (empty rfl).symm
  | cons x rest => rfl

theorem table_entries {α : Type} {xs : List α} {pairs : List (PyStr × Json)} {context : String}
    (none : xs = [] → pairs = []) (unique : (pairs.map (·.1)).Nodup) :
    table ((listing xs (.dict (PyDict.ofPairs pairs))).getD (.dict [])) context = .ok pairs := by
  rw [listing_getD, PyDict.ofPairs_of_unique unique]
  · rfl
  · intro empty
    rw [none empty]
    rfl

theorem tuple_entries {names : List PyStr} :
    tuple ((listing names (.texts names)).getD (.list [])) = .ok (names.map .str) := by
  rw [listing_getD]
  · rfl
  · intro none
    rw [none]
    rfl

theorem items_runners (runners : Option (List PyStr)) :
    items ((runners.map Json.texts).getD .null) = runners.map fun runners => runners.map Json.str := by
  cases runners <;> rfl

/-- The profiles of a patch, read from their tables. -/
def readProfiles (repr : Json → PyStr) (p : PatchFields) :
    Except PolicyPatchError (List ProfilePatch) :=
  p.profileTables.mapM fun item => do
    let name ← safeName (.str item.1) (lit "profile name")
    profileFromTable repr name item.2

theorem readProfiles_of_readable {p : PatchFields}
    (readable : ∀ profile ∈ p.profiles, profile.ReadableInterval) :
    readProfiles repr p = .ok p.profiles := by
  rw [readProfiles, PatchFields.profileTables, List.mapM_map, mapM_of_ok (g := id), List.map_id]
  intro profile here
  simp only [Function.comp_apply, safeName_of_safe profile.checked.name, ok_bind,
    profileFromTable_asTable]
  exact if_pos (readable profile here)

theorem readable_of_readProfiles {p : PatchFields} {profiles : List ProfilePatch}
    (read : readProfiles repr p = .ok profiles) :
    ∀ profile ∈ p.profiles, profile.ReadableInterval := by
  intro profile here
  rw [readProfiles, PatchFields.profileTables, List.mapM_map] at read
  obtain ⟨stored, -, made⟩ := forall₂_mem (mapM_ok read) here
  simp only [Function.comp_apply, safeName_of_safe profile.checked.name, ok_bind,
    profileFromTable_asTable] at made
  by_contra unreadable
  rw [if_neg unreadable] at made
  cases made

/-- Reading the table of a patch is reading its profiles, and its other fields as they are. -/
theorem patchFromTable_eq (p : RepositoryPolicyPatch) :
    patchFromTable repr p.asTable = (do
      let profiles ← readProfiles repr p.toPatchFields
      PatchArguments.construct { p.arguments with profiles }) := by
  have checked := p.checked
  have executionMode : (PyDict.get p.entries (lit "execution_mode")).join =
      p.executionMode.map fun mode => .str (lit mode.value) := rfl
  have adhocRunners : (PyDict.get p.entries (lit "adhoc_runners")).join =
      p.adhocRunners.map Json.texts := rfl
  have adhocShellRunners : (PyDict.get p.entries (lit "adhoc_shell_runners")).join =
      p.adhocShellRunners.map Json.texts := rfl
  have adhocTimeoutSeconds : (PyDict.get p.entries (lit "adhoc_timeout_seconds")).join =
      p.adhocTimeoutSeconds.map .int := rfl
  have removeProfiles : (PyDict.get p.entries (lit "remove_profiles")).join =
      listing p.removeProfiles (.texts p.removeProfiles) := rfl
  have removeDiagnostics : (PyDict.get p.entries (lit "remove_diagnostics")).join =
      listing p.removeDiagnostics (.texts p.removeDiagnostics) := rfl
  have removeFormatters : (PyDict.get p.entries (lit "remove_formatters")).join =
      listing p.removeFormatters (.texts p.removeFormatters) := rfl
  have profiles : (PyDict.get p.entries (lit "profiles")).join =
      listing p.profiles (.dict (PyDict.ofPairs p.profileTables)) := rfl
  have diagnostics : (PyDict.get p.entries (lit "diagnostics")).join =
      listing p.diagnostics (.dict (PyDict.ofPairs (dicts p.diagnostics))) := rfl
  have formatters : (PyDict.get p.entries (lit "formatters")).join =
      listing p.formatters (.dict (PyDict.ofPairs (dicts p.formatters))) := rfl
  have tableP : table ((listing p.profiles (.dict (PyDict.ofPairs p.profileTables))).getD (.dict []))
      "policy_patch.profiles" = .ok p.profileTables := by
    have unique := checked.profileLayer.unique
    apply table_entries
    · intro none
      rw [PatchFields.profileTables, none, List.map_nil]
    · simpa [PatchFields.profileTables, PatchFields.profileLayer, Function.comp_def] using unique
  have tableD : table ((listing p.diagnostics (.dict (PyDict.ofPairs (dicts p.diagnostics)))).getD
      (.dict [])) "policy_patch.diagnostics" = .ok (dicts p.diagnostics) := by
    apply table_entries
    · intro none
      rw [none, dicts, List.map_nil]
    · exact keys_dicts p.diagnostics ▸ checked.diagnosticLayer.unique
  have tableF : table ((listing p.formatters (.dict (PyDict.ofPairs (dicts p.formatters)))).getD
      (.dict [])) "policy_patch.formatters" = .ok (dicts p.formatters) := by
    apply table_entries
    · intro none
      rw [none, dicts, List.map_nil]
    · exact keys_dicts p.formatters ▸ checked.formatterLayer.unique
  have sortedP : sortBy (·.1) p.profileTables = p.profileTables := by
    have sorted := List.pairwise_map.mp checked.profileLayer.sets_sorted
    exact sortBy_of_sorted (List.pairwise_map.mpr sorted)
  have sortedD : sortBy (·.1) (dicts p.diagnostics) = dicts p.diagnostics := by
    have sorted : sortBy (·.1) p.diagnostics = p.diagnostics :=
      sortBy_of_sorted checked.diagnosticLayer.sets_sorted
    rw [sortBy_dicts, sorted]
  have sortedF : sortBy (·.1) (dicts p.formatters) = dicts p.formatters := by
    have sorted : sortBy (·.1) p.formatters = p.formatters :=
      sortBy_of_sorted checked.formatterLayer.sets_sorted
    rw [sortBy_dicts, sorted]
  have mode : (p.executionMode.map fun mode => Json.str (lit mode.value)).getD .null =
      Json.optional (p.executionMode.map fun mode => lit mode.value) := by
    cases p.executionMode <;> rfl
  simp only [patchFromTable, PatchFields.asTable, get_patchEntries, known_patchEntries, executionMode,
    adhocRunners, adhocShellRunners, adhocTimeoutSeconds, removeProfiles, removeDiagnostics,
    removeFormatters, profiles, diagnostics, formatters, tableP, tableD, tableF, tuple_entries, items_runners, sortedP, sortedD, sortedF, mode, ensure_of trivial, ok_bind]
  rfl

theorem patchFromTable_asTable (p : RepositoryPolicyPatch) :
    patchFromTable repr p.asTable = .ok p ↔
      ∀ profile ∈ p.profiles, profile.ReadableInterval := by
  rw [patchFromTable_eq]
  constructor
  · intro read
    obtain ⟨profiles, read, -⟩ := bind_ok read
    exact readable_of_readProfiles read
  · intro readable
    have same : p.arguments.profiles = p.profiles := by
      simp [PatchFields.arguments, layered, PatchFields.profileLayer, Function.comp_def]
    rw [readProfiles_of_readable readable, ok_bind, ← same]
    exact p.again

end RepoForge.PolicyPatch

/-!
## What a patch does to the entry of a repository

Every key of the entry after a patch (`patchRepository_ok`): three tables under their layers, four
values that the patch may set, and the two derived ones (`settled`), which depend on the table of
profiles by its keys and values alone.
-/
namespace RepoForge.PolicyPatch
open PyStr (lit lit_inj ofText sortedDistinct)
open Overlays (Layer)

theorem sortedDistinct_congr {xs ys : List PyStr} (same : ∀ x, x ∈ xs ↔ x ∈ ys) :
    sortedDistinct xs = sortedDistinct ys := by
  have perm : xs.dedup.Perm ys.dedup := by
    apply (List.perm_ext_iff_of_nodup (List.nodup_dedup xs) (List.nodup_dedup ys)).mpr
    intro x
    rw [List.mem_dedup, List.mem_dedup, same]
  have sorted := @sortBy_perm _ _ _ id _ _ (by simpa using List.nodup_dedup xs) perm
  exact sorted

/-! ## The derived fields -/

/-- The default profile and the gate for commits. -/
abbrev Derived := Option Json × Option Json

def derived (repo : Table) : Derived :=
  (PyDict.get repo (lit "default_verification_profile"),
    PyDict.get repo (lit "require_verification_before_commit"))

/-- The default stays where it names a profile, and one that verifies if any does; otherwise another
takes its place, and where none verifies, commits are not gated. -/
def settled (profiles : Table) (fields : Derived) : Derived :=
  let verification := verificationProfiles profiles
  if among fields.1 (profiles.map (·.1)) = false ∨
      (verification ≠ [] ∧ among fields.1 verification = false) then
    match fallback verification with
    | none => (none, some (.bool false))
    | some name => (some (.str name), fields.2)
  else fields

variable {repo repo' profiles profiles' : Table} {repoId : PyStr}

theorem rederive_ok (h : rederive repo profiles = .ok repo') :
    derived repo' = settled profiles (derived repo) ∧
      ∀ key, key ≠ lit "default_verification_profile" →
        key ≠ lit "require_verification_before_commit" →
        PyDict.get repo' key = PyDict.get repo key := by
  have distinct : lit "default_verification_profile" ≠ lit "require_verification_before_commit" := by
    rw [Ne, lit_inj]
    decide
  unfold rederive at h
  simp only at h
  split_ifs at h with unhashable changed
  · have settles : settled profiles (derived repo) =
        match fallback (verificationProfiles profiles) with
        | none => (none, some (.bool false))
        | some name => (some (.str name), (derived repo).2) := if_pos changed
    rw [settles]
    cases chosen : fallback (verificationProfiles profiles) with
    | none =>
      rw [chosen] at h
      cases h
      constructor
      · simp only [derived, PyDict.get_assign, PyDict.get_pop, distinct, if_true, if_false]
      · intro key notDefault notRequire
        simp only [PyDict.get_assign, PyDict.get_pop, notDefault, notRequire, if_false]
    | some name =>
      rw [chosen] at h
      cases h
      constructor
      · simp only [derived, PyDict.get_assign, distinct.symm, if_true, if_false]
      · intro key notDefault _
        simp only [PyDict.get_assign, notDefault, if_false]
  · cases h
    constructor
    · symm
      exact if_neg changed
    · intro _ _ _
      rfl

theorem verificationProfiles_congr
    (same : ∀ name, PyDict.get profiles name = PyDict.get profiles' name) :
    verificationProfiles profiles = verificationProfiles profiles' := by
  apply sortedDistinct_congr
  intro name
  rw [List.mem_filter, List.mem_filter, ← PyDict.get_isSome, ← PyDict.get_isSome, same]

theorem among_congr {value : Option Json}
    (same : ∀ name, PyDict.get profiles name = PyDict.get profiles' name) :
    among value (profiles.map (·.1)) = among value (profiles'.map (·.1)) := by
  unfold among
  split
  · rename_i name
    rw [decide_eq_decide, ← PyDict.get_isSome, ← PyDict.get_isSome, same]
  · rfl

theorem settled_congr {fields : Derived}
    (same : ∀ name, PyDict.get profiles name = PyDict.get profiles' name) :
    settled profiles fields = settled profiles' fields := by
  unfold settled
  rw [verificationProfiles_congr same, among_congr same]

/-! ## The whole entry -/

theorem get_assignGiven {field : String} {value : Option Json} {key : PyStr} :
    PyDict.get (assignGiven repo field value) key =
      if key = lit field then value.or (PyDict.get repo key) else PyDict.get repo key := by
  cases value with
  | none => simp [assignGiven]
  | some value =>
    rw [assignGiven, PyDict.get_assign]
    rfl

theorem tableAt_congr {field : String}
    (same : PyDict.get repo (lit field) = PyDict.get repo' (lit field)) :
    tableAt repoId repo field = tableAt repoId repo' field := by
  unfold tableAt
  rw [same]

/-- The four values that a patch may set. -/
def given (patch : PatchFields) (key : PyStr) : Option Json :=
  if key = lit "execution_mode" then patch.executionMode.map fun mode => .str (lit mode.value)
  else if key = lit "adhoc_runners" then patch.adhocRunners.map Json.texts
  else if key = lit "adhoc_shell_runners" then patch.adhocShellRunners.map Json.texts
  else if key = lit "adhoc_timeout_seconds" then patch.adhocTimeoutSeconds.map .int
  else none

/-- The keys of an entry that are not simply set. -/
def patchedKeys : List PyStr :=
  ["profiles", "diagnostics", "formatters", "default_verification_profile",
    "require_verification_before_commit"].map lit

/-- The entry after a patch, with the three tables that were found. -/
structure Patched (repoId : PyStr) (repo : Table) (patch : PatchFields) (repo' P D F : Table) :
    Prop where
  profilesFound : tableAt repoId repo "profiles" = .ok P
  diagnosticsFound : tableAt repoId repo "diagnostics" = .ok D
  formattersFound : tableAt repoId repo "formatters" = .ok F
  profiles : PyDict.get repo' (lit "profiles") = some (.dict (patch.profileTableLayer.apply P))
  diagnostics : PyDict.get repo' (lit "diagnostics") =
    some (.dict (patch.diagnosticTableLayer.apply D))
  formatters : PyDict.get repo' (lit "formatters") =
    some (.dict (patch.formatterTableLayer.apply F))
  derived : derived repo' = settled (patch.profileTableLayer.apply P) (derived repo)
  others : ∀ key, key ∉ patchedKeys →
    PyDict.get repo' key = (given patch key).or (PyDict.get repo key)

theorem patchTable_ok {field : String} {layer : Layer PyStr Json}
    (h : patchTable repoId repo field layer = .ok repo') :
    ∃ table, tableAt repoId repo field = .ok table ∧
      ∀ key, PyDict.get repo' key =
        if key = lit field then some (.dict (layer.apply table)) else PyDict.get repo key := by
  obtain ⟨table, found, h⟩ := bind_ok h
  cases h
  exact ⟨table, found, fun _ => PyDict.get_assign⟩

theorem tableAt_of_get {field : String} {items : Table}
    (found : PyDict.get repo (lit field) = some (.dict items)) :
    tableAt repoId repo field = .ok items := by
  unfold tableAt
  rw [found]

/-- The entry with the four values set. -/
def withGiven (repo : Table) (patch : PatchFields) : Table :=
  assignGiven (assignGiven (assignGiven (assignGiven repo "execution_mode"
    (patch.executionMode.map fun mode => .str (lit mode.value)))
    "adhoc_runners" (patch.adhocRunners.map Json.texts))
    "adhoc_shell_runners" (patch.adhocShellRunners.map Json.texts))
    "adhoc_timeout_seconds" (patch.adhocTimeoutSeconds.map .int)

theorem get_withGiven {patch : PatchFields} {key : PyStr} :
    PyDict.get (withGiven repo patch) key = (given patch key).or (PyDict.get repo key) := by
  simp only [withGiven, get_assignGiven, given]
  by_cases mode : key = lit "execution_mode"
  · simp [mode, lit_inj]
  by_cases runners : key = lit "adhoc_runners"
  · simp [runners, lit_inj]
  by_cases shellRunners : key = lit "adhoc_shell_runners"
  · simp [shellRunners, lit_inj]
  by_cases seconds : key = lit "adhoc_timeout_seconds"
  · simp [seconds, lit_inj]
  · simp [mode, runners, shellRunners, seconds]

theorem given_patchedKey {patch : PatchFields} {key : PyStr} (here : key ∈ patchedKeys) :
    given patch key = none := by
  simp only [patchedKeys, List.map_cons, List.map_nil, List.mem_cons, List.not_mem_nil,
    or_false] at here
  rcases here with rfl | rfl | rfl | rfl | rfl <;> simp [given, lit_inj]

theorem patchRepository_ok {patch : PatchFields}
    (h : patchRepository repoId repo patch = .ok repo') :
    ∃ P D F, Patched repoId repo patch repo' P D F := by
  change (do
    let repo ← patchTable repoId (withGiven repo patch) "profiles" patch.profileTableLayer
    let profiles ← tableAt repoId repo "profiles"
    let repo ← rederive repo profiles
    let repo ← patchTable repoId repo "diagnostics" patch.diagnosticTableLayer
    patchTable repoId repo "formatters" patch.formatterTableLayer) = .ok repo' at h
  obtain ⟨repo1, one, h⟩ := bind_ok h
  obtain ⟨profiles, read, h⟩ := bind_ok h
  obtain ⟨repo2, two, h⟩ := bind_ok h
  obtain ⟨repo3, three, four⟩ := bind_ok h
  obtain ⟨P, profilesFound, get1⟩ := patchTable_ok one
  obtain ⟨derived2, get2⟩ := rederive_ok two
  obtain ⟨D, diagnosticsFound, get3⟩ := patchTable_ok three
  obtain ⟨F, formattersFound, get4⟩ := patchTable_ok four
  have same : profiles = patch.profileTableLayer.apply P := by
    have found := get1 (lit "profiles")
    rw [if_pos rfl] at found
    rw [tableAt_of_get found] at read
    exact (Except.ok.inj read).symm
  have start : ∀ key ∈ patchedKeys, PyDict.get (withGiven repo patch) key = PyDict.get repo key := by
    intro key here
    rw [get_withGiven, given_patchedKey here, Option.none_or]
  -- a key other than the tables and the derived fields
  have passed : ∀ key, key ≠ lit "profiles" → key ≠ lit "default_verification_profile" →
      key ≠ lit "require_verification_before_commit" →
      PyDict.get repo2 key = PyDict.get (withGiven repo patch) key := by
    intro key notProfiles notDefault notRequire
    rw [get2 key notDefault notRequire, get1, if_neg notProfiles]
  have derived1 : derived repo1 = derived repo := by
    simp only [derived, get1, lit_inj]
    simp [start, patchedKeys]
  have derived4 : derived repo' = derived repo2 := by
    simp only [derived, get4, get3, lit_inj]
    simp
  have diagnostics2 : PyDict.get repo2 (lit "diagnostics") = PyDict.get repo (lit "diagnostics") := by
    rw [passed _ (by simp [lit_inj]) (by simp [lit_inj]) (by simp [lit_inj]),
      start _ (by simp [patchedKeys])]
  have formatters3 : PyDict.get repo3 (lit "formatters") = PyDict.get repo (lit "formatters") := by
    rw [get3, if_neg (by simp [lit_inj]),
      passed _ (by simp [lit_inj]) (by simp [lit_inj]) (by simp [lit_inj]),
      start _ (by simp [patchedKeys])]
  refine ⟨P, D, F, {
    profilesFound := (tableAt_congr (start _ (by simp [patchedKeys]))).symm.trans profilesFound
    diagnosticsFound := (tableAt_congr diagnostics2).symm.trans diagnosticsFound
    formattersFound := (tableAt_congr formatters3).symm.trans formattersFound
    profiles := ?_
    diagnostics := ?_
    formatters := ?_
    derived := ?_
    others := ?_ }⟩
  · rw [get4, if_neg (by simp [lit_inj]), get3, if_neg (by simp [lit_inj]),
      get2 _ (by simp [lit_inj]) (by simp [lit_inj]), get1, if_pos rfl]
  · rw [get4, if_neg (by simp [lit_inj]), get3, if_pos rfl]
  · rw [get4, if_pos rfl]
  · rw [derived4, derived2, derived1, same]
  · intro key other
    simp only [patchedKeys, List.map_cons, List.map_nil, List.mem_cons, List.not_mem_nil, or_false,
      not_or] at other
    rw [get4, if_neg other.2.2.1, get3, if_neg other.2.1,
      passed key other.1 other.2.2.2.1 other.2.2.2.2, get_withGiven]

end RepoForge.PolicyPatch
