import RepoForge.Source.Configuration.PolicyPatch
import RepoForge.Spec.Configuration.ProfileConstruction

/-!
# What the constructor of a policy patch leaves

`Constructed` says of each field what was checked and what was stored; a patch that was accepted is
three canonical layers with valid entries (`Checked`), and layers of valid entries are stored in order
(`layered_stored`).
-/
namespace RepoForge.PolicyPatch
open PyStr (lit ofNat sortedDistinct)
open Overlays (Layer)

/-! ## Tables -/

theorem keysOutside_eq_nil {fields : List (PyStr × Json)} {allowed : List PyStr} :
    keysOutside fields allowed = [] ↔ ∀ key ∈ fields.map (·.1), key ∈ allowed := by
  simp only [keysOutside, PyStr.sortedDistinct_eq_nil, List.filter_eq_nil_iff, decide_eq_true_eq,
    not_not]

theorem keys_of_each {α β ε : Type} {f : PyStr × α → Except ε (PyStr × β)}
    {xs : List (PyStr × α)} {ys : List (PyStr × β)} (keeps : ∀ x y, f x = .ok y → y.1 = x.1)
    (each : List.Forall₂ (fun x y => f x = .ok y) xs ys) : ys.map (·.1) = xs.map (·.1) := by
  induction each with
  | nil => rfl
  | cons first _ ih => rw [List.map_cons, List.map_cons, keeps _ _ first, ih]

/-- A loop over sorted items that keeps their keys. -/
theorem sortBy_mapM_ok {α β ε : Type} {f : PyStr × α → Except ε (PyStr × β)}
    {xs : List (PyStr × α)} {ys : List (PyStr × β)} (keeps : ∀ x y, f x = .ok y → y.1 = x.1)
    (h : (sortBy (·.1) xs).mapM f = .ok ys) :
    ys.Pairwise (fun a b => a.1 ≤ b.1) ∧ (ys.map (·.1)).Perm (xs.map (·.1)) ∧
      ∀ y ∈ ys, ∃ x ∈ xs, f x = .ok y := by
  have each := mapM_ok h
  have keys : ys.map (·.1) = (sortBy (·.1) xs).map (·.1) := keys_of_each keeps each
  constructor
  · have sorted : ((sortBy (·.1) xs).map (·.1)).Pairwise (· ≤ ·) := List.pairwise_map.mpr sortBy_sorted
    rw [← keys] at sorted
    exact List.pairwise_map.mp sorted
  constructor
  · rw [keys]
    exact perm_sortBy.map _
  · intro y here
    obtain ⟨x, there, made⟩ := forall₂_mem each.flip here
    exact ⟨x, mem_sortBy.mp there, made⟩

/-- A check that takes what it returned, and returns it. -/
def Settles (validate : PyStr → Json → Except PolicyPatchError Json) : Prop :=
  ∀ {context value stored context'}, validate context value = .ok stored →
    validate context' stored = .ok stored

theorem map_ok {ε α β : Type} {x : Except ε α} {f : α → β} {b : β} (h : x.map f = .ok b) :
    ∃ a, x = .ok a ∧ f a = b := by
  cases x with
  | error e => cases h
  | ok a => exact ⟨a, rfl, Except.ok.inj h⟩

theorem boundedValue_again {context context' key : PyStr} {scalars lists : List PyStr}
    {nested : Nested} {value stored : Json}
    (again : ∀ name validate, nested = some (name, validate) →
      Settles fun context value => validate value context)
    (h : boundedValue context scalars lists nested key value = .ok stored) :
    boundedValue context' scalars lists nested key stored = .ok stored := by
  unfold boundedValue at h ⊢
  by_cases scalar : key ∈ scalars
  · simp only [if_pos scalar] at h ⊢
    cases value with
    | str text =>
      obtain ⟨text, bounded, rfl⟩ := map_ok h
      simp only [boundedStr_of_short (boundedStr_ok bounded).2]
      rfl
    | int n =>
      cases h
      rfl
    | bool b =>
      cases h
      rfl
    | _ => cases h
  by_cases listed : key ∈ lists
  · simp only [if_neg scalar, if_pos listed] at h ⊢
    cases value with
    | list items =>
      obtain ⟨_, bounded, h⟩ := bind_ok h
      obtain ⟨texts, made, h⟩ := bind_ok h
      cases h
      have each := mapM_ok made
      have short : (texts.map Json.str).length ≤ maxArgumentsPerCommand := by
        rw [List.length_map, ← each.length_eq]
        exact of_decide_eq_true (ensure_ok bounded)
      have texts_again : (texts.map Json.str).mapM (fun item => boundedStr item
          (context' ++ lit "." ++ key ++ lit "[]") maxArgumentLength) = .ok texts := by
        rw [List.mapM_map, mapM_of_ok (g := id), List.map_id]
        intro text here
        obtain ⟨item, -, checked⟩ := forall₂_mem each.flip here
        exact boundedStr_of_short (boundedStr_ok checked).2
      simp only [ensure_of short, texts_again, ok_bind]
    | _ => cases h
  · simp only [if_neg scalar, if_neg listed] at h ⊢
    cases nested with
    | none => rfl
    | some item => exact again item.1 item.2 rfl h

theorem validateBoundedTable_again {context context' : PyStr} {scalars lists : List PyStr}
    {nested : Nested} {raw : Json} {stored : Table}
    (again : ∀ name validate, nested = some (name, validate) →
      Settles fun context value => validate value context)
    (h : validateBoundedTable raw context scalars lists nested = .ok stored) :
    validateBoundedTable (.dict stored) context' scalars lists nested = .ok stored := by
  cases raw with
  | dict fields =>
    obtain ⟨_, known, h⟩ := bind_ok h
    have known := keysOutside_eq_nil.mp (of_decide_eq_true (ensure_ok known))
    obtain ⟨sorted, keys, each⟩ := sortBy_mapM_ok (by
      intro field item made
      obtain ⟨value, -, rfl⟩ := map_ok made
      rfl) h
    have known' : keysOutside stored (scalars ++ lists ++ nested.toList.map (·.1)) = [] := by
      rw [keysOutside_eq_nil]
      intro key here
      exact known key (keys.mem_iff.mp here)
    have values : stored.mapM (fun field =>
        (boundedValue context' scalars lists nested field.1 field.2).map fun value =>
          (field.1, value)) = .ok stored := by
      rw [mapM_of_ok (g := id), List.map_id]
      intro item here
      obtain ⟨field, -, made⟩ := each item here
      obtain ⟨value, bounded, rfl⟩ := map_ok made
      rw [boundedValue_again again bounded]
      rfl
    simp only [validateBoundedTable, ensure_of known', sortBy_of_sorted sorted, values, ok_bind]
  | _ => cases h

theorem validateSelectors_again : Settles fun context value => validateSelectors value context := by
  intro context value stored context' h
  cases value with
  | dict fields =>
    obtain ⟨_, single, h⟩ := bind_ok h
    obtain ⟨selectors, made, h⟩ := bind_ok h
    cases h
    have single := of_decide_eq_true (ensure_ok single)
    obtain ⟨sorted, keys, each⟩ := sortBy_mapM_ok (by
      intro field item made
      obtain ⟨name, safe, made⟩ := bind_ok made
      obtain ⟨table, -, made⟩ := bind_ok made
      cases made
      exact (Json.str.inj (safeName_ok safe).1).symm) made
    have single' : selectors.length ≤ 1 := by
      have same := keys.length_eq
      simp only [List.length_map] at same
      omega
    have values : selectors.mapM (fun field => do
        let name ← safeName (.str field.1) (context' ++ lit " name")
        let table ← validateBoundedTable field.2 (context' ++ lit "." ++ field.1)
          diagnosticSelectorScalarKeys diagnosticSelectorListKeys none
        Except.ok (name, Json.dict table)) = .ok selectors := by
      rw [mapM_of_ok (g := id), List.map_id]
      intro item here
      obtain ⟨field, -, made⟩ := each item here
      obtain ⟨name, safe, made⟩ := bind_ok made
      obtain ⟨table, bounded, made⟩ := bind_ok made
      cases made
      simp only [safeName_of_safe (safeName_ok safe).2, ok_bind]
      rw [validateBoundedTable_again (by simp) bounded]
      rfl
    simp only [validateSelectors, ensure_of single', sortBy_of_sorted sorted, values, ok_bind]
  | _ => cases h

/-- A validator of tables that takes what it returned. -/
def TableSettles (validator : PyStr → Json → Except PolicyPatchError Table) : Prop :=
  ∀ {name raw table}, validator name raw = .ok table → validator name (.dict table) = .ok table

theorem validateDiagnosticTable_again : TableSettles validateDiagnosticTable := by
  intro name raw table h
  obtain ⟨made, bounded, h⟩ := bind_ok h
  obtain ⟨_, nonempty, h⟩ := bind_ok h
  cases h
  have again := @validateBoundedTable_again _ (lit "diagnostic " ++ name) _ _ _ _ _ (by
    intro key validate same
    cases same
    exact validateSelectors_again) bounded
  simp only [validateDiagnosticTable, again, ok_bind, nonempty]

theorem validateFormatterTable_again : TableSettles validateFormatterTable := by
  intro name raw table h
  obtain ⟨made, bounded, h⟩ := bind_ok h
  obtain ⟨_, nonempty, h⟩ := bind_ok h
  cases h
  have again := @validateBoundedTable_again _ (lit "formatter " ++ name) _ _ _ _ _ (by simp) bounded
  simp only [validateFormatterTable, again, ok_bind, nonempty]

/-! ## Entries, names and runners -/

/-- Entries that the constructor stores as they are. -/
def ValidEntries (validator : PyStr → Json → Except PolicyPatchError Table)
    (entries : List (PyStr × Table)) : Prop :=
  ∀ entry ∈ entries, isSafeName entry.1 = true ∧ validator entry.1 (.dict entry.2) = .ok entry.2

theorem keys_dicts (entries : List (PyStr × Table)) :
    (dicts entries).map (·.1) = entries.map (·.1) := by
  simp [dicts, Function.comp_def]

section Tables

variable {label : String} {validator : PyStr → Json → Except PolicyPatchError Table}

theorem validateTables_ok {entries : List (PyStr × Json)} {tables : List (PyStr × Table)}
    (again : TableSettles validator) (h : validateTables label validator entries = .ok tables) :
    (tables.map (·.1)).Nodup ∧ tables.Pairwise (fun a b => a.1 ≤ b.1) ∧
      tables.length = entries.length ∧ ValidEntries validator tables := by
  obtain ⟨_, unique, h⟩ := bind_ok h
  have unique := of_decide_eq_true (ensure_ok unique)
  have keeps : ∀ (entry : PyStr × Json) (item : PyStr × Table), (do
      let name ← safeName (.str entry.1) (lit label ++ lit " name")
      let table ← validator entry.1 entry.2
      Except.ok (name, table)) = Except.ok item →
      item.1 = entry.1 ∧ isSafeName item.1 = true ∧ validator entry.1 entry.2 = .ok item.2 := by
    intro entry item made
    obtain ⟨name, safe, made⟩ := bind_ok made
    obtain ⟨table, valid, made⟩ := bind_ok made
    cases made
    obtain ⟨same, safe⟩ := safeName_ok safe
    exact ⟨(Json.str.inj same).symm, safe, valid⟩
  obtain ⟨sorted, keys, each⟩ := sortBy_mapM_ok (fun entry item made => (keeps entry item made).1) h
  have same := keys.length_eq
  simp only [List.length_map] at same
  refine ⟨keys.nodup_iff.mpr unique, sorted, same, ?_⟩
  intro item here
  obtain ⟨entry, -, made⟩ := each item here
  obtain ⟨key, safe, valid⟩ := keeps entry item made
  rw [← key] at valid
  exact ⟨safe, again valid⟩

theorem sortBy_dicts (entries : List (PyStr × Table)) :
    sortBy (·.1) (dicts entries) = dicts (sortBy (·.1) entries) := sortBy_map fun _ => rfl

theorem validateTables_of_valid {entries : List (PyStr × Table)}
    (unique : (entries.map (·.1)).Nodup) (valid : ValidEntries validator entries) :
    validateTables label validator (dicts entries) = .ok (sortBy (·.1) entries) := by
  have unique' : ((dicts entries).map (·.1)).Nodup := by
    rw [keys_dicts]
    exact unique
  simp only [validateTables, ensure_of unique', ok_bind, sortBy_dicts]
  rw [dicts, List.mapM_map, mapM_of_ok (g := id), List.map_id]
  intro entry here
  obtain ⟨safe, made⟩ := valid entry (mem_sortBy.mp here)
  simp only [Function.comp_apply, safeName_of_safe safe, made, ok_bind]
  rfl

end Tables

/-- Names that a patch can remove, as the constructor stores them. -/
structure StoredNames (names : List PyStr) : Prop where
  sorted : names.Pairwise fun a b => a ≤ b
  unique : names.Nodup
  bounded : names.length ≤ maxPatchEntries
  safe : ∀ name ∈ names, isSafeName name = true

theorem validateNames_ok {values : Json} {context : String} {names : List PyStr}
    (h : validateNames values context = .ok names) : StoredNames names := by
  cases values with
  | null =>
    cases h
    constructor <;> simp
  | list values =>
    obtain ⟨_, bounded, h⟩ := bind_ok h
    obtain ⟨given, made, h⟩ := bind_ok h
    cases h
    have each := mapM_ok made
    have bounded := of_decide_eq_true (ensure_ok bounded)
    exact {
      sorted := List.pairwise_insertionSort _ _
      unique := (List.perm_insertionSort _ _).nodup_iff.mpr (List.nodup_dedup _)
      bounded := by
        rw [sortedDistinct, List.length_insertionSort]
        have fewer := (List.dedup_sublist given).length_le
        have same := each.length_eq
        omega
      safe := by
        intro name here
        rw [sortedDistinct, List.mem_insertionSort, List.mem_dedup] at here
        obtain ⟨value, -, checked⟩ := forall₂_mem each.flip here
        exact (safeName_ok checked).2 }
  | _ => cases h

theorem validateNames_of_safe {names : List PyStr} {context : String}
    (bounded : names.length ≤ maxPatchEntries) (safe : ∀ name ∈ names, isSafeName name = true) :
    validateNames (.texts names) context = .ok (sortBy id names.dedup) := by
  have bounded' : (names.map Json.str).length ≤ maxPatchEntries := by simpa using bounded
  have made : (names.map Json.str).mapM (fun value => safeName value (lit context)) = .ok names := by
    rw [List.mapM_map, mapM_of_ok (g := id), List.map_id]
    intro name here
    exact safeName_of_safe (safe name here)
  simp only [validateNames, Json.texts, ensure_of bounded', made, ok_bind]
  rfl

theorem StoredNames.again {names : List PyStr} {context : String} (stored : StoredNames names) :
    validateNames (.texts names) context = .ok names := by
  have sorted : sortBy id names = names := sortBy_of_sorted stored.sorted
  rw [validateNames_of_safe stored.bounded stored.safe, List.dedup_eq_self.mpr stored.unique, sorted]

theorem runners_of_each {context : PyStr} {values : List Json} {names : List PyStr}
    (each : List.Forall₂ (fun value name => validateRunner context value = .ok name) values names) :
    values = names.map Json.str := by
  induction each with
  | nil => rfl
  | @cons value name _ _ first _ ih =>
    rw [List.map_cons, ← ih]
    congr 1
    cases value with
    | str text =>
      simp only [validateRunner] at first
      split_ifs at first
      cases first
      rfl
    | _ => cases first

theorem optionalRunners_again {given : Option (List Json)} {fieldName : String}
    {runners : Option (List PyStr)} (h : optionalRunners given fieldName = .ok runners) :
    given = runners.map fun runners => runners.map Json.str := by
  cases given with
  | none =>
    cases h
    rfl
  | some values =>
    obtain ⟨names, validated, rfl⟩ := map_ok h
    obtain ⟨_, -, validated⟩ := bind_ok validated
    obtain ⟨keys, -, validated⟩ := bind_ok validated
    obtain ⟨_, -, made⟩ := bind_ok validated
    have same : values = names.map Json.str := runners_of_each (mapM_ok made)
    rw [same]
    rfl

theorem optionalMode_again (mode : Option ExecutionMode) :
    optionalMode (Json.optional (mode.map fun mode => lit mode.value)) = .ok mode := by
  cases mode with
  | none => rfl
  | some mode => cases mode <;> rfl

theorem ensureApart_ok {label : String} {names removed : List PyStr} {u : Unit}
    (h : ensureApart label names removed = .ok u) : ∀ name ∈ removed, name ∉ names := by
  have none := of_decide_eq_true (ensure_ok h)
  rw [PyStr.sortedDistinct_eq_nil, List.filter_eq_nil_iff] at none
  intro name gone here
  exact none name here (decide_eq_true gone)

theorem ensureApart_of {label : String} {names removed : List PyStr}
    (apart : ∀ name ∈ removed, name ∉ names) : ensureApart label names removed = .ok () := by
  apply ensure_of
  rw [PyStr.sortedDistinct_eq_nil, List.filter_eq_nil_iff]
  intro name here gone
  exact apart name (of_decide_eq_true gone) here

/-! ## The whole -/

/-- What the constructor has checked, and what it stores. -/
structure Constructed (a : PatchArguments) (p : PatchFields) : Prop where
  executionMode : optionalMode a.executionMode = .ok p.executionMode
  adhocRunners : optionalRunners a.adhocRunners "adhoc_runners" = .ok p.adhocRunners
  adhocShellRunners :
    optionalRunners a.adhocShellRunners "adhoc_shell_runners" = .ok p.adhocShellRunners
  adhocTimeoutSeconds : optionalSeconds a.adhocTimeoutSeconds maxAdhocTimeoutSeconds adhocTimeoutError =
    .ok p.adhocTimeoutSeconds
  boundedProfiles : a.profiles.length ≤ maxPatchEntries
  boundedDiagnostics : a.diagnostics.length ≤ maxPatchEntries
  boundedFormatters : a.formatters.length ≤ maxPatchEntries
  unique : (a.profiles.map (·.name)).Nodup
  profiles : p.profiles = sortBy (·.name) a.profiles
  diagnostics : validateTables "diagnostics" validateDiagnosticTable a.diagnostics = .ok p.diagnostics
  formatters : validateTables "formatters" validateFormatterTable a.formatters = .ok p.formatters
  removeProfiles : validateNames a.removeProfiles "remove_profiles" = .ok p.removeProfiles
  removeDiagnostics : validateNames a.removeDiagnostics "remove_diagnostics" = .ok p.removeDiagnostics
  removeFormatters : validateNames a.removeFormatters "remove_formatters" = .ok p.removeFormatters
  apartProfiles : ∀ name ∈ p.removeProfiles, name ∉ a.profiles.map (·.name)
  apartDiagnostics : ∀ name ∈ p.removeDiagnostics, name ∉ p.diagnostics.map (·.1)
  apartFormatters : ∀ name ∈ p.removeFormatters, name ∉ p.formatters.map (·.1)

theorem postInit_ok_iff {a : PatchArguments} {p : PatchFields} :
    a.postInit = .ok p ↔ Constructed a p := by
  constructor
  · intro h
    obtain ⟨mode, executionMode, h⟩ := bind_ok h
    obtain ⟨runners, adhocRunners, h⟩ := bind_ok h
    obtain ⟨shellRunners, adhocShellRunners, h⟩ := bind_ok h
    obtain ⟨seconds, adhocTimeoutSeconds, h⟩ := bind_ok h
    obtain ⟨_, boundedProfiles, h⟩ := bind_ok h
    obtain ⟨_, boundedDiagnostics, h⟩ := bind_ok h
    obtain ⟨_, boundedFormatters, h⟩ := bind_ok h
    obtain ⟨_, unique, h⟩ := bind_ok h
    obtain ⟨diagnosticTables, diagnostics, h⟩ := bind_ok h
    obtain ⟨formatterTables, formatters, h⟩ := bind_ok h
    obtain ⟨profileNames, removeProfiles, h⟩ := bind_ok h
    obtain ⟨diagnosticNames, removeDiagnostics, h⟩ := bind_ok h
    obtain ⟨formatterNames, removeFormatters, h⟩ := bind_ok h
    obtain ⟨_, apartProfiles, h⟩ := bind_ok h
    obtain ⟨_, apartDiagnostics, h⟩ := bind_ok h
    obtain ⟨_, apartFormatters, h⟩ := bind_ok h
    cases h
    exact {
      executionMode
      adhocRunners
      adhocShellRunners
      adhocTimeoutSeconds
      boundedProfiles := of_decide_eq_true (ensure_ok boundedProfiles)
      boundedDiagnostics := of_decide_eq_true (ensure_ok boundedDiagnostics)
      boundedFormatters := of_decide_eq_true (ensure_ok boundedFormatters)
      unique := of_decide_eq_true (ensure_ok unique)
      profiles := rfl
      diagnostics
      formatters
      removeProfiles
      removeDiagnostics
      removeFormatters
      apartProfiles := ensureApart_ok apartProfiles
      apartDiagnostics := ensureApart_ok apartDiagnostics
      apartFormatters := ensureApart_ok apartFormatters }
  · intro made
    simp only [PatchArguments.postInit, made.executionMode, made.adhocRunners,
      made.adhocShellRunners, made.adhocTimeoutSeconds, ensureBounded,
      ensure_of made.boundedProfiles, ensure_of made.boundedDiagnostics,
      ensure_of made.boundedFormatters, ensure_of made.unique, made.diagnostics, made.formatters,
      made.removeProfiles, made.removeDiagnostics, made.removeFormatters,
      ensureApart_of made.apartProfiles, ensureApart_of made.apartDiagnostics,
      ensureApart_of made.apartFormatters, ok_bind, ← made.profiles]

/-- The arguments that a patch was stored with. -/
def PatchFields.arguments (p : PatchFields) : PatchArguments :=
  layered p.profileLayer p.diagnosticLayer p.formatterLayer p.executionMode p.adhocRunners
    p.adhocShellRunners p.adhocTimeoutSeconds

/-- What a patch that was accepted is. -/
structure PatchFields.Checked (p : PatchFields) : Prop where
  profileLayer : p.profileLayer.Canonical
  diagnosticLayer : p.diagnosticLayer.Canonical
  formatterLayer : p.formatterLayer.Canonical
  validDiagnostics : ValidEntries validateDiagnosticTable p.diagnostics
  validFormatters : ValidEntries validateFormatterTable p.formatters
  again : Constructed p.arguments p

theorem Constructed.checked {a : PatchArguments} {p : PatchFields} (made : Constructed a p) :
    p.Checked := by
  obtain ⟨uniqueD, sortedD, lengthD, validD⟩ :=
    validateTables_ok validateDiagnosticTable_again made.diagnostics
  obtain ⟨uniqueF, sortedF, lengthF, validF⟩ :=
    validateTables_ok validateFormatterTable_again made.formatters
  have namesP := validateNames_ok made.removeProfiles
  have namesD := validateNames_ok made.removeDiagnostics
  have namesF := validateNames_ok made.removeFormatters
  have perm : p.profiles.Perm a.profiles := made.profiles ▸ perm_sortBy
  have sortedP : p.profiles.Pairwise fun x y => x.name ≤ y.name := made.profiles ▸ sortBy_sorted
  have keysP : p.profileLayer.sets.map (·.1) = p.profiles.map (·.name) := by
    simp [PatchFields.profileLayer, Function.comp_def]
  have uniqueP : (p.profiles.map (·.name)).Nodup := (perm.map _).nodup_iff.mpr made.unique
  have apartP : ∀ name ∈ p.removeProfiles, name ∉ p.profiles.map (·.name) := by
    intro name gone here
    exact made.apartProfiles name gone ((perm.map _).mem_iff.mp here)
  have profiles : p.profileLayer.sets.map (·.2) = p.profiles := by
    simp [PatchFields.profileLayer, Function.comp_def]
  exact {
    profileLayer := {
      unique := keysP ▸ uniqueP
      apart := keysP ▸ apartP
      sets_sorted := List.pairwise_map.mpr sortedP
      removes_sorted := namesP.sorted
      removes_unique := namesP.unique }
    diagnosticLayer := {
      unique := uniqueD
      apart := made.apartDiagnostics
      sets_sorted := sortedD
      removes_sorted := namesD.sorted
      removes_unique := namesD.unique }
    formatterLayer := {
      unique := uniqueF
      apart := made.apartFormatters
      sets_sorted := sortedF
      removes_sorted := namesF.sorted
      removes_unique := namesF.unique }
    validDiagnostics := validD
    validFormatters := validF
    again := {
      executionMode := optionalMode_again p.executionMode
      adhocRunners := by
        have given := made.adhocRunners
        rwa [optionalRunners_again made.adhocRunners] at given
      adhocShellRunners := by
        have given := made.adhocShellRunners
        rwa [optionalRunners_again made.adhocShellRunners] at given
      adhocTimeoutSeconds := optionalSeconds_again made.adhocTimeoutSeconds
      boundedProfiles := by
        change (p.profileLayer.sets.map (·.2)).length ≤ _
        rw [profiles, perm.length_eq]
        exact made.boundedProfiles
      boundedDiagnostics := by
        change (dicts p.diagnostics).length ≤ _
        rw [dicts, List.length_map, lengthD]
        exact made.boundedDiagnostics
      boundedFormatters := by
        change (dicts p.formatters).length ≤ _
        rw [dicts, List.length_map, lengthF]
        exact made.boundedFormatters
      unique := by
        change ((p.profileLayer.sets.map (·.2)).map (·.name)).Nodup
        rw [profiles]
        exact uniqueP
      profiles := by
        change _ = sortBy (·.name) (p.profileLayer.sets.map (·.2))
        rw [profiles, sortBy_of_sorted sortedP]
      diagnostics := by
        change validateTables _ _ (dicts p.diagnostics) = _
        rw [validateTables_of_valid uniqueD validD, sortBy_of_sorted sortedD]
      formatters := by
        change validateTables _ _ (dicts p.formatters) = _
        rw [validateTables_of_valid uniqueF validF, sortBy_of_sorted sortedF]
      removeProfiles := namesP.again
      removeDiagnostics := namesD.again
      removeFormatters := namesF.again
      apartProfiles := by
        change ∀ name ∈ _, name ∉ (p.profileLayer.sets.map (·.2)).map (·.name)
        rw [profiles]
        exact apartP
      apartDiagnostics := made.apartDiagnostics
      apartFormatters := made.apartFormatters } }

theorem construct_ok {a : PatchArguments} {p : RepositoryPolicyPatch} :
    a.construct = .ok p ↔ a.postInit = .ok p.toPatchFields := by
  unfold PatchArguments.construct
  split
  · rename_i fields made
    constructor
    · intro same
      cases same
      exact made
    · intro same
      rw [made] at same
      cases p
      cases same
      rfl
  · rename_i e raised
    simp [raised]

/-! ## Layers -/

section Layered

variable {P : Layer PyStr ProfilePatch} {D F : Layer PyStr Table} {mode : Option ExecutionMode}
  {runners shellRunners : Option (List PyStr)} {seconds : Option Int} {p : PatchFields}

theorem optionalSeconds_eq {seconds seconds' : Option Int} {maximum : Int} {e : PolicyPatchError}
    (h : optionalSeconds ((seconds.map Json.int).getD .null) maximum e = .ok seconds') :
    seconds' = seconds := by
  cases seconds with
  | none =>
    cases h
    rfl
  | some n =>
    simp only [Option.map_some, Option.getD_some, optionalSeconds] at h
    split_ifs at h
    cases h
    rfl

theorem optionalRunners_eq {runners runners' : Option (List PyStr)} {fieldName : String}
    (h : optionalRunners (runners.map fun runners => runners.map Json.str) fieldName =
      .ok runners') : runners' = runners := by
  have texts : Function.Injective fun runners : List PyStr => runners.map Json.str :=
    List.map_injective_iff.mpr fun _ _ same => Json.str.inj same
  exact (Option.map_injective texts (optionalRunners_again h)).symm

theorem names_of_each {context : PyStr} {names given : List PyStr}
    (each : List.Forall₂ (fun name stored => safeName (.str name) context = .ok stored) names given) :
    given = names := by
  induction each with
  | nil => rfl
  | cons first _ ih => rw [ih, ← Json.str.inj (safeName_ok first).1]

theorem validateNames_eq {names stored : List PyStr} {context : String}
    (h : validateNames (.texts names) context = .ok stored) : stored = sortBy id names.dedup := by
  obtain ⟨_, -, checked⟩ := bind_ok h
  obtain ⟨given, made, stored⟩ := bind_ok checked
  cases stored
  rw [names_of_each (List.forall₂_map_left_iff.mp (mapM_ok made))]
  rfl

/-- Layers of valid entries are stored in order. -/
theorem layered_stored
    (made : Constructed (layered P D F mode runners shellRunners seconds) p)
    (named : ∀ item ∈ P.sets, item.2.name = item.1)
    (uniqueD : (D.sets.map (·.1)).Nodup) (validD : ValidEntries validateDiagnosticTable D.sets)
    (uniqueF : (F.sets.map (·.1)).Nodup) (validF : ValidEntries validateFormatterTable F.sets) :
    p.profileLayer = P.normalize ∧ p.diagnosticLayer = D.normalize ∧
      p.formatterLayer = F.normalize ∧ p.executionMode = mode ∧ p.adhocRunners = runners ∧
      p.adhocShellRunners = shellRunners ∧ p.adhocTimeoutSeconds = seconds := by
  have sets : P.sets = (P.sets.map (·.2)).map fun profile => (profile.name, profile) := by
    rw [List.map_map, List.map_congr_left (g := id), List.map_id]
    intro item here
    exact Prod.ext (named item here) rfl
  have profiles : p.profiles.map (fun profile => (profile.name, profile)) = sortBy (·.1) P.sets := by
    have sorted : sortBy (·.1) ((P.sets.map (·.2)).map fun profile => (profile.name, profile)) =
        (sortBy (·.name) (P.sets.map (·.2))).map fun profile => (profile.name, profile) :=
      sortBy_map fun _ => rfl
    rw [made.profiles, sets, sorted]
    rfl
  have diagnostics : p.diagnostics = sortBy (·.1) D.sets :=
    Except.ok.inj (made.diagnostics.symm.trans (validateTables_of_valid uniqueD validD))
  have formatters : p.formatters = sortBy (·.1) F.sets :=
    Except.ok.inj (made.formatters.symm.trans (validateTables_of_valid uniqueF validF))
  refine ⟨?_, ?_, ?_, ?_, optionalRunners_eq made.adhocRunners,
    optionalRunners_eq made.adhocShellRunners, optionalSeconds_eq made.adhocTimeoutSeconds⟩
  · simp only [PatchFields.profileLayer, Layer.normalize, profiles,
      validateNames_eq made.removeProfiles]
  · simp only [PatchFields.diagnosticLayer, Layer.normalize, diagnostics,
      validateNames_eq made.removeDiagnostics]
  · simp only [PatchFields.formatterLayer, Layer.normalize, formatters,
      validateNames_eq made.removeFormatters]
  · exact Except.ok.inj (made.executionMode.symm.trans (optionalMode_again mode))

end Layered

namespace RepositoryPolicyPatch

variable (p : RepositoryPolicyPatch)

theorem checked : p.Checked := by
  obtain ⟨arguments, made⟩ := p.accepted
  exact (postInit_ok_iff.mp made).checked

theorem again : p.arguments.construct = .ok p :=
  construct_ok.mpr (postInit_ok_iff.mpr p.checked.again)

end RepositoryPolicyPatch

end RepoForge.PolicyPatch
