import Mathlib.Algebra.Order.BigOperators.Group.List
import Mathlib.Data.List.Flatten
import RepoForge.Spec.Testing.Selected

/-!
# Selections widen

For a complete manifest more changed paths select more files, and the lanes divide what is selected.
A lane that fails ends the run, so that the files of the lanes after it are not handed out.
-/
namespace RepoForge.AffectedTests
open PyStr (lit)

variable {groups : List Group} {safetyBundle conftestConsumers : List PyStr}
  {coverageMap : List (PyStr × List PyStr)} {manifest : Manifest}
  {isAlnum : CodePoint → Bool} {testsDir : TestsDir} {files selected : List PyStr}

/-! ### Completeness -/

theorem beyond_eq_nil {found expected : List PyStr} {violation : PyStr → Violation} :
    beyond found expected violation = [] ↔ ∀ file ∈ found, file ∈ expected := by
  simp [beyond, PyStr.sortedDistinct_eq_nil, List.filter_eq_nil_iff]

theorem length_ownersOf (file : PyStr) :
    (ownersOf manifest file).length = manifest.groupFiles.count file := by
  unfold ownersOf Manifest.groupFiles
  induction manifest.groups with
  | nil => rfl
  | cons group rest ih =>
    simp only [List.flatMap_cons, List.length_append, List.length_replicate, List.count_append, ih]

/-- What no violation means. -/
structure Complete (manifest : Manifest) : Prop where
  unique : manifest.groupFiles.Nodup
  safety : ∀ file ∈ manifest.safetyBundle, file ∈ manifest.groupFiles
  conftest : ∀ file ∈ manifest.conftestConsumers, file ∈ manifest.groupFiles
  coverage : ∀ entry ∈ manifest.coverageMap, ∀ file ∈ entry.2, file ∈ manifest.groupFiles

theorem complete_of_check (ok : checkCompleteness isAlnum manifest testsDir = []) :
    Complete manifest := by
  unfold checkCompleteness at ok
  simp only [List.append_eq_nil_iff, beyond_eq_nil, List.flatMap_eq_nil_iff,
    PyStr.mem_sortedDistinct] at ok
  obtain ⟨⟨⟨⟨⟨⟨-, -⟩, consumers⟩, once⟩, mapped⟩, safety⟩, coverage⟩ := ok
  constructor
  case unique =>
    apply List.nodup_iff_count_le_one.mpr
    intro file
    by_cases here : file ∈ manifest.groupFiles
    · have single := (once file here).1
      rw [length_ownersOf] at single
      split at single
      · cases single
      · omega
    · simp [List.count_eq_zero_of_not_mem here]
  case safety =>
    intro file here
    have owned := (safety file here).1
    split at owned
    · assumption
    · cases owned
  case conftest => exact fun file here => mapped file (consumers file here)
  case coverage =>
    intro entry here file inside
    exact mapped file (coverage file (List.mem_flatMap.mpr ⟨entry, here, inside⟩))

/-- The groups own the files of the fixed table. -/
def OwnsPreflight (manifest : Manifest) : Prop :=
  ∀ entry ∈ preflightConsumers, ∀ file ∈ entry.2, file ∈ manifest.groupFiles

instance (manifest : Manifest) : Decidable (OwnsPreflight manifest) := by
  unfold OwnsPreflight
  infer_instance

/-! ### What is selected is owned -/

theorem mem_allFiles (complete : Complete manifest) {file : PyStr} :
    file ∈ allFiles manifest ↔ file ∈ manifest.groupFiles := by
  simp only [allFiles, List.mem_append]
  constructor
  · rintro ((owned | here) | here)
    · exact owned
    · exact complete.safety file here
    · exact complete.conftest file here
  · exact fun owned => .inl (.inl owned)

theorem groupFiles_of_group {group : Group} {file : PyStr} (listed : group ∈ manifest.groups)
    (inside : file ∈ group.testFiles) : file ∈ manifest.groupFiles :=
  List.mem_flatMap.mpr ⟨group, listed, inside⟩

theorem matching_owned {path file : PyStr} {group : Group}
    (found : group ∈ matchingGroups manifest path) (inside : file ∈ group.testFiles) :
    file ∈ manifest.groupFiles :=
  groupFiles_of_group (List.mem_of_mem_filter found) inside

theorem coverageRound_owned (complete : Complete manifest) (preflight : OwnsPreflight manifest)
    {path file : PyStr} {round : List PyStr × List Reason}
    (found : coverageRound manifest path = some round) (inside : file ∈ round.1) :
    file ∈ manifest.groupFiles := by
  unfold coverageRound at found
  dsimp only at found
  split at found
  · rename_i owned
    cases found
    rwa [List.mem_singleton.mp inside]
  split at found
  · split at found
    · obtain ⟨owner, only, rfl⟩ := Option.map_eq_some_iff.mp found
      unfold Manifest.exactReviewedGroupOwner at only
      split at only
      · rename_i named
        cases only
        have listed := List.mem_of_mem_filter (named ▸ List.mem_singleton_self owner)
        exact groupFiles_of_group listed inside
      · cases only
    · cases found
      rcases List.mem_append.mp inside with here | here
      · cases covered : PyDict.get manifest.coverageMap path with
        | none => simp [covered] at here
        | some tests =>
          rw [covered, Option.getD_some] at here
          exact complete.coverage _ (PyDict.mem_of_get covered) file here
      · cases consumed : PyDict.get preflightConsumers path with
        | none => simp [consumed] at here
        | some consumers =>
          rw [consumed, Option.getD_some] at here
          exact preflight _ (PyDict.mem_of_get consumed) file here
  · split at found
    · cases found
    · cases found
      obtain ⟨group, matched, inside⟩ := List.mem_flatMap.mp inside
      exact matching_owned matched inside

theorem added_owned (complete : Complete manifest) (preflight : OwnsPreflight manifest)
    {path file : PyStr} (inside : file ∈ added manifest path) : file ∈ manifest.groupFiles := by
  unfold added mappedFiles at inside
  split at inside
  · exact complete.conftest file inside
  split at inside
  · cases found : coverageRound manifest path with
    | none => simp [found] at inside
    | some round =>
      rw [found, Option.map_some, Option.getD_some] at inside
      exact coverageRound_owned complete preflight found inside
  · dsimp only at inside
    split at inside
    · simp at inside
    · rw [Option.getD_some] at inside
      obtain ⟨group, -, inside⟩ := List.mem_flatMap.mp inside
      cases named : manifest.groupByName group.name with
      | none => simp [named] at inside
      | some owner =>
        rw [named, Option.map_some, Option.getD_some] at inside
        exact groupFiles_of_group (List.mem_of_find?_eq_some named) inside

theorem selected_owned (complete : Complete manifest) (preflight : OwnsPreflight manifest)
    {changed : List PyStr} {file : PyStr}
    (here : file ∈ (selectAffectedTests manifest changed).selectedFiles) :
    file ∈ manifest.groupFiles := by
  have selects := selects_affected manifest changed
  by_cases wide : ∃ path ∈ changed, Wide manifest path
  · exact (mem_allFiles complete).mp ((selects.every wide file).mp here)
  · rcases (selects.each wide file).mp here with safety | ⟨path, -, inside⟩
    · exact complete.safety file safety
    · exact added_owned complete preflight inside

theorem selected_mono (complete : Complete manifest) (preflight : OwnsPreflight manifest)
    {changed changed' : List PyStr} (sub : ∀ path ∈ changed, path ∈ changed') {file : PyStr}
    (here : file ∈ (selectAffectedTests manifest changed).selectedFiles) :
    file ∈ (selectAffectedTests manifest changed').selectedFiles := by
  have owned := selected_owned complete preflight here
  have selects := selects_affected manifest changed
  have selects' := selects_affected manifest changed'
  by_cases wide : ∃ path ∈ changed', Wide manifest path
  · exact (selects'.every wide file).mpr ((mem_allFiles complete).mpr owned)
  · have narrow : ¬ ∃ path ∈ changed, Wide manifest path := by
      intro ⟨path, there, holds⟩
      exact wide ⟨path, sub path there, holds⟩
    apply (selects'.each wide file).mpr
    rcases (selects.each narrow file).mp here with safety | ⟨path, there, inside⟩
    · exact .inl safety
    · exact .inr ⟨path, sub path there, inside⟩

/-! ### Shards -/

theorem validated_ok {group : Group} {sizes : List Int}
    (ok : validatedParallelShardSizes group = .ok sizes) :
    (∀ size ∈ sizes, 0 < size) ∧ sizes.sum = group.testFiles.length := by
  unfold validatedParallelShardSizes at ok
  dsimp only at ok
  generalize (if group.parallelShardSizes = [] then [(group.testFiles.length : Int)]
    else group.parallelShardSizes) = declared at ok
  split at ok
  · cases ok
  split at ok
  · cases ok
  rename_i positive
  split at ok
  · cases ok
  rename_i covers
  cases ok
  exact ⟨fun size here => Int.not_le.mp fun small => positive ⟨size, here, small⟩,
    not_not.mp covers⟩

/-- The slices of a group have its selected files, in their order. -/
theorem shardsFrom_files {name : Nat → PyStr} {index : Nat} {testFiles : List PyStr}
    {sizes : List Int} (positive : ∀ size ∈ sizes, 0 < size)
    (covers : sizes.sum = testFiles.length) :
    (shardsFrom name selected index testFiles sizes).flatMap (·.files) =
      testFiles.filter fun file => decide (file ∈ selected) := by
  induction sizes generalizing index testFiles with
  | nil =>
    have empty : testFiles = [] := by
      apply List.eq_nil_of_length_eq_zero
      simp only [List.sum_nil] at covers
      omega
    simp [shardsFrom, empty]
  | cons size rest ih =>
    simp only [List.mem_cons, forall_eq_or_imp, List.sum_cons] at positive covers
    have nonneg : 0 ≤ rest.sum := List.sum_nonneg fun s here => (positive.2 s here).le
    have later := @ih (index + 1) (testFiles.drop size.toNat) positive.2 (by
      rw [List.length_drop]
      omega)
    conv_rhs => rw [← List.take_append_drop size.toNat testFiles, List.filter_append]
    unfold shardsFrom
    dsimp only
    split
    · rename_i none
      rw [later, none, List.nil_append]
    · rw [List.flatMap_cons, later]

theorem groupShards_ok {groups : List Group}
    (valid : ∀ group ∈ groups, ∃ sizes, validatedParallelShardSizes group = .ok sizes) :
    ∃ shards, groupShards selected groups = .ok shards ∧ shards.flatMap (·.files) =
      ((groups.filter (·.parallel)).flatMap (·.testFiles)).filter
        fun file => decide (file ∈ selected) := by
  induction groups with
  | nil => exact ⟨[], rfl, rfl⟩
  | cons group rest ih =>
    obtain ⟨later, others, files⟩ := ih fun group there => valid group (List.mem_cons_of_mem _ there)
    unfold groupShards
    cases parallel : group.parallel with
    | false => exact ⟨later, others, by simpa [parallel] using files⟩
    | true =>
      obtain ⟨sizes, ok⟩ := valid group List.mem_cons_self
      obtain ⟨positive, covers⟩ := validated_ok ok
      rw [if_neg (by simp), ok, ok_bind, others, ok_bind]
      refine ⟨_, rfl, ?_⟩
      rw [List.flatMap_append, files, shardsFrom_files positive covers,
        List.filter_cons_of_pos parallel, List.flatMap_cons, List.filter_append]

/-! ### Lanes -/

section Run

variable {pytest : Lane → Int} {lanes : List Lane}

/-- The lanes that are run are the first, and all of them where none fails. -/
theorem runEach_lanes : ((runEach pytest lanes).map (·.toLane)) <+: lanes ∧
    ((∀ run ∈ runEach pytest lanes, run.returncode = 0) →
      (runEach pytest lanes).map (·.toLane) = lanes) := by
  induction lanes with
  | nil => exact ⟨List.nil_prefix, fun _ => rfl⟩
  | cons lane rest ih =>
    unfold runEach
    by_cases failed : pytest lane ≠ 0
    · rw [if_pos failed]
      constructor
      · simp
      · intro passed
        exact absurd (passed ⟨lane, pytest lane⟩ (by simp)) failed
    · rw [if_neg failed]
      constructor
      · simpa using ih.1
      · intro passed
        simpa using ih.2 fun run there => passed run (List.mem_cons_of_mem _ there)

end Run

theorem lanes_divide (valid : ∀ group ∈ manifest.groups,
      ∃ sizes, validatedParallelShardSizes group = .ok sizes) (complete : Complete manifest)
    (unique : files.Nodup) (owned : ∀ file ∈ files, file ∈ manifest.groupFiles)
    (pytest : Lane → Int) :
    ∃ code lanes, (lanes.flatMap (·.files)).Perm files ∧
      runInLanes pytest manifest files = .ok (code, runEach pytest lanes) := by
  have sorted : ∀ xs : List PyStr, (xs.insertionSort (· ≤ ·)).Perm xs := List.perm_insertionSort _
  obtain ⟨shards, made, inside⟩ := @groupShards_ok
    ((files.filter fun file => decide (file ∉ manifest.serialFiles)).insertionSort (· ≤ ·))
    manifest.groups valid
  have parallel : (shards.flatMap (·.files)).Perm
      (files.filter fun file => decide (file ∉ manifest.serialFiles)) := by
    rw [inside]
    apply (List.perm_ext_iff_of_nodup _ (unique.filter _)).mpr
    · intro file
      simp only [List.mem_filter, (sorted _).mem_iff, decide_eq_true_eq, and_iff_right_iff_imp]
      intro ⟨here, apart⟩
      obtain ⟨group, listed, there⟩ := List.mem_flatMap.mp (owned file here)
      apply List.mem_flatMap.mpr
      refine ⟨group, List.mem_filter.mpr ⟨listed, ?_⟩, there⟩
      by_contra serial
      exact apart (List.mem_flatMap.mpr ⟨group, List.mem_filter.mpr ⟨listed, by simp [serial]⟩,
        there⟩)
    · apply List.Nodup.filter
      exact complete.unique.sublist (List.filter_sublist.flatMap _)
  have assigned : parallelShards manifest
      ((files.filter fun file => decide (file ∉ manifest.serialFiles)).insertionSort (· ≤ ·)) =
      .ok shards := by
    unfold parallelShards
    rw [made, ok_bind]
    apply if_neg
    rw [not_not, List.filter_eq_nil_iff]
    intro file here
    have there := parallel.mem_iff.mpr ((sorted _).mem_iff.mp here)
    simp [there]
  unfold runInLanes
  dsimp only
  rw [assigned, ok_bind]
  refine ⟨_, _, ?_, rfl⟩
  rw [List.flatMap_append]
  have serial : (List.flatMap (·.files)
      (if (files.filter fun file => decide (file ∈ manifest.serialFiles)).insertionSort (· ≤ ·) = []
        then [] else [(⟨lit "serial", (files.filter fun file =>
          decide (file ∈ manifest.serialFiles)).insertionSort (· ≤ ·)⟩ : Lane)])) =
      (files.filter fun file => decide (file ∈ manifest.serialFiles)).insertionSort (· ≤ ·) := by
    split
    · rename_i none
      rw [none]
      rfl
    · simp
  rw [serial]
  have whole := List.filter_append_perm (fun file => decide (file ∈ manifest.serialFiles)) files
  simp only [← decide_not] at whole
  exact ((sorted _).append parallel).trans whole

/-- Each file is in one lane at most, and where no lane fails each is in one. -/
structure HandedOut (runs : List LaneRun) (files : List PyStr) : Prop where
  once : (runs.flatMap (·.files)).Nodup
  selected : ∀ file ∈ runs.flatMap (·.files), file ∈ files
  every : (∀ run ∈ runs, run.returncode = 0) → ∀ file ∈ files, file ∈ runs.flatMap (·.files)

theorem handed_out {pytest : Lane → Int} {lanes : List Lane} (unique : files.Nodup)
    (divide : (lanes.flatMap (·.files)).Perm files) :
    HandedOut (runEach pytest lanes) files := by
  obtain ⟨first, whole⟩ := @runEach_lanes pytest lanes
  have files_of (runs : List LaneRun) :
      runs.flatMap (·.files) = (runs.map (·.toLane)).flatMap (·.files) := by
    rw [List.flatMap_map]
  have part := first.sublist.flatMap Lane.files
  rw [← files_of] at part
  constructor
  case once => exact (divide.nodup_iff.mpr unique).sublist part
  case selected => exact fun file here => divide.mem_iff.mp (part.subset here)
  case every =>
    intro passed file here
    rw [files_of, whole passed]
    exact divide.mem_iff.mpr here

theorem loadManifest_ok (loaded : loadManifest groups safetyBundle conftestConsumers coverageMap =
    .ok manifest) : ∀ group ∈ manifest.groups,
      ∃ sizes, validatedParallelShardSizes group = .ok sizes := by
  obtain ⟨sizes, validated, ok⟩ := bind_ok loaded
  cases ok
  intro group listed
  obtain ⟨found, -, ok⟩ := forall₂_mem (mapM_ok validated) listed
  exact ⟨found, ok⟩

theorem selectedFiles_nodup (manifest : Manifest) (changed : List PyStr) :
    (selectAffectedTests manifest changed).selectedFiles.Nodup := by
  unfold selectAffectedTests selectViaCoverage selectViaGroups escalatedSelection
  dsimp only
  repeat' split
  all_goals exact PyStr.nodup_sortedDistinct

def sampleGroups : List Group := [
  { name := lit "slow"
    parallel := false
    sourceGlobs := [lit "native/*"]
    testFiles := [lit "tests/test_native.py"] },
  { name := lit "docs"
    parallel := true
    sourceGlobs := [lit "docs/**"]
    testFiles := [lit "tests/test_docs.py"] },
  { name := lit "rest"
    parallel := true
    sourceGlobs := []
    testFiles := [lit "tests/test_github_api_identity.py",
      lit "tests/test_github_capability_preflight_adapter.py", lit "tests/test_integration.py",
      lit "tests/test_operation_identity_leases.py", lit "tests/test_publication_adapter.py",
      lit "tests/test_publication_guards.py",
      lit "tests/test_repository_identity_contracts.py"] }]

def sampleManifest : Manifest where
  groups := sampleGroups
  safetyBundle := []
  conftestConsumers := []

/-- The test files, none with a word of the conftest module. -/
def sampleTests : TestsDir :=
  sampleManifest.groupFiles.map fun file => (file.drop (lit "tests/").length, some [])

theorem sample_loaded : loadManifest sampleGroups [] [] [] = .ok sampleManifest := by decide

theorem sample_preflight : OwnsPreflight sampleManifest := by
  simp [OwnsPreflight, preflightConsumers, Manifest.groupFiles, sampleManifest, sampleGroups]

theorem sample_disk : onDisk sampleTests = sampleManifest.groupFiles := by
  decide +kernel

theorem sample_unique : sampleManifest.groupFiles.Nodup := by
  simp [Manifest.groupFiles, sampleManifest, sampleGroups, PyStr.lit_inj]

theorem sample_complete :
    checkCompleteness (CodePoint.within Char.isAlphanum) sampleManifest sampleTests = [] := by
  have actual : actualConftestConsumers (CodePoint.within Char.isAlphanum) sampleTests = [] := rfl
  have single (file : PyStr) : ¬ 1 < (ownersOf sampleManifest file).length := by
    rw [length_ownersOf]
    have := List.nodup_iff_count_le_one.mp sample_unique file
    omega
  simp only [checkCompleteness, List.append_eq_nil_iff, beyond_eq_nil, List.flatMap_eq_nil_iff,
    PyStr.mem_sortedDistinct, sample_disk, actual, single, if_false]
  simp [sampleManifest]
  exact fun file here => if_pos here

end RepoForge.AffectedTests
