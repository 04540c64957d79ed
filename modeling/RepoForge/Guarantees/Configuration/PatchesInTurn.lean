import RepoForge.Guarantees.Configuration.PatchLaws
import RepoForge.Spec.Configuration.PatchTables

/-!
# Patches applied in turn, and their merge applied at once

The two ways agree on everything in a document but the default profile and the gate for commits.
Each application settles these from what it finds, so what a patch settles on the way stays: a default
that lost its profile for a while does not come back, nor does the gate.
-/
namespace RepoForge.PolicyPatch
open PyStr (lit)
open Overlays (Layer)

/-! ## Equal documents -/

theorem Same.rel_refl (value : Option Json) : Option.Rel Same value value := by
  cases value with
  | none => exact .none
  | some value => exact .some (.refl value)

theorem Same.of_gets {a b : Table} (gets : ∀ key, PyDict.get a key = PyDict.get b key) :
    Same (.dict a) (.dict b) := by
  apply Same.dict
  intro key
  rw [gets]
  exact Same.rel_refl _

/-- Two dicts that differ in one value, and not by much. -/
theorem Same.assign {a b : Table} {key : PyStr} {v w : Json} (same : Same v w)
    (others : ∀ k, k ≠ key → PyDict.get a k = PyDict.get b k) :
    Same (.dict (PyDict.assign a key v)) (.dict (PyDict.assign b key w)) := by
  apply Same.dict
  intro k
  rw [PyDict.get_assign, PyDict.get_assign]
  by_cases here : k = key
  · rw [if_pos here, if_pos here]
    exact .some same
  · rw [if_neg here, if_neg here, others k here]
    exact Same.rel_refl _

/-! ## One entry -/

section Entry

variable {repoId : PyStr} {repo repo1 repo2 repo3 P D F P1 D1 F1 P3 D3 F3 : Table}
  {p q pq : RepositoryPolicyPatch}

/-- Layers applied in turn, and their merge applied at once. -/
theorem get_inTurn {ν : Type} {a b ab : Layer PyStr ν} {f : ν → Json} {d : Table} {name : PyStr}
    (apartA : a.Apart) (apartB : b.Apart) (apartAB : ab.Apart)
    (mention : ab.mention name = (b.mention name).or (a.mention name)) :
    PyDict.get ((b.map f).apply ((a.map f).apply d)) name = PyDict.get ((ab.map f).apply d) name := by
  rw [Overlays.get_apply (apartB.map f), Overlays.get_apply (apartA.map f),
    Overlays.get_apply (apartAB.map f), Overlays.mention_map, Overlays.mention_map,
    Overlays.mention_map, mention]
  cases b.mention name with
  | none => simp
  | some said => simp

theorem given_merged (merged : Merged p.toPatchFields q.toPatchFields pq.toPatchFields)
    (key : PyStr) :
    given pq.toPatchFields key = (given q.toPatchFields key).or (given p.toPatchFields key) := by
  unfold given
  split_ifs
  · rw [merged.executionMode, Option.map_or]
  · rw [merged.adhocRunners, Option.map_or]
  · rw [merged.adhocShellRunners, Option.map_or]
  · rw [merged.adhocTimeoutSeconds, Option.map_or]
  · rfl

theorem same_tables (merged : Merged p.toPatchFields q.toPatchFields pq.toPatchFields) :
    (∀ name, PyDict.get (q.profileTableLayer.apply (p.profileTableLayer.apply P)) name =
      PyDict.get (pq.profileTableLayer.apply P) name) ∧
    (∀ name, PyDict.get (q.diagnosticTableLayer.apply (p.diagnosticTableLayer.apply D)) name =
      PyDict.get (pq.diagnosticTableLayer.apply D) name) ∧
    ∀ name, PyDict.get (q.formatterTableLayer.apply (p.formatterTableLayer.apply F)) name =
      PyDict.get (pq.formatterTableLayer.apply F) name := by
  refine ⟨fun name => ?_, fun name => ?_, fun name => ?_⟩
  · exact get_inTurn p.checked.profileLayer.toApart q.checked.profileLayer.toApart
      pq.checked.profileLayer.toApart (mention_normalize_merge p.checked.profileLayer
        q.checked.profileLayer merged.profileLayer name)
  · exact get_inTurn p.checked.diagnosticLayer.toApart q.checked.diagnosticLayer.toApart
      pq.checked.diagnosticLayer.toApart (mention_normalize_merge p.checked.diagnosticLayer
        q.checked.diagnosticLayer merged.diagnosticLayer name)
  · exact get_inTurn p.checked.formatterLayer.toApart q.checked.formatterLayer.toApart
      pq.checked.formatterLayer.toApart (mention_normalize_merge p.checked.formatterLayer
        q.checked.formatterLayer merged.formatterLayer name)

/-- An entry after two patches, and after their merge. -/
theorem entry_inTurn (merged : Merged p.toPatchFields q.toPatchFields pq.toPatchFields)
    (first : Patched repoId repo p.toPatchFields repo1 P D F)
    (second : Patched repoId repo1 q.toPatchFields repo2 P1 D1 F1)
    (atOnce : Patched repoId repo pq.toPatchFields repo3 P3 D3 F3) :
    (∀ key, key ≠ lit "default_verification_profile" →
      key ≠ lit "require_verification_before_commit" →
      Option.Rel Same (PyDict.get repo2 key) (PyDict.get repo3 key)) ∧
    derived repo2 = settled (pq.profileTableLayer.apply P) (derived repo1) ∧
    derived repo3 = settled (pq.profileTableLayer.apply P) (derived repo) := by
  have sameP : P3 = P := Except.ok.inj (atOnce.profilesFound.symm.trans first.profilesFound)
  have sameD : D3 = D := Except.ok.inj (atOnce.diagnosticsFound.symm.trans first.diagnosticsFound)
  have sameF : F3 = F := Except.ok.inj (atOnce.formattersFound.symm.trans first.formattersFound)
  have nextP : P1 = p.profileTableLayer.apply P :=
    Except.ok.inj (second.profilesFound.symm.trans (tableAt_of_get first.profiles))
  have nextD : D1 = p.diagnosticTableLayer.apply D :=
    Except.ok.inj (second.diagnosticsFound.symm.trans (tableAt_of_get first.diagnostics))
  have nextF : F1 = p.formatterTableLayer.apply F :=
    Except.ok.inj (second.formattersFound.symm.trans (tableAt_of_get first.formatters))
  subst sameP sameD sameF nextP nextD nextF
  obtain ⟨profiles, diagnostics, formatters⟩ := @same_tables P3 D3 F3 p q pq merged
  refine ⟨?_, ?_, atOnce.derived⟩
  · intro key notDefault notRequire
    by_cases here : key ∈ patchedKeys
    · simp only [patchedKeys, List.map_cons, List.map_nil, List.mem_cons, List.not_mem_nil,
        or_false, notDefault, notRequire] at here
      rcases here with rfl | rfl | rfl
      · rw [second.profiles, atOnce.profiles]
        exact .some (Same.of_gets profiles)
      · rw [second.diagnostics, atOnce.diagnostics]
        exact .some (Same.of_gets diagnostics)
      · rw [second.formatters, atOnce.formatters]
        exact .some (Same.of_gets formatters)
    · rw [second.others key here, first.others key here, atOnce.others key here,
        given_merged merged, Option.or_assoc]
      exact Same.rel_refl _
  · rw [second.derived]
    exact settled_congr profiles

end Entry

/-! ## Documents -/

section Documents

variable {document document' d1 d2 d3 : Table} {repoId : PyStr}

/-- The entry of the repository. -/
def repositoryOf (document : Table) (repoId : PyStr) : Table :=
  match findRepository document repoId with
  | .ok found => found.2
  | .error _ => []

def profilesOf (document : Table) (repoId : PyStr) : Table :=
  match tableAt repoId (repositoryOf document repoId) "profiles" with
  | .ok profiles => profiles
  | .error _ => []

/-- A document with another entry for the repository. -/
def withRepository (document repositories : Table) (repoId : PyStr) (repo : Table) : Table :=
  PyDict.assign document (lit "repositories")
    (.dict (PyDict.assign repositories repoId (.dict repo)))

/-- A document without the two derived fields. -/
def underived (document : Table) (repoId : PyStr) : Table :=
  match findRepository document repoId with
  | .ok found => withRepository document found.1 repoId
      (PyDict.pop (PyDict.pop found.2 (lit "default_verification_profile"))
        (lit "require_verification_before_commit"))
  | .error _ => document

theorem find_withRepository {repositories repo : Table} :
    findRepository (withRepository document repositories repoId repo) repoId =
      .ok (PyDict.assign repositories repoId (.dict repo), repo) := by
  simp only [findRepository, withRepository, PyDict.get_assign, if_true]

theorem applyPolicyPatch_ok {patch : PatchFields} (nonempty : patch.isEmpty = false)
    (h : applyPolicyPatch document repoId patch = .ok document') :
    ∃ repositories repo repo', findRepository document repoId = .ok (repositories, repo) ∧
      patchRepository repoId repo patch = .ok repo' ∧
      document' = withRepository document repositories repoId repo' := by
  unfold applyPolicyPatch at h
  rw [nonempty] at h
  obtain ⟨found, lookup, h⟩ := bind_ok h
  obtain ⟨repo', patched, h⟩ := bind_ok h
  cases h
  exact ⟨found.1, found.2, repo', lookup, patched, rfl⟩

theorem same_withRepository {repositories repositories' a b : Table}
    (documents : ∀ k, k ≠ lit "repositories" → PyDict.get document k = PyDict.get document' k)
    (others : ∀ k, k ≠ repoId → PyDict.get repositories k = PyDict.get repositories' k)
    (same : Same (.dict a) (.dict b)) :
    Same (.dict (withRepository document repositories repoId a))
      (.dict (withRepository document' repositories' repoId b)) :=
  Same.assign (Same.assign same others) documents

/-- What a patch applied after another has in common with their merge. -/
structure InTurn (document : Table) (repoId : PyStr) (q pq : PatchFields) (d1 d2 d3 : Table) :
    Prop where
  apart : Same (.dict (underived d2 repoId)) (.dict (underived d3 repoId))
  inTurn : q.isEmpty = false → derived (repositoryOf d2 repoId) =
    settled (profilesOf d3 repoId) (derived (repositoryOf d1 repoId))
  atOnce : pq.isEmpty = false → derived (repositoryOf d3 repoId) =
    settled (profilesOf d3 repoId) (derived (repositoryOf document repoId))
  whole : derived (repositoryOf d2 repoId) = derived (repositoryOf d3 repoId) →
    Same (.dict d2) (.dict d3)
  kept : derived (repositoryOf d1 repoId) = derived (repositoryOf document repoId) →
    Same (.dict d2) (.dict d3)

end Documents

/-! ## Empty patches -/

section Empty

variable {p q pq : RepositoryPolicyPatch}

theorem isEmpty_iff {p : PatchFields} : p.isEmpty = true ↔
    p.profileLayer = ⟨[], []⟩ ∧ p.diagnosticLayer = ⟨[], []⟩ ∧ p.formatterLayer = ⟨[], []⟩ ∧
      p.executionMode = none ∧ p.adhocRunners = none ∧ p.adhocShellRunners = none ∧
      p.adhocTimeoutSeconds = none := by
  simp only [PatchFields.isEmpty, Bool.and_eq_true, List.isEmpty_iff, Option.isNone_iff_eq_none,
    PatchFields.profileLayer, PatchFields.diagnosticLayer, PatchFields.formatterLayer,
    Layer.mk.injEq, List.map_eq_nil_iff]
  tauto

theorem eq_empty (none : p.isEmpty = true) : p = .empty := by
  obtain ⟨profiles, diagnostics, formatters, mode, runners, shellRunners, seconds⟩ :=
    isEmpty_iff.mp none
  exact patch_eq profiles diagnostics formatters mode runners shellRunners seconds

/-- What one patch mentions, the merge mentions. -/
theorem empty_layers {ν : Type} {a b : Layer PyStr ν} (canonicalA : a.Canonical)
    (canonicalB : b.Canonical) (merged : (⟨[], []⟩ : Layer PyStr ν) = (a.merge b).normalize) :
    a = ⟨[], []⟩ := by
  apply Overlays.eq_empty_of_mention canonicalA.toApart
  intro name
  have mention := mention_normalize_merge canonicalA canonicalB merged name
  cases said : b.mention name with
  | none =>
    rw [said, Option.none_or] at mention
    rw [← mention]
    rfl
  | some value =>
    rw [said, Option.some_or] at mention
    cases mention

theorem or_none_right {α : Type} {x y : Option α} (none : none = x.or y) : y = .none := by
  cases x with
  | none =>
    rw [Option.none_or] at none
    exact none.symm
  | some x => cases none

theorem isEmpty_of_merged (merged : Merged p.toPatchFields q.toPatchFields pq.toPatchFields)
    (none : pq.isEmpty = true) : p.isEmpty = true := by
  obtain ⟨profiles, diagnostics, formatters, mode, runners, shellRunners, seconds⟩ :=
    isEmpty_iff.mp none
  exact isEmpty_iff.mpr ⟨
    empty_layers p.checked.profileLayer q.checked.profileLayer (profiles ▸ merged.profileLayer),
    empty_layers p.checked.diagnosticLayer q.checked.diagnosticLayer
      (diagnostics ▸ merged.diagnosticLayer),
    empty_layers p.checked.formatterLayer q.checked.formatterLayer
      (formatters ▸ merged.formatterLayer),
    or_none_right (mode ▸ merged.executionMode), or_none_right (runners ▸ merged.adhocRunners),
    or_none_right (shellRunners ▸ merged.adhocShellRunners),
    or_none_right (seconds ▸ merged.adhocTimeoutSeconds)⟩

end Empty

/-! ## The guarantee -/

section Guarantee

variable {document d1 d2 d3 : Table} {repoId : PyStr} {p q pq : RepositoryPolicyPatch}

/-- What an application settles, from what it finds. -/
theorem derived_applied {patch : PatchFields} (nonempty : patch.isEmpty = false)
    (h : applyPolicyPatch document repoId patch = .ok d1) :
    derived (repositoryOf d1 repoId) =
      settled (profilesOf d1 repoId) (derived (repositoryOf document repoId)) := by
  obtain ⟨repositories, repo, repo', found, patched, rfl⟩ := applyPolicyPatch_ok nonempty h
  obtain ⟨P, D, F, effects⟩ := patchRepository_ok patched
  have profiles := @tableAt_of_get _ repoId _ _ effects.profiles
  simp only [profilesOf, repositoryOf, find_withRepository, found, profiles]
  exact effects.derived

/-- Entries that agree on all keys but the derived ones, without these. -/
theorem same_underived {a b : Table}
    (others : ∀ key, key ≠ lit "default_verification_profile" →
      key ≠ lit "require_verification_before_commit" →
      Option.Rel Same (PyDict.get a key) (PyDict.get b key)) :
    Same
      (.dict (PyDict.pop (PyDict.pop a (lit "default_verification_profile"))
        (lit "require_verification_before_commit")))
      (.dict (PyDict.pop (PyDict.pop b (lit "default_verification_profile"))
        (lit "require_verification_before_commit"))) := by
  apply Same.dict
  intro key
  simp only [PyDict.get_pop]
  split_ifs with require default
  · exact .none
  · exact .none
  · exact others key default require

theorem same_of_derived {a b : Table}
    (others : ∀ key, key ≠ lit "default_verification_profile" →
      key ≠ lit "require_verification_before_commit" →
      Option.Rel Same (PyDict.get a key) (PyDict.get b key))
    (same : derived a = derived b) : Same (.dict a) (.dict b) := by
  have sameDefault : PyDict.get a (lit "default_verification_profile") =
      PyDict.get b (lit "default_verification_profile") := (Prod.ext_iff.mp same).1
  have sameRequire : PyDict.get a (lit "require_verification_before_commit") =
      PyDict.get b (lit "require_verification_before_commit") := (Prod.ext_iff.mp same).2
  apply Same.dict
  intro key
  by_cases default : key = lit "default_verification_profile"
  · rw [default]
    rw [sameDefault]
    exact Same.rel_refl _
  by_cases require : key = lit "require_verification_before_commit"
  · rw [require]
    rw [sameRequire]
    exact Same.rel_refl _
  · exact others key default require

theorem patches_in_turn (first : applyPolicyPatch document repoId p.toPatchFields = .ok d1)
    (second : applyPolicyPatch d1 repoId q.toPatchFields = .ok d2) (merge : p.merge q = .ok pq)
    (atOnce : applyPolicyPatch document repoId pq.toPatchFields = .ok d3) :
    InTurn document repoId q.toPatchFields pq.toPatchFields d1 d2 d3 := by
  have merged := merge_merged merge
  cases emptyP : p.isEmpty with
  | true =>
    have start : document = d1 := by
      rw [applyPolicyPatch, emptyP] at first
      exact Except.ok.inj first
    have same : q = pq := by
      rw [eq_empty emptyP, empty_merge] at merge
      exact Except.ok.inj merge
    subst start same
    have atEnd : d2 = d3 := Except.ok.inj (second.symm.trans atOnce)
    subst atEnd
    exact {
      apart := .refl _
      inTurn := fun nonempty => derived_applied nonempty second
      atOnce := fun nonempty => derived_applied nonempty second
      whole := fun _ => .refl _
      kept := fun _ => .refl _ }
  | false =>
  cases emptyQ : q.isEmpty with
  | true =>
    have start : d1 = d2 := by
      rw [applyPolicyPatch, emptyQ] at second
      exact Except.ok.inj second
    have same : p = pq := by
      rw [eq_empty emptyQ, merge_empty] at merge
      exact Except.ok.inj merge
    subst start same
    have atEnd : d1 = d3 := Except.ok.inj (first.symm.trans atOnce)
    subst atEnd
    exact {
      apart := .refl _
      inTurn := by simp [emptyQ]
      atOnce := fun nonempty => derived_applied nonempty first
      whole := fun _ => .refl _
      kept := fun _ => .refl _ }
  | false =>
    have emptyPQ : pq.isEmpty = false := by
      rw [← Bool.not_eq_true]
      intro none
      rw [isEmpty_of_merged merged none] at emptyP
      cases emptyP
    obtain ⟨repositories, repo, repo1, found, patched1, start⟩ := applyPolicyPatch_ok emptyP first
    obtain ⟨repositories', repo', repo2, found', patched2, inTurn⟩ :=
      applyPolicyPatch_ok emptyQ second
    obtain ⟨repositories'', repo'', repo3, found'', patched3, once⟩ :=
      applyPolicyPatch_ok emptyPQ atOnce
    rw [found] at found''
    cases found''
    rw [start, find_withRepository] at found'
    cases found'
    obtain ⟨P, D, F, effects1⟩ := patchRepository_ok patched1
    obtain ⟨P1, D1, F1, effects2⟩ := patchRepository_ok patched2
    obtain ⟨P3, D3, F3, effects3⟩ := patchRepository_ok patched3
    obtain ⟨others, derived2, derived3⟩ := entry_inTurn merged effects1 effects2 effects3
    have sameP : P3 = P := Except.ok.inj (effects3.profilesFound.symm.trans effects1.profilesFound)
    have profiles3 : tableAt repoId repo3 "profiles" = .ok (pq.profileTableLayer.apply P) :=
      tableAt_of_get (sameP ▸ effects3.profiles)
    -- away from the entry the documents are those that were there
    have documents : ∀ k, k ≠ lit "repositories" → PyDict.get d1 k = PyDict.get document k := by
      intro k other
      rw [start, withRepository, PyDict.get_assign, if_neg other]
    have repositories' : ∀ k, k ≠ repoId →
        PyDict.get (PyDict.assign repositories repoId (.dict repo1)) k = PyDict.get repositories k := by
      intro k other
      rw [PyDict.get_assign, if_neg other]
    have whole : derived repo2 = derived repo3 → Same (.dict d2) (.dict d3) := by
      intro same
      rw [inTurn, once]
      exact same_withRepository documents repositories' (same_of_derived others same)
    have found2 : repositoryOf d2 repoId = repo2 := by
      rw [inTurn, repositoryOf, find_withRepository]
    have found3 : repositoryOf d3 repoId = repo3 := by
      rw [once, repositoryOf, find_withRepository]
    have found1 : repositoryOf d1 repoId = repo1 := by
      rw [start, repositoryOf, find_withRepository]
    have found0 : repositoryOf document repoId = repo := by
      rw [repositoryOf, found]
    have profilesFound : profilesOf d3 repoId = pq.profileTableLayer.apply P := by
      rw [profilesOf, found3, profiles3]
    have derived2 : derived (repositoryOf d2 repoId) =
        settled (profilesOf d3 repoId) (derived (repositoryOf d1 repoId)) := by
      rw [found2, profilesFound, found1, derived2]
    have derived3 : derived (repositoryOf d3 repoId) =
        settled (profilesOf d3 repoId) (derived (repositoryOf document repoId)) := by
      rw [found3, profilesFound, found0, derived3]
    exact {
      apart := by
        rw [inTurn, once, underived, underived, find_withRepository, find_withRepository]
        apply same_withRepository
        · intro k other
          rw [withRepository, withRepository, PyDict.get_assign, PyDict.get_assign, if_neg other,
            if_neg other, documents k other]
        · intro k other
          rw [PyDict.get_assign, PyDict.get_assign, PyDict.get_assign, if_neg other, if_neg other,
            if_neg other]
        · exact same_underived others
      inTurn := fun _ => derived2
      atOnce := fun _ => derived3
      whole := by
        rw [found2, found3]
        exact whole
      kept := by
        intro same
        apply whole
        rw [← found2, ← found3, derived2, derived3, same] }

end Guarantee

/-! ## A trace that stays -/

theorem Same.get {a b : Table} (same : Same (.dict a) (.dict b)) (key : PyStr) :
    Option.Rel Same (PyDict.get a key) (PyDict.get b key) := by
  cases same with
  | refl => exact Same.rel_refl _
  | dict fields => exact fields key

theorem Same.of_some {v w : Json} (same : Option.Rel Same (some v) (some w)) : Same v w := by
  cases same with
  | some same => exact same

def fastProfile : ProfilePatch where
  name := lit "fast"
  description := []
  commands := [[lit "make"]]
  verification := true
  timeoutSeconds := none
  workingDirectory := none
  steps := []
  baselinePolicy := .strictClean
  modelInvocable := true
  minIntervalSeconds := 0
  accepted := ⟨{
    name := lit "fast"
    description := []
    commands := [[lit "make"]]
    verification := true }, rfl⟩

def addFast : RepositoryPolicyPatch where
  profiles := [fastProfile]
  diagnostics := []
  formatters := []
  executionMode := none
  adhocRunners := none
  adhocShellRunners := none
  adhocTimeoutSeconds := none
  removeProfiles := []
  removeDiagnostics := []
  removeFormatters := []
  accepted := ⟨{ profiles := [fastProfile] }, rfl⟩

def removeFast : RepositoryPolicyPatch where
  profiles := []
  diagnostics := []
  formatters := []
  executionMode := none
  adhocRunners := none
  adhocShellRunners := none
  adhocTimeoutSeconds := none
  removeProfiles := [lit "fast"]
  removeDiagnostics := []
  removeFormatters := []
  accepted := ⟨{ removeProfiles := .texts [lit "fast"] }, rfl⟩

/-- A document with one repository. -/
def demoDocument (profiles fields : Table) : Table :=
  [(lit "repositories", .dict [(lit "demo", .dict ((lit "profiles", .dict profiles) :: fields))])]

def fastTable : Table := [(lit "fast", fastProfile.asTable)]

def fastDefault : PyStr × Json := (lit "default_verification_profile", .str (lit "fast"))

def gate (required : Bool) : PyStr × Json :=
  (lit "require_verification_before_commit", .bool required)

/-- The tables that an application adds. -/
def added : Table := [(lit "diagnostics", .dict []), (lit "formatters", .dict [])]

/-- The only profile that verifies is removed, and set again: the gate that the first patch opens
stays open, and their merge leaves it closed. -/
theorem patches_in_turn_differ : ¬ ∀ (document d1 d2 d3 : Table) (repoId : PyStr)
    (p q pq : RepositoryPolicyPatch), applyPolicyPatch document repoId p.toPatchFields = .ok d1 →
    applyPolicyPatch d1 repoId q.toPatchFields = .ok d2 → p.merge q = .ok pq →
    applyPolicyPatch document repoId pq.toPatchFields = .ok d3 → Same (.dict d2) (.dict d3) := by
  intro claim
  have removed : applyPolicyPatch (demoDocument fastTable [fastDefault, gate true]) (lit "demo")
      removeFast.toPatchFields = .ok (demoDocument [] (gate false :: added)) := rfl
  have readded : applyPolicyPatch (demoDocument [] (gate false :: added)) (lit "demo")
      addFast.toPatchFields =
      .ok (demoDocument fastTable (gate false :: added ++ [fastDefault])) := rfl
  have merged : removeFast.merge addFast = .ok addFast := rfl
  have atOnce : applyPolicyPatch (demoDocument fastTable [fastDefault, gate true]) (lit "demo")
      addFast.toPatchFields =
      .ok (demoDocument fastTable (fastDefault :: gate true :: added)) := rfl
  have documents := claim _ _ _ _ _ _ _ _ removed readded merged atOnce
  have repositories := Same.of_some (documents.get (lit "repositories"))
  have entries := Same.of_some (repositories.get (lit "demo"))
  have gates : Same (.bool false) (.bool true) :=
    Same.of_some (entries.get (lit "require_verification_before_commit"))
  cases gates

/-- The same two patches in a document that has neither the profile nor a gate. -/
theorem patches_in_turn_sample :
    InTurn (demoDocument [] [gate false]) (lit "demo") addFast.toPatchFields addFast.toPatchFields
      (demoDocument [] (gate false :: added))
      (demoDocument fastTable (gate false :: added ++ [fastDefault]))
      (demoDocument fastTable (gate false :: fastDefault :: added)) :=
  @patches_in_turn (demoDocument [] [gate false]) _ _ _ (lit "demo") removeFast addFast addFast rfl
    rfl rfl rfl

end RepoForge.PolicyPatch
