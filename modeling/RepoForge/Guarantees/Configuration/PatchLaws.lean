import RepoForge.Spec.Configuration.PatchTables

/-!
# Policy patches under merging, and their tables

Merging is associative, the empty patch is a unit, and the last patch that mentions a name decides.
A patch comes back from its table where every profile has an interval from 0 to 86400 seconds: the
reader checks that, and the constructor does not.
-/
namespace RepoForge.PolicyPatch
open PyStr (lit)
open Overlays (Layer)

variable {p q r : RepositoryPolicyPatch}

/-- What a merge is, field by field. -/
structure Merged (p q r : PatchFields) : Prop where
  profileLayer : r.profileLayer = (p.profileLayer.merge q.profileLayer).normalize
  diagnosticLayer : r.diagnosticLayer = (p.diagnosticLayer.merge q.diagnosticLayer).normalize
  formatterLayer : r.formatterLayer = (p.formatterLayer.merge q.formatterLayer).normalize
  executionMode : r.executionMode = q.executionMode.or p.executionMode
  adhocRunners : r.adhocRunners = q.adhocRunners.or p.adhocRunners
  adhocShellRunners : r.adhocShellRunners = q.adhocShellRunners.or p.adhocShellRunners
  adhocTimeoutSeconds : r.adhocTimeoutSeconds = q.adhocTimeoutSeconds.or p.adhocTimeoutSeconds

theorem ValidEntries.merge {validator : PyStr → Json → Except PolicyPatchError Table}
    {first second : Layer PyStr Table} (apart : first.Apart) (apart' : second.Apart)
    (valid : ValidEntries validator first.sets) (valid' : ValidEntries validator second.sets) :
    ValidEntries validator (first.merge second).sets := by
  intro entry here
  rcases Overlays.mem_merge apart apart' here with here | here
  · exact valid entry here
  · exact valid' entry here

theorem named_profileLayer (p : PatchFields) :
    ∀ item ∈ p.profileLayer.sets, item.2.name = item.1 := by
  intro item here
  obtain ⟨profile, -, rfl⟩ := List.mem_map.mp here
  rfl

theorem merge_merged (h : p.merge q = .ok r) : Merged p.toPatchFields q.toPatchFields r.toPatchFields := by
  have made := postInit_ok_iff.mp (construct_ok.mp h)
  have named : ∀ item ∈ (p.profileLayer.merge q.profileLayer).sets, item.2.name = item.1 := by
    intro item here
    rcases Overlays.mem_merge p.checked.profileLayer.toApart q.checked.profileLayer.toApart here
      with here | here
    · exact named_profileLayer p.toPatchFields item here
    · exact named_profileLayer q.toPatchFields item here
  obtain ⟨profiles, diagnostics, formatters, mode, runners, shellRunners, seconds⟩ :=
    layered_stored made named Overlays.merge_apart.unique
      (p.checked.validDiagnostics.merge p.checked.diagnosticLayer.toApart
        q.checked.diagnosticLayer.toApart q.checked.validDiagnostics)
      Overlays.merge_apart.unique
      (p.checked.validFormatters.merge p.checked.formatterLayer.toApart
        q.checked.formatterLayer.toApart q.checked.validFormatters)
  exact ⟨profiles, diagnostics, formatters, mode, runners, shellRunners, seconds⟩

/-! ## The laws of merging -/

/-- Merged, put in order, and merged again, two layers are the same as the other way around. -/
theorem normalize_merge_assoc {ν : Type} {a b c ab bc : Layer PyStr ν} (canonicalA : a.Canonical)
    (canonicalB : b.Canonical) (canonicalC : c.Canonical) (left : ab = (a.merge b).normalize)
    (right : bc = (b.merge c).normalize) :
    (ab.merge c).normalize = (a.merge bc).normalize := by
  have canonicalAB : ab.Canonical := left ▸ Overlays.normalize_canonical Overlays.merge_apart
  have canonicalBC : bc.Canonical := right ▸ Overlays.normalize_canonical Overlays.merge_apart
  apply (Overlays.normalize_canonical Overlays.merge_apart).eq
    (Overlays.normalize_canonical Overlays.merge_apart)
  intro k
  have first : ab.mention k = (b.mention k).or (a.mention k) := by
    rw [left, Overlays.mention_normalize Overlays.merge_apart.unique,
      Overlays.mention_merge canonicalA.toApart canonicalB.toApart]
  have second : bc.mention k = (c.mention k).or (b.mention k) := by
    rw [right, Overlays.mention_normalize Overlays.merge_apart.unique,
      Overlays.mention_merge canonicalB.toApart canonicalC.toApart]
  calc (ab.merge c).normalize.mention k
      = (c.mention k).or ((b.mention k).or (a.mention k)) := by
        rw [Overlays.mention_normalize Overlays.merge_apart.unique,
          Overlays.mention_merge canonicalAB.toApart canonicalC.toApart, first]
    _ = ((c.mention k).or (b.mention k)).or (a.mention k) := by rw [Option.or_assoc]
    _ = (a.merge bc).normalize.mention k := by
        rw [Overlays.mention_normalize Overlays.merge_apart.unique,
          Overlays.mention_merge canonicalA.toApart canonicalBC.toApart, second]

/-- A patch is its layers and its four other fields. -/
theorem patch_eq {s : RepositoryPolicyPatch} (profiles : r.profileLayer = s.profileLayer)
    (diagnostics : r.diagnosticLayer = s.diagnosticLayer)
    (formatters : r.formatterLayer = s.formatterLayer) (mode : r.executionMode = s.executionMode)
    (runners : r.adhocRunners = s.adhocRunners)
    (shellRunners : r.adhocShellRunners = s.adhocShellRunners)
    (seconds : r.adhocTimeoutSeconds = s.adhocTimeoutSeconds) : r = s := by
  have same : ∀ t : RepositoryPolicyPatch, t.arguments = r.arguments → t = r := by
    intro t same
    have again := t.again
    rw [same, r.again] at again
    exact (Except.ok.inj again).symm
  symm
  apply same
  simp only [PatchFields.arguments, profiles, diagnostics, formatters, mode, runners, shellRunners,
    seconds]

theorem merge_assoc {pq qr left right : RepositoryPolicyPatch} (first : p.merge q = .ok pq)
    (second : q.merge r = .ok qr) (onLeft : pq.merge r = .ok left) (onRight : p.merge qr = .ok right) :
    left = right := by
  have first := merge_merged first
  have second := merge_merged second
  have onLeft := merge_merged onLeft
  have onRight := merge_merged onRight
  apply patch_eq
  · rw [onLeft.profileLayer, onRight.profileLayer]
    exact normalize_merge_assoc p.checked.profileLayer q.checked.profileLayer
      r.checked.profileLayer first.profileLayer second.profileLayer
  · rw [onLeft.diagnosticLayer, onRight.diagnosticLayer]
    exact normalize_merge_assoc p.checked.diagnosticLayer q.checked.diagnosticLayer
      r.checked.diagnosticLayer first.diagnosticLayer second.diagnosticLayer
  · rw [onLeft.formatterLayer, onRight.formatterLayer]
    exact normalize_merge_assoc p.checked.formatterLayer q.checked.formatterLayer
      r.checked.formatterLayer first.formatterLayer second.formatterLayer
  · rw [onLeft.executionMode, onRight.executionMode, first.executionMode, second.executionMode,
      Option.or_assoc]
  · rw [onLeft.adhocRunners, onRight.adhocRunners, first.adhocRunners, second.adhocRunners,
      Option.or_assoc]
  · rw [onLeft.adhocShellRunners, onRight.adhocShellRunners, first.adhocShellRunners,
      second.adhocShellRunners, Option.or_assoc]
  · rw [onLeft.adhocTimeoutSeconds, onRight.adhocTimeoutSeconds, first.adhocTimeoutSeconds,
      second.adhocTimeoutSeconds, Option.or_assoc]

theorem empty_merge (p : RepositoryPolicyPatch) : RepositoryPolicyPatch.empty.merge p = .ok p := by
  have checked := p.checked
  have profiles : Layer.merge ⟨[], []⟩ p.profileLayer = p.profileLayer :=
    Overlays.empty_merge checked.profileLayer.toApart checked.profileLayer.removes_unique
  have diagnostics : Layer.merge ⟨[], []⟩ p.diagnosticLayer = p.diagnosticLayer :=
    Overlays.empty_merge checked.diagnosticLayer.toApart checked.diagnosticLayer.removes_unique
  have formatters : Layer.merge ⟨[], []⟩ p.formatterLayer = p.formatterLayer :=
    Overlays.empty_merge checked.formatterLayer.toApart checked.formatterLayer.removes_unique
  calc RepositoryPolicyPatch.empty.merge p
      = (layered (Layer.merge ⟨[], []⟩ p.profileLayer) (Layer.merge ⟨[], []⟩ p.diagnosticLayer)
          (Layer.merge ⟨[], []⟩ p.formatterLayer) (p.executionMode.or none) (p.adhocRunners.or none)
          (p.adhocShellRunners.or none) (p.adhocTimeoutSeconds.or none)).construct := rfl
    _ = p.arguments.construct := by
        rw [profiles, diagnostics, formatters, Option.or_none, Option.or_none, Option.or_none,
          Option.or_none]
        rfl
    _ = .ok p := p.again

theorem merge_empty (p : RepositoryPolicyPatch) : p.merge RepositoryPolicyPatch.empty = .ok p := by
  have checked := p.checked
  have profiles : Layer.merge p.profileLayer ⟨[], []⟩ = p.profileLayer :=
    Overlays.merge_empty checked.profileLayer.toApart checked.profileLayer.removes_unique
  have diagnostics : Layer.merge p.diagnosticLayer ⟨[], []⟩ = p.diagnosticLayer :=
    Overlays.merge_empty checked.diagnosticLayer.toApart checked.diagnosticLayer.removes_unique
  have formatters : Layer.merge p.formatterLayer ⟨[], []⟩ = p.formatterLayer :=
    Overlays.merge_empty checked.formatterLayer.toApart checked.formatterLayer.removes_unique
  calc p.merge RepositoryPolicyPatch.empty
      = (layered (Layer.merge p.profileLayer ⟨[], []⟩) (Layer.merge p.diagnosticLayer ⟨[], []⟩)
          (Layer.merge p.formatterLayer ⟨[], []⟩) p.executionMode p.adhocRunners
          p.adhocShellRunners p.adhocTimeoutSeconds).construct := rfl
    _ = p.arguments.construct := by
        rw [profiles, diagnostics, formatters]
        rfl
    _ = .ok p := p.again

theorem mention_normalize_merge {ν : Type} {a b ab : Layer PyStr ν} (canonicalA : a.Canonical)
    (canonicalB : b.Canonical) (merged : ab = (a.merge b).normalize) (name : PyStr) :
    ab.mention name = (b.mention name).or (a.mention name) := by
  rw [merged, Overlays.mention_normalize Overlays.merge_apart.unique,
    Overlays.mention_merge canonicalA.toApart canonicalB.toApart]

/-! ## The guarantee -/

/-- Merging is a monoid in which the last mention decides, and tables are faithful. -/
structure PatchLaws (repr : Json → PyStr) (p q r : RepositoryPolicyPatch) : Prop where
  assoc : ∀ pq qr left right, p.merge q = .ok pq → q.merge r = .ok qr → pq.merge r = .ok left →
    p.merge qr = .ok right → left = right
  leftUnit : RepositoryPolicyPatch.empty.merge p = .ok p
  rightUnit : p.merge RepositoryPolicyPatch.empty = .ok p
  lastDecides : ∀ pq, p.merge q = .ok pq → ∀ name,
    pq.profileLayer.mention name = (q.profileLayer.mention name).or (p.profileLayer.mention name) ∧
    pq.diagnosticLayer.mention name =
      (q.diagnosticLayer.mention name).or (p.diagnosticLayer.mention name) ∧
    pq.formatterLayer.mention name =
      (q.formatterLayer.mention name).or (p.formatterLayer.mention name)
  faithful : patchFromTable repr p.asTable = .ok p

/-- The laws hold where every profile has an interval that the reader takes. -/
theorem patch_laws_iff (repr : Json → PyStr) (p q r : RepositoryPolicyPatch) :
    PatchLaws repr p q r ↔
      ∀ profile ∈ p.profiles, 0 ≤ profile.minIntervalSeconds ∧
        profile.minIntervalSeconds ≤ 24 * 60 * 60 := by
  constructor
  · intro laws
    exact (patchFromTable_asTable p).mp laws.faithful
  · intro readable
    exact {
      assoc := fun _ _ _ _ => merge_assoc
      leftUnit := empty_merge p
      rightUnit := merge_empty p
      lastDecides := by
        intro pq h name
        have merged := merge_merged h
        exact ⟨mention_normalize_merge p.checked.profileLayer q.checked.profileLayer
            merged.profileLayer name,
          mention_normalize_merge p.checked.diagnosticLayer q.checked.diagnosticLayer
            merged.diagnosticLayer name,
          mention_normalize_merge p.checked.formatterLayer q.checked.formatterLayer
            merged.formatterLayer name⟩
      faithful := (patchFromTable_asTable p).mpr readable }

/-- A profile that may run once in 100,000 seconds. -/
def rareProfile : ProfilePatch where
  name := lit "nightly"
  description := []
  commands := [[lit "make"]]
  verification := false
  timeoutSeconds := none
  workingDirectory := none
  steps := []
  baselinePolicy := .strictClean
  modelInvocable := true
  minIntervalSeconds := 100000
  accepted := ⟨{
    name := lit "nightly"
    description := []
    commands := [[lit "make"]]
    minIntervalSeconds := 100000 }, rfl⟩

def rarePatch : RepositoryPolicyPatch where
  profiles := [rareProfile]
  diagnostics := []
  formatters := []
  executionMode := none
  adhocRunners := none
  adhocShellRunners := none
  adhocTimeoutSeconds := none
  removeProfiles := []
  removeDiagnostics := []
  removeFormatters := []
  accepted := ⟨{ profiles := [rareProfile] }, rfl⟩

/-- The constructor takes a patch with it, and the reader does not take the table of that patch. -/
theorem patch_laws_fail : ¬ ∀ (repr : Json → PyStr) (p q r : RepositoryPolicyPatch),
    PatchLaws repr p q r := by
  intro laws
  have faithful := (laws (fun _ => []) rarePatch .empty .empty).faithful
  have readable := (patchFromTable_asTable rarePatch).mp faithful rareProfile (by simp [rarePatch])
  exact absurd readable.2 (by decide)

end RepoForge.PolicyPatch
