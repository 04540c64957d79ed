import RepoForge.Spec.Activation.StoreCuts

/-!
# Release pointers and crashes

The pointers name directories on every run. What was current is still named after a cut call, unless
a rollback dies between its two links: it has replaced `current` by then, and not yet `previous`,
while `swap_current` replaces them in the other order.
-/
namespace RepoForge.Activation

open PyText Interruptible Runs

variable {Evidence : Type} {R : Rules Evidence} {r : Root Evidence} {l : Label Evidence}
  {good : ReleaseDir → Prop}

/-- The pointers name directories, and such ones. -/
def PointsTo (good : ReleaseDir → Prop) (r : Root Evidence) : Prop :=
  ∀ link sha, r.links link = some sha → ∃ dir, r.releases.lookup sha = some dir ∧ good dir

/-- A release is activated only if its directory is such a one. -/
def SwapsTo (good : ReleaseDir → Prop) (r : Root Evidence) (l : Label Evidence) : Prop :=
  ∀ pid sha dir, l.request = .swapCurrent pid sha → r.releases.lookup sha.text = some dir → good dir

/-- The release that was current is named by `current` or `previous`. -/
def Survives (R : Rules Evidence) (r : Root Evidence) (l : Label Evidence) : Prop :=
  ∀ sha, r.links .current = some sha → ∃ link, (after R r l).links link = some sha

/-- A rollback dies between its two links. -/
def DiesInRollback (r : Root Evidence) (l : Label Evidence) : Prop :=
  ∃ pid n current previous, l.request = .rollback pid ∧ l.cut = some n ∧
    DiesBetween r pid n current previous

theorem points_step (points : PointsTo good r) (swaps : SwapsTo good r l) :
    PointsTo good (after R r l) := by
  obtain ⟨request, cut⟩ := l
  by_cases swap : ∃ pid sha, request = .swapCurrent pid sha
  · obtain ⟨pid, sha, rfl⟩ := swap
    rcases swap_cut pid sha cut r with same | ⟨installed, switched⟩
    · change PointsTo good (stopped (swapCurrent pid sha) cut r)
      rw [same]
      exact points
    · intro link t named
      change ∃ dir, (stopped (swapCurrent pid sha) cut r).releases.lookup t = some dir ∧ good dir
      rw [switched.files.releases]
      rcases switched.targets link t named with ⟨link', named⟩ | rfl
      · exact points link' t named
      · obtain ⟨dir, there⟩ := Option.isSome_iff_exists.mp installed
        exact ⟨dir, there, swaps pid sha dir rfl there⟩
  · by_cases roll : ∃ pid, request = .rollback pid
    · obtain ⟨pid, rfl⟩ := roll
      obtain ⟨n, same, -⟩ := stopped_number (rollback pid) cut r 0
      obtain ⟨files, targets, -⟩ := rollback_cut pid n r
      intro link t named
      change (stopped (rollback pid) cut r).links link = some t at named
      change ∃ dir, (stopped (rollback pid) cut r).releases.lookup t = some dir ∧ good dir
      rw [same] at named ⊢
      obtain ⟨link', named⟩ := targets link t named
      rw [files.releases]
      exact points link' t named
    · have links : (after R r ⟨request, cut⟩).links = r.links :=
        links_after (fun pid sha same => swap ⟨pid, sha, same⟩) fun pid same => roll ⟨pid, same⟩
      intro link t named
      rw [links] at named
      rw [releases_after fun keep candidates seen => named_kept seen named]
      exact points link t named

/-- A call loses what was current only where a rollback dies between its links. -/
theorem survives_iff : Survives R r l ↔ ¬ DiesInRollback r l := by
  obtain ⟨request, cut⟩ := l
  by_cases roll : ∃ pid, request = .rollback pid
  · obtain ⟨pid, rfl⟩ := roll
    obtain ⟨n, same, number⟩ := stopped_number (rollback pid) cut r
      (linkSteps r .current pid + linkSteps r .previous pid)
    obtain ⟨-, -, kept⟩ := rollback_cut pid n r
    have dies_iff : ∀ current previous, DiesBetween r pid n current previous → cut = some n := by
      intro current previous dies
      have second := dies.second
      exact number.resolve_right fun ⟨_, late⟩ => by omega
    constructor
    · rintro survives ⟨_, m, current, previous, ⟨⟩, rfl, dies⟩
      cases number.resolve_right (fun none => by cases none.1)
      obtain ⟨link, named⟩ := survives current dies.current_set
      exact (kept current dies.current_set).mp ⟨link, named⟩ ⟨previous, dies⟩
    · intro alive sha named
      change ∃ link, (stopped (rollback pid) cut r).links link = some sha
      rw [same]
      exact (kept sha named).mpr fun ⟨previous, dies⟩ =>
        alive ⟨pid, n, sha, previous, rfl, dies_iff sha previous dies, dies⟩
  · have alive : ¬ DiesInRollback r ⟨request, cut⟩ := fun ⟨pid, _, _, _, same, _⟩ =>
      roll ⟨pid, same⟩
    refine ⟨fun _ => alive, fun _ sha named => ?_⟩
    by_cases swap : ∃ pid sha, request = .swapCurrent pid sha
    · obtain ⟨pid, target, rfl⟩ := swap
      rcases swap_cut pid target cut r with same | ⟨-, switched⟩
      · refine ⟨.current, ?_⟩
        change (stopped (swapCurrent pid target) cut r).links .current = some sha
        rw [same]
        exact named
      · exact switched.kept sha named
    · have links : (after R r ⟨request, cut⟩).links = r.links :=
        links_after (fun pid sha same => swap ⟨pid, sha, same⟩) fun pid same => roll ⟨pid, same⟩
      exact ⟨.current, by rw [links]; exact named⟩

/-- A rollback that comes past its first link makes the previous release current. -/
theorem rollback_reaches {pid n : Nat} {sha : Text} (named : r.links .previous = some sha)
    (installed : (r.releases.lookup sha).isSome = true) (past : linkSteps r .current pid ≤ n) :
    (stopped (rollback pid) (some n) r).links .current = some sha := by
  unfold rollback
  rw [stopped_inspect]
  dsimp only [id]
  rw [named]
  dsimp only
  rw [if_neg (by simpa [Option.isSome_iff_ne_none] using installed)]
  split
  · rw [(stopped_last sha sha .current pid n r).2, if_neg (by omega), Function.update_self]
  · rename_i current set
    rw [(stopped_both sha sha current pid n r (show Link.previous ≠ .current by decide)).2,
      if_neg (by omega)]
    split_ifs
    · rw [Function.update_self]
    · rw [Function.update_of_ne (by decide), Function.update_self]

/-- What is named is not pruned, and if it is the previous release a rollback reaches it. -/
def Reachable (r : Root Evidence) : Prop :=
  ∀ link sha, r.links link = some sha →
    (∀ keep candidates, retentionCandidates r keep = .ok candidates → sha ∉ candidates) ∧
    (link = .previous → ∀ pid n, linkSteps r .current pid ≤ n →
      (stopped (rollback pid) (some n) r).links .current = some sha)

theorem reachable_of_points (points : PointsTo good r) : Reachable r := by
  intro link sha named
  constructor
  · intro keep candidates seen
    exact named_kept seen named
  · rintro rfl pid n past
    obtain ⟨dir, there, -⟩ := points .previous sha named
    exact rollback_reaches named (by rw [there]; rfl) past

theorem swapsTo_any : SwapsTo (fun _ => True) r l := fun _ _ _ _ _ => trivial

/-- On every run the pointers name directories, which are not pruned; they name releases with a
manifest if only such are activated. No call loses what was current if and only if no rollback dies
between its two links. -/
theorem pointers_survive {root : Root Evidence} {labels : List (Label Evidence)}
    (start : PointsTo (fun _ => True) root) :
    Throughout (after R) (fun r => PointsTo (fun _ => True) r ∧ Reachable r) root labels ∧
    (PointsTo (fun dir => dir.manifest.isSome = true) root →
      Along (after R) (SwapsTo fun dir => dir.manifest.isSome = true) root labels →
      Throughout (after R) (PointsTo fun dir => dir.manifest.isSome = true) root labels) ∧
    (Along (after R) (Survives R) root labels ↔
      Along (after R) (fun r l => ¬ DiesInRollback r l) root labels) := by
  refine ⟨?_, ?_, ?_⟩
  · have points : Throughout (after R) (PointsTo fun _ => True) root labels :=
      (along_of_forall fun l _ s => swapsTo_any (r := s) (l := l)).invariant
        (fun _ _ => points_step) start
    exact fun done rest split => ⟨points done rest split, reachable_of_points (points done rest split)⟩
  · intro manifests swaps
    exact swaps.invariant (fun _ _ => points_step) manifests
  · constructor
    · exact fun survive => survive.imp fun _ _ => survives_iff.mp
    · exact fun alive => alive.imp fun _ _ => survives_iff.mpr

/-! A root with two releases, of which `a…` is current and `b…` previous. -/

def shaA : Text := List.replicate 7 'a'
def shaB : Text := List.replicate 7 'b'

def sampleRules : Rules Unit where
  canonical _ := []
  sha256 _ := List.replicate 64 'e'
  order _ := [.manifest]

def sampleDir (sha : Text) : ReleaseDir :=
  ⟨some (.object ⟨sha, List.replicate 64 'd', ['1']⟩), []⟩

def sampleRoot : Root Unit where
  releases := (AList.singleton shaA (sampleDir shaA)).insert shaB (sampleDir shaB)
  links
    | .current => some shaA
    | .previous => some shaB
  temporary _ _ := none
  journal := none
  receipts := ∅
  artifacts := ∅

theorem sample_points : PointsTo (fun _ => True) sampleRoot := by
  intro link sha named
  cases link <;> cases named
  · exact ⟨sampleDir shaA, by decide, trivial⟩
  · exact ⟨sampleDir shaB, by decide, trivial⟩

theorem pointers_survive_sample :
    Along (after sampleRules) (Survives sampleRules) sampleRoot [⟨.rollback 1, none⟩] :=
  (pointers_survive sample_points).2.2.mpr
    (along_cons.mpr ⟨fun ⟨_, _, _, _, _, cut, _⟩ => (nomatch cut), along_nil⟩)

/-- A rollback that dies after its first link: both pointers name `b…`, and `a…`, which was current,
is what retention removes next. -/
theorem rollback_loses_current :
    ¬ Survives sampleRules sampleRoot ⟨.rollback 1, some 2⟩ ∧
      retentionCandidates (after sampleRules sampleRoot ⟨.rollback 1, some 2⟩) 0 =
        .ok [shaA] := by
  constructor
  · intro survives
    obtain ⟨link, named⟩ := survives shaA rfl
    revert named
    cases link <;> decide
  · decide

end RepoForge.Activation
