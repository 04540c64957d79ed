import RepoForge.Spec.Activation.StoreCuts

/-!
# Crashes that wedge the release store

Three cuts do: between the exclusive create of the journal or of an artifact and the write of its
content, and in a removed tree after the manifest is gone and before the directory is. Every reader
accepts what any other cut leaves.
-/
namespace RepoForge.Activation

open PyText Interruptible Runs

variable {Evidence : Type} {R : Rules Evidence} {r : Root Evidence} {l : Label Evidence}
  {sha fingerprint : Text} {dir : ReleaseDir}

/-! ### One removed tree -/

/-- A release after `k` changes of its removal. -/
def treeAfter (R : Rules Evidence) (sha : Text) (dir : ReleaseDir) (k : Nat) : Option ReleaseDir :=
  let left := ((R.order sha).take k).foldl ReleaseDir.unlink dir
  if (R.order sha).length < k ∧ left.manifest.isNone ∧ left.others.isEmpty then none else some left

theorem unlink_manifest (entries : List Entry) (dir : ReleaseDir) :
    (entries.foldl ReleaseDir.unlink dir).manifest =
      if Entry.manifest ∈ entries then none else dir.manifest := by
  induction entries generalizing dir with
  | nil => rfl
  | cons entry rest ih =>
    rw [List.foldl_cons, ih]
    cases entry with
    | manifest => simp [ReleaseDir.unlink]
    | other path => simp [ReleaseDir.unlink]

theorem unlinkEntry_there {entry : Entry} (there : r.releases.lookup sha = some dir) :
    (unlinkEntry sha entry r).releases.lookup sha = some (dir.unlink entry) := by
  unfold unlinkEntry
  rw [there]
  exact AList.lookup_insert _

theorem applied_unlinks (entries : List Entry) (r : Root Evidence)
    (there : r.releases.lookup sha = some dir) :
    (applied (entries.map (unlinkEntry sha)) r).releases.lookup sha =
      some (entries.foldl ReleaseDir.unlink dir) := by
  induction entries generalizing dir r with
  | nil => exact there
  | cons entry rest ih =>
    exact ih _ (unlinkEntry_there there)

theorem tree_cut (k : Nat) (there : r.releases.lookup sha = some dir) :
    (applied ((removeChanges R sha).take k) r).releases.lookup sha = treeAfter R sha dir k := by
  unfold removeChanges treeAfter
  rw [List.take_append, applied_append, List.length_map, ← List.map_take]
  have unlinked := applied_unlinks ((R.order sha).take k) r there
  dsimp only
  by_cases whole : (R.order sha).length < k
  · rw [List.take_of_length_le (l := [removeDir sha]) (by simp; omega)]
    rw [applied_cons, applied_nil, removeDir, unlinked]
    dsimp only
    by_cases empty : (((R.order sha).take k).foldl ReleaseDir.unlink dir).manifest.isNone = true ∧
        (((R.order sha).take k).foldl ReleaseDir.unlink dir).others.isEmpty = true
    · rw [if_pos (by simpa using empty), if_pos ⟨whole, empty⟩]
      exact AList.lookup_erase _ _
    · rw [if_neg (by simpa using empty), if_neg fun h => empty h.2]
      exact unlinked
  · rw [Nat.sub_eq_zero_of_le (by omega), List.take_zero, applied_nil, if_neg fun h => whole h.1]
    exact unlinked

/-- A release after `n` changes of the removal of several. -/
theorem removals_cut {before rest : List Text} (distinct : (before ++ sha :: rest).Nodup) (n : Nat)
    (there : r.releases.lookup sha = some dir) :
    (applied (((before ++ sha :: rest).flatMap (removeChanges R)).take n) r).releases.lookup sha =
      treeAfter R sha dir (n - offset R before) := by
  obtain ⟨-, tail, apart⟩ := List.nodup_append.mp distinct
  have first : sha ∉ before := fun inside => apart sha inside sha List.mem_cons_self rfl
  rw [List.flatMap_append, List.take_append, applied_append, List.flatMap_cons, List.take_append,
    applied_append]
  rw [(removals_frame _ _).releases sha (List.nodup_cons.mp tail).1]
  exact tree_cut _ (((removals_frame _ r).releases sha first).trans there)

theorem installedShas_nodup (root : Root Evidence) : (installedShas root).Nodup := by
  unfold installedShas
  rw [(List.perm_insertionSort _ _).nodup_iff]
  exact root.releases.nodupKeys.filter _

/-- A manifest that was read stands in its release. -/
theorem readManifest_ok {manifest : Option ReleaseManifest}
    (read : readManifest r sha = .ok manifest) :
    (r.releases.lookup sha).bind (·.manifest) = manifest.map .object := by
  unfold readManifest at read
  match file : (r.releases.lookup sha).bind (·.manifest) with
  | none =>
    rw [file] at read
    cases read
    rfl
  | some .blank =>
    rw [file] at read
    cases read
  | some .other =>
    rw [file] at read
    cases read
  | some (.object manifest) =>
    rw [file] at read
    cases read
    rfl

theorem readManifest_of {manifest : Option ReleaseManifest}
    (file : (r.releases.lookup sha).bind (·.manifest) = manifest.map .object) :
    readManifest r sha = .ok manifest := by
  unfold readManifest
  rw [file]
  cases manifest <;> rfl

/-- A release that retention wants to remove is installed, and its manifest was read. -/
theorem candidate_manifest {keep : Int} {candidates : List Text}
    (seen : retentionCandidates r keep = .ok candidates) :
    candidates.Nodup ∧ ∀ sha ∈ candidates, ∃ dir manifest, r.releases.lookup sha = some dir ∧
      dir.manifest = some (.object manifest) := by
  unfold retentionCandidates at seen
  split at seen
  · cases seen
  · obtain ⟨releases, listed, seen⟩ := bind_ok seen
    cases seen
    refine ⟨(installedShas_nodup r).filter _, fun sha inside => ?_⟩
    have installed := List.mem_of_mem_filter inside
    unfold listReleases at listed
    obtain ⟨manifests, read, -⟩ := bind_ok listed
    obtain ⟨manifest, -, read⟩ := forall₂_mem (mapM_ok read) installed
    have file := readManifest_ok read
    have some : ((r.releases.lookup sha).bind (·.manifest)).isSome = true :=
      (List.mem_filter.mp ((List.perm_insertionSort _ _).mem_iff.mp installed)).2
    rw [file] at some
    cases manifest with
    | none => cases some
    | some manifest =>
      obtain ⟨dir, there, manifested⟩ := Option.bind_eq_some_iff.mp file
      exact ⟨dir, manifest, there, manifested⟩

theorem treeAfter_manifest {left : ReleaseDir} {k : Nat} (tree : treeAfter R sha dir k = some left) :
    left.manifest = none ∨ left.manifest = dir.manifest := by
  unfold treeAfter at tree
  dsimp only at tree
  split at tree
  · cases tree
  · cases tree
    rw [unlink_manifest]
    split
    · exact .inl rfl
    · exact .inr rfl

/-- When a removal leaves a directory without a manifest. -/
theorem treeAfter_torn {file : JsonFile ReleaseManifest} {k : Nat}
    (manifested : dir.manifest = some file) :
    (∃ left, treeAfter R sha dir k = some left ∧ left.manifest = none) ↔
      Entry.manifest ∈ (R.order sha).take k ∧
        (k ≤ (R.order sha).length ∨ ((R.order sha).foldl ReleaseDir.unlink dir).others ≠ []) := by
  have gone : (((R.order sha).take k).foldl ReleaseDir.unlink dir).manifest = none ↔
      Entry.manifest ∈ (R.order sha).take k := by
    rw [unlink_manifest]
    simp [manifested]
  unfold treeAfter
  dsimp only
  by_cases late : (R.order sha).length < k
  · rw [List.take_of_length_le late.le] at gone ⊢
    split
    · rename_i empty
      refine ⟨nofun, fun ⟨_, torn⟩ => ?_⟩
      rcases torn with early | full
      · omega
      · exact absurd (List.isEmpty_iff.mp empty.2.2) full
    · rename_i full
      constructor
      · rintro ⟨left, ⟨⟩, lost⟩
        refine ⟨gone.mp lost, .inr fun empty => full ⟨late, ?_, ?_⟩⟩
        · rw [lost]
          rfl
        · rw [empty]
          rfl
      · exact fun ⟨deleted, _⟩ => ⟨_, rfl, gone.mpr deleted⟩
  · rw [if_neg fun h => late h.1]
    constructor
    · rintro ⟨left, ⟨⟩, lost⟩
      exact ⟨gone.mp lost, .inl (by omega)⟩
    · exact fun ⟨deleted, _⟩ => ⟨_, rfl, gone.mpr deleted⟩

/-! ### The store after a cut -/

/-- A prune dies in a tree whose manifest is deleted and whose directory is not; or it goes on from
a tree that lost its manifest and could not be emptied. -/
def LeavesTree (R : Rules Evidence) (r : Root Evidence) (l : Label Evidence) : Prop :=
  ∃ keep protect candidates before sha rest dir k,
    l.request = .prune keep protect ∧ retentionCandidates r keep = .ok candidates ∧
    candidates.filter (fun sha => !protect.contains sha) = before ++ sha :: rest ∧
    r.releases.lookup sha = some dir ∧
    k = l.cut.getD (offset R (before ++ sha :: rest)) - offset R before ∧
    Entry.manifest ∈ (R.order sha).take k ∧
    (k ≤ (R.order sha).length ∨ ((R.order sha).foldl ReleaseDir.unlink dir).others ≠ [])

/-- The journal is created and not written. -/
def LeavesJournal (r : Root Evidence) (l : Label Evidence) : Prop :=
  ∃ receiptId fromSha toSha transitionId,
    l.request = .beginActivation receiptId fromSha toSha transitionId ∧ r.journal = none ∧
    l.cut = some 1

/-- An artifact is created and not written. -/
def LeavesArtifact (R : Rules Evidence) (r : Root Evidence) (l : Label Evidence) : Prop :=
  ∃ reclamation, l.request = .writeWorkerReclamationArtifact reclamation ∧
    r.artifacts.lookup (artifactIdOf (digestOf R reclamation)) = none ∧ l.cut = some 1

/-- What the readers and the repeated calls find after a cut. -/
structure Unwedged (R : Rules Evidence) (r : Root Evidence) (l : Label Evidence) : Prop where
  journal : ∃ journal, readInFlightActivation (after R r l) = .ok journal
  receipts : ∃ history, receiptHistory (after R r l) = .ok history
  /-- The same evidence can be written again, if it could before. -/
  artifact : ∀ reclamation pair, l.request = .writeWorkerReclamationArtifact reclamation →
    (writeWorkerReclamationArtifact R reclamation r).result = .ok pair →
    (writeWorkerReclamationArtifact R reclamation (after R r l)).result = .ok pair
  /-- A release that was installed is not refused on every later run. -/
  reserve : ∀ keep protect sha manifest, l.request = .prune keep protect →
    readManifest r sha = .ok (some manifest) →
    ∃ labels reserved,
      reserveRelease (run (after R) (after R r l) labels) sha manifest.buildFingerprint =
        .ok reserved
  begin_ : ∀ receiptId fromSha toSha transitionId,
    (beginActivation receiptId fromSha toSha transitionId
      ((endActivation (after R r l)).state)).result = .ok ()

theorem readInFlight_iff : (∃ journal, readInFlightActivation r = .ok journal) ↔
    r.journal ≠ some .blank := by
  unfold readInFlightActivation
  match r.journal with
  | none => exact ⟨fun _ => nofun, fun _ => ⟨_, rfl⟩⟩
  | some .blank => exact ⟨fun ⟨_, read⟩ => (by cases read), fun blank => absurd rfl blank⟩
  | some .other => exact ⟨fun _ => nofun, fun _ => ⟨_, rfl⟩⟩
  | some (.object journal) => exact ⟨fun _ => nofun, fun _ => ⟨_, rfl⟩⟩

/-- Only a cut of `begin_activation` makes a blank journal. -/
theorem journal_after (sound : r.journal ≠ some .blank) :
    (after R r l).journal = some .blank ↔ LeavesJournal r l := by
  obtain ⟨request, cut⟩ := l
  have steady : (after R r ⟨request, cut⟩).journal = r.journal →
      ¬ LeavesJournal r ⟨request, cut⟩ →
      ((after R r ⟨request, cut⟩).journal = some .blank ↔ LeavesJournal r ⟨request, cut⟩) :=
    fun same never => ⟨fun blank => absurd (same ▸ blank) sound, fun leaves => absurd leaves never⟩
  cases request with
  | swapCurrent pid sha =>
    refine steady ?_ fun ⟨_, _, _, _, other, _⟩ => (by cases other)
    change (stopped (swapCurrent pid sha) cut r).journal = r.journal
    rcases swap_cut pid sha cut r with same | ⟨-, switched⟩
    · rw [same]
    · exact switched.files.journal
  | rollback pid =>
    refine steady ?_ fun ⟨_, _, _, _, other, _⟩ => (by cases other)
    obtain ⟨n, same, -⟩ := stopped_number (rollback pid) cut r 0
    change (stopped (rollback pid) cut r).journal = r.journal
    rw [same]
    exact (rollback_cut pid n r).1.journal
  | prune keep protect =>
    refine steady ?_ fun ⟨_, _, _, _, other, _⟩ => (by cases other)
    change (stopped (prune R keep protect) cut r).journal = r.journal
    rcases prune_frame keep protect cut r with same | ⟨_, -, kept⟩
    · rw [same]
    · exact kept.journal
  | recordActivationStage stage =>
    obtain ⟨n, same, -⟩ := stopped_number (recordActivationStage stage) cut r 0
    refine ⟨fun blank => ?_, fun ⟨_, _, _, _, other, _⟩ => (by cases other)⟩
    change (stopped (recordActivationStage stage) cut r).journal = some .blank at blank
    rw [same] at blank
    rcases record_cut stage n r with none | ⟨journal, -, some⟩
    · rw [none] at blank
      exact absurd blank sound
    · rw [some] at blank
      cases blank
  | endActivation =>
    obtain ⟨n, same, -⟩ := stopped_number endActivation cut r 0
    refine ⟨fun blank => ?_, fun ⟨_, _, _, _, other, _⟩ => (by cases other)⟩
    change (stopped endActivation cut r).journal = some .blank at blank
    rw [same, end_cut] at blank
    split at blank
    · exact absurd blank sound
    · cases blank
  | writeReceipt receipt =>
    refine steady ?_ fun ⟨_, _, _, _, other, _⟩ => (by cases other)
    obtain ⟨n, same, -⟩ := stopped_number (writeReceipt receipt) cut r 0
    obtain ⟨receipts, files⟩ := receipt_cut receipt n r
    change (stopped (writeReceipt receipt) cut r).journal = r.journal
    rw [same, files]
  | writeWorkerReclamationArtifact reclamation =>
    refine steady ?_ fun ⟨_, _, _, _, other, _⟩ => (by cases other)
    obtain ⟨n, same, -⟩ := stopped_number (writeWorkerReclamationArtifact R reclamation) cut r 0
    change (stopped (writeWorkerReclamationArtifact R reclamation) cut r).journal = r.journal
    rw [same]
    rcases artifact_cut (R := R) reclamation n r with ⟨none, -⟩ | ⟨-, ⟨-, some⟩ | ⟨-, some⟩⟩
    · rw [none]
    · rw [some]
    · rw [some]
  | beginActivation receiptId fromSha toSha transitionId =>
    obtain ⟨n, same, number⟩ :=
      stopped_number (beginActivation receiptId fromSha toSha transitionId) cut r 1
    change (stopped (beginActivation receiptId fromSha toSha transitionId) cut r).journal =
      some .blank ↔ _
    rw [same, begin_cut]
    constructor
    · intro blank
      split at blank
      · exact absurd blank sound
      · rename_i free
        match n with
        | 0 => exact absurd blank sound
        | 1 =>
          exact ⟨_, _, _, _, rfl, by simpa using free, number.resolve_right fun late => by omega⟩
        | n + 2 => cases blank
    · rintro ⟨_, _, _, _, -, free, cut⟩
      have one : n = 1 := by
        rcases number with number | ⟨none, -⟩
        · exact Option.some.inj (number.symm.trans cut)
        · rw [none] at cut
          cases cut
      rw [if_neg (by simp [free]), one]
      rfl

/-! ### Evidence -/

section Evidence

variable {reclamation : Evidence}

theorem write_free
    (free : r.artifacts.lookup (artifactIdOf (digestOf R reclamation)) = none) :
    (writeWorkerReclamationArtifact R reclamation r).result =
      .ok (artifactIdOf (digestOf R reclamation), digestOf R reclamation) := by
  unfold writeWorkerReclamationArtifact
  rw [@Proc.bind_run _ _ _ _ _ _ r r rfl]
  change Outcome.result ((if (r.artifacts.lookup (artifactIdOf (digestOf R reclamation))).isSome
    then _ else _ : Call Evidence (Text × Text)) r) = _
  rw [if_neg (by simp [free]), bind_changes]
  rfl

/-- Where there is a file, it is read and compared. -/
theorem write_stored {file : JsonFile (Artifact Evidence)}
    (stored : r.artifacts.lookup (artifactIdOf (digestOf R reclamation)) = some file) :
    (writeWorkerReclamationArtifact R reclamation r).result =
      Outcome.result ((match readWorkerReclamationArtifact r
          (artifactIdOf (digestOf R reclamation)) with
        | none => Proc.raise .workerReclamationArtifactCollision
        | some existing =>
          if existing.sha256 ≠ digestOf R reclamation then
            Proc.raise .workerReclamationArtifactCollision
          else return (artifactIdOf (digestOf R reclamation), digestOf R reclamation) :
            Call Evidence (Text × Text)) r) := by
  unfold writeWorkerReclamationArtifact
  rw [@Proc.bind_run _ _ _ _ _ _ r r rfl]
  change Outcome.result ((if (r.artifacts.lookup (artifactIdOf (digestOf R reclamation))).isSome
    then _ else _ : Call Evidence (Text × Text)) r) = _
  exact congrArg (fun call : Call Evidence (Text × Text) => Outcome.result (call r))
    (if_pos (by simp [stored]))

theorem write_blank
    (stored : r.artifacts.lookup (artifactIdOf (digestOf R reclamation)) = some .blank) :
    (writeWorkerReclamationArtifact R reclamation r).result =
      .error .workerReclamationArtifactCollision := by
  rw [write_stored stored, readWorkerReclamationArtifact, stored]
  rfl

theorem write_own {artifact : Artifact Evidence}
    (stored : r.artifacts.lookup (artifactIdOf (digestOf R reclamation)) = some (.object artifact))
    (own : artifact.sha256 = digestOf R reclamation) :
    (writeWorkerReclamationArtifact R reclamation r).result =
      .ok (artifactIdOf (digestOf R reclamation), digestOf R reclamation) := by
  rw [write_stored stored, readWorkerReclamationArtifact, stored]
  change Outcome.result ((if artifact.sha256 ≠ digestOf R reclamation then _ else _ :
    Call Evidence (Text × Text)) r) = _
  rw [if_neg (not_not.mpr own)]
  rfl

/-- The same evidence can be written again, unless its file was created and not written. -/
theorem rewrite_iff (cut : Option Nat) :
    (∀ pair, (writeWorkerReclamationArtifact R reclamation r).result = .ok pair →
      (writeWorkerReclamationArtifact R reclamation
        (stopped (writeWorkerReclamationArtifact R reclamation) cut r)).result = .ok pair) ↔
    ¬ (r.artifacts.lookup (artifactIdOf (digestOf R reclamation)) = none ∧ cut = some 1) := by
  obtain ⟨n, same, number⟩ := stopped_number (writeWorkerReclamationArtifact R reclamation) cut r 1
  rw [same]
  rcases artifact_cut (R := R) reclamation n r with
    ⟨whole, early⟩ | ⟨free, ⟨rfl, blank⟩ | ⟨late, written⟩⟩
  · rw [whole]
    refine ⟨fun _ ⟨free, cut⟩ => ?_, fun _ _ first => first⟩
    have zero := early free
    rcases number with number | ⟨none, -⟩
    · rw [cut] at number
      cases number
      cases zero
    · rw [cut] at none
      cases none
  · have cut : cut = some 1 := number.resolve_right fun late => by omega
    refine ⟨fun again => ?_, fun never => absurd ⟨free, cut⟩ never⟩
    have second := again _ (write_free free)
    rw [write_blank (by rw [blank]; exact AList.lookup_insert _)] at second
    cases second
  · constructor
    · rintro - ⟨-, rfl⟩
      rcases number with number | ⟨none, -⟩
      · cases number
        omega
      · cases none
    · intro _ pair first
      rw [write_free free] at first
      rw [write_own (by rw [written]; exact AList.lookup_insert _) rfl]
      exact first

end Evidence

/-! ### Reservations -/

theorem reserve_torn (there : r.releases.lookup sha = some dir) (lost : dir.manifest = none) :
    reserveRelease r sha fingerprint = .error .releaseDirUnclaimable := by
  have read : readManifest r sha = .ok none := readManifest_of (by rw [there]; exact lost)
  unfold reserveRelease
  rw [if_neg (by simp [there]), read]
  rfl

theorem reserve_installed {manifest : ReleaseManifest} (there : r.releases.lookup sha = some dir)
    (file : dir.manifest = some (.object manifest)) :
    reserveRelease r sha manifest.buildFingerprint = .ok false := by
  have read : readManifest r sha = .ok (some manifest) :=
    readManifest_of (by rw [there]; exact file)
  unfold reserveRelease
  rw [if_neg (by simp [there]), read, ok_bind]
  dsimp only
  rw [if_neg (not_not.mpr rfl)]
  rfl

theorem reserve_gone (gone : r.releases.lookup sha = none) :
    reserveRelease r sha fingerprint = .ok true := by
  unfold reserveRelease
  rw [if_pos (by simp [gone])]
  rfl

/-- A directory without a manifest stays, whatever is called. -/
theorem torn_stays (there : r.releases.lookup sha = some dir) (lost : dir.manifest = none)
    (labels : List (Label Evidence)) :
    (run (after R) r labels).releases.lookup sha = some dir := by
  have step : ∀ s l, s.releases.lookup sha = some dir → True →
      (after R s l).releases.lookup sha = some dir := by
    intro s l here _
    rw [releases_after]
    · exact here
    · intro keep candidates seen inside
      obtain ⟨-, manifests⟩ := candidate_manifest seen
      obtain ⟨dir', manifest, there', file⟩ := manifests sha inside
      rw [here] at there'
      cases there'
      rw [lost] at file
      cases file
  exact (Along.invariant step (along_of_forall fun _ _ _ => trivial) there).last

theorem reserve_iff {keep : Int} {protect : List Text} {cut : Option Nat} :
    (∀ sha manifest, readManifest r sha = .ok (some manifest) → ∃ labels reserved,
      reserveRelease (run (after R) (stopped (prune R keep protect) cut r) labels) sha
        manifest.buildFingerprint = .ok reserved) ↔
      ¬ LeavesTree R r ⟨.prune keep protect, cut⟩ := by
  constructor
  · rintro claimable ⟨_, _, candidates, before, sha, rest, dir, k, ⟨⟩, seen, victims, there, rfl,
      torn⟩
    have inside : sha ∈ candidates := List.mem_of_mem_filter (by rw [victims]; simp)
    obtain ⟨distinct, manifests⟩ := candidate_manifest seen
    obtain ⟨dir', manifest, there', file⟩ := manifests sha inside
    rw [there] at there'
    cases there'
    obtain ⟨left, after_, lost⟩ := (treeAfter_torn file).mpr torn
    obtain ⟨labels, reserved, claimed⟩ := claimable sha manifest
      (readManifest_of (by rw [there]; exact file))
    have there' : (stopped (prune R keep protect) cut r).releases.lookup sha = some left := by
      rw [prune_cut seen victims, removals_cut (victims ▸ distinct.filter _) _ there]
      exact after_
    rw [reserve_torn (torn_stays there' lost labels) lost] at claimed
    cases claimed
  · intro whole sha manifest read
    obtain ⟨dir, there, file⟩ := Option.bind_eq_some_iff.mp (readManifest_ok read)
    refine ⟨[], ?_⟩
    rw [run_nil]
    cases seen : retentionCandidates r keep with
    | error e =>
      rw [prune_refused seen]
      exact ⟨_, reserve_installed there file⟩
    | ok candidates =>
      rw [prune_cut seen rfl]
      by_cases inside : sha ∈ candidates.filter fun sha => !protect.contains sha
      · obtain ⟨before, rest, victims⟩ := List.append_of_mem inside
        have distinct := victims ▸ (candidate_manifest seen).1.filter _
        have left := removals_cut (R := R) distinct
          (cut.getD (offset R (before ++ sha :: rest))) there
        rw [victims]
        cases tree : treeAfter R sha dir (cut.getD (offset R (before ++ sha :: rest)) -
            offset R before) with
        | none =>
          rw [tree] at left
          exact ⟨_, reserve_gone left⟩
        | some tree' =>
          rw [tree] at left
          by_cases lost : tree'.manifest = none
          · exact absurd ⟨keep, protect, candidates, before, sha, rest, dir, _, rfl, seen, victims,
              there, rfl, (treeAfter_torn file).mp ⟨tree', tree, lost⟩⟩ whole
          · have kept : tree'.manifest = dir.manifest := (treeAfter_manifest tree).resolve_left lost
            exact ⟨_, reserve_installed left (kept.trans file)⟩
      · exact ⟨_, reserve_installed (((removals_frame _ r).releases sha inside).trans there) file⟩

/-! ### Every cut -/

theorem begin_after_end (receiptId : Text) (fromSha : Option Text) (toSha : Text)
    (transitionId : Option Text) (r : Root Evidence) :
    (beginActivation receiptId fromSha toSha transitionId (endActivation r).state).result =
      .ok () := by
  have ended : (endActivation r).state = { r with journal := none } := by
    unfold endActivation
    rw [changes_state]
    rfl
  rw [ended]
  rfl

theorem unwedged_iff (sound : r.journal ≠ some .blank) : Unwedged R r l ↔
    ¬ LeavesJournal r l ∧ ¬ LeavesArtifact R r l ∧ ¬ LeavesTree R r l := by
  obtain ⟨request, cut⟩ := l
  constructor
  · intro ok
    refine ⟨?_, ?_, ?_⟩
    · rw [← journal_after (R := R) sound]
      exact readInFlight_iff.mp ok.journal
    · rintro ⟨reclamation, rfl, free, rfl⟩
      exact (rewrite_iff (some 1)).mp (fun pair => ok.artifact reclamation pair rfl) ⟨free, rfl⟩
    · rintro ⟨keep, protect, candidates, before, sha, rest, dir, k, rfl, torn⟩
      exact reserve_iff.mp (fun sha manifest => ok.reserve keep protect sha manifest rfl)
        ⟨keep, protect, candidates, before, sha, rest, dir, k, rfl, torn⟩
  · rintro ⟨journal, artifact, tree⟩
    constructor
    · rw [readInFlight_iff, ne_eq, journal_after sound]
      exact journal
    · exact ⟨_, rfl⟩
    · rintro reclamation pair rfl
      exact (rewrite_iff cut).mpr (fun torn => artifact ⟨reclamation, rfl, torn⟩) pair
    · rintro keep protect sha manifest rfl
      exact reserve_iff.mpr tree sha manifest
    · intro receiptId fromSha toSha transitionId
      exact begin_after_end receiptId fromSha toSha transitionId _

/-- No call of a run wedges the store if and only if no cut falls into one of the three gaps. -/
theorem store_not_wedged {root : Root Evidence} {labels : List (Label Evidence)}
    (start : root.journal ≠ some .blank) :
    Along (after R) (Unwedged R) root labels ↔ Along (after R) (fun r l =>
      ¬ LeavesJournal r l ∧ ¬ LeavesArtifact R r l ∧ ¬ LeavesTree R r l) root labels := by
  induction labels generalizing root with
  | nil => exact ⟨fun _ => along_nil, fun _ => along_nil⟩
  | cons l rest ih =>
    rw [along_cons, along_cons, unwedged_iff start]
    refine and_congr_right fun whole => ih ?_
    rw [ne_eq, journal_after start]
    exact whole.1

/-! A root with one release. -/

def oneSha : Text := List.replicate 7 'a'

def oneManifest : ReleaseManifest := ⟨oneSha, List.replicate 64 'd', ['1']⟩

def oneRules : Rules Unit where
  canonical _ := []
  sha256 _ := List.replicate 64 'e'
  order _ := [.manifest]

def oneRelease : Root Unit where
  releases := AList.singleton oneSha ⟨some (.object oneManifest), []⟩
  links _ := none
  temporary _ _ := none
  journal := none
  receipts := ∅
  artifacts := ∅

theorem store_not_wedged_sample :
    Along (after oneRules) (Unwedged oneRules) oneRelease [⟨.endActivation, some 0⟩] :=
  (store_not_wedged (by decide)).mpr (along_cons.mpr ⟨⟨fun ⟨_, _, _, _, other, _⟩ => (nomatch other),
    fun ⟨_, other, _⟩ => (nomatch other), fun ⟨_, _, _, _, _, _, _, _, other, _⟩ => (nomatch other)⟩,
    along_nil⟩)

/-- In each of the gaps a cut does wedge: the journal is not read, the evidence is not written, and
the commit can never be installed again. -/
theorem gaps_wedge :
    readInFlightActivation (after oneRules oneRelease ⟨.beginActivation [] none oneSha none, some 1⟩) =
      .error .cannotRead ∧
    (writeWorkerReclamationArtifact oneRules ()
      (after oneRules oneRelease ⟨.writeWorkerReclamationArtifact (), some 1⟩)).result =
        .error .workerReclamationArtifactCollision ∧
    ∀ labels, reserveRelease (run (after oneRules)
      (after oneRules oneRelease ⟨.prune 0 [], some 1⟩) labels) oneSha
        oneManifest.buildFingerprint = .error .releaseDirUnclaimable := by
  refine ⟨by decide, by rfl, fun labels => ?_⟩
  have torn : (after oneRules oneRelease ⟨.prune 0 [], some 1⟩).releases.lookup oneSha =
      some ⟨none, []⟩ := by decide
  exact reserve_torn (torn_stays torn rfl labels) rfl

end RepoForge.Activation
