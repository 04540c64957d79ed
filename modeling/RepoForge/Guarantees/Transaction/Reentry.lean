import RepoForge.Guarantees.Transaction.RollbackExact
import RepoForge.Spec.Transaction.Rejection

/-!
# A commit over a pending journal

`commit` validates its plan on the tree as the crash left it and recovers afterwards.
`commit_recovers_first` says exactly when that is as good as recovering first: the two trees
must give validation the same answer, and a rejected plan must find nothing to recover in
the tree. `commit_overwrites_restored_file` is a plan that creates a file the crash had
removed: validated on the crashed tree, applied to the recovered one.
-/
namespace RepoForge

open Interruptible Interruptible.Proc

section Commit

variable {E : Engine} {o : CommitOptions} {id : Text} {plan : List (TransactionAction Text)}
  {actions : List (TransactionAction Path)} {w : World}

theorem commit_rejected {e : TransactionError}
    (rejected : validatePlan w.tree o.commitReceiptFactory.isSome plan = .error e) :
    commit E o id plan w = ⟨[], w, .error e⟩ :=
  bind_run_error (by rw [check, rejected])

theorem commit_accepted (accepted : validatePlan w.tree o.commitReceiptFactory.isSome plan = .ok actions) :
    commit E o id plan w =
      (recoverPending E >>= fun _ => World.inTransaction id (commitTransaction E o id actions)) w := by
  rw [commit, bind_run (by rw [check, accepted])]
  simp [check]

/-- An accepted plan is never rejected later. -/
theorem commit_accepted_faults {e : TransactionError}
    (accepted : validatePlan w.tree o.commitReceiptFactory.isSome plan = .ok actions)
    (failed : (commit E o id plan w).result = .error e) : ¬ e.Rejects := by
  rw [commit_accepted accepted] at failed
  exact (Spec.bind (recoverPending_faults E) fun _ =>
    inTransaction_faults (commitTransaction_faults E o id actions)).raises w trivial e failed

end Commit

/-- Recover, then commit. -/
def recoverThenCommit (E : Engine) (o : CommitOptions) (id : Text)
    (plan : List (TransactionAction Text)) : Proc World TransactionError TransactionReceipt := do
  let _ ← recoverPending E
  commit E o id plan

/-- Validation gives the same answer on the tree as it is and on the recovered tree, and where
it rejects the plan there is nothing to recover in the tree. -/
def ValidatedAlike (E : Engine) (o : CommitOptions) (plan : List (TransactionAction Text))
    (w : World) : Prop :=
  match validatePlan w.tree o.commitReceiptFactory.isSome plan with
  | .ok actions => ∀ report, (recoverPending E w).result = .ok report →
      validatePlan (recoverPending E w).state.tree o.commitReceiptFactory.isSome plan = .ok actions
  | .error e => ∃ report, (recoverPending E w).result = .ok report ∧
      validatePlan (recoverPending E w).state.tree o.commitReceiptFactory.isSome plan = .error e ∧
      w.tree.Same (recoverPending E w).state.tree

/-- Over any pending journals, `commit` has the result and the tree of recovering first and
committing then exactly if validation answers alike before and after the recovery. -/
theorem commit_recovers_first (E : Engine) (o : CommitOptions) (id : Text)
    (plan : List (TransactionAction Text)) (w : World) :
    ((commit E o id plan w).result = (recoverThenCommit E o id plan w).result ∧
      (commit E o id plan w).state.tree.Same (recoverThenCommit E o id plan w).state.tree) ↔
      ValidatedAlike E o plan w := by
  unfold ValidatedAlike
  cases before : validatePlan w.tree o.commitReceiptFactory.isSome plan with
  | error e =>
    have rejects := validatePlan_rejects before
    rw [commit_rejected before]
    cases recovered : (recoverPending E w).result with
    | error e' =>
      have fault := (recoverPending_faults E).raises w trivial e' recovered
      rw [recoverThenCommit, bind_run_error recovered]
      refine ⟨fun same => ?_, fun ⟨report, ok, _⟩ => by cases ok⟩
      cases same.1
      exact (fault rejects).elim
    | ok report =>
      rw [recoverThenCommit, bind_run recovered]
      cases after : validatePlan (recoverPending E w).state.tree o.commitReceiptFactory.isSome plan with
      | error e' =>
        rw [commit_rejected after]
        refine ⟨fun same => ?_, fun ⟨_, _, answer, unchanged⟩ => ?_⟩
        · cases same.1
          exact ⟨report, rfl, rfl, same.2⟩
        · cases answer
          exact ⟨rfl, unchanged⟩
      | ok actions =>
        refine ⟨fun same => ?_, fun ⟨_, _, answer, _⟩ => by cases answer⟩
        exact (commit_accepted_faults after same.1.symm rejects).elim
  | ok actions =>
    cases recovered : (recoverPending E w).result with
    | error e' =>
      rw [commit_accepted before, recoverThenCommit, bind_run_error recovered,
        bind_run_error recovered]
      exact ⟨fun _ report ok => (by cases ok), fun _ => ⟨rfl, fun _ => rfl⟩⟩
    | ok report =>
      have clean := (recoverPending_clears E).returns w trivial report recovered
      rw [recoverThenCommit, bind_run recovered]
      cases after : validatePlan (recoverPending E w).state.tree o.commitReceiptFactory.isSome plan with
      | error e' =>
        refine ⟨fun same => ?_, fun alike => by cases alike report rfl⟩
        rw [commit_rejected after] at same
        exact (commit_accepted_faults before same.1 (validatePlan_rejects after)).elim
      | ok others =>
        obtain rfl := validatePlan_unique before after
        have again : (recoverPending E (recoverPending E w).state).result = .ok ⟨0, 0⟩ := by
          rw [recoverPending_clean E clean]
          rfl
        have still : (recoverPending E (recoverPending E w).state).state =
            (recoverPending E w).state := by
          rw [recoverPending_clean E clean]
          rfl
        rw [commit_accepted before, commit_accepted after, bind_run recovered, bind_run again, still]
        exact ⟨fun _ _ _ => rfl, fun _ => ⟨rfl, fun _ => rfl⟩⟩

namespace Sample

/-- The disk of a commit that crashed after it had deleted `a`. -/
def halfway : World :=
  crashed transaction (applyAction 0 (.deleteFile a) (prepared replaceActions)).state

def createPlan : List (TransactionAction Text) := [.createFile "a".toList [9] 0o644]

end Sample

/-- A crash after the deletion of `a`, then a plan that creates `a`: accepted, since `a` is
missing, it overwrites the file that the recovery brings back in between. -/
theorem commit_overwrites_restored_file :
    validatePlan Sample.workspace.tree false Sample.replacePlan = .ok Sample.replaceActions ∧
    CrashPoint Sample.engine Sample.unkeyed Sample.transaction Sample.replaceActions
      ⟨Sample.workspace.tree, none, ∅⟩
      (applyAction 0 (.deleteFile Sample.a) (Sample.prepared Sample.replaceActions)).state ∧
    (commit Sample.engine Sample.unkeyed "0002".toList Sample.createPlan Sample.halfway).result =
      .ok ⟨"0002".toList, ["a".toList]⟩ ∧
    (commit Sample.engine Sample.unkeyed "0002".toList Sample.createPlan
      Sample.halfway).state.tree.fileAt Sample.a = some ⟨[9], 0o644⟩ ∧
    (recoverThenCommit Sample.engine Sample.unkeyed "0002".toList Sample.createPlan
      Sample.halfway).result = .error (.createTargetExists 0 Sample.a) ∧
    (recoverThenCommit Sample.engine Sample.unkeyed "0002".toList Sample.createPlan
      Sample.halfway).state.tree.fileAt Sample.a = some Sample.original := by
  refine ⟨by decide, ?_, by decide, by decide, by decide, by decide⟩
  exact .passed (stops_visited (.applying (m := preparedManifest Sample.engine Sample.transaction
    Sample.workspace.tree Sample.replaceActions) (by decide) (.inside (List.mem_singleton.mpr rfl))))

end RepoForge

/-!
# Recovery that is itself interrupted

A rollback uses up the saved copies it decides by, so a second one sees other evidence than
the first. `Replayable` is the condition on a plan under which it does not matter: at no
level below an action does the undo of that action find what it would take for its own
work. `recovery_reentrant` then says that any number of interrupted recoveries, followed by
one that is not, leaves the files of the start, whether the last one returns or raises.

The invariant is `Recoverable`: a journal with a manifest is at some level of the plan, and
one without a manifest stands beside the files of the start.

`recovery_loses_restored_file` is a plan of two actions that is not replayable. The first
recovery restores the file; the second, finding no staged copy, deletes it again.
-/
namespace RepoForge

open Interruptible Interruptible.Proc

/-- After `m` actions something may stand at `d`: a file, or a directory made for a target
below it. -/
def Occupied (T : Tree) (actions : List (TransactionAction Path)) (m : Nat) (d : Path) : Prop :=
  levelFiles T actions m d ≠ none ∨ Ancestor actions d

/-- No level below an action looks as if the action were in force. -/
structure Replayable (T : Tree) (actions : List (TransactionAction Path)) : Prop where
  /-- Before its creation a created path holds no file. -/
  creates : ∀ k path data mode, actions[k]? = some (.createFile path data mode) →
    ∀ m ≤ k, levelFiles T actions m path = none
  /-- Before a move its destination is occupied only while its source is there. -/
  moves : ∀ k source destination, actions[k]? = some (.moveFile source destination) →
    ∀ m ≤ k, Occupied T actions m destination → levelFiles T actions m source ≠ none
  /-- Nor is it occupied while the source is being rewritten. -/
  rewrites : ∀ (k m : Nat) source destination data preserveMode,
    actions[k]? = some (.moveFile source destination) → m < k →
    actions[m]? = some (.writeFile source data preserveMode) → ¬ Occupied T actions m destination
  /-- No directory is asked for where a file was removed before. -/
  apart : ∀ (i j : Nat) (a b : TransactionAction Path) p q, i < j → actions[i]? = some a → actions[j]? = some b → a.Removes p →
    b.target = some q → ¬ p <+: q.dropLast

section Levels

variable {T : Tree} {actions : List (TransactionAction Path)} {count : Nat} {files : FileMap}
  {v w : View}

theorem Replayable.clear (safe : Replayable T actions) (j : Journaled T actions count files v) :
    ∀ k p, k ≤ count → levelFiles T actions k p ≠ none → ¬ v.tree.IsDir p := by
  intro k p le held dir
  obtain ⟨i, n, a, b, q, -, lt, ha, hb, removes, target, asked⟩ := j.buried k p le held dir
  exact safe.apart i n a b p q lt ha hb removes target asked

/-- Where something is present on the way, the destination of a later move is occupied. -/
theorem occupied_of_present (enabled : EnabledPlan T actions) (j : Journaled T actions count files v)
    {k : Nat} {s d : Path} (hk : actions[k]? = some (.moveFile s d))
    (there : v.tree.present d = true) : files d ≠ none ∨ Ancestor actions d := by
  rcases Tree.present_iff.mp there with file | dir
  · exact .inl (j.files d ▸ file)
  · exact .inr ((j.created d dir).resolve_left (enabled k _ hk).2.2.2)

/-- In a replayable plan the actions not in force are quiet. -/
theorem Replayable.quiet (safe : Replayable T actions) (enabled : EnabledPlan T actions)
    (j : Journaled T actions count files v) (standing : Standing T actions count files) :
    ∀ k a, count ≤ k → actions[k]? = some a → Quiet k v a := by
  intro k a le ha
  have shape : files = levelFiles T actions count ∨ ∃ m path data preserveMode, count = m + 1 ∧
      actions[m]? = some (.writeFile path data preserveMode) ∧
      files = rewritingFiles T actions m path := by
    rcases standing with h | ⟨m, rfl, h | ⟨path, data, preserveMode, hm, h⟩⟩
    · exact .inl h
    · exact .inl h
    · exact .inr ⟨m, path, data, preserveMode, rfl, hm, h⟩
  cases a with
  | writeFile path data preserveMode => exact j.unsaved k _ le ha
  | deleteFile path => exact j.unsaved k _ le ha
  | createFile path data mode =>
    refine .inr ((j.files path).trans ?_)
    rcases shape with rfl | ⟨m, written, _, _, rfl, -, rfl⟩
    · exact safe.creates k path data mode ha count le
    · by_cases h : path = written
      · simp [rewritingFiles, h]
      · simpa [rewritingFiles, h] using safe.creates k path data mode ha m (by omega)
  | moveFile s d =>
    intro there
    have occupied := occupied_of_present enabled j ha there
    refine Tree.present_iff.mpr (.inl ?_)
    rw [j.files]
    rcases shape with rfl | ⟨m, written, data, preserveMode, rfl, hm, rfl⟩
    · exact safe.moves k s d ha count le occupied
    · have before : Occupied T actions m d := by
        refine occupied.imp_left fun file => ?_
        by_cases h : d = written
        · simp [rewritingFiles, h] at file
        · simpa [rewritingFiles, h] using file
      have source := safe.moves k s d ha m (by omega) before
      have other : s ≠ written := by
        rintro rfl
        exact safe.rewrites k m s d data preserveMode ha (by omega) hm before
      simpa [rewritingFiles, other] using source

/-- A created path whose staged copy is gone can be undone without raising. -/
def Tidy (actions : List (TransactionAction Path)) (v : View) : Prop :=
  ∀ k path data mode, actions[k]? = some (.createFile path data mode) →
    v.slot (.staged k) = none → ¬ v.tree.IsDir path ∧ v.tree.IsDir path.dropLast

/-- The journal is at some level of the plan. -/
def Pending (T : Tree) (actions : List (TransactionAction Path)) (v : View) : Prop :=
  ∃ count files, Journaled T actions count files v ∧ Standing T actions count files ∧
    (0 < count → Tidy actions v)

theorem Pending.of_same_view (h : Pending T actions v) (tree : w.tree = v.tree) (tx : w.tx = v.tx) :
    Pending T actions w := by
  obtain ⟨count, files, j, standing, tidy⟩ := h
  have slots := View.slot_congr tx
  refine ⟨count, files, j.of_same_tree tree (fun s _ => slots s) (tx ▸ j.journal), standing, ?_⟩
  intro pos k path data mode ha gone
  rw [tree]
  exact tidy pos k path data mode ha (slots _ ▸ gone)

/-- While actions are applied only creations that ran have lost their staged copy. -/
theorem pending_of_forward (safe : Replayable T actions) (j : Journaled T actions count files v)
    (standing : Standing T actions count files)
    (staged : ∀ k path data mode, count ≤ k → actions[k]? = some (.createFile path data mode) →
      v.slot (.staged k) ≠ none) : Pending T actions v := by
  refine ⟨count, files, j, standing, fun _ k path data mode ha gone => ?_⟩
  have lt : k < count := by
    by_contra h
    exact staged k path data mode (by omega) ha gone
  have held : levelFiles T actions (k + 1) path ≠ none := by
    rw [levelFiles_succ ha]
    simp [TransactionAction.effect]
  exact ⟨safe.clear j (k + 1) path lt held, j.parents (k + 1) path lt held⟩

/-- At level zero everything but the files may have changed. -/
theorem journaled_zero (wf : T.WellFormed) (j : Journaled T actions 0 (levelFiles T actions 0) v)
    (restored : Restored T w.tree) (dirs : ∀ p, w.tree.IsDir p → v.tree.IsDir p)
    (slots : ∀ s, w.slot s = v.slot s ∨ w.slot s = none) (journal : w.tx ≠ none) :
    Journaled T actions 0 (levelFiles T actions 0) w where
  bound := by omega
  journal := journal
  wellFormed := restored.wellFormed
  files p := by rw [levelFiles_zero, restored.files]
  saved k a hk := by omega
  unsaved k a hk ha := by
    have before := j.unsaved k a hk ha
    cases a with
    | writeFile path data preserveMode => exact (slots _).elim (fun h => h.trans before) id
    | createFile path data mode => trivial
    | deleteFile path => exact (slots _).elim (fun h => h.trans before) id
    | moveFile source destination => trivial
  grown := restored.grown
  parents k p hk hp := by
    obtain rfl : k = 0 := by omega
    rw [levelFiles_zero] at hp
    exact restored.grown _ (wf p fun hn => hp (Tree.fileAt_eq_none.mpr (.inl hn)))
  created p hp := j.created p (dirs p hp)
  buried k p hk held hp := by
    obtain rfl : k = 0 := by omega
    rw [levelFiles_zero, ← restored.files] at held
    exact absurd hp.fileAt held

theorem pending_zero (j : Journaled T actions 0 (levelFiles T actions 0) v) : Pending T actions v :=
  ⟨0, _, j, .inl rfl, fun h => absurd h (by omega)⟩

end Levels

section Recoverable

variable {E : Engine} {id : Text} {T : Tree} {actions : List (TransactionAction Path)} {v w : View}

/-- The invariant of crashes and interrupted recoveries. -/
def Recoverable (E : Engine) (id : Text) (T : Tree) (actions : List (TransactionAction Path))
    (v : View) : Prop :=
  (PlanManifest E id T actions v.manifest ∧ Pending T actions v) ∨
  (v.manifest = none ∧ ∀ p, v.tree.fileAt p = T.fileAt p)

/-- The deletion of a journal whose plan is undone, or was never begun, keeps the invariant. -/
theorem shrunk_recoverable (wf : T.WellFormed) (files : ∀ p, v.tree.fileAt p = T.fileAt p)
    (start : v.manifest = none ∨ PlanManifest E id T actions v.manifest ∧
      Journaled T actions 0 (levelFiles T actions 0) v) (h : Shrunk v w ∨ Purged v w) :
    Recoverable E id T actions w := by
  rcases h with h | h
  · have same : ∀ p, w.tree.fileAt p = T.fileAt p := fun p => by rw [h.tree, files]
    rcases start with none | ⟨manifest, j⟩
    · exact .inr ⟨h.manifest.elim (fun h => h.trans none) fun h => h, same⟩
    · rcases h.manifest with kept | gone
      · refine .inl ⟨kept ▸ manifest, pending_zero (journaled_zero wf j ?_ ?_ h.slots h.journal)⟩
        · exact ⟨same, h.tree ▸ j.wellFormed, h.tree ▸ j.grown⟩
        · intro p hp
          exact h.tree ▸ hp
      · exact .inr ⟨gone, same⟩
  · exact .inr ⟨by simp [View.manifest, h.journal], fun p => by rw [h.tree, files]⟩

/-- The handler of a failed preparation. -/
theorem removeUnprepared_keeps (wf : T.WellFormed) :
    Spec (fun v => (∀ p, v.tree.fileAt p = T.fileAt p) ∧ (v.manifest = none ∨
        PlanManifest E id T actions v.manifest ∧ Journaled T actions 0 (levelFiles T actions 0) v))
      (removeUnprepared E) (fun _ => Recoverable E id T actions) (fun _ _ => False)
      (Recoverable E id T actions) := by
  refine Spec.pointwise fun v ⟨files, start⟩ => (removeUnprepared_spec E v).weaken (fun _ h => h)
    (fun _ w h => .inr ⟨by simp [View.manifest, h.1], fun p => by rw [h.2.1, files]⟩)
    (fun _ _ h => h) fun w h => shrunk_recoverable wf files start h

/-- A rollback from any level, cut short anywhere, keeps the invariant; where it returns or
raises the files are those of the start. -/
theorem rollback_keeps (wf : T.WellFormed) (enabled : EnabledPlan T actions)
    (safe : Replayable T actions) {m : Manifest} (entries : m.actions = serializeFrom T 0 actions) :
    Spec (fun v => PlanManifest E id T actions v.manifest ∧ Pending T actions v) (rollback E m)
      (fun _ w => Recoverable E id T actions w ∧ ∀ p, w.tree.fileAt p = T.fileAt p)
      (fun _ w => Recoverable E id T actions w ∧ ∀ p, w.tree.fileAt p = T.fileAt p)
      (Recoverable E id T actions) := by
  refine Spec.pointwise ?_
  rintro v ⟨manifest, pending⟩
  refine Spec.bind (Q := fun _ w => w.tree = v.tree ∧ w.tx = v.tx)
    ((rollbackCommitReceipt_spec m v).weaken (fun _ h => h) (fun _ _ h => h) (fun _ _ h => h) ?_)
    fun _ => Spec.pointwise ?_
  · rintro w ⟨tree, tx⟩
    refine .inl ⟨?_, pending.of_same_view tree tx⟩
    rw [View.manifest, tx]
    exact manifest
  rintro v₁ ⟨tree₁, tx₁⟩
  have manifest₁ : PlanManifest E id T actions v₁.manifest := by
    rw [View.manifest, tx₁]
    exact manifest
  obtain ⟨count, files, j, standing, tidy⟩ := pending.of_same_view tree₁ tx₁
  have start : Undone T actions v₁.kept v₁.tree.IsDir count files v₁ :=
    ⟨⟨j, fun _ => Iff.rfl, safe.clear j⟩, rfl⟩
  have tidied : ∀ {m files w}, m < count → Undone T actions v₁.kept v₁.tree.IsDir m files w ∨
      Undone T actions v₁.kept v₁.tree.IsDir (m + 1) files w → Tidy actions w := by
    intro m files w lt undone k path data mode ha gone
    have dirs : ∀ p, w.tree.IsDir p ↔ v₁.tree.IsDir p :=
      undone.elim (fun h => h.undoable.dirs) fun h => h.undoable.dirs
    have kept : w.kept = v₁.kept := undone.elim (fun h => h.kept) fun h => h.kept
    have slot : v₁.slot (.staged k) = none := by
      rw [← gone]
      exact (congrFun (congrArg Kept.staged kept) k).symm
    rw [dirs, dirs]
    exact tidy (by omega) k path data mode ha slot
  have below : ∀ {files w m}, Undone T actions v₁.kept v₁.tree.IsDir m files w →
      PlanManifest E id T actions w.manifest := by
    intro files w m h
    rw [show w.manifest = v₁.manifest from congrArg Kept.manifest h.kept]
    exact manifest₁
  rw [entries]
  refine Spec.bind (Q := fun _ w => PlanManifest E id T actions w.manifest ∧
    Journaled T actions 0 (levelFiles T actions 0) w)
    ((rollbackActions_spec enabled start standing (safe.quiet enabled j standing) actions 0
      rfl).weaken (fun _ h => h) (fun _ w lowered => ?_) (fun _ w lost => ?_) fun w visited => ?_)
    fun _ => Spec.pointwise ?_
  · rcases lowered with ⟨zero, rfl⟩ | ⟨-, undone⟩
    · obtain rfl : count = 0 := by omega
      rcases standing with rfl | ⟨m, hm, -⟩
      · exact ⟨manifest₁, j⟩
      · omega
    · exact ⟨below undone, undone.journaled⟩
  · -- only an action that is not in force raises, and only at level zero
    obtain ⟨rfl, k, a, le, ha, refuses⟩ := lost
    have zero : count = 0 := by
      by_contra pos
      cases a with
      | createFile path data mode =>
        obtain ⟨off, parent⟩ := tidy (by omega) k path data mode ha refuses.1
        rcases refuses.2 with dir | gone
        · exact off dir
        · rw [Tree.present_iff.mpr (.inr parent)] at gone
          cases gone
      | writeFile path data preserveMode => exact refuses
      | deleteFile path => exact refuses
      | moveFile source destination => exact refuses
    subst zero
    rcases standing with rfl | ⟨m, hm, -⟩
    · exact ⟨.inl ⟨manifest₁, pending_zero j⟩, fun p => by rw [j.files, levelFiles_zero]⟩
    · omega
  · obtain ⟨m, lt, ⟨path, data, preserveMode, hm, undone⟩ | undone⟩ := visited
    · exact .inl ⟨below undone, m + 1, _, undone.journaled,
        .inr ⟨m, rfl, .inr ⟨path, data, preserveMode, hm, rfl⟩⟩, fun _ => tidied lt (.inr undone)⟩
    · exact .inl ⟨below undone, m, _, undone.journaled, .inl rfl, fun _ => tidied lt (.inl undone)⟩
  rintro v₂ ⟨manifest₂, j₂⟩
  have new : ∀ q ∈ rollbackParents (serializeFrom T 0 actions), T.node q = none := by
    intro q hq
    obtain ⟨a, ha, p, target, missing⟩ := (mem_rollbackParents 0).mp hq
    exact ((mem_missingParents wf).mp missing).2
  have settling : Settling T v₂.tree.IsDir v₂.tx v₂.receipts v₂ :=
    ⟨⟨⟨fun p => by rw [j₂.files, levelFiles_zero], j₂.wellFormed, j₂.grown⟩, rfl, rfl⟩, fun _ h => h⟩
  have settled : ∀ w, Settling T v₂.tree.IsDir v₂.tx v₂.receipts w →
      PlanManifest E id T actions w.manifest ∧ Journaled T actions 0 (levelFiles T actions 0) w := by
    rintro w ⟨⟨restored, tx, -⟩, dirs⟩
    refine ⟨?_, journaled_zero wf j₂ restored dirs (fun s => .inl (View.slot_congr tx s))
      (tx ▸ j₂.journal)⟩
    rw [View.manifest, tx]
    exact manifest₂
  refine Spec.bind (Q := fun _ => Settling T v₂.tree.IsDir v₂.tx v₂.receipts)
    ((removeParents_keeps _ new).weaken (by rintro w rfl; exact settling) (fun _ _ h => h)
      (fun _ w h => ⟨.inl ⟨(settled w h).1, pending_zero (settled w h).2⟩, h.1.1.files⟩)
      fun w h => .inl ⟨(settled w h).1, pending_zero (settled w h).2⟩) fun _ => ?_
  refine Spec.pointwise fun v₃ h => ?_
  exact (purge_spec E (settled v₃ h).2.journal).weaken (fun _ h => h)
    (fun _ w done => ⟨shrunk_recoverable wf h.1.1.files (.inr (settled v₃ h)) (.inr done),
      fun p => by rw [done.tree, h.1.1.files]⟩) (fun _ _ h => h.elim)
    fun w cut => shrunk_recoverable wf h.1.1.files (.inr (settled v₃ h)) cut

theorem Rising.pending (safe : Replayable T actions) (h : Rising E id T actions v) :
    PlanManifest E id T actions v.manifest ∧ Pending T actions v := by
  obtain ⟨manifest, count, files, j, standing, staged⟩ := h
  exact ⟨manifest, pending_of_forward safe j standing staged⟩

/-- The invariant holds at every crash before the marker. -/
theorem recoverable_crashInvariant (wf : T.WellFormed) (enabled : EnabledPlan T actions)
    (safe : Replayable T actions) (R : AList fun _ : Text => Bytes) :
    CrashInvariant E id T actions R (Recoverable E id T actions) where
  unprepared v h := .inr ⟨h.manifest, fun p => by rw [h.tree]⟩
  rising v h := .inl (h.pending safe)
  cleaning := by
    refine (removeUnprepared_keeps wf).weaken ?_ (fun _ _ h => h) (fun _ _ h => h.elim) fun _ h => h
    rintro v (h | ⟨manifest, level⟩)
    · exact ⟨fun p => by rw [h.tree], .inl h.manifest⟩
    · exact ⟨fun p => by rw [level.files, levelFiles_zero], .inr ⟨manifest, level⟩⟩
  handling m entries := (rollback_keeps wf enabled safe entries).weaken (fun _ h => h.pending safe)
    (fun _ _ h => h.1) (fun _ _ h => h.1) fun _ h => h

end Recoverable

section Crash

variable {E : Engine} {o : CommitOptions} {id : Text} {T : Tree}
  {actions left : List (TransactionAction Path)} {R : AList fun _ : Text => Bytes} {v : View}

/-- The disks a crash and interrupted recoveries can leave. -/
def RecoverableDisk (E : Engine) (id : Text) (T : Tree) (actions : List (TransactionAction Path))
    (w : World) : Prop := ∃ v, w = crashed id v ∧ Recoverable E id T actions v

theorem recoverTransaction_keeps (wf : T.WellFormed) (enabled : EnabledPlan T actions)
    (safe : Replayable T actions) :
    Spec (Recoverable E id T actions) (recoverTransaction E id)
      (fun _ w => Recoverable E id T actions w ∧ ∀ p, w.tree.fileAt p = T.fileAt p)
      (fun _ w => Recoverable E id T actions w ∧ ∀ p, w.tree.fileAt p = T.fileAt p)
      (Recoverable E id T actions) := by
  refine Spec.pointwise fun v recoverable => ?_
  rcases recoverable with ⟨⟨name, ok, manifest⟩, pending⟩ | ⟨none, files⟩
  · refine Spec.of_run_eq
      (recoverTransaction_prepared E id manifest (readManifest_prepared E ok) rfl) ?_
    refine Spec.bind (Spec.handle ((rollback_keeps wf enabled safe rfl).weaken ?_
      (fun _ _ h => h) (fun _ _ h => h) fun _ h => h) fun _ => Spec.raise _ fun _ h => h)
      fun _ => Spec.ret _ fun _ h => h
    rintro w rfl
    exact ⟨⟨name, ok, manifest⟩, pending⟩
  · refine Spec.of_run_eq (recoverTransaction_unprepared E id none) (Spec.raise _ ?_)
    rintro w rfl
    exact ⟨.inr ⟨none, files⟩, files⟩

theorem recoverPending_keeps (wf : T.WellFormed) (enabled : EnabledPlan T actions)
    (safe : Replayable T actions) :
    Spec (RecoverableDisk E id T actions) (recoverPending E)
      (fun _ w => ∀ p, w.tree.fileAt p = T.fileAt p)
      (fun _ w => ∀ p, w.tree.fileAt p = T.fileAt p) (RecoverableDisk E id T actions) := by
  refine Spec.pointwise ?_
  rintro w ⟨v, rfl, recoverable⟩
  by_cases there : v.tx = none
  · have files : ∀ p, v.tree.fileAt p = T.fileAt p := by
      rcases recoverable with ⟨⟨name, -, manifest⟩, -⟩ | ⟨-, files⟩
      · simp [View.manifest, there] at manifest
      · exact files
    refine Spec.of_run_eq
      (recoverPending_clean E (World.crashed_journal_none there)) (Spec.ret _ ?_)
    rintro w rfl
    exact files
  · refine (recoverPending_spec E (recoverTransaction_keeps wf enabled safe) recoverable there).weaken
      (fun _ h => h) ?_ ?_ ?_
    · rintro _ w ⟨-, u, -, rfl, -, files⟩
      exact files
    · rintro _ w ⟨u, rfl, -, files⟩
      exact files
    · rintro w ⟨u, rfl, kept⟩
      exact ⟨u, rfl, kept⟩

end Crash

/-- Interrupted recoveries do not matter: for a replayable plan, after a crash of `commit`
anywhere before its marker and any number of recoveries that were themselves cut short, the
next complete `recoverPending` leaves exactly the files of the start, with their contents
and modes, also where it raises. -/
theorem recovery_reentrant (E : Engine) (o : CommitOptions) (id : Text) (W : Workspace)
    (R : AList fun _ : Text => Bytes) (plan : List (TransactionAction Text))
    (actions : List (TransactionAction Path)) (v : View) (w : World)
    (accepted : validatePlan W.tree o.commitReceiptFactory.isSome plan = .ok actions)
    (replayable : Replayable W.tree actions)
    (crash : CrashPoint E o id actions ⟨W.tree, none, R⟩ v)
    (attempts : Attempts (recoverPending E) (crashed id v) w) :
    ∀ p, (recoverPending E w).state.tree.fileAt p = W.tree.fileAt p := by
  have enabled := validatePlan_enabled accepted
  have spec : Spec (RecoverableDisk E id W.tree actions) (recoverPending E) _ _ _ :=
    recoverPending_keeps W.wellFormed enabled replayable
  have start : RecoverableDisk E id W.tree actions (crashed id v) :=
    ⟨v, rfl, crash.induct (recoverable_crashInvariant W.wellFormed enabled replayable R)
      W.wellFormed enabled⟩
  have kept : RecoverableDisk E id W.tree actions w := spec.attempts start attempts
  cases hr : (recoverPending E w).result with
  | ok report => exact spec.returns w kept report hr
  | error e => exact spec.raises w kept e hr

namespace Sample

theorem replace_replayable : Replayable workspace.tree replaceActions where
  creates k path data mode hk m le := by
    rcases k with _ | _ | k
    · simp [replaceActions] at hk
    · simp only [replaceActions, List.getElem?_cons_succ, List.getElem?_cons_zero, Option.some.injEq,
        TransactionAction.createFile.injEq] at hk
      obtain ⟨rfl, rfl, rfl⟩ := hk
      rcases m with _ | _ | m
      · decide
      · decide
      · omega
    · simp [replaceActions] at hk
  moves k s d hk := by
    rcases k with _ | _ | k <;> simp [replaceActions] at hk
  rewrites k m s d data preserveMode hk := by
    rcases k with _ | _ | k <;> simp [replaceActions] at hk
  apart i j x y p q lt hx hy removes target := by
    rcases j with _ | _ | j
    · omega
    · obtain rfl : i = 0 := by omega
      simp only [replaceActions, List.getElem?_cons_succ, List.getElem?_cons_zero,
        Option.some.injEq] at hx hy
      subst hx hy
      obtain rfl : a = p := removes
      cases target
      decide
    · simp [replaceActions] at hy

/-- The disk after the deletion, before the creation. -/
def deleted : View := (applyAction 0 (.deleteFile a) (prepared replaceActions)).state

theorem deleted_crash : CrashPoint engine unkeyed transaction replaceActions
    ⟨workspace.tree, none, ∅⟩ deleted :=
  .passed (stops_visited (.applying (m := preparedManifest engine transaction workspace.tree
    replaceActions) (by decide +kernel) (.inside (List.mem_singleton.mpr rfl))))

def recreatePlan : List (TransactionAction Text) :=
  [.deleteFile "a".toList, .createFile "a".toList [2] 0o644]

def recreateActions : List (TransactionAction Path) := [.deleteFile a, .createFile a [2] 0o644]

/-- The disk when both actions are applied. -/
def recreated : View := (applyFrom 0 recreateActions (prepared recreateActions)).state

/-- The disk when the first recovery has restored `a` and is about to delete the journal. -/
def restoredOnce : World :=
  (recoverPending engine (crashed transaction recreated)).visited.get ⟨1, by decide +kernel⟩

end Sample

/-- A crash after the deletion and another right at the start of the recovery. -/
theorem recovery_reentrant_deleted :
    (recoverPending Sample.engine ((recoverPending Sample.engine
      (crashed Sample.transaction Sample.deleted)).visited.get ⟨0, by decide +kernel⟩)).state.tree.fileAt
        Sample.a = some Sample.original :=
  recovery_reentrant Sample.engine Sample.unkeyed Sample.transaction Sample.workspace ∅
    Sample.replacePlan Sample.replaceActions Sample.deleted _ (by decide +kernel) Sample.replace_replayable
    Sample.deleted_crash (Relation.ReflTransGen.single (.inr (List.get_mem _ _))) Sample.a

/-- The plan deletes `a` and creates it anew, and both are applied when `commit` crashes. The
first recovery restores the original and crashes before it deletes the journal. The second
finds the staged copy gone, takes `a` for the file of the plan, and deletes it. -/
theorem recovery_loses_restored_file :
    validatePlan Sample.workspace.tree false Sample.recreatePlan = .ok Sample.recreateActions ∧
    CrashPoint Sample.engine Sample.unkeyed Sample.transaction Sample.recreateActions
      ⟨Sample.workspace.tree, none, ∅⟩ Sample.recreated ∧
    Attempts (recoverPending Sample.engine) (crashed Sample.transaction Sample.recreated)
      Sample.restoredOnce ∧
    Sample.restoredOnce.tree.fileAt Sample.a = some Sample.original ∧
    (recoverPending Sample.engine Sample.restoredOnce).result = .ok ⟨1, 0⟩ ∧
    (recoverPending Sample.engine Sample.restoredOnce).state.tree.fileAt Sample.a = none ∧
    Sample.workspace.tree.fileAt Sample.a = some Sample.original := by
  refine ⟨by decide +kernel, ?_, Relation.ReflTransGen.single (.inr (List.get_mem _ _)), by decide +kernel,
    by decide +kernel, by decide +kernel, by decide +kernel⟩
  exact .passed (stops_visited (.applying (m := preparedManifest Sample.engine Sample.transaction
    Sample.workspace.tree Sample.recreateActions) (by decide +kernel)
      (.later (by decide +kernel) (.inside (List.mem_singleton.mpr rfl)))))

end RepoForge
