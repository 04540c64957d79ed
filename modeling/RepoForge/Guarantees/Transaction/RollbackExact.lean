import RepoForge.Spec.Transaction.Crash

/-!
# One complete rollback restores the tree

`commit` may stop anywhere between the first manifest and the committed marker, with some
actions not yet begun (`Stops`). `rollback_restores` says when one rollback from there gives
back the tree of the start, files, modes and directories:

* no action that has not begun is a move whose destination is present and whose source is
  not, since its undo would take that for a move that happened;
* nothing removed so far has a directory in its place, since restoring it would fail;
* no created parent lies below a file of the start, where `rmdir` fails with an error that
  the loop over the parents does not expect.

`rollback_takes_original_away` is a plan of three actions for which the first condition
fails: stopped right after its manifest, the rollback renames a file nobody touched.
-/
namespace RepoForge

open Interruptible Interruptible.Proc

section Exact

variable {T : Tree} {actions : List (TransactionAction Path)} {v w : View}

/-- A state from which the undo loop reaches level zero without raising. -/
structure UndoPoint (T : Tree) (actions : List (TransactionAction Path)) (count : Nat)
    (files : FileMap) (v : View) : Prop where
  undoable : Undoable T actions count files v.tree.IsDir v
  standing : Standing T actions count files
  quiet : ∀ k a, count ≤ k → actions[k]? = some a → Quiet k v a
  kept : ∀ k a, count ≤ k → actions[k]? = some a → ¬ Refuses k v a

/-- An action without a trace in the journal is quiet, unless it is a move. -/
theorem quiet_of_untouched {k : Nat} {a : TransactionAction Path} (unsaved : Unsaved k v a)
    (staged : ∀ path data mode, a = .createFile path data mode → v.slot (.staged k) ≠ none)
    (move : ∀ source destination, a = .moveFile source destination →
      v.tree.present destination → v.tree.present source) :
    Quiet k v a ∧ ¬ Refuses k v a := by
  cases a with
  | writeFile path data preserveMode => exact ⟨unsaved, id⟩
  | createFile path data mode =>
    exact ⟨.inl (staged path data mode rfl), fun lost => staged path data mode rfl lost.1⟩
  | deleteFile path => exact ⟨unsaved, id⟩
  | moveFile source destination => exact ⟨move source destination rfl, id⟩

/-- Where nothing removed is a directory now, no file of an earlier level is one. -/
theorem clear_of_removed (enabled : EnabledPlan T actions) {count : Nat} {files : FileMap}
    (j : Journaled T actions count files v)
    (now : ∀ p, levelFiles T actions count p ≠ none → ¬ v.tree.IsDir p)
    (removed : ∀ i a p, i < count → actions[i]? = some a → a.Removes p → ¬ v.tree.IsDir p) :
    ∀ k p, k ≤ count → levelFiles T actions k p ≠ none → ¬ v.tree.IsDir p := by
  intro k p le held
  by_cases gone : levelFiles T actions count p = none
  · obtain ⟨i, a, -, lt, ha, ra⟩ := removed_between enabled le j.bound held gone
    exact removed i a p lt ha ra
  · exact now p gone

section Points

variable {M : Option Manifest} {R : AList fun _ : Text => Bytes} {m : Nat}

/-- What the conditions on a stop say about the actions from `m` on and those before. -/
structure Unmistaken (actions : List (TransactionAction Path)) (m : Nat) (v : View) : Prop where
  moves : ∀ k source destination, m ≤ k → actions[k]? = some (.moveFile source destination) →
    v.tree.present destination → v.tree.present source
  removed : ∀ i a p, i < m → actions[i]? = some a → a.Removes p → ¬ v.tree.IsDir p

/-- Between two actions. -/
theorem undoPoint_of_level (enabled : EnabledPlan T actions) (level : AtLevel T actions m v)
    (staged : Staged actions m v) (safe : Unmistaken actions m v) :
    UndoPoint T actions m (levelFiles T actions m) v := by
  have untouched : ∀ k a, m ≤ k → actions[k]? = some a → Quiet k v a ∧ ¬ Refuses k v a :=
    fun k a le ha => quiet_of_untouched (level.unsaved k a le ha) (staged_ne_none staged le ha)
      fun s d move => safe.moves k s d le (move ▸ ha)
  exact ⟨⟨level, fun _ => Iff.rfl, clear_of_removed enabled level (fun p => level.not_isDir)
    safe.removed⟩, .inl rfl, fun k a le ha => (untouched k a le ha).1,
    fun k a le ha => (untouched k a le ha).2⟩

/-- Inside action `m`. -/
theorem undoPoint_of_running (enabled : EnabledPlan T actions)
    (run : Running T actions M R m v) (safe : Unmistaken actions (m + 1) v) :
    ∃ count files, UndoPoint T actions count files v := by
  rcases run.level with ⟨level, own⟩ | ⟨path, data, preserveMode, ha, j, off⟩ | level
  · -- not in force yet: the undo of action `m` itself must find nothing to do
    refine ⟨m, levelFiles T actions m, ⟨⟨level, fun _ => Iff.rfl, clear_of_removed enabled level
      (fun p => level.not_isDir) fun i a p lt => safe.removed i a p (by omega)⟩, .inl rfl, ?_, ?_⟩⟩
    all_goals
      intro k a le ha
      have untouched : Quiet k v a ∧ ¬ Refuses k v a := by
        refine quiet_of_untouched (level.unsaved k a le ha) (fun path data mode create => ?_)
          fun s d move => ?_
        · by_cases he : k = m
          · subst he
            exact own path data mode (create ▸ ha)
          · exact staged_ne_none run.staged (by omega) ha path data mode create
        · by_cases he : k = m
          · subst he
            subst move
            obtain ⟨f, -, found⟩ := level.fileAt_ne_none (enabled k _ ha).2.1
            exact fun _ => Tree.present_iff.mpr (.inl (by simp [found]))
          · exact safe.moves k s d (by omega) (move ▸ ha)
    · exact untouched.1
    · exact untouched.2
  · have untouched : ∀ k a, m + 1 ≤ k → actions[k]? = some a → Quiet k v a ∧ ¬ Refuses k v a :=
      fun k a le hk => quiet_of_untouched (j.unsaved k a le hk) (staged_ne_none run.staged le hk)
        fun s d move => safe.moves k s d le (move ▸ hk)
    refine ⟨m + 1, rewritingFiles T actions m path, ⟨⟨j, fun _ => Iff.rfl, clear_of_removed enabled j
      (fun p held => ?_) safe.removed⟩, .inr ⟨m, rfl, .inr ⟨path, data, preserveMode, ha, rfl⟩⟩,
      fun k a le hk => (untouched k a le hk).1, fun k a le hk => (untouched k a le hk).2⟩⟩
    by_cases h : p = path
    · exact h ▸ off
    · refine j.not_isDir ?_
      rw [level_write ha] at held
      simpa [h] using held
  · exact ⟨m + 1, _, undoPoint_of_level enabled level run.staged safe⟩

end Points

/-- Every stop that meets the conditions is an undo point. -/
theorem undoPoint_of_stop {E : Engine} {o : CommitOptions} {id : Text}
    {R : AList fun _ : Text => Bytes} {done left : List (TransactionAction Path)}
    (wf : T.WellFormed) (enabled : EnabledPlan T actions) (split : actions = done ++ left)
    (stop : Stops E o id actions ⟨T, none, R⟩ left v)
    (moves : ∀ source destination, .moveFile source destination ∈ left →
      v.tree.present destination → v.tree.present source)
    (removed : ∀ p, (∃ a ∈ done, a.Removes p) → ¬ v.tree.IsDir p) :
    (∃ count files, UndoPoint T actions count files v) ∧
      ∃ name, (∀ n, name = some n → safeReceiptName n = true) ∧
        v.manifest = some { preparedManifest E id T actions with commitReceipt := name } := by
  have safe : ∀ j, j ≤ actions.length → left = actions.drop j → Unmistaken actions j v := by
    intro j bound hleft
    have hdone : done = actions.take j := by
      have same : done ++ left = actions.take j ++ left := by
        rw [← split, hleft, List.take_append_drop]
      exact List.append_cancel_right same
    refine ⟨fun k s d le hk => moves s d ?_, fun i a p lt ha ra => removed p ⟨a, ?_, ra⟩⟩
    · rw [hleft]
      refine List.mem_of_getElem? (i := k - j) ?_
      rw [List.getElem?_drop, show j + (k - j) = k by omega]
      exact hk
    · rw [hdone]
      refine List.mem_of_getElem? (i := i) ?_
      rw [List.getElem?_take, if_pos lt]
      exact ha
  cases stop with
  | prepared ok =>
    obtain ⟨-, ready⟩ := prepare_ready wf ok
    exact ⟨⟨0, _, undoPoint_of_level enabled ready.level ready.staged
      (safe 0 (by omega) (by simp))⟩, none, by simp, ready.manifest⟩
  | applying ok inside =>
    obtain ⟨-, ready⟩ := prepare_ready wf ok
    obtain ⟨m, lt, hleft, run⟩ := stopsIn_level enabled inside (by simp) ready
    exact ⟨undoPoint_of_running enabled run (safe (m + 1) lt hleft), none, by simp, run.manifest⟩
  | sealing ok applied inside =>
    obtain ⟨rfl, ready⟩ := prepare_ready wf ok
    have last := (applyFrom_spec enabled actions 0 rfl (by omega)).returns _ ready () applied
    obtain ⟨_, sealed⟩ := (sealing_spec last.manifest last.level.journal rfl).visits _ rfl v inside
    have level : AtLevel T actions actions.length v :=
      last.level.of_same_tree sealed.tree sealed.slots sealed.journal
    have staged : Staged actions actions.length v := by
      intro k a le ha
      rw [List.getElem?_eq_none le] at ha
      cases ha
    refine ⟨⟨actions.length, _, undoPoint_of_level enabled level staged
      (safe actions.length le_rfl (by simp))⟩, ?_⟩
    rcases sealed.receipt with ⟨manifest, -⟩ | ⟨name, payload, -, ok, -, -, manifest, -⟩
    · exact ⟨none, by simp, manifest⟩
    · exact ⟨some name, fun n hn => by cases hn; exact ok, manifest⟩

/-- The removal of the receipt keeps an undo point. -/
theorem UndoPoint.of_same_view {count : Nat} {files : FileMap}
    (point : UndoPoint T actions count files v) (tree : w.tree = v.tree) (tx : w.tx = v.tx) :
    UndoPoint T actions count files w := by
  have slots := View.slot_congr tx
  have j := point.undoable.journaled
  refine ⟨⟨j.of_same_tree tree (fun s _ => slots s) (tx ▸ j.journal), fun _ => Iff.rfl, ?_⟩,
    point.standing, fun k a le ha => ?_, fun k a le ha lost => ?_⟩
  · rw [tree]
    exact point.undoable.clear
  · have := point.quiet k a le ha
    cases a <;> simpa [Quiet, slots, tree] using this
  · refine point.kept k a le ha ?_
    cases a <;> simp_all [Refuses]

/-- From an undo point the undo loop reaches level zero. -/
theorem UndoPoint.rollbackActions_spec {count : Nat} {files : FileMap}
    (enabled : EnabledPlan T actions) (point : UndoPoint T actions count files v) :
    Spec (· = v) (rollbackActions (serializeFrom T 0 actions))
      (fun _ => Undone T actions v.kept v.tree.IsDir 0 (levelFiles T actions 0))
      (fun _ _ => False) (fun _ => True) := by
  have start : Undone T actions v.kept v.tree.IsDir count files v :=
    ⟨point.undoable, rfl⟩
  refine (RepoForge.rollbackActions_spec enabled start point.standing point.quiet actions 0
    rfl).weaken (fun _ h => h) (fun _ w lowered => ?_) (fun _ w lost => ?_) fun _ _ => trivial
  · rcases lowered with ⟨zero, rfl⟩ | ⟨-, undone⟩
    · obtain rfl : count = 0 := by omega
      rcases point.standing with rfl | ⟨m, hm, -⟩
      · exact start
      · omega
    · exact undone
  · obtain ⟨-, k, a, le, ha, lost⟩ := lost
    exact point.kept k a le ha lost

/-- One rollback from an undo point gives back the tree, and the journal is gone. -/
theorem UndoPoint.rollback_spec (E : Engine) {count : Nat} {files : FileMap} {m : Manifest}
    (wf : T.WellFormed) (enabled : EnabledPlan T actions)
    (point : UndoPoint T actions count files v) (entries : m.actions = serializeFrom T 0 actions)
    (unshadowed : ∀ a ∈ actions, ∀ p, a.target = some p → T.underFile p.dropLast = false) :
    Spec (· = v) (rollback E m) (fun _ w => w.tree.Same T ∧ w.tx = none) (fun _ _ => False)
      (fun _ => True) := by
  have clear := point.undoable.clear
  refine Spec.bind ((rollbackCommitReceipt_spec m v).weaken (fun _ h => h) (fun _ _ h => h)
    (fun _ _ h => h) fun _ _ => trivial) fun _ => Spec.pointwise ?_
  rintro v₁ ⟨tree₁, tx₁⟩
  rw [entries]
  refine Spec.bind (UndoPoint.rollbackActions_spec enabled (point.of_same_view tree₁ tx₁))
    fun _ => Spec.pointwise fun v₂ undone => ?_
  have created : ∀ q ∈ rollbackParents (serializeFrom T 0 actions),
      T.node q = none ∧ T.underFile q = false := by
    intro q hq
    obtain ⟨a, ha, p, target, missing⟩ := (mem_rollbackParents 0).mp hq
    obtain ⟨pre, absent⟩ := (mem_missingParents wf).mp missing
    refine ⟨absent, ?_⟩
    by_contra under
    obtain ⟨r, below, file⟩ := Tree.underFile_iff.mp (by simpa using under)
    have above : T.underFile p.dropLast = true := by
      refine Tree.underFile_iff.mpr ⟨r, ⟨below.1.trans pre, ?_⟩, file⟩
      rintro rfl
      exact below.2 (below.1.eq_of_length (le_antisymm below.1.length_le pre.length_le))
    rw [unshadowed a ha p target] at above
    cases above
  have start : ClearedUpTo T (rollbackParents (serializeFrom T 0 actions)) v₂.tx v₂.receipts v₂ := by
    have j := undone.journaled
    refine ⟨⟨⟨fun p => by rw [j.files, levelFiles_zero], j.wellFormed, j.grown⟩, rfl, rfl⟩,
      fun p hp => ?_⟩
    rcases j.created p hp with old | ⟨a, ha, target, htarget, pre⟩
    · exact .inl old
    · by_cases old : T.IsDir p
      · exact .inl old
      · refine .inr ((mem_rollbackParents 0).mpr ⟨a, ha, target, htarget,
          (mem_missingParents wf).mpr ⟨pre, Tree.node_eq_none ?_ old⟩⟩)
        by_contra file
        exact clear 0 p (by omega) (by rw [levelFiles_zero]; exact file)
          (tree₁ ▸ (undone.undoable.dirs p).mp hp)
  refine Spec.bind ((removeParents_clears wf _ (rollbackParents_sorted _) created).weaken
    (by rintro w rfl; exact start) (fun _ _ h => h) (fun _ _ h => h) fun _ h => h)
    fun _ => Spec.pointwise fun v₃ cleared => ?_
  have journal : v₃.tx ≠ none := cleared.1.2.1 ▸ undone.journaled.journal
  refine (purge_spec E journal).weaken (fun _ h => h) (fun _ w purged => ⟨?_, purged.journal⟩)
    (fun _ _ h => h) fun _ _ => trivial
  rw [purged.tree]
  refine Tree.same_of_files_dirs cleared.1.1.files fun p => ⟨fun hp => ?_, cleared.1.1.grown p⟩
  exact (cleared.2 p hp).resolve_right (by simp)

end Exact

/-- One rollback restores the tree: from every stop of `commit` between its manifest and its
marker that meets the three conditions, whether the rollback is reached through the
handler, with the manifest in memory, or through `recoverPending`, with the one on disk. -/
theorem rollback_restores (E : Engine) (o : CommitOptions) (id : Text) (W : Workspace)
    (R : AList fun _ : Text => Bytes) (plan : List (TransactionAction Text))
    (actions done left : List (TransactionAction Path)) (v : View)
    (accepted : validatePlan W.tree o.commitReceiptFactory.isSome plan = .ok actions)
    (split : actions = done ++ left) (stop : Stops E o id actions ⟨W.tree, none, R⟩ left v)
    (moves : ∀ source destination, .moveFile source destination ∈ left →
      v.tree.present destination → v.tree.present source)
    (removed : ∀ p, (∃ a ∈ done, a.Removes p) → ¬ v.tree.IsDir p)
    (unshadowed : ∀ a ∈ actions, ∀ p, a.target = some p → W.tree.underFile p.dropLast = false) :
    (∀ name, (rollback E { preparedManifest E id W.tree actions with commitReceipt := name }
        v).result = .ok () ∧
      (rollback E { preparedManifest E id W.tree actions with commitReceipt := name }
        v).state.tree.Same W.tree) ∧
    (recoverPending E (crashed id v)).result = .ok ⟨1, 0⟩ ∧
    (recoverPending E (crashed id v)).state.tree.Same W.tree ∧
    (recoverPending E (crashed id v)).state.journal = ∅ := by
  have enabled := validatePlan_enabled accepted
  obtain ⟨⟨count, files, point⟩, name, safe, manifest⟩ :=
    undoPoint_of_stop W.wellFormed enabled split stop moves removed
  have spec : ∀ name, Spec (· = v)
      (rollback E { preparedManifest E id W.tree actions with commitReceipt := name })
      (fun _ w => w.tree.Same W.tree ∧ w.tx = none) (fun _ _ => False) (fun _ => True) :=
    fun name => point.rollback_spec E W.wellFormed enabled rfl unshadowed
  refine ⟨fun name => ?_, ?_⟩
  · obtain ⟨_, ok, same, -⟩ := (spec name).completes rfl
    exact ⟨ok, same⟩
  · obtain ⟨_, ok, same, gone⟩ := (spec name).completes rfl
    have journal := point.undoable.journaled.journal
    have run := recoverTransaction_prepared E id manifest (readManifest_prepared E safe) rfl
    rw [bind_run (by rw [handle_run ok]; exact ok), handle_run ok] at run
    rw [recoverPending_crashed E journal, run]
    exact ⟨rfl, same, World.crashed_journal_none gone⟩

namespace Sample

def a : Path := ["a".toList]
def b : Path := ["b".toList]
def x : Path := ["x".toList]

def engine : Engine := .listing "workspace".toList
def unkeyed : CommitOptions := ⟨fun _ => .ok (), none⟩
def transaction : Text := "0001".toList

def original : File := ⟨[1], 0o644⟩

/-- A workspace with one file `a`. -/
def workspace : Workspace where
  tree := Tree.empty.put a (.file original)
  wellFormed := Tree.wellFormed_put_file Tree.wellFormed_empty (by decide) (by decide) _

/-- The disk right after the manifest of a plan was written. -/
def prepared (actions : List (TransactionAction Path)) : View :=
  (prepare engine transaction actions ⟨workspace.tree, none, ∅⟩).state

def replacePlan : List (TransactionAction Text) :=
  [.deleteFile "a".toList, .createFile "b".toList [2] 0o644]

def replaceActions : List (TransactionAction Path) := [.deleteFile a, .createFile b [2] 0o644]

def swapPlan : List (TransactionAction Text) :=
  [.deleteFile "a".toList, .createFile "x".toList [2] 0o644, .moveFile "x".toList "a".toList]

def swapActions : List (TransactionAction Path) :=
  [.deleteFile a, .createFile x [2] 0o644, .moveFile x a]

end Sample

/-- A crash between a deletion and a creation: the deleted file comes back. -/
theorem rollback_restores_deleted :
    (recoverPending Sample.engine (crashed Sample.transaction
      (applyAction 0 (.deleteFile Sample.a) (Sample.prepared Sample.replaceActions)).state)).state.tree.Same
        Sample.workspace.tree :=
  (rollback_restores Sample.engine Sample.unkeyed Sample.transaction Sample.workspace ∅
    Sample.replacePlan Sample.replaceActions [.deleteFile Sample.a] [.createFile Sample.b [2] 0o644] _
    (by decide) rfl
    (.applying (m := preparedManifest Sample.engine Sample.transaction Sample.workspace.tree
      Sample.replaceActions) (by decide) (.inside (List.mem_singleton.mpr rfl)))
    (by simp) (by
      rintro p ⟨a, member, removes⟩
      obtain rfl := List.mem_singleton.mp member
      obtain rfl : Sample.a = p := removes
      decide)
    (by
      intro a member p target
      simp only [Sample.replaceActions, List.mem_cons, List.not_mem_nil, or_false] at member
      rcases member with rfl | rfl
      · cases target
      · cases target
        decide)).2.2.1

/-- Stopped right after its manifest, the plan that deletes `a`, creates `x` and moves `x` to
`a` has changed nothing. The rollback takes the move for done and renames `a` to `x`. -/
theorem rollback_takes_original_away :
    validatePlan Sample.workspace.tree false Sample.swapPlan = .ok Sample.swapActions ∧
    Stops Sample.engine Sample.unkeyed Sample.transaction Sample.swapActions
      ⟨Sample.workspace.tree, none, ∅⟩ Sample.swapActions (Sample.prepared Sample.swapActions) ∧
    (recoverPending Sample.engine (crashed Sample.transaction
      (Sample.prepared Sample.swapActions))).result = .ok ⟨1, 0⟩ ∧
    (recoverPending Sample.engine (crashed Sample.transaction
      (Sample.prepared Sample.swapActions))).state.tree.node Sample.a = none ∧
    Sample.workspace.tree.node Sample.a = some (.file Sample.original) := by
  refine ⟨by decide, .prepared (m := preparedManifest Sample.engine Sample.transaction
    Sample.workspace.tree Sample.swapActions) (by decide), by decide, by decide, by decide⟩

end RepoForge

/-!
## Failures after the committed marker

Once the committed manifest is in place a crash is harmless: the next recovery deletes the
journal and touches nothing else (`marker_is_final`, first part). An exception is not. The
purge stands in the same `try` block as the actions, so its failure runs the rollback over a
committed journal. The receipt of a keyed commit is then always lost (last part); without a
receipt the tree survives where the purge has got far enough that the rollback finds nothing
to undo (second part). `purge_failure_undoes_commit` is a failure right after the marker.
-/
namespace RepoForge

open Interruptible Interruptible.Proc

/-- The commit stands: the tree is the one of the marker, with every action applied in order,
and the receipt, if any, is there. -/
structure Final (T : Tree) (actions : List (TransactionAction Path)) (m : Manifest) (marker : View)
    (w : World) : Prop where
  tree : w.tree = marker.tree
  files : ∀ p, w.tree.fileAt p = levelFiles T actions actions.length p
  receipt : ∀ name, m.commitReceipt = some name → name ∈ w.receipts

section Committed

variable {E : Engine} {id : Text} {T : Tree} {actions : List (TransactionAction Path)}
  {m : Manifest} {v w : View}

/-- A journal whose manifest is committed, or gone, is deleted and nothing else changes. -/
theorem recoverPending_committed (read : readManifest E m = .ok m) (phase : m.phase = .committed)
    (manifest : v.manifest = some m ∨ v.manifest = none) :
    (recoverPending E (crashed id v)).state.tree = v.tree ∧
      (recoverPending E (crashed id v)).state.receipts = v.receipts := by
  by_cases there : v.tx = none
  · rw [recoverPending_clean E (World.crashed_journal_none there)]
    exact ⟨rfl, rfl⟩
  · rw [recoverPending_crashed E there]
    rcases manifest with manifest | none
    · rw [recoverTransaction_committed E id manifest read phase]
      obtain ⟨u, ok, purged⟩ := (purge_spec E there).completes rfl
      rw [bind_run ok]
      exact ⟨purged.tree, purged.receipts⟩
    · rw [recoverTransaction_unprepared E id none]
      exact ⟨rfl, rfl⟩

/-- Where every undo finds nothing to do, the undo loop changes nothing. -/
theorem rollbackActions_quiet (T : Tree) {C : View → Prop}
    (quiet : ∀ k a, actions[k]? = some a → Quiet k v a) :
    ∀ (rest : List (TransactionAction Path)) (i : Nat), actions.drop i = rest →
      Spec (· = v) (rollbackActions (serializeFrom T i rest)) (fun _ w => w = v)
        (fun _ w => w = v) C
  | [], _, _ => Spec.ret () fun _ h => h
  | a :: rest, i, split => by
    obtain ⟨ha, split'⟩ := head_of_drop split
    refine Spec.bind (rollbackActions_quiet T quiet rest (i + 1) split') fun _ => ?_
    exact (quiet_spec T fun u hu => hu ▸ quiet i a ha).weaken (fun _ h => h) (fun _ _ h => h)
      (fun _ _ h => h.1) fun _ h => h

/-- A rollback with nothing to undo and no empty created parent leaves the tree. -/
theorem rollback_quiet (T : Tree) (entries : m.actions = serializeFrom T 0 actions)
    (unkeyed : m.commitReceipt = none) (quiet : ∀ k a, actions[k]? = some a → Quiet k v a)
    (full : ∀ q ∈ rollbackParents m.actions, v.tree.IsDir q → v.tree.emptyDir q = false) :
    Spec (· = v) (rollback E m) (fun _ w => w.tree = v.tree) (fun _ w => w.tree = v.tree)
      (fun _ => True) := by
  have parents : ∀ dirs, (∀ q ∈ dirs, v.tree.IsDir q → v.tree.emptyDir q = false) →
      Spec (· = v) (removeParents dirs) (fun _ w => w = v) (fun _ w => w = v) (fun _ => True) := by
    intro dirs
    induction dirs with
    | nil => exact fun _ => Spec.ret () fun _ h => h
    | cons q dirs ih =>
      intro full
      refine Spec.bind (removeParent_spec q ?_ (fun _ _ h _ _ => h) fun _ _ h _ _ _ => h)
        fun _ => ih fun r hr => full r (List.mem_cons_of_mem _ hr)
      rintro w t rfl removed
      obtain ⟨dir, empty, -⟩ := Tree.rmdir_ok removed
      rw [full q (by simp) dir] at empty
      cases empty
  refine Spec.bind (Q := fun _ w => w = v) ?_ fun _ => ?_
  · simp only [rollbackCommitReceipt, unkeyed]
    exact Spec.ret () fun _ h => h
  refine Spec.bind (Q := fun _ w => w = v) ?_ fun _ => ?_
  · rw [entries]
    exact (rollbackActions_quiet T quiet actions 0 rfl).weaken (fun _ h => h) (fun _ _ h => h)
      (fun _ w h => h ▸ rfl) fun _ h => h
  refine Spec.bind ((parents _ full).weaken (fun _ h => h) (fun _ _ h => h) (fun _ w h => h ▸ rfl)
    fun _ h => h) fun _ => ?_
  by_cases there : v.tx = none
  · refine Spec.bind (Q := fun _ _ => False) (Spec.check ?_ ?_) fun d =>
      Spec.pointwise fun _ h => h.elim
    · rintro w rfl d passed
      simp [there] at passed
    · rintro w rfl e refused
      rfl
  · exact (purge_spec E there).weaken (fun _ h => h) (fun _ w h => h.tree) (fun _ _ h => h.elim)
      fun _ _ => trivial

end Committed

/-- The marker is final for crashes, not for exceptions: after a crash anywhere in the purge
the commit stands, before and after the next recovery; after an exception there the commit
stands if there is no receipt, every undo finds nothing to do and no created parent is
empty; with a receipt it never stands. -/
theorem marker_is_final (E : Engine) (o : CommitOptions) (id : Text) (W : Workspace)
    (R : AList fun _ : Text => Bytes) (plan : List (TransactionAction Text))
    (actions : List (TransactionAction Path)) (m : Manifest) (v : View)
    (accepted : validatePlan W.tree o.commitReceiptFactory.isSome plan = .ok actions)
    (marking : (untilMarker E o id actions ⟨W.tree, none, R⟩).result = .ok m)
    (failure : v ∈ (finish E m (untilMarker E o id actions ⟨W.tree, none, R⟩).state).visited) :
    (Final W.tree actions m (untilMarker E o id actions ⟨W.tree, none, R⟩).state (crashed id v) ∧
      Final W.tree actions m (untilMarker E o id actions ⟨W.tree, none, R⟩).state
        (recoverPending E (crashed id v)).state) ∧
    (m.commitReceipt = none → (∀ k a, actions[k]? = some a → Quiet k v a) →
      (∀ q ∈ rollbackParents m.actions, v.tree.IsDir q → v.tree.emptyDir q = false) →
      Final W.tree actions m (untilMarker E o id actions ⟨W.tree, none, R⟩).state
        (crashed id (rollback E m v).state) ∧
      Final W.tree actions m (untilMarker E o id actions ⟨W.tree, none, R⟩).state
        (recoverPending E (crashed id (rollback E m v).state)).state) ∧
    (m.commitReceipt ≠ none →
      ¬ Final W.tree actions m (untilMarker E o id actions ⟨W.tree, none, R⟩).state
        (crashed id (rollback E m v).state) ∧
      ¬ Final W.tree actions m (untilMarker E o id actions ⟨W.tree, none, R⟩).state
        (recoverPending E (crashed id (rollback E m v).state)).state) := by
  have enabled := validatePlan_enabled accepted
  obtain ⟨name, v₁, rfl, last, published⟩ :=
    (untilMarker_returns W.wellFormed enabled).returns _ rfl m marking
  have marked := (finish_spec E _ published.journal).visits _ rfl v failure
  have read : readManifest E (markerWritten { preparedManifest E id W.tree actions with
      commitReceipt := name }) = .ok _ :=
    readManifest_prepared E fun n hn => (published.keyed n hn).1
  have files : ∀ t : Tree, t = (untilMarker E o id actions ⟨W.tree, none, R⟩).state.tree →
      ∀ p, t.fileAt p = levelFiles W.tree actions actions.length p := by
    rintro t rfl p
    rw [published.tree, last.level.files]
  have receipt : ∀ n, name = some n →
      n ∈ (untilMarker E o id actions ⟨W.tree, none, R⟩).state.receipts := by
    intro n hn
    obtain ⟨-, -, payload, -, receipts⟩ := published.keyed n hn
    rw [receipts]
    exact AList.mem_insert _ |>.mpr (.inl rfl)
  -- the manifest on disk stays committed, or goes, through the rollback as well
  have after : ∀ w : View, w = v ∨ w = (rollback E { preparedManifest E id W.tree actions with
      commitReceipt := name } v).state → (recoverPending E (crashed id w)).state.tree = w.tree ∧
        (recoverPending E (crashed id w)).state.receipts = w.receipts := by
    have frame := rollback_frame (manifest_rollbackFrame (some (markerWritten
      { preparedManifest E id W.tree actions with commitReceipt := name }))) E
      { preparedManifest E id W.tree actions with commitReceipt := name }
    rintro w (rfl | rfl)
    · exact recoverPending_committed read rfl marked.manifest
    · refine recoverPending_committed read rfl ?_
      cases hr : (rollback E { preparedManifest E id W.tree actions with
          commitReceipt := name } v).result with
      | ok u => exact frame.returns v marked.manifest u hr
      | error e => exact frame.raises v marked.manifest e hr
  have standing : ∀ w : World, w.tree = v.tree → w.receipts = v.receipts →
      Final W.tree actions { preparedManifest E id W.tree actions with commitReceipt := name }
        (untilMarker E o id actions ⟨W.tree, none, R⟩).state w := by
    intro w tree receipts
    refine ⟨tree.trans marked.tree, files _ (tree.trans marked.tree), fun n hn => ?_⟩
    rw [receipts, marked.receipts]
    exact receipt n hn
  refine ⟨⟨standing _ rfl rfl, standing _ (after v (.inl rfl)).1 (after v (.inl rfl)).2⟩,
    fun unkeyed quiet full => ?_, fun keyed => ?_⟩
  · have spec := rollback_quiet (E := E) W.tree rfl unkeyed quiet full
    have tree : (rollback E { preparedManifest E id W.tree actions with
        commitReceipt := name } v).state.tree = v.tree := by
      cases hr : (rollback E { preparedManifest E id W.tree actions with
          commitReceipt := name } v).result with
      | ok u => exact spec.returns v rfl u hr
      | error e => exact spec.raises v rfl e hr
    have kept : ∀ w : World, w.tree = v.tree →
        Final W.tree actions { preparedManifest E id W.tree actions with commitReceipt := name }
          (untilMarker E o id actions ⟨W.tree, none, R⟩).state w := by
      intro w same
      refine ⟨same.trans marked.tree, files _ (same.trans marked.tree), fun n hn => ?_⟩
      rw [unkeyed] at hn
      cases hn
    exact ⟨kept _ tree, kept _ ((after _ (.inr rfl)).1.trans tree)⟩
  · obtain ⟨n, named⟩ := Option.ne_none_iff_exists'.mp keyed
    have spec := rollback_unpublishes E named
    have lost : n ∉ (rollback E { preparedManifest E id W.tree actions with
        commitReceipt := name } v).state.receipts := by
      cases hr : (rollback E { preparedManifest E id W.tree actions with
          commitReceipt := name } v).result with
      | ok u => exact spec.returns v trivial u hr
      | error e => exact spec.raises v trivial e hr
    refine ⟨fun final => lost (final.receipt n named), fun final => ?_⟩
    have there := final.receipt n named
    rw [(after _ (.inr rfl)).2] at there
    exact lost there

namespace Sample

/-- The disk of the plan that deletes `a` and creates `b`, where the marker is due. -/
def marking : View := (untilMarker engine unkeyed transaction replaceActions
  ⟨workspace.tree, none, ∅⟩).state

def replaceManifest : Manifest :=
  preparedManifest engine transaction workspace.tree replaceActions

/-- The disk right after the marker. -/
def marked : View := (finish engine replaceManifest marking).visited.get ⟨0, by decide⟩

end Sample

/-- A crash right after the marker: the created file stays. -/
theorem marker_is_final_created :
    (recoverPending Sample.engine (crashed Sample.transaction Sample.marked)).state.tree.fileAt
      Sample.b = some ⟨[2], 0o644⟩ :=
  (marker_is_final Sample.engine Sample.unkeyed Sample.transaction Sample.workspace ∅
    Sample.replacePlan Sample.replaceActions Sample.replaceManifest Sample.marked (by decide)
    (by decide) (List.get_mem _ _)).1.2.files Sample.b |>.trans (by decide)

/-- An exception right after the marker: the handler deletes `b` and brings `a` back. -/
theorem purge_failure_undoes_commit :
    validatePlan Sample.workspace.tree false Sample.replacePlan = .ok Sample.replaceActions ∧
    (untilMarker Sample.engine Sample.unkeyed Sample.transaction Sample.replaceActions
      ⟨Sample.workspace.tree, none, ∅⟩).result = .ok Sample.replaceManifest ∧
    Sample.marked ∈ (finish Sample.engine Sample.replaceManifest Sample.marking).visited ∧
    Sample.marked.manifest = some (markerWritten Sample.replaceManifest) ∧
    Sample.marked.tree.fileAt Sample.b = some ⟨[2], 0o644⟩ ∧
    (rollback Sample.engine Sample.replaceManifest Sample.marked).state.tree.fileAt Sample.b = none ∧
    (rollback Sample.engine Sample.replaceManifest Sample.marked).state.tree.fileAt Sample.a =
      some Sample.original ∧
    (recoverPending Sample.engine (crashed Sample.transaction (rollback Sample.engine
      Sample.replaceManifest Sample.marked).state)).state.tree.fileAt Sample.b = none := by
  refine ⟨by decide, by decide, List.get_mem _ _, by decide, by decide, by decide, by decide,
    by decide⟩

end RepoForge
