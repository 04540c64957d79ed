import RepoForge.Spec.Transaction.Steps

/-!
# Applying a plan, level by level

`applyAction_spec` is the specification of one action: it takes the plan from level `m` to
level `m + 1`, and wherever it is cut short, or raises, the plan is at one of the two levels
or inside the write between them. `applyFrom_spec` is the loop. The manifest and the
receipts do not change while actions are applied.
-/
namespace RepoForge

open Interruptible

/-- The staged copy of action `k` as preparation left it. -/
def StagedCopy (k : Nat) (v : View) : TransactionAction Path → Prop
  | .writeFile _ data _ => v.slot (.staged k) = some ⟨data, stageMode⟩
  | .createFile _ data mode => v.slot (.staged k) = some ⟨data, mode.toNat⟩
  | .deleteFile _ | .moveFile _ _ => True

/-- The actions from `m` on have their staged copies. -/
def Staged (actions : List (TransactionAction Path)) (m : Nat) (v : View) : Prop :=
  ∀ k a, m ≤ k → actions[k]? = some a → StagedCopy k v a

/-- Between two actions. -/
structure Ready (T : Tree) (actions : List (TransactionAction Path)) (M : Option Manifest)
    (R : AList fun _ : Text => Bytes) (m : Nat) (v : View) : Prop where
  level : AtLevel T actions m v
  staged : Staged actions m v
  manifest : v.manifest = M
  receipts : v.receipts = R

/-- Inside action `m`. The last case of `level` is also where the action has just ended. -/
structure Running (T : Tree) (actions : List (TransactionAction Path)) (M : Option Manifest)
    (R : AList fun _ : Text => Bytes) (m : Nat) (v : View) : Prop where
  level : (AtLevel T actions m v ∧ ∀ path data mode,
      actions[m]? = some (.createFile path data mode) → v.slot (.staged m) ≠ none) ∨
    Rewriting T actions m v ∨ AtLevel T actions (m + 1) v
  staged : Staged actions (m + 1) v
  manifest : v.manifest = M
  receipts : v.receipts = R

section Actions

variable {T : Tree} {actions : List (TransactionAction Path)} {M : Option Manifest}
  {R : AList fun _ : Text => Bytes} {m : Nat} {v w : View}

theorem Staged.later (h : Staged actions m v) : Staged actions (m + 1) v :=
  fun k a hk ha => h k a (by omega) ha

theorem StagedCopy.of_other {k : Nat} {a : TransactionAction Path} (ne : k ≠ m)
    (same : ∀ r, r ≠ .staged m → r ≠ .backup m → r ≠ .trash m → w.slot r = v.slot r)
    (h : StagedCopy k v a) : StagedCopy k w a := by
  cases a with
  | writeFile path data preserveMode => exact (same _ (by simp [ne]) (by simp) (by simp)).trans h
  | createFile path data mode => exact (same _ (by simp [ne]) (by simp) (by simp)).trans h
  | deleteFile path => trivial
  | moveFile source destination => trivial

theorem Staged.of_other
    (same : ∀ r, r ≠ .staged m → r ≠ .backup m → r ≠ .trash m → w.slot r = v.slot r)
    (h : Staged actions (m + 1) v) : Staged actions (m + 1) w :=
  fun k a hk ha => (h k a hk ha).of_other (by omega) same

theorem Staged.congr (same : ∀ s, w.slot s = v.slot s) (h : Staged actions m v) :
    Staged actions m w := by
  intro k a hk ha
  have := h k a hk ha
  cases a <;> simp_all [StagedCopy]

theorem Ready.running (h : Ready T actions M R m v) : Running T actions M R m v where
  level := by
    refine .inl ⟨h.level, fun path data mode ha => ?_⟩
    have copy : v.slot (.staged m) = some ⟨data, mode.toNat⟩ := h.staged m _ le_rfl ha
    simp [copy]
  staged := h.staged.later
  manifest := h.manifest
  receipts := h.receipts

theorem Ready.running_of_succ (h : Ready T actions M R (m + 1) v) : Running T actions M R m v :=
  ⟨.inr (.inr h.level), h.staged, h.manifest, h.receipts⟩

/-- While parents are made nothing else changes. -/
theorem Ready.of_resting (h : Ready T actions M R m v)
    (rest : Resting T actions m v.tx v.receipts w) :
    Ready T actions M R m w where
  level := rest.1
  staged := h.staged.congr fun s => View.slot_congr rest.2.1 s
  manifest := by rw [View.manifest, rest.2.1]; exact h.manifest
  receipts := rest.2.2.trans h.receipts

theorem fsyncDir_spec {P : View → Prop} {E : TransactionError → View → Prop} {C : View → Prop}
    (p : Path) (raised : ∀ e v, P v → E e v) : Spec P (fsyncDir p) (fun _ => P) E C :=
  Spec.check (fun _ h _ _ => h) fun v h e _ => raised e v h

/-- Making the parents of the target of action `m`. -/
theorem parents_spec (enabled : EnabledPlan T actions) {a : TransactionAction Path} {p : Path}
    (ha : actions[m]? = some a) (target : a.target = some p) :
    Spec (Ready T actions M R m) (ensureParent p)
      (fun _ v => Ready T actions M R m v ∧ v.tree.IsDir p.dropLast)
      (fun _ => Running T actions M R m) (Running T actions M R m) := by
  refine Spec.pointwise fun v hv => ?_
  have spec : Spec (Resting T actions m v.tx v.receipts) (ensureParent p) _ _ _ :=
    ensureParent_spec enabled ha target
  refine spec.weaken (fun u hu => ?_) (fun _ u hu => ?_) (fun _ u hu => ?_) fun u hu => ?_
  · subst hu
    exact ⟨hv.level, rfl, rfl⟩
  · exact ⟨hv.of_resting hu.1, hu.2⟩
  · exact (hv.of_resting hu).running
  · exact (hv.of_resting hu).running

theorem files_put {t : Tree} {p : Path} {f : File} {files : FileMap}
    (same : ∀ q, t.fileAt q = files q) (hp : p ≠ []) (q : Path) :
    (t.put p (.file f)).fileAt q = Function.update files p (some f) q := by
  rw [Tree.fileAt_put_file t hp, Function.update_apply]
  split <;> simp [same]

theorem files_remove {t : Tree} {p : Path} {files : FileMap} (same : ∀ q, t.fileAt q = files q)
    (q : Path) : (t.remove p).fileAt q = Function.update files p none q := by
  rw [Tree.fileAt_remove, Function.update_apply]
  split <;> simp [same]

theorem ne_nil_of_isDir_parent {t : Tree} {p : Path} (off : ¬ t.IsDir p) : p ≠ [] := by
  rintro rfl
  exact off (Tree.isDir_nil t)

section Write

variable {path : Path} {data : Bytes} {preserveMode : Bool}

/-- The staged copy has the mode that the action will leave. -/
def CopyReady (T : Tree) (actions : List (TransactionAction Path)) (m : Nat) (path : Path)
    (v : View) : Prop :=
  v.slot (.staged m) = levelFiles T actions (m + 1) path

/-- The write is about to replace its target: the level has not moved, the copy is ready. -/
def AboutToWrite (T : Tree) (actions : List (TransactionAction Path)) (M : Option Manifest)
    (R : AList fun _ : Text => Bytes) (m : Nat) (path : Path) (v : View) : Prop :=
  (AtLevel T actions m v ∧ Staged actions (m + 1) v ∧ v.manifest = M ∧ v.receipts = R) ∧
    CopyReady T actions m path v

theorem AboutToWrite.running (ha : actions[m]? = some (.writeFile path data preserveMode))
    (h : AboutToWrite T actions M R m path v) : Running T actions M R m v :=
  ⟨.inl ⟨h.1.1, fun _ _ _ hc => by rw [ha] at hc; cases hc⟩, h.1.2.1, h.1.2.2.1, h.1.2.2.2⟩

/-- The target is in its backup. -/
def Replacing (T : Tree) (actions : List (TransactionAction Path)) (M : Option Manifest)
    (R : AList fun _ : Text => Bytes) (m : Nat) (path : Path) (v : View) : Prop :=
  (Journaled T actions (m + 1) (Function.update (levelFiles T actions m) path none) v ∧
    Staged actions (m + 1) v ∧ v.manifest = M ∧ v.receipts = R) ∧ CopyReady T actions m path v ∧
    ¬ v.tree.IsDir path

theorem Replacing.running (ha : actions[m]? = some (.writeFile path data preserveMode))
    (h : Replacing T actions M R m path v) : Running T actions M R m v :=
  ⟨.inr (.inl ⟨path, data, preserveMode, ha, h.1.1, h.2.2⟩), h.1.2.1, h.1.2.2.1, h.1.2.2.2⟩

theorem level_write (ha : actions[m]? = some (.writeFile path data preserveMode)) :
    levelFiles T actions (m + 1) = Function.update (levelFiles T actions m) path
      (some ⟨data, if preserveMode then (levelFiles T actions m path).elim stageMode File.mode
        else stageMode⟩) := levelFiles_succ ha

theorem preserveStageMode_spec (ha : actions[m]? = some (.writeFile path data preserveMode)) :
    Spec (Ready T actions M R m) (preserveStageMode m path preserveMode)
      (fun _ => AboutToWrite T actions M R m path) (fun _ => Running T actions M R m)
      (Running T actions M R m) := by
  cases preserveMode with
  | false =>
    refine Spec.ret () fun v hv => ⟨⟨hv.level, hv.staged.later, hv.manifest, hv.receipts⟩, ?_⟩
    have copy : v.slot (.staged m) = some ⟨data, stageMode⟩ := hv.staged m _ le_rfl ha
    rw [CopyReady, copy, level_write ha]
    simp
  | true =>
    refine Spec.step ?_ fun v hv _ _ => hv.running
    intro v hv w hw
    obtain ⟨content, copy, found, staged, tree, slots, framed⟩ := View.copyMode_ok hw
    have others : ∀ r, r ≠ .staged m → r ≠ .backup m → r ≠ .trash m → w.slot r = v.slot r :=
      fun r hr _ _ => by rw [slots, if_neg hr]
    have about : AboutToWrite T actions M R m path w := by
      refine ⟨⟨?_, hv.staged.later.of_other others, framed.manifest.trans hv.manifest,
        framed.receipts.trans hv.receipts⟩, ?_⟩
      · refine hv.level.move_on ha ⟨.inl rfl, .inl rfl⟩ (fun _ => by rw [tree])
          (tree ▸ hv.level.wellFormed) (framed.journal hv.level.journal)
          (fun p => tree ▸ hv.level.files p) others (by omega) (fun _ => ?_) (fun p hp =>
            hv.level.parents m p le_rfl hp) (by omega)
        have none : v.slot (.backup m) = none := hv.level.unsaved m _ le_rfl ha
        rw [Unsaved, slots, if_neg (by simp)]
        exact none
      · have files : levelFiles T actions m path = some content := by
          rw [← hv.level.files]
          exact found
        have original : v.slot (.staged m) = some ⟨data, stageMode⟩ := hv.staged m _ le_rfl ha
        have same : copy = ⟨data, stageMode⟩ := Option.some.inj (staged.symm.trans original)
        rw [CopyReady, slots, if_pos rfl, level_write ha]
        simp [files, same]
    exact ⟨about.running ha, about⟩

theorem backup_spec (enabled : EnabledPlan T actions)
    (ha : actions[m]? = some (.writeFile path data preserveMode)) :
    Spec (AboutToWrite T actions M R m path) (Proc.step (View.stash path (.backup m)))
      (fun _ => Replacing T actions M R m path) (fun _ => Running T actions M R m)
      (Running T actions M R m) := by
  refine Spec.step ?_ fun v hv _ _ => hv.running ha
  rintro v ⟨⟨level, staged, manifest, receipts⟩, copy⟩ w hw
  obtain ⟨f, found, tree, slots, framed⟩ := View.stash_ok hw
  have off := Tree.not_isDir_of_fileAt found
  have replacing : Replacing T actions M R m path w := by
    have others : ∀ r, r ≠ .staged m → r ≠ .backup m → r ≠ .trash m → w.slot r = v.slot r :=
      fun r _ hr _ => by rw [slots, if_neg hr]
    refine ⟨⟨?_, staged.of_other others, framed.manifest.trans manifest,
      framed.receipts.trans receipts⟩, ?_, ?_⟩
    · refine level.move_on ha ⟨.inl rfl, .inr rfl⟩ (fun p => ?_) ?_ (framed.journal level.journal)
        (fun p => ?_) others (fun _ => ?_) (by omega) (fun p hp => ?_) fun _ p hp => ?_
      · rw [tree]
        exact Tree.isDir_remove_file v.tree off p
      · rw [tree]
        exact Tree.wellFormed_remove_file level.wellFormed off
      · rw [tree]
        exact files_remove level.files p
      · rw [Saved, slots, if_pos rfl, ← level.files]
        exact found.symm
      · by_cases h : p = path
        · exact level.parents m p le_rfl (h ▸ enabled m _ ha)
        · rw [level_write ha] at hp
          exact level.parents m p le_rfl (by simpa [h] using hp)
      · by_cases h : p = path
        · exact h ▸ off
        · rw [level_write ha] at hp
          exact level.not_isDir (by simpa [h] using hp)
    · rw [CopyReady, slots, if_neg (by simp)]
      exact copy
    · rw [tree, Tree.isDir_remove_file v.tree off]
      exact off
  exact ⟨replacing.running ha, replacing⟩

theorem publish_spec (ha : actions[m]? = some (.writeFile path data preserveMode)) :
    Spec (Replacing T actions M R m path) (Proc.step (View.unstash (.staged m) path))
      (fun _ => Ready T actions M R (m + 1)) (fun _ => Running T actions M R m)
      (Running T actions M R m) := by
  refine Spec.step ?_ fun v hv _ _ => hv.running ha
  rintro v ⟨⟨level, staged, manifest, receipts⟩, copy, -⟩ w hw
  obtain ⟨f, found, off, parent, tree, slots, framed⟩ := View.unstash_ok hw
  have hp := ne_nil_of_isDir_parent off
  have others : ∀ r, r ≠ .staged m → r ≠ .backup m → r ≠ .trash m → w.slot r = v.slot r :=
    fun r hr _ _ => by rw [slots, if_neg hr]
  have ready : Ready T actions M R (m + 1) w := by
    refine ⟨?_, staged.of_other others, framed.manifest.trans manifest,
      framed.receipts.trans receipts⟩
    refine level.move_on ha ⟨.inr rfl, .inr rfl⟩ (fun p => ?_) ?_ (framed.journal level.journal)
      (fun p => ?_) others (fun _ => ?_) (by omega) (fun p hp => level.parents (m + 1) p le_rfl hp)
      (by omega)
    · rw [tree]
      exact Tree.isDir_put_file v.tree off p f
    · rw [tree]
      exact Tree.wellFormed_put_file level.wellFormed off parent f
    · have written : some f = levelFiles T actions (m + 1) path := found ▸ copy
      rw [tree, files_put level.files hp, Function.update_idem, written, level_write ha]
      simp
    · have saved := level.saved m _ (by omega) ha
      rw [Saved] at saved ⊢
      rw [slots, if_neg (by simp)]
      exact saved
  exact ⟨ready.running_of_succ, ready⟩

theorem write_spec (enabled : EnabledPlan T actions)
    (ha : actions[m]? = some (.writeFile path data preserveMode)) :
    Spec (Ready T actions M R m) (applyAction m (.writeFile path data preserveMode))
      (fun _ => Ready T actions M R (m + 1)) (fun _ => Running T actions M R m)
      (Running T actions M R m) := by
  refine Spec.bind (parents_spec enabled ha rfl) fun _ => ?_
  refine Spec.bind ((preserveStageMode_spec ha).weaken (fun _ h => h.1) (fun _ _ h => h)
    (fun _ _ h => h) fun _ h => h) fun _ => ?_
  refine Spec.bind (backup_spec enabled ha) fun _ => ?_
  refine Spec.bind (fsyncDir_spec _ fun _ _ h => h.running ha) fun _ => ?_
  exact Spec.bind (publish_spec ha) fun _ => fsyncDir_spec _ fun _ _ h => h.running_of_succ

end Write

theorem create_spec (enabled : EnabledPlan T actions) {path : Path} {data : Bytes} {mode : Int}
    (ha : actions[m]? = some (.createFile path data mode)) :
    Spec (Ready T actions M R m) (applyAction m (.createFile path data mode))
      (fun _ => Ready T actions M R (m + 1)) (fun _ => Running T actions M R m)
      (Running T actions M R m) := by
  refine Spec.bind (parents_spec enabled ha rfl) fun _ => ?_
  refine Spec.bind (Q := fun _ => Ready T actions M R (m + 1)) (Spec.step ?_ ?_)
    fun _ => fsyncDir_spec _ fun _ _ h => h.running_of_succ
  · rintro v ⟨hv, parent⟩ w hw
    obtain ⟨f, found, off, -, tree, slots, framed⟩ := View.unstash_ok hw
    have hp := ne_nil_of_isDir_parent off
    have copy : v.slot (.staged m) = some ⟨data, mode.toNat⟩ := hv.staged m _ le_rfl ha
    have others : ∀ r, r ≠ .staged m → r ≠ .backup m → r ≠ .trash m → w.slot r = v.slot r :=
      fun r hr _ _ => by rw [slots, if_neg hr]
    have files : levelFiles T actions (m + 1) =
        Function.update (levelFiles T actions m) path (some f) := by
      rw [levelFiles_succ ha, ← found, copy]
      rfl
    have ready : Ready T actions M R (m + 1) w := by
      refine ⟨?_, hv.staged.later.of_other others, framed.manifest.trans hv.manifest,
        framed.receipts.trans hv.receipts⟩
      refine hv.level.move_on ha ⟨.inl rfl, .inr rfl⟩ (fun p => ?_) ?_
        (framed.journal hv.level.journal) (fun p => ?_) others (fun _ => ?_) (by omega)
        (fun p hp => ?_) fun _ p hp => ?_
      · rw [tree]
        exact Tree.isDir_put_file v.tree off p f
      · rw [tree]
        exact Tree.wellFormed_put_file hv.level.wellFormed off parent f
      · rw [tree, files_put hv.level.files hp, files]
      · rw [Saved, slots, if_pos rfl]
      · by_cases h : p = path
        · exact h ▸ parent
        · rw [files] at hp
          exact hv.level.parents m p le_rfl (by simpa [h] using hp)
      · by_cases h : p = path
        · exact h ▸ off
        · rw [files] at hp
          exact hv.level.not_isDir (by simpa [h] using hp)
    exact ⟨ready.running_of_succ, ready⟩
  · rintro v ⟨hv, -⟩ _ _
    exact hv.running

theorem delete_spec {path : Path} (ha : actions[m]? = some (.deleteFile path)) :
    Spec (Ready T actions M R m) (applyAction m (.deleteFile path))
      (fun _ => Ready T actions M R (m + 1)) (fun _ => Running T actions M R m)
      (Running T actions M R m) := by
  refine Spec.bind (Q := fun _ => Ready T actions M R (m + 1)) (Spec.step ?_ ?_)
    fun _ => fsyncDir_spec _ fun _ _ h => h.running_of_succ
  · intro v hv w hw
    obtain ⟨f, found, tree, slots, framed⟩ := View.stash_ok hw
    have off := Tree.not_isDir_of_fileAt found
    have others : ∀ r, r ≠ .staged m → r ≠ .backup m → r ≠ .trash m → w.slot r = v.slot r :=
      fun r _ _ hr => by rw [slots, if_neg hr]
    have files : levelFiles T actions (m + 1) =
        Function.update (levelFiles T actions m) path none := levelFiles_succ ha
    have ready : Ready T actions M R (m + 1) w := by
      refine ⟨?_, hv.staged.later.of_other others, framed.manifest.trans hv.manifest,
        framed.receipts.trans hv.receipts⟩
      refine hv.level.move_on ha ⟨.inl rfl, .inr rfl⟩ (fun p => ?_) ?_
        (framed.journal hv.level.journal) (fun p => ?_) others (fun _ => ?_) (by omega)
        (fun p hp => ?_) fun _ p hp => ?_
      · rw [tree]
        exact Tree.isDir_remove_file v.tree off p
      · rw [tree]
        exact Tree.wellFormed_remove_file hv.level.wellFormed off
      · rw [tree, files_remove hv.level.files p, files]
      · rw [Saved, slots, if_pos rfl, ← hv.level.files]
        exact found.symm
      · rw [files] at hp
        by_cases h : p = path
        · simp [h] at hp
        · exact hv.level.parents m p le_rfl (by simpa [h] using hp)
      · rw [files] at hp
        by_cases h : p = path
        · exact h ▸ off
        · exact hv.level.not_isDir (by simpa [h] using hp)
    exact ⟨ready.running_of_succ, ready⟩
  · intro v hv _ _
    exact hv.running

theorem move_spec (enabled : EnabledPlan T actions) {source destination : Path}
    (ha : actions[m]? = some (.moveFile source destination)) :
    Spec (Ready T actions M R m) (applyAction m (.moveFile source destination))
      (fun _ => Ready T actions M R (m + 1)) (fun _ => Running T actions M R m)
      (Running T actions M R m) := by
  obtain ⟨-, sourceThere, -, -⟩ := enabled m _ ha
  refine Spec.bind (parents_spec enabled ha rfl) fun _ => ?_
  refine Spec.bind (Q := fun _ => Ready T actions M R (m + 1)) (Spec.step ?_ ?_) fun _ =>
    Spec.bind (fsyncDir_spec _ fun _ _ h => h.running_of_succ)
      fun _ => fsyncDir_spec _ fun _ _ h => h.running_of_succ
  · rintro v ⟨hv, parent⟩ w hw
    obtain ⟨t, moved, rfl⟩ := View.onTree_ok hw
    obtain ⟨f, hf, found⟩ := hv.level.fileAt_ne_none sourceThere
    obtain ⟨off, -, rfl⟩ := Tree.rename_file_ok found moved
    have sourceOff := Tree.not_isDir_of_fileAt found
    have off' : ¬ (v.tree.remove source).IsDir destination :=
      (Tree.isDir_remove_file v.tree sourceOff destination).not.mpr off
    have parent' : (v.tree.remove source).IsDir destination.dropLast :=
      (Tree.isDir_remove_file v.tree sourceOff _).mpr parent
    have files : levelFiles T actions (m + 1) = Function.update
        (Function.update (levelFiles T actions m) source none) destination (some f) := by
      rw [levelFiles_succ ha, ← hf]
      rfl
    have ready : Ready T actions M R (m + 1)
        { v with tree := (v.tree.remove source).put destination (.file f) } := by
      refine ⟨?_, hv.staged.later.congr fun _ => rfl, hv.manifest, hv.receipts⟩
      refine hv.level.move_on ha ⟨.inl rfl, .inr rfl⟩ (fun p => ?_) ?_ hv.level.journal
        (fun p => ?_) (fun _ _ _ _ => rfl) (fun _ => trivial) (by omega) (fun p hp => ?_)
        fun _ p hp => ?_
      · exact (Tree.isDir_put_file _ off' p f).trans (Tree.isDir_remove_file v.tree sourceOff p)
      · exact Tree.wellFormed_put_file
          (Tree.wellFormed_remove_file hv.level.wellFormed sourceOff) off' parent' f
      · rw [files_put (files_remove hv.level.files) (ne_nil_of_isDir_parent off), files]
      · rw [files] at hp
        by_cases h : p = destination
        · exact h ▸ parent
        · by_cases hs : p = source
          · subst hs
            simp [h] at hp
          · exact hv.level.parents m p le_rfl (by simpa [h, hs] using hp)
      · rw [files] at hp
        by_cases h : p = destination
        · exact h ▸ off
        · by_cases hs : p = source
          · exact hs ▸ sourceOff
          · exact hv.level.not_isDir (by simpa [h, hs] using hp)
    exact ⟨ready.running_of_succ, ready⟩
  · rintro v ⟨hv, -⟩ _ _
    exact hv.running

/-- One action takes the plan one level up. -/
theorem applyAction_spec (enabled : EnabledPlan T actions) {a : TransactionAction Path}
    (ha : actions[m]? = some a) :
    Spec (Ready T actions M R m) (applyAction m a) (fun _ => Ready T actions M R (m + 1))
      (fun _ => Running T actions M R m) (Running T actions M R m) := by
  cases a with
  | writeFile path data preserveMode => exact write_spec enabled ha
  | createFile path data mode => exact create_spec enabled ha
  | deleteFile path => exact delete_spec ha
  | moveFile source destination => exact move_spec enabled ha

end Actions

end RepoForge
