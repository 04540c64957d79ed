import Mathlib.Data.List.TakeWhile
import RepoForge.Spec.Transaction.Backward

/-!
# The rest of a rollback

Once every action is undone the rollback removes the directories it made, deepest first,
and purges the journal. The commit receipt goes before the actions are undone.
-/
namespace RepoForge

open Interruptible

namespace Tree

variable {t u : Tree} {p q : Path}

theorem rmdir_ok (h : t.rmdir p = .ok u) : t.IsDir p ∧ t.emptyDir p = true ∧ u = t.remove p := by
  unfold rmdir at h
  split at h
  · cases h
  · cases h
  · rename_i hd
    split at h
    · rename_i empty
      cases h
      exact ⟨hd, empty, rfl⟩
    · cases h

theorem rmdir_dir (h : t.IsDir p) (empty : t.emptyDir p = true) : t.rmdir p = .ok (t.remove p) := by
  simp [rmdir, show t.node p = some .dir from h, empty]

theorem rmdir_absent (h : t.node p = none) (off : t.underFile p = false) :
    t.rmdir p = .error .fileNotFound := by
  simp [rmdir, h, absent, off]

theorem fileAt_remove_dir (h : t.IsDir p) (q : Path) : (t.remove p).fileAt q = t.fileAt q := by
  rw [fileAt_remove]
  split
  · rename_i he
    rw [he, h.fileAt]
  · rfl

theorem isDir_remove_dir (hp : p ≠ []) (q : Path) : (t.remove p).IsDir q ↔ t.IsDir q ∧ q ≠ p := by
  unfold IsDir
  rw [node_remove]
  by_cases h : q = p <;> simp [h, hp]

theorem wellFormed_remove_dir (wf : t.WellFormed) (hp : p ≠ []) (empty : t.emptyDir p = true) :
    (t.remove p).WellFormed := by
  intro q hq
  have hqp : q ≠ p := by
    rintro rfl
    exact hq (node_remove_self t hp)
  have hn : t.node q ≠ none := by simpa [hqp] using hq
  refine (isDir_remove_dir hp _).mpr ⟨wf q hn, ?_⟩
  intro hd
  have below : Below p q := by
    refine ⟨hd ▸ List.dropLast_prefix q, fun he => hqp he.symm⟩
  exact hn (emptyDir_iff.mp empty q below)

end Tree

/-- Files and directories of the tree `T`, and perhaps more directories. -/
structure Restored (T t : Tree) : Prop where
  files : ∀ p, t.fileAt p = T.fileAt p
  wellFormed : t.WellFormed
  grown : ∀ p, T.IsDir p → t.IsDir p

/-- The created parents of a plan on `T`. -/
theorem mem_rollbackParents {T : Tree} {actions : List (TransactionAction Path)} {q : Path} :
    ∀ i, (q ∈ rollbackParents (serializeFrom T i actions) ↔
      ∃ a ∈ actions, ∃ p, a.target = some p ∧ q ∈ missingParents T p) := by
  unfold rollbackParents
  simp only [List.mem_insertionSort, List.mem_dedup]
  induction actions with
  | nil => simp [serializeFrom]
  | cons a rest ih =>
    intro i
    simp only [serializeFrom, List.flatMap_cons, List.mem_append, List.mem_cons, exists_eq_or_imp,
      ih (i + 1)]
    refine or_congr ?_ Iff.rfl
    cases a <;> simp [serializeAction, JournalAction.createdParents, TransactionAction.target]

theorem rollbackParents_sorted (entries : List JournalAction) :
    (rollbackParents entries).Pairwise fun a b => b.length ≤ a.length := by
  unfold rollbackParents
  refine List.pairwise_insertionSort _ _

/-- The missing parents of a path are its ancestors that are not there. -/
theorem mem_missingParents {T : Tree} (wf : T.WellFormed) {p q : Path} :
    q ∈ missingParents T p ↔ q <+: p.dropLast ∧ T.node q = none := by
  unfold missingParents
  rw [List.mem_reverse]
  constructor
  · intro h
    have absent := List.mem_takeWhile_imp h
    have mem := (List.takeWhile_sublist _).subset h
    refine ⟨List.mem_inits _ _ |>.mp (List.mem_reverse.mp mem), ?_⟩
    exact Tree.present_eq_false.mp (by simpa using absent)
  · rintro ⟨pre, absent⟩
    have climb : ∀ front : Path, q <+: front →
        q ∈ front.inits.reverse.takeWhile fun r => ¬ T.present r := by
      intro front
      induction front using List.reverseRecOn with
      | nil =>
        intro h
        obtain rfl := List.prefix_nil.mp h
        simp at absent
      | append_singleton front last ih =>
        intro h
        rw [List.inits_append]
        have gone : T.present (front ++ [last]) = false := by
          by_contra there
          have node : T.node (front ++ [last]) ≠ none := by
            simpa [Tree.present_eq_false] using there
          by_cases he : q = front ++ [last]
          · exact node (he ▸ absent)
          · have dir := wf.isDir_of_below ⟨h, he⟩ node
            rw [show T.node q = some .dir from dir] at absent
            cases absent
        by_cases he : q = front ++ [last]
        · simp [he, gone]
        · have := ih ((List.prefix_concat_iff.mp h).resolve_left he)
          simpa [gone] using Or.inr (by simpa using this)
    exact climb _ pre

section Parents

variable {T : Tree} {d : Option TxDir} {receipts : AList (fun _ : Text => Bytes)}

/-- Removing a created parent leaves the files and the directories of `T`. -/
theorem Restored.rmdir {t u : Tree} {q : Path} (h : Restored T t) (new : T.node q = none)
    (removed : t.rmdir q = .ok u) : Restored T u := by
  obtain ⟨dir, empty, rfl⟩ := Tree.rmdir_ok removed
  have hq : q ≠ [] := by
    rintro rfl
    simp at new
  refine ⟨fun p => ?_, Tree.wellFormed_remove_dir h.wellFormed hq empty, fun p hp => ?_⟩
  · rw [Tree.fileAt_remove_dir dir, h.files]
  · refine (Tree.isDir_remove_dir hq p).mpr ⟨h.grown p hp, ?_⟩
    rintro rfl
    rw [show T.node p = some .dir from hp] at new
    cases new

/-- `removeParent` changes the tree by `rmdir` or not at all. -/
theorem removeParent_spec {P Q C : View → Prop} {E : TransactionError → View → Prop} (q : Path)
    (removed : ∀ v t, P v → v.tree.rmdir q = .ok t → C { v with tree := t } ∧ Q { v with tree := t })
    (skipped : ∀ v e, P v → v.tree.rmdir q = .error e →
      (e = .fileNotFound ∨ v.tree.IsDir q) → Q v)
    (refused : ∀ v e, P v → v.tree.rmdir q = .error e → e ≠ .fileNotFound → ¬ v.tree.IsDir q →
      E (.os e) v) :
    Spec P (removeParent q) (fun _ => Q) E C := by
  refine Spec.bind (Q := fun r v => P v ∧ v.tree.rmdir q = r)
    (Spec.inspect fun v hv => ⟨hv, rfl⟩) fun r => ?_
  have occupied : ∀ (v : View) (e : OsError), v.tree.rmdir q = .error e → v.tree.IsDir q →
      v.tree.emptyDir q = false := by
    intro v e h dir
    by_contra empty
    rw [Tree.rmdir_dir dir (by simpa using empty)] at h
    cases h
  have other : ∀ e, e ≠ .fileNotFound → Spec (fun v => P v ∧ v.tree.rmdir q = .error e)
      (do
        let occupied ← Proc.inspect fun v => decide (v.tree.IsDir q) && !v.tree.emptyDir q
        if occupied then pure () else Proc.raise (.os e)) (fun _ => Q) E C := by
    intro e he
    refine Spec.bind (Q := fun b v => (decide (v.tree.IsDir q) && !v.tree.emptyDir q) = b ∧
      P v ∧ v.tree.rmdir q = .error e) (Spec.inspect fun v hv => ⟨rfl, hv⟩) fun b => ?_
    cases b with
    | true =>
      refine Spec.ret () ?_
      rintro v ⟨hb, hv, hr⟩
      exact skipped v e hv hr (.inr (by simp at hb; exact hb.1))
    | false =>
      refine Spec.raise _ ?_
      rintro v ⟨hb, hv, hr⟩
      refine refused v e hv hr he fun dir => ?_
      simp [dir, occupied v e hr dir] at hb
  cases r with
  | ok t =>
    refine Spec.step ?_ ?_
    · rintro v ⟨hv, hr⟩ w hw
      obtain ⟨u, hu, rfl⟩ := View.onTree_ok hw
      exact removed v u hv hu
    · rintro v ⟨hv, hr⟩ e he
      rw [View.onTree, hr] at he
      cases he
  | error e =>
    cases e with
    | fileNotFound =>
      refine Spec.ret () ?_
      rintro v ⟨hv, hr⟩
      exact skipped v _ hv hr (.inl rfl)
    | notADirectory => exact other _ (by simp)
    | isADirectory => exact other _ (by simp)
    | fileExists => exact other _ (by simp)
    | directoryNotEmpty => exact other _ (by simp)
    | invalidArgument => exact other _ (by simp)

/-- The files and directories of `T`, with the journal and the receipts of a moment. -/
def RestoredWith (T : Tree) (d : Option TxDir) (receipts : AList (fun _ : Text => Bytes))
    (v : View) : Prop := Restored T v.tree ∧ v.tx = d ∧ v.receipts = receipts

/-- `RestoredWith`, with no directory beyond those of a moment. -/
def Settling (T : Tree) (D : Path → Prop) (d : Option TxDir)
    (receipts : AList (fun _ : Text => Bytes)) (v : View) : Prop :=
  RestoredWith T d receipts v ∧ ∀ p, v.tree.IsDir p → D p

theorem removeParents_keeps {D : Path → Prop} :
    ∀ (dirs : List Path), (∀ q ∈ dirs, T.node q = none) →
      Spec (Settling T D d receipts) (removeParents dirs) (fun _ => Settling T D d receipts)
        (fun _ => Settling T D d receipts) (Settling T D d receipts)
  | [], _ => Spec.ret () fun _ h => h
  | q :: dirs, new => by
    refine Spec.bind (removeParent_spec q ?_ (fun v _ h _ _ => h) fun v _ h _ _ _ => h)
      fun _ => removeParents_keeps dirs fun p hp => new p (List.mem_cons_of_mem _ hp)
    intro v t h removed
    have absent := new q (by simp)
    have restored := h.1.1.rmdir absent removed
    obtain ⟨-, -, rfl⟩ := Tree.rmdir_ok removed
    have after : Settling T D d receipts { v with tree := v.tree.remove q } := by
      refine ⟨⟨restored, h.1.2⟩, fun p hp => h.2 p ?_⟩
      refine ((Tree.isDir_remove_dir ?_ p).mp hp).1
      rintro rfl
      simp at absent
    exact ⟨after, after⟩

/-- Every directory beyond those of `T` is still to be removed. -/
def ClearedUpTo (T : Tree) (dirs : List Path) (d : Option TxDir)
    (receipts : AList (fun _ : Text => Bytes)) (v : View) : Prop :=
  RestoredWith T d receipts v ∧ ∀ p, v.tree.IsDir p → T.IsDir p ∨ p ∈ dirs

/-- Deepest first, every created parent is found empty and goes. -/
theorem removeParents_clears (wf : T.WellFormed) :
    ∀ (dirs : List Path), (dirs.Pairwise fun a b => b.length ≤ a.length) →
      (∀ q ∈ dirs, T.node q = none ∧ T.underFile q = false) →
      Spec (ClearedUpTo T dirs d receipts) (removeParents dirs)
        (fun _ => ClearedUpTo T [] d receipts) (fun _ _ => False) (fun _ => True)
  | [], _, _ => Spec.ret () fun _ h => h
  | q :: dirs, sorted, new => by
    obtain ⟨absent, open_⟩ := new q (by simp)
    have hq : q ≠ [] := by
      rintro rfl
      simp at absent
    have noFile : ∀ v, ClearedUpTo T (q :: dirs) d receipts v → v.tree.fileAt q = none := by
      intro v h
      rw [h.1.1.files]
      exact Tree.fileAt_eq_none.mpr (.inl absent)
    have empty : ∀ v, ClearedUpTo T (q :: dirs) d receipts v → v.tree.emptyDir q = true := by
      intro v h
      refine Tree.emptyDir_iff.mpr fun r below => ?_
      have nothing : T.node r = none := by
        by_contra there
        have dir := wf.isDir_of_below below there
        rw [show T.node q = some .dir from dir] at absent
        cases absent
      refine Tree.node_eq_none ?_ fun dir => ?_
      · rw [h.1.1.files]
        exact Tree.fileAt_eq_none.mpr (.inl nothing)
      · rcases h.2 r dir with old | listed
        · rw [show T.node r = some .dir from old] at nothing
          cases nothing
        · rcases List.mem_cons.mp listed with rfl | listed
          · exact below.2 rfl
          · have shorter := (List.pairwise_cons.mp sorted).1 r listed
            have longer := below.1.length_le
            exact below.2 (below.1.eq_of_length (by omega))
    have passed : ∀ v, ClearedUpTo T (q :: dirs) d receipts v → ¬ v.tree.IsDir q →
        ClearedUpTo T dirs d receipts v := by
      rintro v ⟨h, listed⟩ off
      refine ⟨h, fun p hp => ?_⟩
      rcases listed p hp with old | listed
      · exact .inl old
      · rcases List.mem_cons.mp listed with rfl | listed
        · exact absurd hp off
        · exact .inr listed
    refine Spec.bind (Q := fun _ => ClearedUpTo T dirs d receipts)
      (removeParent_spec q ?_ ?_ ?_) fun _ => removeParents_clears wf dirs
        (List.pairwise_cons.mp sorted).2 fun p hp => new p (List.mem_cons_of_mem _ hp)
    · intro v t h removed
      have after := h.1.1.rmdir absent removed
      obtain ⟨-, -, rfl⟩ := Tree.rmdir_ok removed
      refine ⟨trivial, passed _ ⟨⟨after, h.1.2⟩, fun p hp => ?_⟩ fun dir => ?_⟩
      · exact h.2 p ((Tree.isDir_remove_dir hq p).mp hp).1
      · exact ((Tree.isDir_remove_dir hq q).mp dir).2 rfl
    · intro v e h refused reason
      refine passed v h fun dir => ?_
      rw [Tree.rmdir_dir dir (empty v h)] at refused
      cases refused
    · intro v e h refused other off
      have under : v.tree.underFile q = false := by
        by_contra hu
        obtain ⟨r, below, file⟩ := Tree.underFile_iff.mp (by simpa using hu)
        rw [h.1.1.files] at file
        have := Tree.underFile_iff.mpr ⟨r, below, file⟩
        rw [open_] at this
        cases this
      rw [Tree.rmdir_absent (Tree.node_eq_none (noFile v h) off) under] at refused
      cases refused
      exact other rfl

end Parents

section Purge

/-- The journal while it is being deleted: entries go, nothing else changes. -/
structure Shrunk (v w : View) : Prop where
  tree : w.tree = v.tree
  receipts : w.receipts = v.receipts
  journal : w.tx ≠ none
  slots : ∀ s, w.slot s = v.slot s ∨ w.slot s = none
  manifest : w.manifest = v.manifest ∨ w.manifest = none

structure Purged (v w : View) : Prop where
  tree : w.tree = v.tree
  receipts : w.receipts = v.receipts
  journal : w.tx = none

theorem Shrunk.drop {v w : View} {d : TxDir} (h : Shrunk v w) (tx : w.tx = some d) (e : TxEntry) :
    Shrunk v { w with tx := some (d.drop e) } := by
  refine ⟨h.tree, h.receipts, by simp, fun s => ?_, ?_⟩
  · have before := h.slots s
    rw [show w.slot s = d.slots.lookup s by simp [View.slot, tx]] at before
    cases e with
    | slot r =>
      by_cases hs : s = r
      · subst hs
        simp [View.slot, TxDir.drop]
      · rw [View.slot, TxDir.drop]
        simpa [AList.lookup_erase_ne hs] using before
    | manifestTmp => exact before
    | manifest => exact before
  · have before := h.manifest
    rw [show w.manifest = d.manifest by simp [View.manifest, tx]] at before
    cases e with
    | slot r => exact before
    | manifestTmp => exact before
    | manifest => exact .inr rfl

theorem removeEntries_spec {v : View} :
    ∀ entries, Spec (Shrunk v) (removeEntries entries) (fun _ => Shrunk v) (fun _ _ => False)
      (Shrunk v)
  | [] => Spec.ret () fun _ h => h
  | e :: rest => by
    refine Spec.bind (Spec.step ?_ ?_) fun _ => removeEntries_spec rest
    · intro w h u hu
      obtain ⟨d, d', tx, hd, rfl⟩ := View.onTx_ok hu
      cases hd
      exact ⟨h.drop tx e, h.drop tx e⟩
    · intro w h err refused
      obtain ⟨d, tx⟩ := Option.ne_none_iff_exists'.mp h.journal
      simp [View.onTx, tx] at refused

theorem Shrunk.refl {v : View} (journal : v.tx ≠ none) : Shrunk v v :=
  ⟨rfl, rfl, journal, fun _ => .inl rfl, .inl rfl⟩

theorem purge_spec (E : Engine) {v : View} (journal : v.tx ≠ none) :
    Spec (· = v) (purge E) (fun _ => Purged v) (fun _ _ => False)
      (fun w => Shrunk v w ∨ Purged v w) := by
  refine Spec.bind (Q := fun _ => Shrunk v) (Spec.check ?_ ?_) fun d => ?_
  · rintro w rfl _ _
    exact .refl journal
  · rintro w rfl e refused
    obtain ⟨d, tx⟩ := Option.ne_none_iff_exists'.mp journal
    simp [tx] at refused
  · refine Spec.bind ((removeEntries_spec _).weaken (fun _ h => h) (fun _ _ h => h)
      (fun _ _ h => h) fun _ h => .inl h) fun _ => Spec.step ?_ ?_
    · intro w h u hu
      cases hu
      have purged : Purged v { w with tx := none } := ⟨h.tree, h.receipts, rfl⟩
      exact ⟨.inr purged, purged⟩
    · intro w h e refused
      cases refused

theorem removeUnprepared_spec (E : Engine) (v : View) :
    Spec (· = v) (removeUnprepared E) (fun _ w => w.tx = none ∧ w.tree = v.tree ∧
      w.receipts = v.receipts) (fun _ _ => False) (fun w => Shrunk v w ∨ Purged v w) := by
  refine Spec.bind (Q := fun there w => w.tx.isSome = there ∧ w = v)
    (Spec.inspect fun w h => ⟨rfl, h⟩) fun there => ?_
  cases there with
  | false =>
    refine Spec.ret () ?_
    rintro w ⟨gone, rfl⟩
    exact ⟨by simpa using gone, rfl, rfl⟩
  | true =>
    refine Spec.pointwise ?_
    rintro w ⟨there, rfl⟩
    exact (purge_spec E (Option.isSome_iff_ne_none.mp there)).weaken (fun _ h => h)
      (fun _ _ h => ⟨h.journal, h.tree, h.receipts⟩) (fun _ _ h => h) fun _ h => h

end Purge

/-- The receipt goes and nothing else does. -/
theorem rollbackCommitReceipt_spec (m : Manifest) (v : View) {E : TransactionError → View → Prop} :
    Spec (· = v) (rollbackCommitReceipt m) (fun _ w => w.tree = v.tree ∧ w.tx = v.tx) E
      (fun w => w.tree = v.tree ∧ w.tx = v.tx) := by
  unfold rollbackCommitReceipt
  split
  · refine Spec.ret () ?_
    rintro w rfl
    exact ⟨rfl, rfl⟩
  · refine Spec.bind (Q := fun _ w => w.tree = v.tree ∧ w.tx = v.tx) (Spec.inspect ?_) fun b => ?_
    · rintro w rfl
      exact ⟨rfl, rfl⟩
    · cases b with
      | true =>
        rw [if_pos rfl]
        refine Spec.step ?_ ?_
        · intro w h u hu
          cases hu
          exact ⟨h, h⟩
        · intro w h e refused
          cases refused
      | false => exact Spec.ret () fun w h => h

end RepoForge
