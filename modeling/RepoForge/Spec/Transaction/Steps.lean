import RepoForge.Spec.Transaction.FileMap

/-!
# The steps of the journal, observed

What each file-system step does to the things the proofs look at: files, directories, the
journal slots, the manifest and the receipts. `stash_ok` and `unstash_ok` invert the two
replacements between the workspace and the journal; the tree lemmas say that a step keeps
every entry in a directory.
-/
namespace RepoForge

open Interruptible

namespace Tree

variable {t u : Tree} {p q : Path}

theorem wellFormed_put_file (wf : t.WellFormed) (off : ¬ t.IsDir p) (parent : t.IsDir p.dropLast)
    (f : File) : (t.put p (.file f)).WellFormed := by
  intro q hq
  rw [isDir_put_file t off]
  by_cases h : q = p
  · exact h ▸ parent
  · exact wf q (by simpa [h] using hq)

theorem wellFormed_put_dir (wf : t.WellFormed) (parent : t.IsDir p.dropLast) :
    (t.put p .dir).WellFormed := by
  intro q hq
  rw [isDir_put_dir]
  by_cases h : q = p
  · exact .inr (h ▸ parent)
  · exact .inr (wf q (by simpa [h] using hq))

theorem wellFormed_remove_file (wf : t.WellFormed) (off : ¬ t.IsDir p) :
    (t.remove p).WellFormed := by
  intro q hq
  rw [isDir_remove_file t off]
  by_cases h : q = p
  · by_cases hp : p = []
    · exact absurd (hp ▸ isDir_nil t) off
    · exact absurd (by simp [h, hp]) hq
  · exact wf q (by simpa [h] using hq)

theorem mkdir_ok (h : t.mkdir p = .ok u) :
    t.node p = none ∧ t.IsDir p.dropLast ∧ u = t.put p .dir := by
  unfold mkdir at h
  split at h
  · cases h
  · rename_i hn
    split at h
    · rename_i hd
      cases h
      exact ⟨hn, hd, rfl⟩
    · cases h

theorem unlink_ok (h : t.unlink p = .ok u) : t.fileAt p ≠ none ∧ u = t.remove p := by
  unfold unlink at h
  split at h
  · cases h
  · rename_i f hn
    cases h
    exact ⟨by simp [fileAt_eq_some.mpr hn], rfl⟩
  · cases h

theorem unlink_file {f : File} (h : t.fileAt p = some f) : t.unlink p = .ok (t.remove p) := by
  simp [unlink, fileAt_eq_some.mp h]

theorem rename_file {f : File} (h : t.fileAt p = some f) (off : ¬ t.IsDir q)
    (parent : t.IsDir q.dropLast) :
    t.rename p q = .ok ((t.remove p).put q (.file f)) := by
  simp [rename, fileAt_eq_some.mp h, off, parent]

theorem rename_file_ok {f : File} (h : t.fileAt p = some f) (moved : t.rename p q = .ok u) :
    ¬ t.IsDir q ∧ t.IsDir q.dropLast ∧ u = (t.remove p).put q (.file f) := by
  simp only [rename, fileAt_eq_some.mp h] at moved
  split at moved
  · cases moved
  · rename_i off
    split at moved
    · rename_i parent
      cases moved
      exact ⟨off, parent, rfl⟩
    · cases moved

theorem not_underFile_of_isDir (wf : t.WellFormed) (h : t.IsDir p) : t.underFile p = false := by
  by_contra hu
  obtain ⟨q, hq, hf⟩ := underFile_iff.mp (by simpa using hu)
  exact hf (wf.isDir_of_below hq (by simp [show t.node p = some .dir from h])).fileAt

theorem missing_eq_nil (wf : t.WellFormed) (h : t.IsDir p) : t.missing p = [] := by
  unfold missing
  simp only [List.filter_eq_nil_iff, List.mem_inits, decide_eq_true_eq, not_not]
  intro q hq
  by_cases he : q = p
  · exact present_iff.mpr (.inr (he ▸ h))
  · have hd := wf.isDir_of_below ⟨hq, he⟩ (by simp [show t.node p = some .dir from h])
    exact present_iff.mpr (.inr hd)

end Tree

namespace View

variable {v w : View} {p : Path} {s r : Slot}

def manifest (v : View) : Option Manifest := v.tx.bind TxDir.manifest

theorem onTree_ok {change : Tree → Except OsError Tree} (h : onTree change v = .ok w) :
    ∃ t, change v.tree = .ok t ∧ w = { v with tree := t } := by
  unfold onTree at h
  split at h
  · rename_i t ht
    cases h
    exact ⟨t, ht, rfl⟩
  · cases h

theorem onTx_ok {change : TxDir → Except OsError TxDir} (h : onTx change v = .ok w) :
    ∃ d e, v.tx = some d ∧ change d = .ok e ∧ w = { v with tx := some e } := by
  unfold onTx at h
  split at h
  · cases h
  · rename_i d hd
    split at h
    · rename_i e he
      cases h
      exact ⟨d, e, hd, he, rfl⟩
    · cases h

@[simp] theorem slot_tree (v : View) (t : Tree) (s : Slot) : { v with tree := t }.slot s = v.slot s :=
  rfl

theorem slot_congr (h : v.tx = w.tx) (s : Slot) : v.slot s = w.slot s := by
  simp [slot, h]

theorem slot_insert (v : View) (t : Tree) (d : TxDir) (s r : Slot) (f : File) :
    ({ v with tree := t, tx := some { d with slots := d.slots.insert s f } } : View).slot r =
      if r = s then some f else d.slots.lookup r := by
  by_cases h : r = s
  · subst h
    simp [slot]
  · simp [slot, AList.lookup_insert_ne h, h]

theorem slot_erase (v : View) (t : Tree) (d : TxDir) (s r : Slot) :
    ({ v with tree := t, tx := some { d with slots := d.slots.erase s } } : View).slot r =
      if r = s then none else d.slots.lookup r := by
  by_cases h : r = s
  · subst h
    simp [slot]
  · simp [slot, AList.lookup_erase_ne h, h]

/-- What a replacement between the workspace and the journal leaves alone. -/
structure Framed (v w : View) : Prop where
  journal : v.tx ≠ none → w.tx ≠ none
  manifest : w.manifest = v.manifest
  receipts : w.receipts = v.receipts

theorem framed_tree (v : View) (t : Tree) : Framed v { v with tree := t } := ⟨id, rfl, rfl⟩

theorem stash_ok (h : stash p s v = .ok w) :
    ∃ f, v.tree.fileAt p = some f ∧ w.tree = v.tree.remove p ∧
      (∀ r, w.slot r = if r = s then some f else v.slot r) ∧ Framed v w := by
  unfold stash at h
  split at h
  · rename_i f d hn hd
    cases h
    refine ⟨f, Tree.fileAt_eq_some.mpr hn, rfl, ?_, ⟨by simp, ?_, rfl⟩⟩
    · intro r
      rw [slot_insert]
      simp [slot, hd]
    · simp [manifest, hd]
  · cases h
  · cases h
  · cases h

theorem copyMode_ok (h : copyMode p s v = .ok w) :
    ∃ content staged, v.tree.fileAt p = some content ∧ v.slot s = some staged ∧ w.tree = v.tree ∧
      (∀ r, w.slot r = if r = s then some ⟨staged.data, content.mode⟩ else v.slot r) ∧
      Framed v w := by
  unfold copyMode at h
  split at h
  · rename_i content d found hd
    split at h
    · rename_i staged hs
      cases h
      refine ⟨content, staged, found, by simp [slot, hd, hs], rfl, ?_, ⟨by simp, ?_, rfl⟩⟩
      · intro r
        rw [slot_insert v v.tree]
        simp [slot, hd]
      · simp [manifest, hd]
    · cases h
  · cases h

theorem unstash_ok (h : unstash s p v = .ok w) :
    ∃ f, v.slot s = some f ∧ ¬ v.tree.IsDir p ∧ v.tree.IsDir p.dropLast ∧
      w.tree = v.tree.put p (.file f) ∧ (∀ r, w.slot r = if r = s then none else v.slot r) ∧
      Framed v w := by
  unfold unstash at h
  split at h
  · cases h
  · rename_i d hd
    split at h
    · cases h
    · rename_i f hf
      split at h
      · cases h
      · rename_i off
        split at h
        · rename_i parent
          cases h
          refine ⟨f, by simp [slot, hd, hf], off, parent, rfl, ?_, ⟨by simp, ?_, rfl⟩⟩
          · intro r
            rw [slot_erase]
            simp [slot, hd]
          · simp [manifest, hd]
        · cases h

theorem unstash_refused {e : TransactionError} {f : File} (found : v.slot s = some f)
    (off : ¬ v.tree.IsDir p) (parent : v.tree.IsDir p.dropLast) : unstash s p v ≠ .error e := by
  unfold slot at found
  split at found
  · cases found
  · rename_i d hd
    simp [unstash, hd, found, off, parent]

end View

end RepoForge

/-!
# Levels of a journaled plan

A plan that is being applied or rolled back is at some level `m`: the files are those
after the first `m` actions, and the journal holds what undoing these `m` actions needs.
`Journaled` says so for a number of saved actions and a file map. The file map is
`levelFiles T actions m` except inside a write, where the target has been moved to its
backup and the new copy is not yet in place.
-/
namespace RepoForge

open Interruptible

/-- Some action makes `q` where it makes the parents of its target. -/
def Ancestor (actions : List (TransactionAction Path)) (q : Path) : Prop :=
  ∃ a ∈ actions, ∃ p, a.target = some p ∧ q <+: p.dropLast

/-- The file that stood at `p` after `k` actions was removed, and a later action asked for a
directory there. -/
def Buried (actions : List (TransactionAction Path)) (k : Nat) (p : Path) : Prop :=
  ∃ i j a b q, k ≤ i ∧ i < j ∧ actions[i]? = some a ∧ actions[j]? = some b ∧ a.Removes p ∧
    b.target = some q ∧ p <+: q.dropLast

/-- The journal holds what undoing action `k` needs. -/
def Saved (k : Nat) (before : FileMap) (v : View) : TransactionAction Path → Prop
  | .writeFile path _ _ => v.slot (.backup k) = before path
  | .createFile _ _ _ => v.slot (.staged k) = none
  | .deleteFile path => v.slot (.trash k) = before path
  | .moveFile _ _ => True

/-- The journal holds no copy saved by action `k`. -/
def Unsaved (k : Nat) (v : View) : TransactionAction Path → Prop
  | .writeFile _ _ _ => v.slot (.backup k) = none
  | .deleteFile _ => v.slot (.trash k) = none
  | .createFile _ _ _ | .moveFile _ _ => True

structure Journaled (T : Tree) (actions : List (TransactionAction Path)) (count : Nat)
    (files : FileMap) (v : View) : Prop where
  bound : count ≤ actions.length
  journal : v.tx ≠ none
  wellFormed : v.tree.WellFormed
  files : ∀ p, v.tree.fileAt p = files p
  saved : ∀ k a, k < count → actions[k]? = some a → Saved k (levelFiles T actions k) v a
  unsaved : ∀ k a, count ≤ k → actions[k]? = some a → Unsaved k v a
  grown : ∀ p, T.IsDir p → v.tree.IsDir p
  parents : ∀ k p, k ≤ count → levelFiles T actions k p ≠ none → v.tree.IsDir p.dropLast
  created : ∀ p, v.tree.IsDir p → T.IsDir p ∨ Ancestor actions p
  buried : ∀ k p, k ≤ count → levelFiles T actions k p ≠ none → v.tree.IsDir p → Buried actions k p

def AtLevel (T : Tree) (actions : List (TransactionAction Path)) (m : Nat) : View → Prop :=
  Journaled T actions m (levelFiles T actions m)

/-- Inside write `m`, between its two replacements. -/
def Rewriting (T : Tree) (actions : List (TransactionAction Path)) (m : Nat) (v : View) : Prop :=
  ∃ path data preserveMode, actions[m]? = some (.writeFile path data preserveMode) ∧
    Journaled T actions (m + 1) (Function.update (levelFiles T actions m) path none) v ∧
    ¬ v.tree.IsDir path

namespace Saved

variable {k : Nat} {before : FileMap} {v w : View} {a : TransactionAction Path}

theorem congr (same : ∀ s, s ≠ .commitReceipt → w.slot s = v.slot s) (h : Saved k before v a) :
    Saved k before w a := by
  cases a <;> simp_all [Saved]

theorem unsaved_congr (same : ∀ s, s ≠ .commitReceipt → w.slot s = v.slot s)
    (h : Unsaved k v a) : Unsaved k w a := by
  cases a <;> simp_all [Unsaved]

/-- A step of action `m` touches only the slots of index `m`. -/
theorem of_other {m : Nat} (ne : k ≠ m)
    (same : ∀ r, r ≠ .staged m → r ≠ .backup m → r ≠ .trash m → w.slot r = v.slot r)
    (h : Saved k before v a) : Saved k before w a := by
  cases a with
  | writeFile path data preserveMode =>
    exact (same _ (by simp) (by simp [ne]) (by simp)).trans h
  | createFile path data mode => exact (same _ (by simp [ne]) (by simp) (by simp)).trans h
  | deleteFile path => exact (same _ (by simp) (by simp) (by simp [ne])).trans h
  | moveFile source destination => trivial

theorem unsaved_of_other {m : Nat} (ne : k ≠ m)
    (same : ∀ r, r ≠ .staged m → r ≠ .backup m → r ≠ .trash m → w.slot r = v.slot r)
    (h : Unsaved k v a) : Unsaved k w a := by
  cases a with
  | writeFile path data preserveMode =>
    exact (same _ (by simp) (by simp [ne]) (by simp)).trans h
  | createFile path data mode => trivial
  | deleteFile path => exact (same _ (by simp) (by simp) (by simp [ne])).trans h
  | moveFile source destination => trivial

end Saved

namespace Journaled

variable {T : Tree} {actions : List (TransactionAction Path)} {count : Nat} {files : FileMap}
  {v w : View}

theorem fileAt_ne_none {p : Path} (j : Journaled T actions count files v)
    (h : files p ≠ none) : ∃ f, files p = some f ∧ v.tree.fileAt p = some f := by
  obtain ⟨f, hf⟩ := Option.ne_none_iff_exists'.mp h
  exact ⟨f, hf, (j.files p).trans hf⟩

theorem not_isDir {p : Path} (j : Journaled T actions count files v) (h : files p ≠ none) :
    ¬ v.tree.IsDir p := by
  obtain ⟨f, -, hf⟩ := j.fileAt_ne_none h
  exact Tree.not_isDir_of_fileAt hf

/-- The journal may change anywhere but in the slots of the actions. -/
theorem of_same_tree (j : Journaled T actions count files v) (tree : w.tree = v.tree)
    (slots : ∀ s, s ≠ .commitReceipt → w.slot s = v.slot s) (journal : w.tx ≠ none) :
    Journaled T actions count files w where
  bound := j.bound
  journal := journal
  wellFormed := tree ▸ j.wellFormed
  files p := tree ▸ j.files p
  saved k a hk ha := Saved.congr slots (j.saved k a hk ha)
  unsaved k a hk ha := Saved.unsaved_congr slots (j.unsaved k a hk ha)
  grown p hp := tree ▸ j.grown p hp
  parents k p hk hp := tree ▸ j.parents k p hk hp
  created p hp := j.created p (tree ▸ hp)
  buried k p hk held hp := j.buried k p hk held (tree ▸ hp)

/-- A directory that the next action asks for may be added. -/
theorem mkdir (enabled : EnabledPlan T actions) {a : TransactionAction Path} {p q : Path} {t : Tree}
    (j : Journaled T actions count (levelFiles T actions count) v)
    (ha : actions[count]? = some a) (target : a.target = some p) (asked : q <+: p.dropLast)
    (made : v.tree.mkdir q = .ok t) :
    Journaled T actions count (levelFiles T actions count) { v with tree := t } := by
  obtain ⟨free, parent, rfl⟩ := Tree.mkdir_ok made
  have noFile : v.tree.fileAt q = none := Tree.fileAt_eq_none.mpr (.inl free)
  refine ⟨j.bound, j.journal, Tree.wellFormed_put_dir j.wellFormed parent, ?_, j.saved, j.unsaved,
    ?_, ?_, ?_, ?_⟩
  · intro r
    exact (Tree.fileAt_put_dir v.tree noFile r).trans (j.files r)
  · intro r hr
    exact (Tree.isDir_put_dir v.tree q r).mpr (.inr (j.grown r hr))
  · intro k r hk hr
    exact (Tree.isDir_put_dir v.tree q _).mpr (.inr (j.parents k r hk hr))
  · intro r hr
    rcases (Tree.isDir_put_dir v.tree q r).mp hr with rfl | hr
    · exact .inr ⟨a, List.mem_of_getElem? ha, p, target, asked⟩
    · exact j.created r hr
  · intro k r hk held hr
    rcases (Tree.isDir_put_dir v.tree q r).mp hr with rfl | hr
    · obtain ⟨i, b, hki, him, hb, rb⟩ := removed_between enabled hk j.bound held
        ((j.files r).symm.trans noFile)
      exact ⟨i, count, b, a, p, hki, him, hb, ha, rb, target, asked⟩
    · exact j.buried k r hk held hr

/-- The general step of an action: the files change, directories do not, and only slots of
index `m` do, which now hold what the new count of saved actions asks for. -/
theorem move_on (j : Journaled T actions count files v) {m next : Nat} {after : FileMap}
    {a : TransactionAction Path} (ha : actions[m]? = some a)
    (step : (count = m ∨ count = m + 1) ∧ (next = m ∨ next = m + 1))
    (dirs : ∀ p, w.tree.IsDir p ↔ v.tree.IsDir p) (wellFormed : w.tree.WellFormed)
    (journal : w.tx ≠ none) (after_files : ∀ p, w.tree.fileAt p = after p)
    (slots : ∀ r, r ≠ .staged m → r ≠ .backup m → r ≠ .trash m → w.slot r = v.slot r)
    (saved : next = m + 1 → Saved m (levelFiles T actions m) w a)
    (unsaved : next = m → Unsaved m w a)
    (parents : ∀ p, levelFiles T actions next p ≠ none → v.tree.IsDir p.dropLast)
    (held : count < next → ∀ p, levelFiles T actions next p ≠ none → ¬ v.tree.IsDir p) :
    Journaled T actions next after w := by
  have hm : m < actions.length := by
    by_contra h
    rw [List.getElem?_eq_none (by omega)] at ha
    cases ha
  refine ⟨by omega, journal, wellFormed, after_files, ?_, ?_, ?_, ?_, ?_, ?_⟩
  · intro k b hk hb
    by_cases he : k = m
    · subst he
      rw [ha] at hb
      cases hb
      exact saved (by omega)
    · exact Saved.of_other he slots (j.saved k b (by omega) hb)
  · intro k b hk hb
    by_cases he : k = m
    · subst he
      rw [ha] at hb
      cases hb
      exact unsaved (by omega)
    · exact Saved.unsaved_of_other he slots (j.unsaved k b (by omega) hb)
  · intro p hp
    exact (dirs p).mpr (j.grown p hp)
  · intro k p hk hp
    rw [dirs]
    by_cases he : k = next
    · subst he
      exact parents p hp
    · exact j.parents k p (by omega) hp
  · intro p hp
    exact j.created p ((dirs p).mp hp)
  · intro k p hk there hp
    rw [dirs] at hp
    by_cases le : k ≤ count
    · exact j.buried k p le there hp
    · obtain rfl : k = next := by omega
      exact absurd hp (held (by omega) p there)

end Journaled

section EnsureParent

variable {T : Tree} {actions : List (TransactionAction Path)} {m : Nat} {d : Option TxDir}
  {receipts : AList (fun _ : Text => Bytes)} {a : TransactionAction Path} {p : Path}

/-- The journal is as it was and the plan is at level `m`. -/
def Resting (T : Tree) (actions : List (TransactionAction Path)) (m : Nat) (d : Option TxDir)
    (receipts : AList (fun _ : Text => Bytes)) (v : View) : Prop :=
  AtLevel T actions m v ∧ v.tx = d ∧ v.receipts = receipts

theorem makeDirs_spec (enabled : EnabledPlan T actions) (ha : actions[m]? = some a)
    (target : a.target = some p) :
    ∀ (dirs : List Path), (∀ q ∈ dirs, q <+: p.dropLast) →
      Spec (Resting T actions m d receipts) (makeDirs dirs) (fun _ => Resting T actions m d receipts)
        (fun _ => Resting T actions m d receipts) (Resting T actions m d receipts)
  | [], _ => Spec.ret () fun _ h => h
  | q :: dirs, asked => by
    refine Spec.bind (Spec.step ?_ ?_) fun _ =>
      makeDirs_spec enabled ha target dirs fun r hr => asked r (List.mem_cons_of_mem _ hr)
    · intro v ⟨j, tx, rec⟩ w hw
      obtain ⟨t, made, rfl⟩ := View.onTree_ok hw
      have after : Resting T actions m d receipts { v with tree := t } :=
        ⟨Journaled.mkdir enabled j ha target (asked q (by simp)) made, tx, rec⟩
      exact ⟨after, after⟩
    · intro v hv _ _
      exact hv

/-- Making the parents of its target keeps the plan at the level of the action, and a normal
return finds the parent in place. -/
theorem ensureParent_spec (enabled : EnabledPlan T actions) (ha : actions[m]? = some a)
    (target : a.target = some p) :
    Spec (Resting T actions m d receipts) (ensureParent p)
      (fun _ v => Resting T actions m d receipts v ∧ v.tree.IsDir p.dropLast)
      (fun _ => Resting T actions m d receipts) (Resting T actions m d receipts) := by
  refine Spec.bind (Q := fun t v => Resting T actions m d receipts v ∧ v.tree = t)
    (Spec.inspect fun v hv => ⟨hv, rfl⟩) ?_
  intro t
  split
  · exact Spec.raise _ fun v hv => hv.1
  · rename_i noFile
    split
    · exact Spec.raise _ fun v hv => hv.1
    · have clear : ∀ v, Resting T actions m d receipts v ∧ v.tree = t →
          levelFiles T actions m p.dropLast = none := by
        rintro v ⟨⟨j, -⟩, rfl⟩
        rw [← j.files]
        simpa using noFile
      refine Spec.bind (Q := fun _ v => Resting T actions m d receipts v ∧
        levelFiles T actions m p.dropLast = none) ?_ ?_
      · refine Spec.pointwise fun v hv => (makeDirs_spec enabled ha target _ ?_).weaken
          (fun _ h => h ▸ hv.1) (fun _ _ h => ⟨h, clear v hv⟩) (fun _ _ h => h) fun _ h => h
        intro q hq
        exact List.mem_inits q _ |>.mp (List.mem_of_mem_filter hq)
      · intro _
        refine Spec.check ?_ ?_
        · rintro v ⟨rest, none⟩ _ passed
          refine ⟨rest, ?_⟩
          split at passed
          · rename_i there
            refine (Tree.present_iff.mp there).resolve_left ?_
            simpa [rest.1.files] using none
          · cases passed
        · rintro v ⟨rest, -⟩ _ _
          exact rest

end EnsureParent

end RepoForge
