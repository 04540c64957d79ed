import RepoForge.Spec.Transaction.Forward

/-!
# Undoing a plan, level by level

`undo_spec` is the specification of one undo step: from level `m + 1`, or from inside write
`m`, to level `m`, without raising and without touching a directory. `quiet_spec` is the
other half: the undo of an action that is not in force does nothing, provided that it
cannot be mistaken for one that is. `rollbackActions_spec` is the loop.
-/
namespace RepoForge

open Interruptible

/-- The undo of action `k` finds nothing to do. -/
def Quiet (k : Nat) (v : View) : TransactionAction Path → Prop
  | .writeFile _ _ _ => v.slot (.backup k) = none
  | .createFile path _ _ => v.slot (.staged k) ≠ none ∨ v.tree.fileAt path = none
  | .deleteFile _ => v.slot (.trash k) = none
  | .moveFile source destination => v.tree.present destination → v.tree.present source

/-- The undo of a creation refuses a directory at its path, and synchronises the parent,
which may be gone. -/
def Refuses (k : Nat) (v : View) : TransactionAction Path → Prop
  | .createFile path _ _ =>
    v.slot (.staged k) = none ∧ (v.tree.IsDir path ∨ v.tree.present path.dropLast = false)
  | .writeFile _ _ _ | .deleteFile _ | .moveFile _ _ => False

/-- A state from which the first `count` actions can be undone: the plan is at a level, or
inside a write, and no path that held a file on the way here is a directory now. -/
structure Undoable (T : Tree) (actions : List (TransactionAction Path)) (count : Nat)
    (files : FileMap) (D : Path → Prop) (v : View) : Prop where
  journaled : Journaled T actions count files v
  dirs : ∀ p, v.tree.IsDir p ↔ D p
  clear : ∀ k p, k ≤ count → levelFiles T actions k p ≠ none → ¬ D p

section Parts

variable {P : View → Prop} {C : View → Prop}

theorem fsyncDir_done {E : TransactionError → View → Prop} (p : Path)
    (there : ∀ v, P v → v.tree.IsDir p) : Spec P (fsyncDir p) (fun _ => P) E C := by
  refine Spec.check (fun v h _ _ => h) ?_
  intro v h e refused
  rw [if_pos (Tree.present_iff.mpr (.inr (there v h)))] at refused
  cases refused

/-- Where the parent is in place nothing is made. -/
theorem ensureParent_done {E : TransactionError → View → Prop} (p : Path)
    (wf : ∀ v, P v → v.tree.WellFormed) (there : ∀ v, P v → v.tree.IsDir p.dropLast) :
    Spec P (ensureParent p) (fun _ => P) E C := by
  refine Spec.bind (Q := fun t v => P v ∧ v.tree = t) (Spec.inspect fun v hv => ⟨hv, rfl⟩) ?_
  intro t
  split
  · rename_i file
    refine Spec.raise _ ?_
    rintro v ⟨hv, rfl⟩
    simp [(there v hv).fileAt] at file
  · split
    · rename_i under
      refine Spec.raise _ ?_
      rintro v ⟨hv, rfl⟩
      rw [Tree.not_underFile_of_isDir (wf v hv) (there v hv)] at under
      cases under
    · refine Spec.pointwise ?_
      rintro v ⟨hv, rfl⟩
      rw [Tree.missing_eq_nil (wf v hv) (there v hv)]
      refine Spec.bind (Q := fun _ => P) (Spec.ret () ?_) fun _ => fsyncDir_done _ there
      rintro u rfl
      exact hv

end Parts

section Undo

variable {T : Tree} {actions : List (TransactionAction Path)} {K : Kept}
  {D : Path → Prop} {m : Nat} {v w : View}

/-- What the undo of actions does not touch: the manifest, the receipts and the staged copies. -/
structure Kept where
  manifest : Option Manifest
  receipts : AList fun _ : Text => Bytes
  staged : Nat → Option File

def View.kept (v : View) : Kept := ⟨v.manifest, v.receipts, fun k => v.slot (.staged k)⟩

/-- The plan is at level `m`, over directories and other things that stay as they are. -/
structure Undone (T : Tree) (actions : List (TransactionAction Path)) (K : Kept)
    (D : Path → Prop) (m : Nat) (files : FileMap) (v : View) : Prop where
  undoable : Undoable T actions m files D v
  kept : v.kept = K

/-- The files inside write `m`. -/
def rewritingFiles (T : Tree) (actions : List (TransactionAction Path)) (m : Nat) (path : Path) :
    FileMap := Function.update (levelFiles T actions m) path none

theorem Undone.journaled {files : FileMap} (h : Undone T actions K D m files v) :
    Journaled T actions m files v := h.undoable.journaled

/-- `Journaled.move_on` for a step that also keeps manifest, receipts and directories. -/
theorem Undone.step_down {count next : Nat} {files after : FileMap} {a : TransactionAction Path}
    (h : Undone T actions K D count files v) (ha : actions[m]? = some a)
    (step : (count = m ∨ count = m + 1) ∧ (next = m ∨ next = m + 1)) (le : next ≤ count)
    (dirs : ∀ p, w.tree.IsDir p ↔ v.tree.IsDir p) (wellFormed : w.tree.WellFormed)
    (framed : View.Framed v w) (after_files : ∀ p, w.tree.fileAt p = after p)
    (slots : ∀ r, r ≠ .backup m → r ≠ .trash m → w.slot r = v.slot r)
    (saved : next = m + 1 → Saved m (levelFiles T actions m) w a)
    (unsaved : next = m → Unsaved m w a) : Undone T actions K D next after w where
  undoable :=
    { journaled := h.journaled.move_on ha step dirs wellFormed
        (framed.journal h.journaled.journal) after_files (fun r _ => slots r) saved unsaved
        (fun p hp => h.journaled.parents next p le hp) (by omega)
      dirs := fun p => (dirs p).trans (h.undoable.dirs p)
      clear := fun k p hk => h.undoable.clear k p (by omega) }
  kept := by
    rw [← h.kept]
    simp only [View.kept, framed.manifest, framed.receipts]
    congr 1
    exact funext fun k => slots _ (by simp) (by simp)

/-- Unlinking a file that stands at `path`, or nothing. -/
theorem unlinkFileIfPresent_spec {P Q C : View → Prop} {path : Path}
    (off : ∀ v, P v → ¬ v.tree.IsDir path)
    (gone : ∀ v, P v → v.tree.fileAt path = none → Q v)
    (unlinked : ∀ v, P v → v.tree.fileAt path ≠ none →
      C { v with tree := v.tree.remove path } ∧ Q { v with tree := v.tree.remove path }) :
    Spec P (unlinkFileIfPresent path) (fun _ => Q) (fun _ _ => False) C := by
  refine Spec.bind (Q := fun n v => P v ∧ v.tree.node path = n)
    (Spec.inspect fun v hv => ⟨hv, rfl⟩) ?_
  intro n
  cases n with
  | none =>
    refine Spec.ret () ?_
    rintro v ⟨hv, hn⟩
    exact gone v hv (Tree.fileAt_eq_none.mpr (.inl hn))
  | some n =>
    cases n with
    | file f =>
      refine Spec.step ?_ ?_
      · rintro v ⟨hv, hn⟩ u hu
        obtain ⟨t, ht, rfl⟩ := View.onTree_ok hu
        obtain ⟨there, rfl⟩ := Tree.unlink_ok ht
        exact unlinked v hv there
      · rintro v ⟨hv, hn⟩ e he
        rw [View.onTree, Tree.unlink_file (Tree.fileAt_eq_some.mpr hn)] at he
        cases he
    | dir =>
      refine Spec.raise _ ?_
      rintro v ⟨hv, hn⟩
      exact off v hv hn

/-- Putting a saved file back where it was. -/
theorem unstash_spec {P Q C : View → Prop} {path : Path} {s : Slot}
    (found : ∀ v, P v → v.slot s ≠ none) (off : ∀ v, P v → ¬ v.tree.IsDir path)
    (parent : ∀ v, P v → v.tree.IsDir path.dropLast)
    (back : ∀ v w f, P v → v.slot s = some f → w.tree = v.tree.put path (.file f) →
      (∀ r, w.slot r = if r = s then none else v.slot r) → View.Framed v w → C w ∧ Q w) :
    Spec P (Proc.step (View.unstash s path)) (fun _ => Q) (fun _ _ => False) C := by
  refine Spec.step ?_ ?_
  · intro v hv w hw
    obtain ⟨f, hf, -, -, tree, slots, framed⟩ := View.unstash_ok hw
    exact back v w f hv hf tree slots framed
  · intro v hv e he
    obtain ⟨f, hf⟩ := Option.ne_none_iff_exists'.mp (found v hv)
    exact View.unstash_refused hf (off v hv) (parent v hv) he

theorem undo_write (enabled : EnabledPlan T actions) {path : Path} {data : Bytes}
    {preserveMode : Bool} (ha : actions[m]? = some (.writeFile path data preserveMode))
    {files : FileMap}
    (shape : files = levelFiles T actions (m + 1) ∨ files = rewritingFiles T actions m path)
    {C : View → Prop}
    (visits : ∀ v, Undone T actions K D (m + 1) (rewritingFiles T actions m path) v ∨
      Undone T actions K D m (levelFiles T actions m) v → C v) :
    Spec (Undone T actions K D (m + 1) files) (restoreSaved path (.backup m))
      (fun _ => Undone T actions K D m (levelFiles T actions m)) (fun _ _ => False) C := by
  have held : levelFiles T actions m path ≠ none := enabled m _ ha
  have off : ∀ {files} v, Undone T actions K D (m + 1) files v → ¬ v.tree.IsDir path :=
    fun v h => (h.undoable.dirs path).not.mpr (h.undoable.clear m path (by omega) held)
  have parent : ∀ {files} v, Undone T actions K D (m + 1) files v →
      v.tree.IsDir path.dropLast := fun v h => h.journaled.parents m path (by omega) held
  have saved : ∀ {files} v, Undone T actions K D (m + 1) files v →
      v.slot (.backup m) = levelFiles T actions m path :=
    fun v h => h.journaled.saved m _ (by omega) ha
  refine Spec.bind (Q := fun found v => found = true ∧ Undone T actions K D (m + 1) files v)
    (Spec.inspect fun v h => ⟨?_, h⟩) fun found => ?_
  · rw [saved v h, Option.isSome_iff_ne_none]
    exact held
  cases found with
  | false => exact Spec.ret () fun v h => absurd h.1 (by simp)
  | true =>
    refine Spec.bind (Q := fun _ =>
      Undone T actions K D (m + 1) (rewritingFiles T actions m path))
      (unlinkFileIfPresent_spec (fun v h => off v h.2) ?_ ?_) fun _ => ?_
    · rintro v ⟨-, h⟩ gone
      rcases shape with rfl | rfl
      · rw [h.journaled.files, level_write ha] at gone
        simp at gone
      · exact h
    · rintro v ⟨-, h⟩ -
      have unlinked : Undone T actions K D (m + 1) (rewritingFiles T actions m path)
          { v with tree := v.tree.remove path } := by
        refine h.step_down ha ⟨.inr rfl, .inr rfl⟩ le_rfl
          (fun p => Tree.isDir_remove_file v.tree (off v h) p)
          (Tree.wellFormed_remove_file h.journaled.wellFormed (off v h)) (View.framed_tree v _)
          (fun p => ?_) (fun _ _ _ => rfl) (fun _ => h.journaled.saved m _ (by omega) ha) (by omega)
        rw [files_remove h.journaled.files]
        rcases shape with rfl | rfl
        · rw [level_write ha, Function.update_idem, rewritingFiles]
        · rw [rewritingFiles, Function.update_idem]
      exact ⟨visits _ (.inl unlinked), unlinked⟩
    refine Spec.bind (ensureParent_done path (fun v h => h.journaled.wellFormed) parent) fun _ => ?_
    refine Spec.bind (unstash_spec (fun v h => saved v h ▸ held) off parent ?_) fun _ =>
      fsyncDir_done _ fun v h => h.journaled.parents m path le_rfl held
    intro v w f h found tree slots framed
    have restored : Undone T actions K D m (levelFiles T actions m) w := by
      refine h.step_down ha ⟨.inr rfl, .inl rfl⟩ (by omega) (fun p => ?_) ?_ framed (fun p => ?_)
        (fun r hr _ => by rw [slots, if_neg hr]) (by omega) fun _ => ?_
      · rw [tree]
        exact Tree.isDir_put_file v.tree (off v h) p f
      · rw [tree]
        exact Tree.wellFormed_put_file h.journaled.wellFormed (off v h) (parent v h) f
      · rw [tree, files_put h.journaled.files (ne_nil_of_isDir_parent (off v h)), rewritingFiles,
          Function.update_idem, ← found, saved v h, Function.update_eq_self]
      · rw [Unsaved, slots, if_pos rfl]
    exact ⟨visits _ (.inr restored), restored⟩

theorem undo_delete (enabled : EnabledPlan T actions) {path : Path}
    (ha : actions[m]? = some (.deleteFile path)) {C : View → Prop}
    (visits : ∀ v, Undone T actions K D m (levelFiles T actions m) v → C v) :
    Spec (Undone T actions K D (m + 1) (levelFiles T actions (m + 1)))
      (restoreSaved path (.trash m))
      (fun _ => Undone T actions K D m (levelFiles T actions m)) (fun _ _ => False) C := by
  have held : levelFiles T actions m path ≠ none := enabled m _ ha
  have empty : levelFiles T actions (m + 1) =
      Function.update (levelFiles T actions m) path none := levelFiles_succ ha
  have off : ∀ v, Undone T actions K D (m + 1) (levelFiles T actions (m + 1)) v →
      ¬ v.tree.IsDir path :=
    fun v h => (h.undoable.dirs path).not.mpr (h.undoable.clear m path (by omega) held)
  have parent : ∀ v, Undone T actions K D (m + 1) (levelFiles T actions (m + 1)) v →
      v.tree.IsDir path.dropLast := fun v h => h.journaled.parents m path (by omega) held
  have saved : ∀ v, Undone T actions K D (m + 1) (levelFiles T actions (m + 1)) v →
      v.slot (.trash m) = levelFiles T actions m path :=
    fun v h => h.journaled.saved m _ (by omega) ha
  refine Spec.bind (Q := fun found v => found = true ∧
    Undone T actions K D (m + 1) (levelFiles T actions (m + 1)) v)
    (Spec.inspect fun v h => ⟨?_, h⟩) fun found => ?_
  · rw [saved v h, Option.isSome_iff_ne_none]
    exact held
  cases found with
  | false => exact Spec.ret () fun v h => absurd h.1 (by simp)
  | true =>
    refine Spec.bind (Q := fun _ => Undone T actions K D (m + 1) (levelFiles T actions (m + 1)))
      (unlinkFileIfPresent_spec (fun v h => off v h.2) (fun v h _ => h.2) ?_) fun _ => ?_
    · rintro v ⟨-, h⟩ there
      rw [h.journaled.files, empty] at there
      simp at there
    refine Spec.bind (ensureParent_done path (fun v h => h.journaled.wellFormed) parent) fun _ => ?_
    refine Spec.bind (unstash_spec (fun v h => saved v h ▸ held) off parent ?_) fun _ =>
      fsyncDir_done _ fun v h => h.journaled.parents m path le_rfl held
    intro v w f h found tree slots framed
    have restored : Undone T actions K D m (levelFiles T actions m) w := by
      refine h.step_down ha ⟨.inr rfl, .inl rfl⟩ (by omega) (fun p => ?_) ?_ framed (fun p => ?_)
        (fun r _ hr => by rw [slots, if_neg hr]) (by omega) fun _ => ?_
      · rw [tree]
        exact Tree.isDir_put_file v.tree (off v h) p f
      · rw [tree]
        exact Tree.wellFormed_put_file h.journaled.wellFormed (off v h) (parent v h) f
      · rw [tree, files_put h.journaled.files (ne_nil_of_isDir_parent (off v h)), empty,
          Function.update_idem, ← found, saved v h, Function.update_eq_self]
      · rw [Unsaved, slots, if_pos rfl]
    exact ⟨visits _ restored, restored⟩

theorem undo_create (enabled : EnabledPlan T actions) {path : Path} {data : Bytes} {mode : Int}
    (ha : actions[m]? = some (.createFile path data mode)) {C : View → Prop}
    (visits : ∀ v, Undone T actions K D m (levelFiles T actions m) v → C v) :
    Spec (Undone T actions K D (m + 1) (levelFiles T actions (m + 1)))
      (rollbackAction (serializeAction T m (.createFile path data mode)))
      (fun _ => Undone T actions K D m (levelFiles T actions m)) (fun _ _ => False) C := by
  obtain ⟨free, -⟩ := enabled m _ ha
  have made : levelFiles T actions (m + 1) =
      Function.update (levelFiles T actions m) path (some ⟨data, mode.toNat⟩) := levelFiles_succ ha
  have held : levelFiles T actions (m + 1) path ≠ none := by simp [made]
  have off : ∀ v, Undone T actions K D (m + 1) (levelFiles T actions (m + 1)) v →
      ¬ v.tree.IsDir path := fun v h => h.journaled.not_isDir held
  refine Spec.bind (Q := fun staged v => staged = false ∧
    Undone T actions K D (m + 1) (levelFiles T actions (m + 1)) v)
    (Spec.inspect fun v h => ⟨?_, h⟩) fun staged => ?_
  · have consumed : v.slot (.staged m) = none := h.journaled.saved m _ (by omega) ha
    simp [consumed]
  cases staged with
  | true => exact Spec.ret () fun v h => absurd h.1 (by simp)
  | false =>
    have removed : ∀ v, Undone T actions K D (m + 1) (levelFiles T actions (m + 1)) v →
        Undone T actions K D m (levelFiles T actions m)
          { v with tree := v.tree.remove path } ∧ D path.dropLast := by
      intro v h
      refine ⟨?_, (h.undoable.dirs _).mp (h.journaled.parents (m + 1) path le_rfl held)⟩
      refine h.step_down ha ⟨.inr rfl, .inl rfl⟩ (by omega)
        (fun p => Tree.isDir_remove_file v.tree (off v h) p)
        (Tree.wellFormed_remove_file h.journaled.wellFormed (off v h)) (View.framed_tree v _)
        (fun p => ?_) (fun _ _ _ => rfl) (by omega) fun _ => trivial
      rw [files_remove h.journaled.files, made, Function.update_idem, ← free,
        Function.update_eq_self]
    refine Spec.bind (Q := fun _ v => Undone T actions K D m (levelFiles T actions m) v ∧
      D path.dropLast) (unlinkFileIfPresent_spec (fun v h => off v h.2) ?_ ?_) fun _ => ?_
    · rintro v ⟨-, h⟩ gone
      rw [h.journaled.files] at gone
      exact absurd gone held
    · rintro v ⟨-, h⟩ -
      exact ⟨visits _ (removed v h).1, removed v h⟩
    · exact (fsyncDir_done _ fun v h => (h.1.undoable.dirs _).mpr h.2).weaken (fun _ h => h)
        (fun _ _ h => h.1) (fun _ _ h => h) fun _ h => h

theorem undo_move (enabled : EnabledPlan T actions) {source destination : Path}
    (ha : actions[m]? = some (.moveFile source destination)) {C : View → Prop}
    (visits : ∀ v, Undone T actions K D m (levelFiles T actions m) v → C v) :
    Spec (Undone T actions K D (m + 1) (levelFiles T actions (m + 1)))
      (rollbackAction (serializeAction T m (.moveFile source destination)))
      (fun _ => Undone T actions K D m (levelFiles T actions m)) (fun _ _ => False) C := by
  obtain ⟨differ, held, free, -⟩ := enabled m _ ha
  obtain ⟨f, hf⟩ := Option.ne_none_iff_exists'.mp held
  have moved : levelFiles T actions (m + 1) = Function.update
      (Function.update (levelFiles T actions m) source none) destination (some f) := by
    rw [levelFiles_succ ha, ← hf]
    rfl
  have there : levelFiles T actions (m + 1) destination = some f := by simp [moved]
  have gone : levelFiles T actions (m + 1) source = none := by simp [moved, differ]
  have off : ∀ v, Undone T actions K D (m + 1) (levelFiles T actions (m + 1)) v →
      ¬ v.tree.IsDir source :=
    fun v h => (h.undoable.dirs source).not.mpr (h.undoable.clear m source (by omega) held)
  have parent : ∀ v, Undone T actions K D (m + 1) (levelFiles T actions (m + 1)) v →
      v.tree.IsDir source.dropLast := fun v h => h.journaled.parents m source (by omega) held
  refine Spec.bind (Q := fun moved v => moved = true ∧
    Undone T actions K D (m + 1) (levelFiles T actions (m + 1)) v)
    (Spec.inspect fun v h => ⟨?_, h⟩) fun moved? => ?_
  · have present : v.tree.present destination = true :=
      Tree.present_iff.mpr (.inl (by simp [h.journaled.files, there]))
    have absent : v.tree.present source = false :=
      Tree.present_eq_false.mpr (Tree.node_eq_none (by rw [h.journaled.files, gone]) (off v h))
    simp [present, absent]
  cases moved? with
  | false => exact Spec.ret () fun v h => absurd h.1 (by simp)
  | true =>
    refine Spec.bind (Q := fun _ => Undone T actions K D (m + 1) (levelFiles T actions (m + 1)))
      ((ensureParent_done source (fun v h => h.2.journaled.wellFormed)
        fun v h => parent v h.2).weaken (fun _ h => h) (fun _ _ h => h.2) (fun _ _ h => h)
        fun _ h => h) fun _ => ?_
    have renamed : ∀ v, Undone T actions K D (m + 1) (levelFiles T actions (m + 1)) v →
        v.tree.rename destination source =
          .ok ((v.tree.remove destination).put source (.file f)) := fun v h =>
      Tree.rename_file (by rw [h.journaled.files, there]) (off v h) (parent v h)
    refine Spec.bind (Q := fun _ v => Undone T actions K D m (levelFiles T actions m) v ∧
      D destination.dropLast) (Spec.step ?_ ?_) fun _ =>
      Spec.bind (fsyncDir_done _ fun v h => h.1.journaled.parents m source le_rfl held) fun _ =>
        (fsyncDir_done _ fun v h => (h.1.undoable.dirs _).mpr h.2).weaken (fun _ h => h)
          (fun _ _ h => h.1) (fun _ _ h => h) fun _ h => h
    · intro v h w hw
      obtain ⟨t, ht, rfl⟩ := View.onTree_ok hw
      rw [renamed v h] at ht
      cases ht
      have destinationOff : ¬ v.tree.IsDir destination :=
        h.journaled.not_isDir (by simp [there])
      have off' : ¬ (v.tree.remove destination).IsDir source :=
        (Tree.isDir_remove_file v.tree destinationOff source).not.mpr (off v h)
      have parent' : (v.tree.remove destination).IsDir source.dropLast :=
        (Tree.isDir_remove_file v.tree destinationOff _).mpr (parent v h)
      have restored : Undone T actions K D m (levelFiles T actions m)
          { v with tree := (v.tree.remove destination).put source (.file f) } := by
        refine h.step_down ha ⟨.inr rfl, .inl rfl⟩ (by omega) (fun p => ?_) ?_
          (View.framed_tree v _) (fun p => ?_) (fun _ _ _ => rfl) (by omega) fun _ => trivial
        · exact (Tree.isDir_put_file _ off' p f).trans
            (Tree.isDir_remove_file v.tree destinationOff p)
        · exact Tree.wellFormed_put_file
            (Tree.wellFormed_remove_file h.journaled.wellFormed destinationOff) off' parent' f
        · have idle : Function.update (levelFiles T actions m) destination none =
              levelFiles T actions m := by rw [← free, Function.update_eq_self]
          rw [files_put (files_remove h.journaled.files) (ne_nil_of_isDir_parent (off v h)), moved,
            Function.update_idem, Function.update_comm differ, Function.update_idem, idle, ← hf,
            Function.update_eq_self]
      exact ⟨visits _ restored, restored,
        (h.undoable.dirs _).mp (h.journaled.parents (m + 1) destination le_rfl (by simp [there]))⟩
    · intro v h e he
      rw [View.onTree, renamed v h] at he
      cases he

/-- What one undo step may leave behind when it is cut short. -/
def Unwinding (T : Tree) (actions : List (TransactionAction Path)) (K : Kept)
    (D : Path → Prop) (m : Nat) (v : View) : Prop :=
  (∃ path data preserveMode, actions[m]? = some (.writeFile path data preserveMode) ∧
    Undone T actions K D (m + 1) (rewritingFiles T actions m path) v) ∨
  Undone T actions K D m (levelFiles T actions m) v

/-- The files of a plan at level `m + 1`, or inside write `m`. -/
def Above (T : Tree) (actions : List (TransactionAction Path)) (m : Nat) (files : FileMap) : Prop :=
  files = levelFiles T actions (m + 1) ∨ ∃ path data preserveMode,
    actions[m]? = some (.writeFile path data preserveMode) ∧ files = rewritingFiles T actions m path

/-- One undo step takes the plan one level down. -/
theorem undo_spec (enabled : EnabledPlan T actions) {a : TransactionAction Path}
    (ha : actions[m]? = some a) {files : FileMap} (above : Above T actions m files) :
    Spec (Undone T actions K D (m + 1) files) (rollbackAction (serializeAction T m a))
      (fun _ => Undone T actions K D m (levelFiles T actions m)) (fun _ _ => False)
      (Unwinding T actions K D m) := by
  cases a with
  | writeFile path data preserveMode =>
    refine undo_write enabled ha ?_ ?_
    · rcases above with h | ⟨_, _, _, hb, h⟩
      · exact .inl h
      · rw [ha] at hb
        cases hb
        exact .inr h
    · rintro v (h | h)
      · exact .inl ⟨path, data, preserveMode, ha, h⟩
      · exact .inr h
  | createFile path data mode =>
    rcases above with rfl | ⟨_, _, _, hb, -⟩
    · exact undo_create enabled ha fun v h => .inr h
    · rw [ha] at hb
      cases hb
  | deleteFile path =>
    rcases above with rfl | ⟨_, _, _, hb, -⟩
    · exact undo_delete enabled ha fun v h => .inr h
    · rw [ha] at hb
      cases hb
  | moveFile source destination =>
    rcases above with rfl | ⟨_, _, _, hb, -⟩
    · exact undo_move enabled ha fun v h => .inr h
    · rw [ha] at hb
      cases hb

end Undo

section Quiet

variable {P C : View → Prop} {k : Nat}

theorem restoreSaved_quiet {E : TransactionError → View → Prop} {path : Path} {s : Slot}
    (none : ∀ v, P v → v.slot s = none) : Spec P (restoreSaved path s) (fun _ => P) E C := by
  refine Spec.bind (Q := fun found v => found = false ∧ P v)
    (Spec.inspect fun v h => ⟨by simp [none v h], h⟩) fun found => ?_
  cases found with
  | false => exact Spec.ret () fun v h => h.2
  | true => exact Spec.pointwise fun v h => absurd h.1 (by simp)

/-- An action that is not in force and cannot be mistaken for one that is stays undone. -/
theorem quiet_spec (T : Tree) {a : TransactionAction Path} (quiet : ∀ v, P v → Quiet k v a) :
    Spec P (rollbackAction (serializeAction T k a)) (fun _ => P)
      (fun _ v => P v ∧ Refuses k v a) C := by
  cases a with
  | writeFile path data preserveMode => exact restoreSaved_quiet quiet
  | deleteFile path => exact restoreSaved_quiet quiet
  | createFile path data mode =>
    refine Spec.bind (Q := fun staged v => (v.slot (.staged k)).isSome = staged ∧ P v)
      (Spec.inspect fun v h => ⟨rfl, h⟩) fun staged => ?_
    cases staged with
    | true => exact Spec.ret () fun v h => h.2
    | false =>
      have consumed : ∀ v, (v.slot (.staged k)).isSome = false ∧ P v →
          v.slot (.staged k) = none ∧ v.tree.fileAt path = none := by
        rintro v ⟨hs, h⟩
        have gone : v.slot (.staged k) = none := by simpa using hs
        exact ⟨gone, (quiet v h).resolve_left fun hn => hn gone⟩
      refine Spec.bind (Q := fun _ v => (v.slot (.staged k)).isSome = false ∧ P v) ?_ fun _ => ?_
      · refine Spec.bind (Q := fun n v => n = v.tree.node path ∧
          (v.slot (.staged k)).isSome = false ∧ P v) (Spec.inspect fun v h => ⟨rfl, h⟩) fun n => ?_
        cases n with
        | none => exact Spec.ret () fun v h => h.2
        | some n =>
          cases n with
          | file f =>
            refine Spec.pointwise fun v h => absurd (consumed v h.2).2 ?_
            simp [Tree.fileAt_eq_some.mpr h.1.symm]
          | dir => exact Spec.raise _ fun v h => ⟨h.2.2, (consumed v h.2).1, .inl h.1.symm⟩
      · refine Spec.check (fun v h _ _ => h.2) fun v h e refused => ⟨h.2, (consumed v h).1, .inr ?_⟩
        by_contra there
        rw [if_pos (by simpa using there)] at refused
        cases refused
  | moveFile source destination =>
    refine Spec.bind (Q := fun moved v => moved = false ∧ P v)
      (Spec.inspect fun v h => ⟨?_, h⟩) fun moved => ?_
    · have := quiet v h
      rw [Quiet] at this
      cases hd : v.tree.present destination <;> simp_all
    · cases moved with
      | false => exact Spec.ret () fun v h => h.2
      | true => exact Spec.pointwise fun v h => absurd h.1 (by simp)

end Quiet

section Loop

variable {T : Tree} {actions : List (TransactionAction Path)} {K : Kept}
  {D : Path → Prop} {count : Nat} {files : FileMap} {v : View}

/-- After the undo of every action from `i` on: nothing has changed while `i` is not below
the starting level, and below it the plan is at level `i`. -/
def Lowered (T : Tree) (actions : List (TransactionAction Path)) (K : Kept)
    (D : Path → Prop) (count : Nat) (v : View) (i : Nat)
    (w : View) : Prop :=
  (count ≤ i ∧ w = v) ∨ (i < count ∧ Undone T actions K D i (levelFiles T actions i) w)

/-- The files from which the first `count` actions can be undone. -/
def Standing (T : Tree) (actions : List (TransactionAction Path)) (count : Nat)
    (files : FileMap) : Prop :=
  files = levelFiles T actions count ∨ ∃ m, count = m + 1 ∧ Above T actions m files

/-- The undo loop over the actions from `i` on. It raises only in the undo of a creation
that is not in force and whose parent is gone. -/
theorem rollbackActions_spec (enabled : EnabledPlan T actions)
    (start : Undone T actions K D count files v) (standing : Standing T actions count files)
    (quiet : ∀ k a, count ≤ k → actions[k]? = some a → Quiet k v a) :
    ∀ (rest : List (TransactionAction Path)) (i : Nat), actions.drop i = rest →
      Spec (· = v) (rollbackActions (serializeFrom T i rest)) (fun _ => Lowered T actions K D count v i)
        (fun _ w => w = v ∧ ∃ k a, count ≤ k ∧ actions[k]? = some a ∧ Refuses k v a)
        (fun w => ∃ m, m < count ∧ Unwinding T actions K D m w)
  | [], i, split => by
    refine Spec.ret () ?_
    rintro w rfl
    have := start.journaled.bound
    exact .inl ⟨by have := List.drop_eq_nil_iff.mp split; omega, rfl⟩
  | a :: rest, i, split => by
    obtain ⟨ha, split'⟩ := head_of_drop split
    refine Spec.bind (rollbackActions_spec enabled start standing quiet rest (i + 1) split')
      fun _ => ?_
    refine Spec.pointwise ?_
    rintro w (⟨le, rfl⟩ | ⟨lt, lowered⟩)
    · by_cases hi : count ≤ i
      · -- not in force: the undo of action `i` leaves the state it was given
        refine (quiet_spec T (P := (· = w)) fun u hu => hu ▸ quiet i a hi ha).weaken
          (fun _ h => h) (fun _ u hu => .inl ⟨hi, hu⟩) ?_ fun _ h => h
        rintro e u ⟨rfl, lost⟩
        exact ⟨rfl, i, a, hi, ha, lost⟩
      · obtain rfl : count = i + 1 := by omega
        have above : Above T actions i files := by
          rcases standing with h | ⟨m, hm, h⟩
          · exact .inl h
          · obtain rfl : i = m := by omega
            exact h
        exact (undo_spec enabled ha above).weaken (fun u hu => hu ▸ start)
          (fun _ u hu => .inr ⟨by omega, hu⟩) (fun _ _ h => h.elim)
          fun u hu => ⟨i, by omega, hu⟩
    · exact (undo_spec enabled ha (.inl rfl)).weaken (fun u hu => hu ▸ lowered)
        (fun _ u hu => .inr ⟨by omega, hu⟩) (fun _ _ h => h.elim) fun u hu => ⟨i, by omega, hu⟩

end Loop

end RepoForge
