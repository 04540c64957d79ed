import RepoForge.Guarantees.Transaction.Reentry
import RepoForge.Spec.Transaction.Recovery

/-!
# When the journal blocks later commits

A transaction directory without a manifest makes `recoverPending` raise, and with it every
later commit: a crash inside `_prepare` leaves one, and so does a crash inside the deletion
of a journal once the manifest is gone. `recovery_not_blocked` says that nothing else does,
for plans whose paths lie neither below a file of the start nor below each other, as long
as the parent of every created path whose staged copy is gone is still there.

The invariant is `Orderly`. It says nothing about levels: wherever the undo of the actions
has got to, and even where it has mistaken one action for another, files stand only where
the start or the plan has files, and directories only above them.
-/
namespace RepoForge

open Interruptible Interruptible.Proc

/-- `p` is a path of the plan. -/
def OnPath (actions : List (TransactionAction Path)) (p : Path) : Prop := ∃ a ∈ actions, p ∈ a.paths

/-- No path of the plan lies below a file of the start or below another path of the plan. -/
structure Separate (T : Tree) (actions : List (TransactionAction Path)) : Prop where
  original : ∀ p, OnPath actions p → T.underFile p = false
  planned : ∀ p q, OnPath actions p → OnPath actions q → ¬ Below p q

structure Orderly (T : Tree) (actions : List (TransactionAction Path)) (t : Tree) : Prop where
  wellFormed : t.WellFormed
  files : ∀ p, t.fileAt p ≠ none → T.fileAt p ≠ none ∨ OnPath actions p
  dirs : ∀ p, t.IsDir p → T.IsDir p ∨ ∃ q, OnPath actions q ∧ p <+: q.dropLast

section Total

/-- With no file on the way, every missing parent is made. -/
theorem makeDirs_append (front rest : List Path) :
    makeDirs (front ++ rest) = (do makeDirs front; makeDirs rest) := by
  induction front with
  | nil => simp [makeDirs]
  | cons p front ih => simp [makeDirs, ih, bind_assoc]

theorem missing_concat (t : Tree) (front : Path) (last : Text) :
    t.missing (front ++ [last]) =
      t.missing front ++ if t.present (front ++ [last]) then [] else [front ++ [last]] := by
  unfold Tree.missing
  rw [List.inits_append]
  cases h : t.present (front ++ [last]) <;> simp [h]

variable {P : View → Prop} {p : Path}

/-- The directories after the parents of a path were made. -/
structure Made (t : Tree) (q : Path) (v : View) : Prop where
  there : v.tree.IsDir q
  kept : ∀ r, t.IsDir r → v.tree.IsDir r
  only : ∀ r, v.tree.IsDir r → t.IsDir r ∨ r <+: q

theorem makeDirs_total {v₀ : View} (start : P v₀)
    (free : ∀ v, P v → ∀ r, r <+: p → v.tree.fileAt r = none)
    (made : ∀ v q t, P v → q <+: p → v.tree.mkdir q = .ok t → P { v with tree := t }) :
    ∀ q : Path, q <+: p →
      Spec (· = v₀) (makeDirs (v₀.tree.missing q)) (fun _ v => P v ∧ Made v₀.tree q v)
        (fun _ _ => False) P := by
  intro q
  induction q using List.reverseRecOn with
  | nil =>
    intro _
    refine Spec.ret () ?_
    rintro v rfl
    exact ⟨start, Tree.isDir_nil _, fun _ h => h, fun _ h => .inl h⟩
  | append_singleton front last ih =>
    intro pre
    rw [missing_concat, makeDirs_append]
    refine Spec.bind (ih ((List.prefix_append front [last]).trans pre)) fun _ => ?_
    have noFile := free v₀ start _ pre
    cases there : v₀.tree.present (front ++ [last]) with
    | true =>
      refine Spec.ret () fun v ⟨hv, above⟩ => ⟨hv, ?_, above.kept, fun r hr => ?_⟩
      · exact above.kept _ ((Tree.present_iff.mp there).resolve_left fun h => h noFile)
      · exact (above.only r hr).imp_right fun h => h.trans (List.prefix_append front [last])
    | false =>
      have absent := Tree.present_eq_false.mp there
      have new : ∀ v, P v ∧ Made v₀.tree front v →
          v.tree.mkdir (front ++ [last]) = .ok (v.tree.put (front ++ [last]) .dir) := by
        rintro v ⟨hv, above⟩
        have free : v.tree.node (front ++ [last]) = none := by
          refine Tree.node_eq_none (free v hv _ pre) fun dir => ?_
          rcases above.only _ dir with old | below
          · rw [show v₀.tree.node _ = some .dir from old] at absent
            cases absent
          · have := below.length_le
            simp only [List.length_append, List.length_singleton] at this
            omega
        simp [Tree.mkdir, free, above.there]
      refine Spec.bind (Q := fun _ v => P v ∧ Made v₀.tree (front ++ [last]) v)
        (Spec.step ?_ ?_) fun _ => Spec.ret () fun v h => h
      · rintro v ⟨hv, above⟩ w hw
        obtain ⟨t, ht, rfl⟩ := View.onTree_ok hw
        have after := made v _ t hv pre ht
        rw [new v ⟨hv, above⟩] at ht
        cases ht
        refine ⟨after, after, ?_, fun r hr => ?_, fun r hr => ?_⟩
        · exact (Tree.isDir_put_dir _ _ _).mpr (.inl rfl)
        · exact (Tree.isDir_put_dir _ _ _).mpr (.inr (above.kept r hr))
        · rcases (Tree.isDir_put_dir _ _ _).mp hr with rfl | hr
          · exact .inr (List.prefix_refl _)
          · exact (above.only r hr).imp_right fun h => h.trans (List.prefix_append front [last])
      · rintro v h e refused
        rw [View.onTree, new v h] at refused
        cases refused

theorem ensureParent_total (free : ∀ v, P v → ∀ r, r <+: p.dropLast → v.tree.fileAt r = none)
    (made : ∀ v q t, P v → q <+: p.dropLast → v.tree.mkdir q = .ok t → P { v with tree := t }) :
    Spec P (ensureParent p) (fun _ v => P v ∧ v.tree.IsDir p.dropLast) (fun _ _ => False) P := by
  refine Spec.pointwise fun v₀ start => ?_
  refine Spec.bind (Q := fun t v => v = v₀ ∧ t = v₀.tree)
    (Spec.inspect fun v hv => hv ▸ ⟨rfl, rfl⟩) fun t => Spec.pointwise ?_
  rintro v ⟨rfl, rfl⟩
  have noFile := free v start _ (List.prefix_refl _)
  have clear : v.tree.underFile p.dropLast = false := by
    by_contra under
    obtain ⟨r, below, file⟩ := Tree.underFile_iff.mp (by simpa using under)
    exact file (free v start r below.1)
  rw [if_neg (by simp [noFile]), if_neg (by simp [clear])]
  refine Spec.bind (makeDirs_total start free made _ (List.prefix_refl _)) fun _ => ?_
  exact (fsyncDir_done _ fun v h => h.2.there).weaken (fun _ h => h) (fun _ _ h => ⟨h.1, h.2.there⟩)
    (fun _ _ h => h) fun _ h => h

end Total

section Orderly

variable {T : Tree} {actions : List (TransactionAction Path)} {t u : Tree} {p q : Path}

theorem file_on_path :
    ∀ k, levelFiles T actions k p ≠ none → T.fileAt p ≠ none ∨ OnPath actions p := by
  intro k
  induction k with
  | zero =>
    intro h
    exact .inl (by simpa using h)
  | succ k ih =>
    intro h
    cases ha : actions[k]? with
    | none =>
      refine ih ?_
      rw [levelFiles, List.take_add_one, ha] at h
      simpa [levelFiles] using h
    | some a =>
      by_cases on : p ∈ a.paths
      · exact .inr ⟨a, List.mem_of_getElem? ha, on⟩
      · refine ih ?_
        rw [levelFiles_succ ha] at h
        cases a <;> simp_all [TransactionAction.effect, TransactionAction.paths]

theorem path_not_dir (enabled : EnabledPlan T actions) (on : OnPath actions p) : ¬ T.IsDir p := by
  obtain ⟨a, member, hp⟩ := on
  obtain ⟨k, hk⟩ := List.mem_iff_getElem?.mp member
  have en := enabled k a hk
  cases a with
  | writeFile path data preserveMode =>
    obtain rfl := List.mem_singleton.mp hp
    exact level_not_dir enabled k en
  | createFile path data mode =>
    obtain rfl := List.mem_singleton.mp hp
    exact en.2
  | deleteFile path =>
    obtain rfl := List.mem_singleton.mp hp
    exact level_not_dir enabled k en
  | moveFile s d =>
    rcases List.mem_pair.mp hp with rfl | rfl
    · exact level_not_dir enabled k en.2.1
    · exact en.2.2.2

theorem below_of_prefix_parent (ne : q ≠ []) (h : p <+: q.dropLast) : Below p q := by
  refine ⟨h.trans (List.dropLast_prefix q), ?_⟩
  rintro rfl
  have := h.length_le
  have : 0 < p.length := List.length_pos_iff.mpr ne
  rw [List.length_dropLast] at *
  omega

theorem Orderly.mkdir (o : Orderly T actions t) (on : OnPath actions p) (pre : q <+: p.dropLast)
    (made : t.mkdir q = .ok u) : Orderly T actions u := by
  obtain ⟨free, parent, rfl⟩ := Tree.mkdir_ok made
  have noFile := Tree.fileAt_eq_none.mpr (.inl free)
  refine ⟨Tree.wellFormed_put_dir o.wellFormed parent, fun r hr => ?_, fun r hr => ?_⟩
  · rw [Tree.fileAt_put_dir t noFile] at hr
    exact o.files r hr
  · rcases (Tree.isDir_put_dir t q r).mp hr with rfl | hr
    · exact .inr ⟨p, on, pre⟩
    · exact o.dirs r hr

variable (enabled : EnabledPlan T actions) (separate : Separate T actions)

include enabled separate

theorem Orderly.not_isDir (o : Orderly T actions t) (on : OnPath actions p) : ¬ t.IsDir p := by
  intro dir
  rcases o.dirs p dir with old | ⟨q, hq, pre⟩
  · exact path_not_dir enabled on old
  · have ne : q ≠ [] := by
      rintro rfl
      exact path_not_dir enabled hq (Tree.isDir_nil T)
    exact separate.planned p q on hq (below_of_prefix_parent ne pre)

theorem Orderly.no_file_above (o : Orderly T actions t) (on : OnPath actions p)
    (pre : q <+: p.dropLast) : t.fileAt q = none := by
  by_contra file
  have ne : p ≠ [] := by
    rintro rfl
    exact path_not_dir enabled on (Tree.isDir_nil T)
  have below := below_of_prefix_parent ne pre
  rcases o.files q file with old | planned
  · have := Tree.underFile_iff.mpr ⟨q, below, old⟩
    rw [separate.original p on] at this
    cases this
  · exact separate.planned q p planned on below

theorem Orderly.remove (o : Orderly T actions t) (on : OnPath actions p) :
    Orderly T actions (t.remove p) := by
  have off := o.not_isDir enabled separate on
  refine ⟨Tree.wellFormed_remove_file o.wellFormed off, fun r hr => ?_, fun r hr => ?_⟩
  · rw [Tree.fileAt_remove] at hr
    split at hr
    · exact absurd rfl hr
    · exact o.files r hr
  · exact o.dirs r ((Tree.isDir_remove_file t off r).mp hr)

theorem Orderly.put (o : Orderly T actions t) (on : OnPath actions p) (parent : t.IsDir p.dropLast)
    (f : File) : Orderly T actions (t.put p (.file f)) := by
  have off := o.not_isDir enabled separate on
  refine ⟨Tree.wellFormed_put_file o.wellFormed off parent f, fun r hr => ?_, fun r hr => ?_⟩
  · rw [Tree.fileAt_put_file t (ne_nil_of_isDir_parent off)] at hr
    split at hr
    · rename_i he
      exact .inr (he ▸ on)
    · exact o.files r hr
  · exact o.dirs r ((Tree.isDir_put_file t off r f).mp hr)

end Orderly

section Tending

variable {T : Tree} {actions : List (TransactionAction Path)} {K : Kept} {D : Path → Prop}
  {v w : View}

/-- An orderly disk while actions are undone: the directories of the beginning are there. -/
structure Tending (T : Tree) (actions : List (TransactionAction Path)) (K : Kept) (D : Path → Prop)
    (v : View) : Prop where
  orderly : Orderly T actions v.tree
  journal : v.tx ≠ none
  kept : v.kept = K
  dirs : ∀ p, D p → v.tree.IsDir p

theorem Tending.mkdir {p q : Path} {t : Tree} (h : Tending T actions K D v) (on : OnPath actions p)
    (pre : q <+: p.dropLast) (made : v.tree.mkdir q = .ok t) :
    Tending T actions K D { v with tree := t } := by
  refine ⟨h.orderly.mkdir on pre made, h.journal, h.kept, fun r hr => ?_⟩
  obtain ⟨-, -, rfl⟩ := Tree.mkdir_ok made
  exact (Tree.isDir_put_dir _ _ _).mpr (.inr (h.dirs r hr))

variable (enabled : EnabledPlan T actions) (separate : Separate T actions)

include enabled separate

theorem Tending.remove {p : Path} (h : Tending T actions K D v) (on : OnPath actions p) :
    Tending T actions K D { v with tree := v.tree.remove p } :=
  ⟨h.orderly.remove enabled separate on, h.journal, h.kept, fun r hr =>
    (Tree.isDir_remove_file v.tree (h.orderly.not_isDir enabled separate on) r).mpr (h.dirs r hr)⟩

/-- Parents of a path of the plan can always be made. -/
theorem tending_parents {p : Path} (on : OnPath actions p) {F : View → Prop}
    (keeps : ∀ v q t, F v → v.tree.mkdir q = .ok t → F { v with tree := t }) :
    Spec (fun v => Tending T actions K D v ∧ F v) (ensureParent p)
      (fun _ v => (Tending T actions K D v ∧ F v) ∧ v.tree.IsDir p.dropLast) (fun _ _ => False)
      (Tending T actions K D) := by
  have total : Spec (fun v => Tending T actions K D v ∧ F v) (ensureParent p) _ _ _ :=
    ensureParent_total
      (fun v h r pre => h.1.orderly.no_file_above enabled separate on pre)
      fun v q t h pre made => ⟨h.1.mkdir on pre made, keeps v q t h.2 made⟩
  exact total.weaken (fun _ h => h) (fun _ _ h => h) (fun _ _ h => h) fun _ h => h.1

theorem tending_restore {p : Path} (on : OnPath actions p) {s : Slot}
    (saved : ∀ k, s ≠ .staged k) :
    Spec (Tending T actions K D) (restoreSaved p s) (fun _ => Tending T actions K D)
      (fun _ _ => False) (Tending T actions K D) := by
  refine Spec.bind (Q := fun found v => (v.slot s).isSome = found ∧ Tending T actions K D v)
    (Spec.inspect fun v h => ⟨rfl, h⟩) fun found => ?_
  cases found with
  | false => exact Spec.ret () fun v h => h.2
  | true =>
    refine Spec.bind (Q := fun _ v => Tending T actions K D v ∧ v.slot s ≠ none)
      (unlinkFileIfPresent_spec (fun v h => h.2.orderly.not_isDir enabled separate on)
        (fun v h _ => ⟨h.2, Option.isSome_iff_ne_none.mp h.1⟩) fun v h _ =>
          ⟨h.2.remove enabled separate on, h.2.remove enabled separate on,
            Option.isSome_iff_ne_none.mp h.1⟩) fun _ => ?_
    refine Spec.bind (tending_parents enabled separate on fun _ _ _ h _ => h) fun _ => ?_
    refine Spec.bind (Q := fun _ v => Tending T actions K D v ∧ v.tree.IsDir p.dropLast)
      (unstash_spec (fun v h => h.1.2) (fun v h => h.1.1.orderly.not_isDir enabled separate on)
        (fun v h => h.2) ?_) fun _ => (fsyncDir_done _ fun v h => h.2).weaken (fun _ h => h)
          (fun _ _ h => h.1) (fun _ _ h => h) fun _ h => h
    rintro v w f ⟨⟨h, -⟩, parent⟩ - tree slots framed
    have off := h.orderly.not_isDir enabled separate on
    have after : Tending T actions K D w := by
      refine ⟨tree ▸ h.orderly.put enabled separate on parent f, framed.journal h.journal, ?_,
        fun r hr => ?_⟩
      · rw [← h.kept]
        simp only [View.kept, framed.manifest, framed.receipts]
        congr 1
        exact funext fun k => by rw [slots, if_neg (saved k).symm]
      · rw [tree]
        exact (Tree.isDir_put_file v.tree off r f).mpr (h.dirs r hr)
    refine ⟨after, after, ?_⟩
    rw [tree]
    exact (Tree.isDir_put_file v.tree off _ f).mpr parent

theorem tending_move {s d : Path} (onSource : OnPath actions s) (onDestination : OnPath actions d)
    (parents : List Path) :
    Spec (Tending T actions K D) (rollbackAction (.move s d parents))
      (fun _ => Tending T actions K D) (fun _ _ => False) (Tending T actions K D) := by
  refine Spec.bind (Q := fun moved v => (moved = true → v.tree.present d = true) ∧
    Tending T actions K D v) (Spec.inspect fun v h => ⟨by simp; tauto, h⟩) fun moved => ?_
  cases moved with
  | false => exact Spec.ret () fun v h => h.2
  | true =>
    have file : ∀ v, Tending T actions K D v → v.tree.present d = true → v.tree.fileAt d ≠ none :=
      fun v h there => (Tree.present_iff.mp there).resolve_right
        (h.orderly.not_isDir enabled separate onDestination)
    refine Spec.bind (Q := fun _ v => (Tending T actions K D v ∧ v.tree.fileAt d ≠ none) ∧
      v.tree.IsDir s.dropLast) ((tending_parents enabled separate onSource fun v q t h made => ?_).weaken
        (fun v h => ⟨h.2, file v h.2 (h.1 rfl)⟩) (fun _ _ h => h) (fun _ _ h => h) fun _ h => h)
      fun _ => ?_
    · obtain ⟨free, -, rfl⟩ := Tree.mkdir_ok made
      rw [Tree.fileAt_put_dir _ (Tree.fileAt_eq_none.mpr (.inl free))]
      exact h
    refine Spec.bind (Q := fun _ v => Tending T actions K D v ∧ v.tree.IsDir s.dropLast ∧
      v.tree.IsDir d.dropLast) (Spec.step ?_ ?_) fun _ =>
      Spec.bind (fsyncDir_done _ fun v h => h.2.1) fun _ =>
        (fsyncDir_done _ fun v h => h.2.2).weaken (fun _ h => h) (fun _ _ h => h.1)
          (fun _ _ h => h) fun _ h => h
    · rintro v ⟨⟨h, there⟩, parent⟩ w hw
      obtain ⟨t, ht, rfl⟩ := View.onTree_ok hw
      obtain ⟨f, hf⟩ := Option.ne_none_iff_exists'.mp there
      have offSource := h.orderly.not_isDir enabled separate onSource
      have offDestination := h.orderly.not_isDir enabled separate onDestination
      rw [Tree.rename_file hf offSource parent] at ht
      cases ht
      have dirs : ∀ r, ((v.tree.remove d).put s (.file f)).IsDir r ↔ v.tree.IsDir r := fun r =>
        (Tree.isDir_put_file _ ((Tree.isDir_remove_file v.tree offDestination s).not.mpr offSource)
          r f).trans (Tree.isDir_remove_file v.tree offDestination r)
      have after : Tending T actions K D { v with tree := (v.tree.remove d).put s (.file f) } := by
        refine ⟨(h.orderly.remove enabled separate onDestination).put enabled separate onSource
          ((Tree.isDir_remove_file v.tree offDestination _).mpr parent) f, h.journal, h.kept,
          fun r hr => (dirs r).mpr (h.dirs r hr)⟩
      refine ⟨after, after, (dirs _).mpr parent, (dirs _).mpr (h.orderly.wellFormed d ?_)⟩
      rw [Tree.fileAt_eq_some.mp hf]
      simp
    · rintro v ⟨⟨h, there⟩, parent⟩ e refused
      obtain ⟨f, hf⟩ := Option.ne_none_iff_exists'.mp there
      rw [View.onTree, Tree.rename_file hf (h.orderly.not_isDir enabled separate onSource)
        parent] at refused
      cases refused

/-- The one reason for which an orderly undo step raises: the staged copy of a creation is
gone, and so is the parent. -/
def Orphaned (actions : List (TransactionAction Path)) (staged : Nat → Option File)
    (D : Path → Prop) : Prop :=
  ∃ k path data mode, actions[k]? = some (.createFile path data mode) ∧ staged k = none ∧
    ¬ D path.dropLast

theorem tending_undo {k : Nat} {a : TransactionAction Path} (ha : actions[k]? = some a) :
    Spec (Tending T actions K D) (rollbackAction (serializeAction T k a))
      (fun _ => Tending T actions K D)
      (fun _ v => Tending T actions K D v ∧ Orphaned actions K.staged D)
      (Tending T actions K D) := by
  have on : ∀ p, p ∈ a.paths → OnPath actions p := fun p hp => ⟨a, List.mem_of_getElem? ha, hp⟩
  cases a with
  | writeFile path data preserveMode =>
    exact (tending_restore enabled separate (on path (by simp [TransactionAction.paths]))
      (by simp)).weaken (fun _ h => h) (fun _ _ h => h) (fun _ _ h => h.elim) fun _ h => h
  | deleteFile path =>
    exact (tending_restore enabled separate (on path (by simp [TransactionAction.paths]))
      (by simp)).weaken (fun _ h => h) (fun _ _ h => h) (fun _ _ h => h.elim) fun _ h => h
  | moveFile s d =>
    exact (tending_move enabled separate (on s (by simp [TransactionAction.paths]))
      (on d (by simp [TransactionAction.paths])) _).weaken (fun _ h => h) (fun _ _ h => h)
      (fun _ _ h => h.elim) fun _ h => h
  | createFile path data mode =>
    have onPath := on path (by simp [TransactionAction.paths])
    refine Spec.bind (Q := fun staged v => (v.slot (.staged k)).isSome = staged ∧
      Tending T actions K D v) (Spec.inspect fun v h => ⟨rfl, h⟩) fun staged => ?_
    cases staged with
    | true => exact Spec.ret () fun v h => h.2
    | false =>
      refine Spec.bind (Q := fun _ v => v.slot (.staged k) = none ∧ Tending T actions K D v)
        ((unlinkFileIfPresent_spec (fun v h => h.2.orderly.not_isDir enabled separate onPath)
          (fun v h _ => ⟨by simpa using h.1, h.2⟩) fun v h _ =>
            ⟨h.2.remove enabled separate onPath, by simpa using h.1,
              h.2.remove enabled separate onPath⟩).weaken (fun _ h => h) (fun _ _ h => h)
          (fun _ _ h => h.elim) fun _ h => h) fun _ => ?_
      refine Spec.check (fun v h _ _ => h.2) fun v h e refused =>
        ⟨h.2, k, path, data, mode, ha, ?_, fun parent => ?_⟩
      · rw [← h.2.kept]
        exact h.1
      · rw [if_pos (Tree.present_iff.mpr (.inr (h.2.dirs _ parent)))] at refused
        cases refused

theorem tending_actions :
    ∀ (rest : List (TransactionAction Path)) (i : Nat), actions.drop i = rest →
      Spec (Tending T actions K D) (rollbackActions (serializeFrom T i rest))
        (fun _ => Tending T actions K D)
        (fun _ v => Tending T actions K D v ∧ Orphaned actions K.staged D)
        (Tending T actions K D)
  | [], _, _ => Spec.ret () fun _ h => h
  | a :: rest, i, split => by
    obtain ⟨ha, split'⟩ := head_of_drop split
    exact Spec.bind (tending_actions rest (i + 1) split') fun _ => tending_undo enabled separate ha

/-- The removal of created parents never raises on an orderly disk. -/
theorem orderly_parents (wf : T.WellFormed) {d : Option TxDir} :
    ∀ (dirs : List Path), (∀ q ∈ dirs, T.node q = none ∧ ∃ p, OnPath actions p ∧ q <+: p.dropLast) →
      Spec (fun v => Orderly T actions v.tree ∧ v.tx = d) (removeParents dirs)
        (fun _ v => Orderly T actions v.tree ∧ v.tx = d) (fun _ _ => False)
        (fun v => Orderly T actions v.tree ∧ v.tx = d)
  | [], _ => Spec.ret () fun _ h => h
  | q :: dirs, new => by
    obtain ⟨absent, p, on, pre⟩ := new q (by simp)
    have hq : q ≠ [] := by
      rintro rfl
      simp at absent
    refine Spec.bind (removeParent_spec q ?_ (fun v _ h _ _ => h) ?_) fun _ =>
      orderly_parents wf dirs fun r hr => new r (List.mem_cons_of_mem _ hr)
    · rintro v t ⟨o, tx⟩ removed
      obtain ⟨dir, empty, rfl⟩ := Tree.rmdir_ok removed
      have after : Orderly T actions (v.tree.remove q) :=
        ⟨Tree.wellFormed_remove_dir o.wellFormed hq empty,
          fun r hr => o.files r (Tree.fileAt_remove_dir dir r ▸ hr),
          fun r hr => o.dirs r ((Tree.isDir_remove_dir hq r).mp hr).1⟩
      exact ⟨⟨after, tx⟩, after, tx⟩
    · rintro v e ⟨o, -⟩ refused other off
      have noFile := o.no_file_above enabled separate on pre
      have open_ : v.tree.underFile q = false := by
        by_contra under
        obtain ⟨r, below, file⟩ := Tree.underFile_iff.mp (by simpa using under)
        exact file (o.no_file_above enabled separate on (below.1.trans pre))
      rw [Tree.rmdir_absent (Tree.node_eq_none noFile off) open_] at refused
      cases refused
      exact other rfl

/-- The disks of a plan with a prepared manifest, or with none. -/
def OrderlyDisk (E : Engine) (id : Text) (T : Tree) (actions : List (TransactionAction Path))
    (v : View) : Prop :=
  (v.manifest = none ∨ PlanManifest E id T actions v.manifest) ∧ Orderly T actions v.tree

/-- A rollback of an orderly disk keeps it orderly and raises for one reason only. -/
theorem rollback_orderly (wf : T.WellFormed) {E : Engine} {id : Text} {m : Manifest}
    (entries : m.actions = serializeFrom T 0 actions)
    (manifest : PlanManifest E id T actions v.manifest) (o : Orderly T actions v.tree) :
    Spec (· = v) (rollback E m) (fun _ w => w.tx = none ∧ OrderlyDisk E id T actions w)
      (fun _ w => OrderlyDisk E id T actions w ∧
        Orphaned actions (fun k => v.slot (.staged k)) v.tree.IsDir) (OrderlyDisk E id T actions) := by
  have journal : v.tx ≠ none := by
    obtain ⟨name, -, h⟩ := manifest
    intro none
    simp [View.manifest, none] at h
  have planned : ∀ w : View, w.tx = v.tx → PlanManifest E id T actions w.manifest := by
    intro w tx
    rw [View.manifest, tx]
    exact manifest
  refine Spec.bind (Q := fun _ w => w.tree = v.tree ∧ w.tx = v.tx)
    ((rollbackCommitReceipt_spec m v).weaken (fun _ h => h) (fun _ _ h => h) (fun _ _ h => h)
      fun w h => ⟨.inr (planned w h.2), h.1 ▸ o⟩) fun _ => Spec.pointwise ?_
  rintro v₁ ⟨tree, tx⟩
  have staged : v₁.kept.staged = fun k => v.slot (.staged k) :=
    funext fun k => View.slot_congr tx _
  have tended : ∀ w, Tending T actions v₁.kept v.tree.IsDir w → OrderlyDisk E id T actions w := by
    intro w h
    refine ⟨.inr ?_, h.orderly⟩
    rw [show w.manifest = v₁.manifest from congrArg Kept.manifest h.kept]
    exact planned v₁ tx
  rw [entries]
  refine Spec.bind (Q := fun _ => Tending T actions v₁.kept v.tree.IsDir)
    ((tending_actions enabled separate actions 0 rfl).weaken ?_ (fun _ _ h => h) ?_ tended)
    fun _ => Spec.pointwise fun v₂ h₂ => ?_
  · rintro w rfl
    exact ⟨tree ▸ o, tx ▸ journal, rfl, fun p hp => tree ▸ hp⟩
  · rintro _ w ⟨h, orphaned⟩
    exact ⟨tended w h, staged ▸ orphaned⟩
  have parents : ∀ q ∈ rollbackParents (serializeFrom T 0 actions),
      T.node q = none ∧ ∃ p, OnPath actions p ∧ q <+: p.dropLast := by
    intro q hq
    obtain ⟨a, ha, p, target, missing⟩ := (mem_rollbackParents 0).mp hq
    obtain ⟨pre, absent⟩ := (mem_missingParents wf).mp missing
    refine ⟨absent, p, ⟨a, ha, ?_⟩, pre⟩
    cases a <;> simp_all [TransactionAction.target, TransactionAction.paths]
  have manifest₂ : ∀ w : View, w.tx = v₂.tx → PlanManifest E id T actions w.manifest := by
    intro w same
    rw [View.manifest, same]
    have := (congrArg Kept.manifest h₂.kept : v₂.manifest = v₁.manifest)
    rw [show v₂.tx.bind TxDir.manifest = v₁.manifest from this]
    exact planned v₁ tx
  refine Spec.bind (Q := fun _ w => Orderly T actions w.tree ∧ w.tx = v₂.tx)
    ((orderly_parents enabled separate wf _ parents).weaken
      (by rintro w rfl; exact ⟨h₂.orderly, rfl⟩) (fun _ _ h => h) (fun _ _ h => h.elim)
      fun w h => ⟨.inr (manifest₂ w h.2), h.1⟩) fun _ => Spec.pointwise ?_
  rintro v₃ ⟨o₃, tx₃⟩
  have purged : ∀ w, Purged v₃ w → w.tx = none ∧ OrderlyDisk E id T actions w := fun w h =>
    ⟨h.journal, .inl (by simp [View.manifest, h.journal]), h.tree ▸ o₃⟩
  refine (purge_spec E (tx₃ ▸ h₂.journal)).weaken (fun _ h => h) (fun _ w h => purged w h)
    (fun _ _ h => h.elim) ?_
  rintro w (h | h)
  · exact ⟨h.manifest.elim (fun same => .inr (same ▸ manifest₂ v₃ tx₃)) .inl, h.tree ▸ o₃⟩
  · exact (purged w h).2

end Tending

section Crash

variable {T : Tree} {actions : List (TransactionAction Path)} {E : Engine} {id : Text} {v : View}

theorem Journaled.orderly {count : Nat} {files : FileMap} (j : Journaled T actions count files v)
    (standing : Standing T actions count files) : Orderly T actions v.tree := by
  refine ⟨j.wellFormed, fun p file => ?_, fun p dir => ?_⟩
  · rw [j.files] at file
    rcases standing with rfl | ⟨m, -, rfl | ⟨path, _, _, -, rfl⟩⟩
    · exact file_on_path _ file
    · exact file_on_path _ file
    · refine file_on_path m ?_
      by_cases h : p = path
      · simp [rewritingFiles, h] at file
      · simpa [rewritingFiles, h] using file
  · refine (j.created p dir).imp_right ?_
    rintro ⟨a, member, q, target, pre⟩
    refine ⟨q, ⟨a, member, ?_⟩, pre⟩
    cases a <;> simp_all [TransactionAction.target, TransactionAction.paths]

/-- The start is orderly. -/
theorem Orderly.refl (wf : T.WellFormed) {t : Tree} (same : t = T) : Orderly T actions t := by
  subst same
  exact ⟨wf, fun _ h => .inl h, fun _ h => .inl h⟩

theorem orderly_crashInvariant (wf : T.WellFormed) (enabled : EnabledPlan T actions)
    (separate : Separate T actions) (R : AList fun _ : Text => Bytes) :
    CrashInvariant E id T actions R (OrderlyDisk E id T actions) where
  unprepared v h := ⟨.inl h.manifest, .refl wf h.tree⟩
  rising v h := by
    obtain ⟨manifest, count, files, j, standing, -⟩ := h
    exact ⟨.inr manifest, j.orderly standing⟩
  cleaning := by
    refine Spec.pointwise fun v start => ?_
    have orderly : Orderly T actions v.tree := by
      rcases start with unprepared | ⟨-, level⟩
      · exact .refl wf unprepared.tree
      · exact level.orderly (.inl rfl)
    refine (removeUnprepared_spec E v).weaken (fun _ h => h)
      (fun _ w h => ⟨.inl (by simp [View.manifest, h.1]), h.2.1 ▸ orderly⟩) (fun _ _ h => h.elim) ?_
    rintro w (h | h)
    · refine ⟨?_, h.tree ▸ orderly⟩
      rcases h.manifest with same | none
      · rcases start with unprepared | ⟨manifest, -⟩
        · exact .inl (same.trans unprepared.manifest)
        · exact .inr (same ▸ manifest)
      · exact .inl none
    · exact ⟨.inl (by simp [View.manifest, h.journal]), h.tree ▸ orderly⟩
  handling m entries := by
    refine Spec.pointwise ?_
    rintro v ⟨manifest, count, files, j, standing, -⟩
    exact (rollback_orderly enabled separate wf entries manifest (j.orderly standing)).weaken
      (fun _ h => h) (fun _ _ h => h.2) (fun _ _ h => h.1) fun _ h => h

/-- The recovery of one transaction that completes empties the journal. -/
theorem recoverPending_completes {P C : View → Prop} {Q : Recovered → View → Prop}
    (spec : Spec P (recoverTransaction E id) Q (fun _ _ => False) C) (start : P v)
    (there : v.tx ≠ none) (gone : ∀ r w, Q r w → w.tx = none) :
    (∃ report, (recoverPending E (crashed id v)).result = .ok report) ∧
      (recoverPending E (crashed id v)).state.journal = ∅ := by
  have pending : Spec (· = crashed id v) (recoverPending E) _ (fun _ _ => False) _ :=
    (recoverPending_spec E spec start there).weaken (fun _ h => h) (fun _ _ h => h)
      (fun _ _ ⟨_, _, h⟩ => h) fun _ h => h
  obtain ⟨report, ok, outcome, w, -, state, done⟩ := pending.completes rfl
  refine ⟨⟨report, ok⟩, ?_⟩
  rw [state]
  exact World.crashed_journal_none (gone outcome w done)

end Crash

/-- A crash blocks the journal exactly where it leaves a transaction directory without a
manifest. Where the manifest is still the prepared one this asks that the paths of the plan
are separate and no creation without a staged copy has lost its parent, or else that the
crash is a stop from which the rollback is exact. -/
theorem recovery_not_blocked (E : Engine) (o : CommitOptions) (id : Text) (W : Workspace)
    (R : AList fun _ : Text => Bytes) (plan : List (TransactionAction Text))
    (actions : List (TransactionAction Path)) (v : View)
    (accepted : validatePlan W.tree o.commitReceiptFactory.isSome plan = .ok actions)
    (crash : CommitCrash E o id actions ⟨W.tree, none, R⟩ v)
    (safe : ∀ m, v.manifest = some m → m.phase = .prepared →
      (Separate W.tree actions ∧ ∀ k path data mode,
        actions[k]? = some (.createFile path data mode) → v.slot (.staged k) = none →
        v.tree.present path.dropLast = true) ∨
      (∃ done left, actions = done ++ left ∧ Stops E o id actions ⟨W.tree, none, R⟩ left v ∧
        (∀ source destination, .moveFile source destination ∈ left →
          v.tree.present destination → v.tree.present source) ∧
        (∀ p, (∃ a ∈ done, a.Removes p) → ¬ v.tree.IsDir p) ∧
        (∀ a ∈ actions, ∀ p, a.target = some p → W.tree.underFile p.dropLast = false))) :
    ((∃ report, (recoverPending E (crashed id v)).result = .ok report) ∧
      (recoverPending E (crashed id v)).state.journal = ∅) ↔ (v.tx = none ∨ v.manifest ≠ none) := by
  have enabled := validatePlan_enabled accepted
  constructor
  · rintro ⟨⟨report, ok⟩, -⟩
    by_contra blocked
    obtain ⟨there, none⟩ := not_or.mp blocked
    have none : v.manifest = .none := by simpa using none
    rw [recoverPending_crashed E there, recoverTransaction_unprepared E id none] at ok
    cases ok
  · intro fine
    by_cases there : v.tx = none
    · rw [recoverPending_clean E (World.crashed_journal_none there)]
      exact ⟨⟨_, rfl⟩, World.crashed_journal_none there⟩
    obtain ⟨m, manifest⟩ := Option.ne_none_iff_exists'.mp (fine.resolve_left there)
    rcases crash.manifest W.wellFormed enabled manifest with ⟨name, ok, rfl⟩ | ⟨name, ok, rfl⟩
    · -- still prepared: the recovery is a rollback
      refine recoverPending_completes (P := (· = v)) (Q := fun _ w => w.tx = none)
        (C := fun _ => True) (Spec.of_run_eq (recoverTransaction_prepared E id manifest
          (readManifest_prepared E ok) rfl) ?_) rfl there fun _ _ h => h
      refine Spec.bind (Q := fun _ w => w.tx = none) (Spec.handle (E := fun _ _ => False) ?_
        fun _ => Spec.pointwise fun _ h => h.elim) fun _ => Spec.ret _ fun _ h => h
      rcases safe _ manifest rfl with ⟨separate, parents⟩ | ⟨done, left, split, stop, moves, removed,
        unshadowed⟩
      · have orderly := (crash.unmarked_of_prepared W.wellFormed enabled manifest rfl).induct
          (orderly_crashInvariant W.wellFormed enabled separate R) W.wellFormed enabled
        rcases orderly with ⟨none | plan, orderly⟩
        · rw [manifest] at none
          cases none
        refine (rollback_orderly enabled separate W.wellFormed rfl plan orderly).weaken
          (fun _ h => h) (fun _ _ h => h.1) ?_ fun _ _ => trivial
        rintro _ w ⟨-, k, path, data, mode, ha, gone, orphan⟩
        have on : OnPath actions path := ⟨_, List.mem_of_getElem? ha, by simp [TransactionAction.paths]⟩
        refine orphan ((Tree.present_iff.mp (parents k path data mode ha gone)).resolve_left ?_)
        exact fun file => file (orderly.no_file_above enabled separate on (List.prefix_refl _))
      · obtain ⟨⟨count, files, point⟩, -⟩ :=
          undoPoint_of_stop W.wellFormed enabled split stop moves removed
        exact (point.rollback_spec E W.wellFormed enabled rfl unshadowed).weaken (fun _ h => h)
          (fun _ _ h => h.2) (fun _ _ h => h) fun _ _ => trivial
    · -- the marker is there: the recovery deletes the journal
      refine recoverPending_completes (P := (· = v)) (Q := fun _ w => w.tx = none)
        (C := fun _ => True) (Spec.of_run_eq (recoverTransaction_committed E id manifest
          (readManifest_prepared E ok) rfl) ?_) rfl there fun _ _ h => h
      exact Spec.bind ((purge_spec E there).weaken (fun _ h => h) (fun _ _ h => h.journal)
        (fun _ _ h => h) fun _ _ => trivial) fun _ => Spec.ret _ fun _ h => h

namespace Sample

theorem replace_paths {p : Path} (on : OnPath replaceActions p) : p = a ∨ p = b := by
  obtain ⟨x, member, hp⟩ := on
  simp only [replaceActions, List.mem_cons, List.not_mem_nil, or_false] at member
  rcases member with rfl | rfl <;> simp_all [TransactionAction.paths]

theorem replace_separate : Separate workspace.tree replaceActions where
  original p on := by rcases replace_paths on with rfl | rfl <;> decide
  planned p q hp hq := by
    rcases replace_paths hp with rfl | rfl <;> rcases replace_paths hq with rfl | rfl <;> decide

/-- The disk right after the transaction directory was made. -/
def opened : View := (makeTxDir ⟨workspace.tree, none, ∅⟩).state

theorem opened_crash : CommitCrash engine unkeyed transaction replaceActions
    ⟨workspace.tree, none, ∅⟩ opened :=
  .unmarked (.passed (visited_bind_left (visited_handle (visited_bind_left
    (List.mem_singleton.mpr rfl)))))

end Sample

/-- A crash between a deletion and a creation does not block the journal. -/
theorem recovery_not_blocked_deleted :
    (recoverPending Sample.engine (crashed Sample.transaction Sample.deleted)).state.journal = ∅ :=
  ((recovery_not_blocked Sample.engine Sample.unkeyed Sample.transaction Sample.workspace ∅
    Sample.replacePlan Sample.replaceActions Sample.deleted (by decide)
    (.unmarked Sample.deleted_crash) (fun _ _ _ => .inl ⟨Sample.replace_separate,
      fun k path data mode hk _ => by
        rcases k with _ | _ | k
        · simp [Sample.replaceActions] at hk
        · simp only [Sample.replaceActions, List.getElem?_cons_succ, List.getElem?_cons_zero,
            Option.some.injEq, TransactionAction.createFile.injEq] at hk
          obtain ⟨rfl, -, -⟩ := hk
          decide
        · simp [Sample.replaceActions] at hk⟩)).mpr (.inr (by decide))).2

/-- A crash right after the transaction directory was made: the recovery raises, leaves the
directory, and a later commit of any kind raises with it. -/
theorem recovery_blocked_without_manifest :
    validatePlan Sample.workspace.tree false Sample.replacePlan = .ok Sample.replaceActions ∧
    CommitCrash Sample.engine Sample.unkeyed Sample.transaction Sample.replaceActions
      ⟨Sample.workspace.tree, none, ∅⟩ Sample.opened ∧
    (recoverPending Sample.engine (crashed Sample.transaction Sample.opened)).result =
      .error (.noManifest Sample.transaction) ∧
    (recoverPending Sample.engine (crashed Sample.transaction Sample.opened)).state.journal ≠ ∅ ∧
    (commit Sample.engine Sample.unkeyed "0002".toList Sample.replacePlan
      (crashed Sample.transaction Sample.opened)).result = .error (.noManifest Sample.transaction) := by
  refine ⟨by decide, Sample.opened_crash, by decide, fun empty => ?_, by decide⟩
  have found : ((recoverPending Sample.engine (crashed Sample.transaction
    Sample.opened)).state.journal.lookup Sample.transaction).isSome = true := by decide
  rw [empty] at found
  simp at found

end RepoForge
