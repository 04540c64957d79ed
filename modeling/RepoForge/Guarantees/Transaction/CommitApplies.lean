import RepoForge.Guarantees.Transaction.Reentry

/-!
# A commit that returns has applied its plan

Nothing was pending, and the plan was accepted: then the files afterwards are those that the plan
means, the other files are as they were, and the journal is empty again.
-/
namespace RepoForge

open Interruptible Interruptible.Proc

/-- No action touches a path that it does not name. -/
theorem TransactionAction.effect_of_other {a : TransactionAction Path} {files : FileMap} {p : Path}
    (other : p ∉ a.paths) : a.effect files p = files p := by
  cases a with
  | moveFile source destination =>
    simp only [paths, List.mem_cons, List.not_mem_nil, or_false, not_or] at other
    simp [effect, other.1, other.2]
  | _ =>
    simp only [paths, List.mem_singleton] at other
    simp [effect, other]

theorem levelFiles_of_other {T : Tree} {actions : List (TransactionAction Path)} {p : Path}
    (other : ∀ a ∈ actions, p ∉ a.paths) (n : Nat) : levelFiles T actions n p = T.fileAt p := by
  unfold levelFiles
  have left : ∀ a ∈ actions.take n, p ∉ a.paths := fun a here => other a (List.mem_of_mem_take here)
  generalize T.fileAt = files
  generalize actions.take n = taken at left
  induction taken generalizing files with
  | nil => rfl
  | cons a rest ih =>
    rw [List.foldl_cons, ih _ fun b here => left b (List.mem_cons_of_mem _ here),
      TransactionAction.effect_of_other (left a (List.mem_cons_self ..))]

/-- What a commit comes to. The directories that it made are those above a path that it wrote. -/
structure Applied (o : CommitOptions) (id : Text) (T : Tree)
    (actions : List (TransactionAction Path)) (R : AList fun _ : Text => Bytes) (w : World) :
    Prop where
  files : ∀ p, w.tree.fileAt p = levelFiles T actions actions.length p
  others : ∀ p, (∀ a ∈ actions, p ∉ a.paths) → w.tree.fileAt p = T.fileAt p
  grown : ∀ p, T.IsDir p → w.tree.IsDir p
  created : ∀ p, w.tree.IsDir p → T.IsDir p ∨ Ancestor actions p
  wellFormed : w.tree.WellFormed
  settled : w.journal = ∅
  receipts : (o.commitReceiptFactory = none ∧ w.receipts = R) ∨ ∃ name payload,
    name ∉ R ∧ Asked o id actions w.tree name payload ∧ w.receipts = R.insert name payload

/-- The steps of a transaction, where it returns. -/
theorem commitTransaction_spec (E : Engine) (o : CommitOptions) (id : Text) {T : Tree}
    {actions : List (TransactionAction Path)} {R : AList fun _ : Text => Bytes}
    (wf : T.WellFormed) (enabled : EnabledPlan T actions) :
    Spec (· = (⟨T, none, R⟩ : View)) (commitTransaction E o id actions)
      (fun receipt v => receipt = ⟨id, changedPaths actions⟩ ∧ v.tx = none ∧
        Applied o id T actions R (crashed id v))
      (fun _ _ => True) (fun _ => True) := by
  refine Spec.bind (untilMarker_returns wf enabled) fun m => Spec.pointwise fun v marked => ?_
  obtain ⟨name, v₁, -, last, published⟩ := marked
  refine Spec.bind (Q := fun _ w => Marked m v w ∧ w.tx = none) (Spec.handle (E := fun _ _ => True)
    ((finish_spec E m published.journal).weaken (fun _ h => h) (fun _ _ h => h)
      (fun _ _ _ => trivial) fun _ _ => trivial) fun e => rollbackAndRaise_raises E m e) fun _ => ?_
  refine Spec.ret _ fun w after => ⟨rfl, after.2, ?_⟩
  obtain ⟨marked, idle⟩ := after
  have tree : (crashed id w).tree = v₁.tree := marked.tree.trans published.tree
  have level := last.level
  constructor
  · rw [tree]
    exact level.files
  · intro p other
    rw [tree, level.files]
    exact levelFiles_of_other other _
  · rw [tree]
    exact level.grown
  · rw [tree]
    exact level.created
  · rw [tree]
    exact level.wellFormed
  · exact World.crashed_journal_none idle
  · rw [tree]
    cases name with
    | none =>
      obtain ⟨unasked, same⟩ := published.unkeyed rfl
      exact .inl ⟨unasked, marked.receipts.trans (same.trans last.receipts)⟩
    | some n =>
      obtain ⟨-, fresh, payload, asked, same⟩ := published.keyed n rfl
      rw [last.receipts] at fresh same
      exact .inr ⟨n, payload, fresh, asked, marked.receipts.trans same⟩

theorem commit_applies (E : Engine) (o : CommitOptions) (id : Text) (W : Workspace)
    (R : AList fun _ : Text => Bytes) (plan : List (TransactionAction Text))
    (actions : List (TransactionAction Path)) (receipt : TransactionReceipt)
    (accepted : validatePlan W.tree o.commitReceiptFactory.isSome plan = .ok actions)
    (returned : (commit E o id plan ⟨W.tree, ∅, R⟩).result = .ok receipt) :
    receipt = ⟨id, changedPaths actions⟩ ∧
      Applied o id W.tree actions R (commit E o id plan ⟨W.tree, ∅, R⟩).state := by
  have clean : (⟨W.tree, ∅, R⟩ : World) = crashed id ⟨W.tree, none, R⟩ := rfl
  have run : commit E o id plan ⟨W.tree, ∅, R⟩ =
      World.inTransaction id (commitTransaction E o id actions) ⟨W.tree, ∅, R⟩ := by
    rw [commit_accepted accepted, bind_run (by rw [recoverPending_clean E rfl]; rfl),
      recoverPending_clean E rfl]
    simp [pure, Proc.ret]
  rw [run, clean, World.inTransaction_crashed] at returned ⊢
  obtain ⟨same, -, applied⟩ := (commitTransaction_spec E o id W.wellFormed
    (validatePlan_enabled accepted)).returns _ rfl receipt returned
  exact ⟨same, applied⟩

theorem commit_applies_replaced :
    (commit Sample.engine Sample.unkeyed Sample.transaction Sample.replacePlan
      ⟨Sample.workspace.tree, ∅, ∅⟩).state.tree.fileAt Sample.b = some ⟨[2], 0o644⟩ := by
  obtain ⟨-, applied⟩ := commit_applies Sample.engine Sample.unkeyed Sample.transaction
    Sample.workspace ∅ Sample.replacePlan Sample.replaceActions
    ⟨Sample.transaction, changedPaths Sample.replaceActions⟩ (by decide) (by decide +kernel)
  rw [applied.files]
  decide

end RepoForge
