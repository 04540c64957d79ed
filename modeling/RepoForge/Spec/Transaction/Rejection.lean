import RepoForge.Spec.Transaction.Recovery

/-!
# Rejections and faults

A plan is rejected by validation, with one of the errors `TransactionError.Rejects`, or it
fails later, with an error of another kind: nothing after validation raises a rejection
(`commitTransaction_faults`, `recoverPending_faults`). What an accepted plan is accepted as
depends on the plan alone (`validatePlan_unique`). A recovery that returns leaves no journal.
-/
namespace RepoForge

open Interruptible Interruptible.Proc

/-- The errors of `_validate_plan`. -/
def TransactionError.Rejects : TransactionError → Prop
  | .emptyPlan | .tooManyActions | .unsafePath _ | .writeTargetMissing _ _
  | .createTargetExists _ _ | .createModeInvalid _ | .deleteTargetMissing _ _ | .moveEndsEqual _
  | .moveSourceMissing _ _ | .moveDestinationExists _ _ | .targetNotRegular _ => True
  | .receiptNameUnsafe | .receiptExists | .receiptSize | .noManifest _ | .manifestSchema
  | .manifestWorkspace | .manifestPhase _ | .rollbackTargetNotRegular _ | .recoveryFailed _ _
  | .rollbackFailed _ _ | .os _ | .raised _ => False

section Validation

theorem normalize_rejects {raw : Text} {e : TransactionError} (h : normalize raw = .error e) :
    e.Rejects := by
  simp only [normalize] at h
  split at h
  · cases h
    trivial
  · cases h

theorem assertRegular_rejects {t : Tree} {p : Path} {e : TransactionError}
    (h : assertRegularIfPresent t p = .error e) : e.Rejects := by
  unfold assertRegularIfPresent at h
  split at h
  · cases h
    trivial
  · cases h

theorem validateAction_rejects {t : Tree} {index : Nat} {state : Virtual}
    {raw : TransactionAction Text} {e : TransactionError}
    (h : validateAction t index state raw = .error e) : e.Rejects := by
  cases raw with
  | writeFile rawPath data preserveMode =>
    rcases bind_error h with h | ⟨p, -, h⟩
    · exact normalize_rejects h
    split at h
    · cases h
      trivial
    · rcases bind_error h with h | ⟨_, -, h⟩
      · exact assertRegular_rejects h
      · cases h
  | createFile rawPath data mode =>
    rcases bind_error h with h | ⟨p, -, h⟩
    · exact normalize_rejects h
    split at h
    · cases h
      trivial
    · split at h
      · cases h
        trivial
      · cases h
  | deleteFile rawPath =>
    rcases bind_error h with h | ⟨p, -, h⟩
    · exact normalize_rejects h
    split at h
    · cases h
      trivial
    · rcases bind_error h with h | ⟨_, -, h⟩
      · exact assertRegular_rejects h
      · cases h
  | moveFile rawSource rawDestination =>
    rcases bind_error h with h | ⟨s, -, h⟩
    · exact normalize_rejects h
    rcases bind_error h with h | ⟨d, -, h⟩
    · exact normalize_rejects h
    split at h
    · cases h
      trivial
    · split at h
      · cases h
        trivial
      · split at h
        · cases h
          trivial
        · rcases bind_error h with h | ⟨_, -, h⟩
          · exact assertRegular_rejects h
          · cases h

theorem validateFrom_rejects {t : Tree} {e : TransactionError} :
    ∀ (plan : List (TransactionAction Text)) (index : Nat) (state : Virtual),
      validateFrom t index state plan = .error e → e.Rejects
  | [], _, _, h => by cases h
  | raw :: plan, index, state, h => by
    rcases bind_error h with h | ⟨⟨_, next⟩, -, h⟩
    · exact validateAction_rejects h
    rcases bind_error h with h | ⟨_, -, h⟩
    · exact validateFrom_rejects plan _ _ h
    · cases h

theorem validatePlan_rejects {t : Tree} {allowEmpty : Bool} {plan : List (TransactionAction Text)}
    {e : TransactionError} (h : validatePlan t allowEmpty plan = .error e) : e.Rejects := by
  unfold validatePlan at h
  split at h
  · cases h
    trivial
  · split at h
    · cases h
      trivial
    · exact validateFrom_rejects plan 0 ∅ h

/-- The normalised form of an action, where its paths have one. -/
def normalizeAction : TransactionAction Text → Except TransactionError (TransactionAction Path)
  | .writeFile raw data preserveMode => return .writeFile (← normalize raw) data preserveMode
  | .createFile raw data mode => return .createFile (← normalize raw) data mode
  | .deleteFile raw => return .deleteFile (← normalize raw)
  | .moveFile source destination => return .moveFile (← normalize source) (← normalize destination)

theorem validateAction_normalize {t : Tree} {index : Nat} {state next : Virtual}
    {raw : TransactionAction Text} {a : TransactionAction Path}
    (h : validateAction t index state raw = .ok (a, next)) : normalizeAction raw = .ok a := by
  cases raw with
  | writeFile rawPath data preserveMode =>
    obtain ⟨p, hp, h⟩ := bind_ok h
    split at h
    · cases h
    · obtain ⟨_, -, h⟩ := bind_ok h
      cases h
      simp [normalizeAction, hp]
  | createFile rawPath data mode =>
    obtain ⟨p, hp, h⟩ := bind_ok h
    split at h
    · cases h
    · split at h
      · cases h
      · cases h
        simp [normalizeAction, hp]
  | deleteFile rawPath =>
    obtain ⟨p, hp, h⟩ := bind_ok h
    split at h
    · cases h
    · obtain ⟨_, -, h⟩ := bind_ok h
      cases h
      simp [normalizeAction, hp]
  | moveFile rawSource rawDestination =>
    obtain ⟨s, hs, h⟩ := bind_ok h
    obtain ⟨d, hd, h⟩ := bind_ok h
    split at h
    · cases h
    · split at h
      · cases h
      · split at h
        · cases h
        · obtain ⟨_, -, h⟩ := bind_ok h
          cases h
          simp [normalizeAction, hs, hd]
          rfl

theorem validateFrom_normalize {t : Tree} :
    ∀ (plan : List (TransactionAction Text)) (actions : List (TransactionAction Path))
      (index : Nat) (state : Virtual), validateFrom t index state plan = .ok actions →
      plan.mapM normalizeAction = .ok actions
  | [], actions, _, _, h => by
    cases h
    rfl
  | raw :: plan, actions, index, state, h => by
    obtain ⟨⟨first, next⟩, hfirst, h⟩ := bind_ok h
    obtain ⟨others, hothers, h⟩ := bind_ok h
    cases h
    rw [List.mapM_cons, validateAction_normalize hfirst]
    change (plan.mapM normalizeAction >>= fun rest => pure (first :: rest)) = _
    rw [validateFrom_normalize plan others _ _ hothers]
    rfl

/-- The tree decides whether a plan is accepted, not what it is accepted as. -/
theorem validatePlan_unique {t u : Tree} {allowEmpty : Bool} {plan : List (TransactionAction Text)}
    {actions others : List (TransactionAction Path)}
    (here : validatePlan t allowEmpty plan = .ok actions)
    (there : validatePlan u allowEmpty plan = .ok others) : others = actions := by
  have normal : ∀ {t : Tree} {actions}, validatePlan t allowEmpty plan = .ok actions →
      plan.mapM normalizeAction = .ok actions := by
    intro t actions h
    unfold validatePlan at h
    split at h
    · cases h
    · split at h
      · cases h
      · exact validateFrom_normalize plan actions 0 ∅ h
  have same := (normal there).symm.trans (normal here)
  cases same
  rfl

end Validation

section Faults

/-- The procedure never raises an error of validation. -/
abbrev Faults {σ α : Type} (body : Proc σ TransactionError α) : Prop :=
  Spec (fun _ => True) body (fun _ _ => True) (fun e _ => ¬ e.Rejects) (fun _ => True)

variable {σ α : Type}

theorem Faults.check {look : σ → Except TransactionError α}
    (os : ∀ s e, look s = .error e → ¬ e.Rejects) : Faults (Proc.check look) :=
  Spec.check (fun _ _ _ _ => trivial) fun s _ e h => os s e h

theorem Faults.step {change : σ → Except TransactionError σ}
    (os : ∀ s e, change s = .error e → ¬ e.Rejects) : Faults (Proc.step change) :=
  Spec.step (fun _ _ _ _ => ⟨trivial, trivial⟩) fun s _ e h => os s e h

theorem Faults.inspect {look : σ → α} : Faults (Proc.inspect look) := Spec.inspect fun _ _ => trivial

theorem Faults.ret {value : α} : Faults (pure value : Proc σ TransactionError α) :=
  Spec.ret value fun _ _ => trivial

theorem onTree_faults (change : Tree → Except OsError Tree) :
    Faults (Proc.step (View.onTree change)) := by
  refine Faults.step fun v e h => ?_
  unfold View.onTree at h
  split at h
  · cases h
  · cases h
    exact not_false

theorem onTx_faults (change : TxDir → Except OsError TxDir) :
    Faults (Proc.step (View.onTx change)) := by
  refine Faults.step fun v e h => ?_
  unfold View.onTx at h
  split at h
  · cases h
    exact not_false
  · split at h
    · cases h
    · cases h
      exact not_false

theorem stash_faults (p : Path) (s : Slot) : Faults (Proc.step (View.stash p s)) := by
  refine Faults.step fun v e h => ?_
  unfold View.stash at h
  split at h <;> cases h <;> exact not_false

theorem unstash_faults (s : Slot) (p : Path) : Faults (Proc.step (View.unstash s p)) := by
  refine Faults.step fun v e h => ?_
  unfold View.unstash at h
  repeat' split at h
  all_goals cases h
  all_goals exact not_false

theorem copyMode_faults (p : Path) (s : Slot) : Faults (Proc.step (View.copyMode p s)) := by
  refine Faults.step fun v e h => ?_
  unfold View.copyMode at h
  repeat' split at h
  all_goals cases h
  all_goals exact not_false

theorem fsyncDir_faults (p : Path) : Faults (fsyncDir p) := by
  refine Faults.check fun v e h => ?_
  split at h
  · cases h
  · cases h
    exact not_false

theorem makeDirs_faults : ∀ dirs, Faults (makeDirs dirs)
  | [] => Faults.ret
  | p :: rest => Spec.bind (onTree_faults fun t => t.mkdir p) fun _ => makeDirs_faults rest

theorem ensureParent_faults (p : Path) : Faults (ensureParent p) := by
  refine Spec.bind Faults.inspect fun t => ?_
  split
  · exact Spec.raise _ fun _ _ => not_false
  · split
    · exact Spec.raise _ fun _ _ => not_false
    · exact Spec.bind (makeDirs_faults _) fun _ => fsyncDir_faults _

theorem writeStaged_faults (s : Slot) (data : Bytes) (mode : Nat) :
    Faults (writeStaged s data mode) :=
  Spec.bind (onTx_faults _) fun _ => Spec.bind (onTx_faults _) fun _ => onTx_faults _

theorem stageFrom_faults : ∀ i actions, Faults (stageFrom i actions)
  | _, [] => Faults.ret
  | i, a :: rest => by
    refine Spec.bind ?_ fun _ => stageFrom_faults (i + 1) rest
    cases a with
    | writeFile path data preserveMode => exact writeStaged_faults _ _ _
    | createFile path data mode => exact writeStaged_faults _ _ _
    | deleteFile path => exact Faults.ret
    | moveFile source destination => exact Faults.ret

theorem writeManifest_faults (m : Manifest) : Faults (writeManifest m) :=
  Spec.bind (onTx_faults _) fun _ => onTx_faults _

theorem prepare_faults (E : Engine) (id : Text) (actions : List (TransactionAction Path)) :
    Faults (prepare E id actions) := by
  refine Spec.bind (Faults.step fun v e h => ?_) fun _ => Spec.bind (stageFrom_faults 0 actions)
    fun _ => Spec.bind Faults.inspect fun t => Spec.bind (writeManifest_faults _) fun _ => Faults.ret
  split at h
  · cases h
    exact not_false
  · cases h

theorem applyAction_faults (i : Nat) (a : TransactionAction Path) : Faults (applyAction i a) := by
  cases a with
  | writeFile path data preserveMode =>
    refine Spec.bind (ensureParent_faults _) fun _ => Spec.bind ?_ fun _ =>
      Spec.bind (stash_faults _ _) fun _ => Spec.bind (fsyncDir_faults _) fun _ =>
        Spec.bind (unstash_faults _ _) fun _ => fsyncDir_faults _
    cases preserveMode with
    | true => exact copyMode_faults _ _
    | false => exact Faults.ret
  | createFile path data mode =>
    exact Spec.bind (ensureParent_faults _) fun _ => Spec.bind (unstash_faults _ _) fun _ =>
      fsyncDir_faults _
  | deleteFile path => exact Spec.bind (stash_faults _ _) fun _ => fsyncDir_faults _
  | moveFile source destination =>
    exact Spec.bind (ensureParent_faults _) fun _ => Spec.bind (onTree_faults _) fun _ =>
      Spec.bind (fsyncDir_faults _) fun _ => fsyncDir_faults _

theorem applyFrom_faults : ∀ i actions, Faults (applyFrom i actions)
  | _, [] => Faults.ret
  | i, a :: rest => Spec.bind (applyAction_faults i a) fun _ => applyFrom_faults (i + 1) rest

theorem callback_faults {result : Except String α} {e : TransactionError}
    (h : callback result = .error e) : ¬ e.Rejects := by
  cases result with
  | ok value => cases h
  | error message =>
    cases h
    exact not_false

theorem stageCommitReceipt_faults (o : CommitOptions) (id : Text)
    (actions : List (TransactionAction Path)) : Faults (stageCommitReceipt o id actions) := by
  refine Spec.bind (Faults.check fun _ _ h => callback_faults h) fun _ => ?_
  split
  · exact Faults.ret
  · refine Spec.bind (Faults.check fun _ _ h => callback_faults h) ?_
    rintro ⟨name, payload⟩
    refine Spec.bind (Spec.bind (Faults.check fun v e h => ?_) fun _ => writeStaged_faults _ _ _)
      fun _ => Faults.ret
    repeat' split at h
    all_goals cases h
    all_goals exact not_false

theorem publishReceipt_faults (m : Manifest) : Faults (publishReceipt m) := by
  unfold publishReceipt
  split
  · exact Faults.ret
  · refine Spec.bind (writeManifest_faults m) fun _ => Faults.step fun v e h => ?_
    repeat' split at h
    all_goals cases h
    all_goals exact not_false

theorem purge_faults (E : Engine) : Faults (purge E) := by
  have entries : ∀ l, Faults (removeEntries l) := by
    intro l
    induction l with
    | nil => exact Faults.ret
    | cons e rest ih => exact Spec.bind (onTx_faults _) fun _ => ih
  refine Spec.bind (Faults.check fun v e h => ?_) fun d => Spec.bind (entries _) fun _ =>
    Faults.step fun _ _ h => by cases h
  split at h
  · cases h
    exact not_false
  · cases h

/-- The handler raises what it caught, or a failure of its own that names it. -/
theorem rollbackAndRaise_faults (E : Engine) (m : Manifest) {e : TransactionError}
    (fault : ¬ e.Rejects) : Faults (rollbackAndRaise (α := α) E m e) := by
  have quiet : Faults (handle (rollback E m) fun failure => raise (.rollbackFailed e failure)) :=
    Spec.handle (E := fun _ _ => True)
      ⟨fun _ _ _ _ => trivial, fun _ _ _ _ => trivial, fun _ _ _ _ => trivial⟩
      fun _ => Spec.raise _ fun _ _ => not_false
  exact Spec.bind quiet fun _ => Spec.raise _ fun _ _ => fault

theorem handled_faults {body : Step α} (E : Engine) (m : Manifest) (faults : Faults body) :
    Faults (handle body (rollbackAndRaise E m)) := by
  refine Spec.handle faults fun e => Spec.pointwise fun v fault => ?_
  exact (rollbackAndRaise_faults E m fault).weaken (fun _ _ => trivial) (fun _ _ h => h)
    (fun _ _ h => h) fun _ h => h

theorem commitTransaction_faults (E : Engine) (o : CommitOptions) (id : Text)
    (actions : List (TransactionAction Path)) : Faults (commitTransaction E o id actions) := by
  refine Spec.bind (Q := fun _ _ => True) ?_ fun m => Spec.bind (handled_faults E m
    (Spec.bind (onTx_faults _) fun _ => purge_faults E)) fun _ => Faults.ret
  refine Spec.bind (Q := fun _ _ => True) (Spec.handle (prepare_faults E id actions) fun e =>
    Spec.pointwise fun v fault => ?_) fun m => ?_
  · refine Spec.bind (Q := fun _ _ => True) ?_ fun _ => Spec.raise _ fun _ _ => fault
    refine Spec.bind (Q := fun _ _ => True) (Spec.inspect fun _ _ => trivial) fun there => ?_
    split
    · exact purge_faults E
    · exact Faults.ret
  · refine Spec.bind (handled_faults E m (Spec.bind (applyFrom_faults 0 actions) fun _ =>
      stageCommitReceipt_faults o id actions)) fun name => ?_
    exact Spec.bind (handled_faults E _ (Spec.bind (publishReceipt_faults _) fun _ =>
      onTx_faults _)) fun _ => Faults.ret

theorem recoverTransaction_faults (E : Engine) (id : Text) : Faults (recoverTransaction E id) := by
  refine Spec.bind Faults.inspect fun found => ?_
  split
  · exact Spec.raise _ fun _ _ => not_false
  · refine Spec.bind (Faults.check fun v e h => ?_) fun m => ?_
    · unfold readManifest at h
      repeat' split at h
      all_goals cases h
      all_goals exact not_false
    · split
      · exact Spec.bind (purge_faults E) fun _ => Faults.ret
      · refine Spec.bind (Spec.handle (E := fun _ _ => True)
          ⟨fun _ _ _ _ => trivial, fun _ _ _ _ => trivial, fun _ _ _ _ => trivial⟩
          fun _ => Spec.raise _ fun _ _ => not_false) fun _ => Faults.ret
      · exact Spec.raise _ fun _ _ => not_false

theorem inTransaction_faults {id : Text} {body : Step α} (faults : Faults body) :
    Faults (World.inTransaction id body) :=
  ⟨fun _ _ _ _ => trivial, fun _ _ _ _ => trivial,
    fun w _ e h => faults.raises (w.view id) trivial e h⟩

theorem recoverEach_faults (E : Engine) : ∀ ids report, Faults (recoverEach E ids report)
  | [], _ => Faults.ret
  | id :: rest, report => by
    refine Spec.bind Faults.inspect fun there => ?_
    split
    · exact Spec.bind (inTransaction_faults (recoverTransaction_faults E id)) fun outcome =>
        recoverEach_faults E rest _
    · exact recoverEach_faults E rest _

theorem recoverPending_faults (E : Engine) : Faults (recoverPending E) :=
  Spec.bind Faults.inspect fun ids => recoverEach_faults E ids _

end Faults

section Cleared

theorem purge_returns (E : Engine) :
    Spec (fun _ => True) (purge E) (fun _ w => w.tx = none) (fun _ _ => True) (fun _ => True) := by
  have entries : ∀ l, Spec (fun _ => True) (removeEntries l) (fun _ _ => True) (fun _ _ => True)
      (fun _ => True) := fun l =>
    ⟨fun _ _ _ _ => trivial, fun _ _ _ _ => trivial, fun _ _ _ _ => trivial⟩
  refine Spec.bind (Q := fun _ _ => True) (Spec.check (fun _ _ _ _ => trivial) fun _ _ _ _ => trivial)
    fun d => Spec.bind (entries _) fun _ => Spec.step ?_ fun _ _ _ _ => trivial
  intro v _ w hw
  cases hw
  exact ⟨trivial, rfl⟩

/-- A recovery that returns has deleted the transaction directory. -/
theorem recoverTransaction_returns (E : Engine) (id : Text) :
    Spec (fun _ => True) (recoverTransaction E id) (fun _ w => w.tx = none) (fun _ _ => True)
      (fun _ => True) := by
  have anything : ∀ {α : Type} (body : Step α), Spec (fun _ => True) body (fun _ _ => True)
      (fun _ _ => True) (fun _ => True) := fun body =>
    ⟨fun _ _ _ _ => trivial, fun _ _ _ _ => trivial, fun _ _ _ _ => trivial⟩
  refine Spec.bind (anything _) fun found => ?_
  split
  · exact Spec.raise _ fun _ _ => trivial
  · refine Spec.bind (anything _) fun m => ?_
    split
    · exact Spec.bind (purge_returns E) fun _ => Spec.ret _ fun _ h => h
    · refine Spec.bind (Spec.handle (Spec.bind (anything _) fun _ => Spec.bind (anything _) fun _ =>
        Spec.bind (anything _) fun _ => purge_returns E) fun _ => Spec.raise _ fun _ _ => trivial)
        fun _ => Spec.ret _ fun _ h => h
    · exact Spec.raise _ fun _ _ => trivial

theorem journal_empty {w : World} (none : ∀ id, id ∉ w.journal) : w.journal = ∅ := by
  apply AList.ext
  refine List.eq_nil_iff_forall_not_mem.mpr fun entry member => none entry.1 ?_
  exact AList.mem_keys.mpr (List.mem_map_of_mem member)

theorem recoverEach_clears (E : Engine) : ∀ ids report,
    Spec (fun w : World => ∀ id ∈ w.journal, id ∈ ids) (recoverEach E ids report)
      (fun _ w => w.journal = ∅) (fun _ _ => True) (fun _ => True)
  | [], _ => Spec.ret _ fun w h => journal_empty fun id member => by simpa using h id member
  | id :: rest, report => by
    refine Spec.bind (Q := fun there w => (w.journal.lookup id).isSome = there ∧
      ∀ other ∈ w.journal, other ∈ id :: rest) (Spec.inspect fun w h => ⟨rfl, h⟩) fun there => ?_
    split
    · refine Spec.bind (Q := fun _ w => ∀ other ∈ w.journal, other ∈ rest)
        ⟨fun _ _ _ _ => trivial, ?_, fun _ _ _ _ => trivial⟩ fun _ => recoverEach_clears E rest _
      rintro w ⟨-, listed⟩ outcome returned other member
      have gone := (recoverTransaction_returns E id).returns (w.view id) trivial outcome returned
      simp only [World.inTransaction, zoom, World.update, gone, AList.mem_erase] at member
      exact List.mem_of_ne_of_mem member.1 (listed other member.2)
    · rename_i absent
      refine (recoverEach_clears E rest report).weaken ?_ (fun _ _ h => h) (fun _ _ h => h)
        fun _ h => h
      rintro w ⟨found, listed⟩ other member
      refine List.mem_of_ne_of_mem ?_ (listed other member)
      rintro rfl
      exact absent (found ▸ AList.lookup_isSome.mpr member)

/-- A recovery that returns leaves an empty journal. -/
theorem recoverPending_clears (E : Engine) :
    Spec (fun _ => True) (recoverPending E) (fun _ w => w.journal = ∅) (fun _ _ => True)
      (fun _ => True) := by
  refine Spec.bind (Q := fun ids w => ∀ id ∈ w.journal, id ∈ ids) (Spec.inspect fun w _ id member =>
    ?_) fun ids => recoverEach_clears E ids _
  exact (List.mem_insertionSort _).mpr (AList.mem_keys.mp member)

end Cleared

end RepoForge
