import RepoForge.Spec.Transaction.Phases

/-!
# A crash and the recovery after it

`crashed id v` is the disk that a crash of transaction `id` leaves: the journal holds this
transaction directory, if any, and no other. On such a disk `recoverPending` is
`recoverTransaction` on that directory.
-/
namespace RepoForge

open Interruptible Interruptible.Proc

/-- The disk with one transaction directory, or none. -/
def crashed (id : Text) (v : View) : World := World.update id ⟨v.tree, ∅, v.receipts⟩ v

namespace World

variable {id : Text} {v w : View}

theorem erase_empty (id : Text) : (∅ : AList fun _ : Text => TxDir).erase id = ∅ := rfl

theorem erase_single (id : Text) (d : TxDir) :
    ((∅ : AList fun _ : Text => TxDir).insert id d).erase id = ∅ := by
  apply AList.ext
  exact List.kerase_cons_eq rfl

theorem crashed_journal_none (h : v.tx = none) : (crashed id v).journal = ∅ := by
  simp [crashed, update, h, erase_empty]

theorem crashed_journal_some {d : TxDir} (h : v.tx = some d) :
    (crashed id v).journal = (∅ : AList fun _ : Text => TxDir).insert id d := by
  simp [crashed, update, h]

theorem crashed_view (id : Text) (v : View) : (crashed id v).view id = v := by
  cases h : v.tx with
  | none =>
    rw [view, crashed_journal_none h]
    cases v
    simp_all [crashed, update]
  | some d =>
    rw [view, crashed_journal_some h, AList.lookup_insert]
    cases v
    simp_all [crashed, update]

theorem update_crashed (id : Text) (v w : View) : (crashed id v).update id w = crashed id w := by
  cases hv : v.tx with
  | none =>
    rw [update, crashed_journal_none hv]
    rfl
  | some d =>
    rw [update, crashed_journal_some hv]
    cases hw : w.tx with
    | none =>
      rw [erase_single]
      simp [crashed, update, hw, erase_empty]
    | some e =>
      simp only [crashed, update, hw]
      rw [AList.insert_insert]

/-- A transaction runs on its own directory. -/
theorem inTransaction_crashed {α : Type} (id : Text) (body : Step α) (v : View) :
    inTransaction id body (crashed id v) =
      ⟨(body v).visited.map (crashed id), crashed id (body v).state, (body v).result⟩ := by
  simp only [inTransaction, zoom, crashed_view, update_crashed]
  congr 1
  exact List.map_congr_left fun w _ => update_crashed id v w

theorem inTransaction_spec {α : Type} {P C : View → Prop} {Q : α → View → Prop}
    {F : TransactionError → View → Prop} {body : Step α} (spec : Spec P body Q F C) (start : P v) :
    Spec (· = crashed id v) (inTransaction id body) (fun value w => ∃ u, w = crashed id u ∧ Q value u)
      (fun e w => ∃ u, w = crashed id u ∧ F e u) (fun w => ∃ u, w = crashed id u ∧ C u) := by
  have run := inTransaction_crashed id body v
  refine ⟨?_, ?_, ?_⟩
  · rintro _ rfl w visited
    rw [run] at visited
    obtain ⟨u, hu, rfl⟩ := List.mem_map.mp visited
    exact ⟨u, rfl, spec.visits v start u hu⟩
  · rintro _ rfl value ok
    rw [run] at ok ⊢
    exact ⟨_, rfl, spec.returns v start value ok⟩
  · rintro _ rfl e failed
    rw [run] at failed ⊢
    exact ⟨_, rfl, spec.raises v start e failed⟩

/-- A disk without a journal does not remember a transaction. -/
theorem crashed_idle {id' : Text} (idle : v.tx = none) : crashed id' v = crashed id v := by
  simp [crashed, update, idle, erase_empty]

end World

variable (E : Engine) {id : Text} {v : View}

/-- Nothing to recover. -/
theorem recoverPending_clean {w : World} (clean : w.journal = ∅) :
    recoverPending E w = (pure ⟨0, 0⟩ : Proc World TransactionError RecoveryReport) w := by
  have ids : (inspect fun w : World => w.journal.keys.insertionSort fun a b => a ≤ b) w =
      (⟨[], w, .ok []⟩ : Outcome World TransactionError (List Text)) := by
    simp [inspect, clean]
  rw [recoverPending, bind_run (by rw [ids])]
  simp [ids, recoverEach, pure, Proc.ret]

/-- One pending transaction. -/
theorem recoverPending_crashed (there : v.tx ≠ none) :
    recoverPending E (crashed id v) =
      ⟨(recoverTransaction E id v).visited.map (crashed id),
        crashed id (recoverTransaction E id v).state,
        (recoverTransaction E id v).result.map (RecoveryReport.count ⟨0, 0⟩)⟩ := by
  obtain ⟨d, tx⟩ := Option.ne_none_iff_exists'.mp there
  have ids : (inspect fun w : World => w.journal.keys.insertionSort fun a b => a ≤ b)
      (crashed id v) =
      (⟨[], crashed id v, .ok [id]⟩ : Outcome World TransactionError (List Text)) := by
    simp [inspect, World.crashed_journal_some tx]
  have found : (inspect fun w : World => (w.journal.lookup id).isSome) (crashed id v) =
      (⟨[], crashed id v, .ok true⟩ : Outcome World TransactionError Bool) := by
    rw [inspect, World.crashed_journal_some tx, AList.lookup_insert]
    rfl
  have run := World.inTransaction_crashed id (recoverTransaction E id) v
  rw [recoverPending, bind_run (by rw [ids])]
  simp only [ids, List.nil_append]
  rw [recoverEach, bind_run (by rw [found])]
  simp only [found, List.nil_append, if_true]
  cases hr : (recoverTransaction E id v).result with
  | ok outcome =>
    rw [bind_run (by rw [run, hr])]
    simp [run, recoverEach, pure, Proc.ret, Except.map]
  | error e =>
    rw [bind_run_error (by rw [run, hr])]
    simp [run, Except.map]

/-- A specification of the recovery of one transaction is one of `recoverPending`. -/
theorem recoverPending_spec {P C : View → Prop} {Q : Recovered → View → Prop}
    {F : TransactionError → View → Prop} (spec : Spec P (recoverTransaction E id) Q F C)
    (start : P v) (there : v.tx ≠ none) :
    Spec (· = crashed id v) (recoverPending E)
      (fun report w => ∃ outcome u, report = RecoveryReport.count ⟨0, 0⟩ outcome ∧
        w = crashed id u ∧ Q outcome u)
      (fun e w => ∃ u, w = crashed id u ∧ F e u) (fun w => ∃ u, w = crashed id u ∧ C u) := by
  have run : recoverPending E (crashed id v) = _ := recoverPending_crashed E there
  refine ⟨?_, ?_, ?_⟩
  · rintro _ rfl w visited
    rw [run] at visited
    obtain ⟨u, hu, rfl⟩ := List.mem_map.mp visited
    exact ⟨u, rfl, spec.visits v start u hu⟩
  · rintro _ rfl report ok
    rw [run] at ok ⊢
    cases hr : (recoverTransaction E id v).result with
    | error e => simp [hr, Except.map] at ok
    | ok outcome =>
      simp only [hr, Except.map, Except.ok.injEq] at ok
      exact ⟨outcome, _, ok.symm, rfl, spec.returns v start outcome hr⟩
  · rintro _ rfl e failed
    rw [run] at failed ⊢
    cases hr : (recoverTransaction E id v).result with
    | error e' =>
      simp only [hr, Except.map, Except.error.injEq] at failed
      exact ⟨_, rfl, failed ▸ spec.raises v start e' hr⟩
    | ok outcome => simp [hr, Except.map] at failed

/-- The manifests this engine writes pass its own checks. -/
theorem readManifest_prepared {T : Tree} {actions : List (TransactionAction Path)}
    {phase : Phase} {name : Option Text} (safe : ∀ n, name = some n → safeReceiptName n = true) :
    readManifest E { preparedManifest E id T actions with phase := phase, commitReceipt := name } =
      .ok { preparedManifest E id T actions with phase := phase, commitReceipt := name } := by
  cases name with
  | none => simp [readManifest, preparedManifest]
  | some n => simp [readManifest, preparedManifest, safe n rfl]

section Transaction

variable {m : Manifest}

theorem manifest_found (manifest : v.manifest = some m) :
    (inspect fun v : View => v.tx.bind TxDir.manifest) v =
      (⟨[], v, .ok (some m)⟩ : Outcome View TransactionError (Option Manifest)) := by
  rw [inspect, show v.tx.bind TxDir.manifest = some m from manifest]

theorem recoverTransaction_unprepared (id : Text) (manifest : v.manifest = none) :
    recoverTransaction E id v = raise (.noManifest id) v := by
  have found : (inspect fun v : View => v.tx.bind TxDir.manifest) v =
      (⟨[], v, .ok none⟩ : Outcome View TransactionError (Option Manifest)) := by
    rw [inspect, show v.tx.bind TxDir.manifest = none from manifest]
  rw [recoverTransaction, bind_run (by rw [found])]
  simp [found, Proc.raise]

theorem recoverTransaction_prepared (id : Text) (manifest : v.manifest = some m)
    (read : readManifest E m = .ok m) (phase : m.phase = .prepared) :
    recoverTransaction E id v =
      (handle (rollback E m) (fun cause => raise (.recoveryFailed id cause)) >>= fun _ =>
        pure Recovered.rolledBack) v := by
  rw [recoverTransaction, bind_run (by rw [manifest_found manifest])]
  simp only [manifest_found manifest, List.nil_append]
  rw [bind_run (by rw [check, read])]
  simp only [check, List.nil_append, phase]

theorem recoverTransaction_committed (id : Text) (manifest : v.manifest = some m)
    (read : readManifest E m = .ok m) (phase : m.phase = .committed) :
    recoverTransaction E id v = (purge E >>= fun _ => pure Recovered.finalized) v := by
  rw [recoverTransaction, bind_run (by rw [manifest_found manifest])]
  simp only [manifest_found manifest, List.nil_append]
  rw [bind_run (by rw [check, read])]
  simp only [check, List.nil_append, phase]

end Transaction

end RepoForge

/-!
# The marker, and what a rollback leaves alone

`untilMarker_returns` describes the disk when the committed manifest is about to be put in
place. `rollback_frame` is the frame rule of a rollback from any disk: it changes the tree,
takes saved copies out of the journal, removes the receipt and deletes the journal, so a
property that survives these survives it.
-/
namespace RepoForge

open Interruptible Interruptible.Proc

/-- Handlers of `commit` raise again. -/
theorem rollbackAndRaise_raises {α : Type} (E : Engine) (m : Manifest) (e : TransactionError)
    {P : View → Prop} {Q : α → View → Prop} :
    Spec P (rollbackAndRaise E m e : Step α) Q (fun _ _ => True) (fun _ => True) := by
  have any : Spec P (handle (rollback E m) fun failure => raise (.rollbackFailed e failure))
      (fun _ _ => True) (fun _ _ => True) (fun _ => True) :=
    ⟨fun _ _ _ _ => trivial, fun _ _ _ _ => trivial, fun _ _ _ _ => trivial⟩
  exact Spec.bind any fun _ => Spec.raise _ fun _ _ => trivial

/-- The disk just before the marker: every action is applied, and the receipt, if one was
asked for, is published. -/
theorem untilMarker_returns {E : Engine} {o : CommitOptions} {id : Text} {T : Tree}
    {actions : List (TransactionAction Path)} {R : AList fun _ : Text => Bytes}
    (wf : T.WellFormed) (enabled : EnabledPlan T actions) :
    Spec (· = (⟨T, none, R⟩ : View)) (untilMarker E o id actions)
      (fun m v => ∃ name v₁, m = { preparedManifest E id T actions with commitReceipt := name } ∧
        Ready T actions (some (preparedManifest E id T actions)) R actions.length v₁ ∧
        ReceiptPublished o id actions (preparedManifest E id T actions) v₁ name v)
      (fun _ _ => True) (fun _ => True) := by
  refine Spec.bind (Q := fun m v => m = preparedManifest E id T actions ∧
    Ready T actions (some m) R 0 v) (Spec.handle (E := fun _ _ => True)
      ((prepare_spec E id wf).weaken (fun _ h => h) (fun _ _ h => h) (fun _ _ _ => trivial)
        fun _ _ => trivial) fun e => ?_) fun m => Spec.pointwise ?_
  · have any : Spec (fun _ => True) (removeUnprepared E) (fun _ _ => True) (fun _ _ => True)
        (fun _ => True) := ⟨fun _ _ _ _ => trivial, fun _ _ _ _ => trivial, fun _ _ _ _ => trivial⟩
    exact Spec.bind any fun _ => Spec.raise _ fun _ _ => trivial
  rintro v₀ ⟨rfl, ready⟩
  refine Spec.bind (Q := fun name v => ∃ v₁,
      Ready T actions (some (preparedManifest E id T actions)) R actions.length v₁ ∧
      ReceiptStaged o id actions (preparedManifest E id T actions) v₁ name v) (Spec.handle
    (E := fun _ _ => True) ?_ fun e => rollbackAndRaise_raises E _ e)
    fun name => Spec.pointwise ?_
  · refine Spec.bind ((applyFrom_spec enabled actions 0 rfl (by omega)).weaken (by
      rintro v rfl; exact ready) (fun _ _ h => h) (fun _ _ _ => trivial) fun _ _ => trivial)
      fun _ => Spec.pointwise fun v₁ last => ?_
    exact (stageCommitReceipt_spec last.manifest last.level.journal).weaken (fun _ h => h)
      (fun name v h => ⟨v₁, last, h⟩) (fun _ _ _ => trivial) fun _ _ => trivial
  · rintro v ⟨v₁, last, staged⟩
    refine Spec.bind (Q := fun _ v => ReceiptPublished o id actions (preparedManifest E id T actions)
      v₁ name v) (Spec.handle (E := fun _ _ => True) ?_ fun e => rollbackAndRaise_raises E _ e)
      fun _ => Spec.ret _ fun w h => ⟨name, v₁, rfl, last, h⟩
    exact (Spec.bind (publishReceipt_spec rfl name) fun _ => writeManifestTmp_spec rfl name).weaken
      (by rintro w rfl; exact staged) (fun _ _ h => h) (fun _ _ _ => trivial) fun _ _ => trivial

section Frame

variable {P : View → Prop}

/-- What the steps of a rollback can do. -/
structure RollbackFrame (P : View → Prop) : Prop where
  tree : ∀ v t, P v → P { v with tree := t }
  unstash : ∀ v w s p, P v → View.unstash s p v = .ok w → P w
  receipts : ∀ v name, P v → P { v with receipts := v.receipts.erase name }
  drop : ∀ v d e, P v → v.tx = some d → P { v with tx := some (d.drop e) }
  purged : ∀ v, P v → P { v with tx := none }

theorem onTree_frame (frame : RollbackFrame P) (change : Tree → Except OsError Tree) :
    Spec P (Proc.step (View.onTree change)) (fun _ => P) (fun _ => P) P := by
  refine Spec.step ?_ fun _ h _ _ => h
  intro v hv w hw
  obtain ⟨t, -, rfl⟩ := View.onTree_ok hw
  exact ⟨frame.tree v t hv, frame.tree v t hv⟩

theorem inspect_frame {α : Type} {E : TransactionError → View → Prop} {C : View → Prop}
    (look : View → α) : Spec P (inspect look : Step α) (fun _ => P) E C := Spec.inspect fun _ h => h

theorem fsyncDir_frame (p : Path) : Spec P (fsyncDir p) (fun _ => P) (fun _ => P) P :=
  fsyncDir_spec p fun _ _ h => h

theorem makeDirs_frame (frame : RollbackFrame P) :
    ∀ dirs, Spec P (makeDirs dirs) (fun _ => P) (fun _ => P) P
  | [] => Spec.ret () fun _ h => h
  | p :: rest => Spec.bind (onTree_frame frame fun t => t.mkdir p) fun _ => makeDirs_frame frame rest

theorem ensureParent_frame (frame : RollbackFrame P) (p : Path) :
    Spec P (ensureParent p) (fun _ => P) (fun _ => P) P := by
  refine Spec.bind (inspect_frame _) fun t => ?_
  split
  · exact Spec.raise _ fun _ h => h
  · split
    · exact Spec.raise _ fun _ h => h
    · exact Spec.bind (makeDirs_frame frame _) fun _ => fsyncDir_frame _

theorem unlinkFileIfPresent_frame (frame : RollbackFrame P) (p : Path) :
    Spec P (unlinkFileIfPresent p) (fun _ => P) (fun _ => P) P := by
  refine Spec.bind (inspect_frame _) fun n => ?_
  split
  · exact Spec.ret () fun _ h => h
  · exact onTree_frame frame _
  · exact Spec.raise _ fun _ h => h

theorem restoreSaved_frame (frame : RollbackFrame P) (p : Path) (s : Slot) :
    Spec P (restoreSaved p s) (fun _ => P) (fun _ => P) P := by
  refine Spec.bind (inspect_frame _) fun found => ?_
  split
  · refine Spec.bind (unlinkFileIfPresent_frame frame p) fun _ =>
      Spec.bind (ensureParent_frame frame p) fun _ =>
        Spec.bind (Spec.step ?_ fun _ h _ _ => h) fun _ => fsyncDir_frame _
    intro v hv w hw
    exact ⟨frame.unstash v w s p hv hw, frame.unstash v w s p hv hw⟩
  · exact Spec.ret () fun _ h => h

theorem rollbackAction_frame (frame : RollbackFrame P) (entry : JournalAction) :
    Spec P (rollbackAction entry) (fun _ => P) (fun _ => P) P := by
  cases entry with
  | write path stage backup preserveMode parents => exact restoreSaved_frame frame path backup
  | delete path trash => exact restoreSaved_frame frame path trash
  | create path stage mode parents =>
    refine Spec.bind (inspect_frame _) fun staged => ?_
    split
    · exact Spec.ret () fun _ h => h
    · exact Spec.bind (unlinkFileIfPresent_frame frame path) fun _ => fsyncDir_frame _
  | move source destination parents =>
    refine Spec.bind (inspect_frame _) fun moved => ?_
    split
    · exact Spec.bind (ensureParent_frame frame source) fun _ =>
        Spec.bind (onTree_frame frame _) fun _ =>
          Spec.bind (fsyncDir_frame _) fun _ => fsyncDir_frame _
    · exact Spec.ret () fun _ h => h

theorem rollbackActions_frame (frame : RollbackFrame P) :
    ∀ entries, Spec P (rollbackActions entries) (fun _ => P) (fun _ => P) P
  | [] => Spec.ret () fun _ h => h
  | entry :: rest =>
    Spec.bind (rollbackActions_frame frame rest) fun _ => rollbackAction_frame frame entry

theorem removeParents_frame (frame : RollbackFrame P) :
    ∀ dirs, Spec P (removeParents dirs) (fun _ => P) (fun _ => P) P
  | [] => Spec.ret () fun _ h => h
  | q :: rest => by
    refine Spec.bind (removeParent_spec q ?_ (fun _ _ h _ _ => h) fun _ _ h _ _ _ => h)
      fun _ => removeParents_frame frame rest
    intro v t hv _
    exact ⟨frame.tree v t hv, frame.tree v t hv⟩

theorem purge_frame (frame : RollbackFrame P) (E : Engine) :
    Spec P (purge E) (fun _ => P) (fun _ => P) P := by
  have entries : ∀ l, Spec P (removeEntries l) (fun _ => P) (fun _ => P) P := by
    intro l
    induction l with
    | nil => exact Spec.ret () fun _ h => h
    | cons e rest ih =>
      refine Spec.bind (Spec.step ?_ fun _ h _ _ => h) fun _ => ih
      intro v hv w hw
      obtain ⟨d, d', tx, hd, rfl⟩ := View.onTx_ok hw
      cases hd
      exact ⟨frame.drop v d e hv tx, frame.drop v d e hv tx⟩
  refine Spec.bind (Q := fun _ => P) (Spec.check (fun _ h _ _ => h) fun _ h _ _ => h) fun d =>
    Spec.bind (entries _) fun _ => Spec.step ?_ fun _ h _ _ => h
  intro v hv w hw
  cases hw
  exact ⟨frame.purged v hv, frame.purged v hv⟩

/-- A property that the steps of a rollback keep is kept by every rollback. -/
theorem rollback_frame (frame : RollbackFrame P) (E : Engine) (m : Manifest) :
    Spec P (rollback E m) (fun _ => P) (fun _ => P) P := by
  refine Spec.bind (Q := fun _ => P) ?_ fun _ => Spec.bind (rollbackActions_frame frame _) fun _ =>
    Spec.bind (removeParents_frame frame _) fun _ => purge_frame frame E
  unfold rollbackCommitReceipt
  split
  · exact Spec.ret () fun _ h => h
  · refine Spec.bind (inspect_frame _) fun published => ?_
    split
    · refine Spec.step ?_ fun _ h _ _ => h
      intro v hv w hw
      cases hw
      exact ⟨frame.receipts v _ hv, frame.receipts v _ hv⟩
    · exact Spec.ret () fun _ h => h

/-- A rollback never publishes a receipt. -/
theorem unpublished_rollbackFrame (name : Text) : RollbackFrame fun v => name ∉ v.receipts where
  tree _ _ h := h
  unstash v w s p h ok := by
    obtain ⟨-, -, -, -, -, -, framed⟩ := View.unstash_ok ok
    rw [framed.receipts]
    exact h
  receipts v other h := by
    intro there
    rw [AList.mem_erase] at there
    exact h there.2
  drop _ _ _ h _ := h
  purged _ h := h

/-- A rollback takes the receipt away that its manifest names, and publishes none. -/
theorem rollback_silent (E : Engine) (m : Manifest) (name : Text) :
    Spec (fun v => name ∈ v.receipts → m.commitReceipt = some name) (rollback E m)
      (fun _ w => name ∉ w.receipts) (fun _ w => name ∉ w.receipts) (fun w => name ∉ w.receipts) := by
  have frame := unpublished_rollbackFrame name
  refine Spec.bind (Q := fun _ w => name ∉ w.receipts) ?_ fun _ =>
    Spec.bind (rollbackActions_frame frame _) fun _ => Spec.bind (removeParents_frame frame _)
      fun _ => purge_frame frame E
  unfold rollbackCommitReceipt
  split
  · rename_i unnamed
    refine Spec.ret () fun v h there => ?_
    rw [unnamed] at h
    cases h there
  · rename_i n named
    refine Spec.bind (Q := fun published v => decide (n ∈ v.receipts) = published ∧
      (name ∈ v.receipts → name = n)) (Spec.inspect fun v h => ⟨rfl, fun there => ?_⟩)
      fun published => ?_
    · rw [named] at h
      exact (Option.some.inj (h there)).symm
    · cases published with
      | true =>
        rw [if_pos rfl]
        refine Spec.step ?_ ?_
        · rintro v ⟨-, only⟩ w hw
          cases hw
          have erased : name ∉ v.receipts.erase n := by
            rw [AList.mem_erase]
            rintro ⟨other, there⟩
            exact other (only there)
          exact ⟨erased, erased⟩
        · intro v _ e refused
          cases refused
      | false =>
        refine Spec.ret () ?_
        rintro v ⟨missing, only⟩ there
        obtain rfl := only there
        simp [there] at missing

/-- A rollback removes the receipt its manifest names, whatever it does after that. -/
theorem rollback_unpublishes (E : Engine) {m : Manifest} {name : Text}
    (named : m.commitReceipt = some name) :
    Spec (fun _ => True) (rollback E m) (fun _ w => name ∉ w.receipts)
      (fun _ w => name ∉ w.receipts) (fun _ => True) :=
  (rollback_silent E m name).weaken (fun _ _ _ => named) (fun _ _ h => h) (fun _ _ h => h)
    fun _ _ => trivial

/-- A rollback never writes a manifest. -/
theorem manifest_rollbackFrame (M : Option Manifest) :
    RollbackFrame fun v => v.manifest = M ∨ v.manifest = none where
  tree _ _ h := h
  unstash v w s p h ok := by
    obtain ⟨-, -, -, -, -, -, framed⟩ := View.unstash_ok ok
    rw [framed.manifest]
    exact h
  receipts _ _ h := h
  drop v d e h tx := by
    have before : v.manifest = d.manifest := by simp [View.manifest, tx]
    rw [before] at h
    cases e with
    | slot s => exact h
    | manifestTmp => exact h
    | manifest => exact .inr rfl
  purged _ _ := .inr rfl

end Frame

end RepoForge
