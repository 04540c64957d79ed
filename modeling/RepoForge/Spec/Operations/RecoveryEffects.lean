import RepoForge.Spec.Operations.RecoveryListing

/-!
# What the recovery pass does to one record

What the handling of a work item, and of an operation that lacks its work, leaves of the two
files of its operation when nobody else is there. A work item goes only with an operation that
has ended (`Harmless`), unless the listing has no operation for it.
-/
namespace RepoForge

open Clients Client RecoveryContext

namespace RecoveryContext

variable (ctx : RecoveryContext)

/-- The loop over the work items. -/
def handled (work : List OperationWorkItem × Bool) (listed : List OperationTask × Bool) :
    Pass (List ItemOutcome) := collect (ctx.handleItem listed.1) work.1

/-- The loop over the operations that lack their work. -/
def failed (work : List OperationWorkItem × Bool) (listed : List OperationTask × Bool) :
    Pass (List Unit) :=
  collect ctx.failMissing (listed.1.filter (ctx.lacksWork (work.1.map (·.operationId))))

/-- The pass after its listings. -/
def finish (work : List OperationWorkItem × Bool) (listed : List OperationTask × Bool) :
    Pass OperationWorkRecoveryReport := do
  let outcomes ← ctx.handled work listed
  let missing ← ctx.failed work listed
  ret (report work listed outcomes missing)

/-- The pass after its first listing. -/
def proceed (work : List OperationWorkItem × Bool) : Pass OperationWorkRecoveryReport := do
  let listed ← ctx.listOperations
  ctx.finish work listed

theorem recoverOperationWork_eq : ctx.recoverOperationWork = ctx.listWork >>= ctx.proceed := rfl

variable {ctx} {work : List OperationWorkItem × Bool} {listed : List OperationTask × Bool}
  {env : Interference Stores} {w : Session Stores RecoveryRequest}

theorem finish_returned {outcomes : List ItemOutcome} {missing : List Unit}
    (first : (ctx.handled work listed env w).1 = .ok outcomes)
    (then_ : (ctx.failed work listed env (ctx.handled work listed env w).2).1 = .ok missing) :
    ctx.finish work listed env w = (.ok (report work listed outcomes missing),
      (ctx.failed work listed env (ctx.handled work listed env w).2).2) := by
  rw [finish, bind_returned first, bind_returned then_]
  rfl

theorem finish_ok {done : OperationWorkRecoveryReport}
    (ok : (ctx.finish work listed env w).1 = .ok done) :
    ∃ outcomes missing, (ctx.handled work listed env w).1 = .ok outcomes ∧
      (ctx.failed work listed env (ctx.handled work listed env w).2).1 = .ok missing := by
  obtain ⟨outcomes, first, eq⟩ := bind_ok_inv ok
  rw [finish, eq] at ok
  obtain ⟨missing, then_, -⟩ := bind_ok_inv ok
  exact ⟨outcomes, missing, first, then_⟩

/-- The session that the pass ends in, if the loop over the work items returns. -/
theorem finish_session {outcomes : List ItemOutcome}
    (first : (ctx.handled work listed env w).1 = .ok outcomes) :
    (ctx.finish work listed env w).2 =
      (ctx.failed work listed env (ctx.handled work listed env w).2).2 := by
  rw [finish, bind_returned first]
  rcases then_ : (ctx.failed work listed env (ctx.handled work listed env w).2).1 with e | missing
  · rw [bind_raised then_]
  · rw [bind_returned then_]
    rfl

theorem finish_raised {e : RecoveryError} (first : (ctx.handled work listed env w).1 = .error e) :
    (ctx.finish work listed env w).2 = (ctx.handled work listed env w).2 := by
  rw [finish, bind_raised first]

end RecoveryContext

section Listed

variable {ctx : RecoveryContext}

theorem mem_find {operations : List OperationTask} (nodup : (operations.map (·.operationId)).Nodup)
    {id : Text} {t : OperationTask} :
    operations.find? (·.operationId = id) = some t ↔ t ∈ operations ∧ t.operationId = id := by
  constructor
  · intro found
    exact ⟨List.mem_of_find?_eq_some found, by simpa using List.find?_some found⟩
  · intro h
    obtain ⟨member, named⟩ := h
    rcases found : operations.find? (·.operationId = id) with _ | t'
    · have nowhere := List.find?_eq_none.mp found t member
      simp [named] at nowhere
    · have member' := List.mem_of_find?_eq_some found
      have named' : t'.operationId = id := by simpa using List.find?_some found
      rw [← List.inj_on_of_nodup_map nodup member' member (named'.trans named.symm)]
      exact found

theorem missing_nodup {operations : List OperationTask}
    (nodup : (operations.map (·.operationId)).Nodup) (ids : List Text) :
    ((operations.filter (ctx.lacksWork ids)).map (·.operationId)).Nodup :=
  (List.filter_sublist.map _).nodup nodup

end Listed

/-- The operation has no file, or the file of a record that has ended. -/
def Stores.Gone (s : Stores) (id : Text) : Prop :=
  s.operations.lookup id = none ∨
    ∃ legacy t, s.operations.lookup id = some (.record legacy t) ∧ t.state.terminal = true

theorem Stores.Gone.of_cell {s s' : Stores} {id : Text} (h : s.Gone id)
    (same : s'.operations.lookup id = s.operations.lookup id) : s'.Gone id := by
  unfold Stores.Gone
  rw [same]
  exact h

/-- The work item of the operation is still there, or the operation has ended; and no record says
that its work is missing which did not say so before. -/
structure Harmless (id : Text) (s s' : Stores) : Prop where
  work : s'.work.files.lookup id = none → s.work.files.lookup id = none ∨ s'.Gone id
  operation : s'.operations.lookup id = s.operations.lookup id ∨
    ∃ u, s'.operations.lookup id = some (.record false u) ∧ u.errorCode ≠ some workMissing

theorem harmless_refl (id : Text) (s : Stores) : Harmless id s s := ⟨.inl, .inl rfl⟩

section Ending

variable {policy : TaskPolicy} {t : OperationTask} {now clock : Stamp}

/-- What a call makes of a record that it ends. -/
structure Ending (t : OperationTask) (state : OperationState) (code : Option Text)
    (plan : ManagerPlan) : Prop where
  still : plan.write = none → t.state = state
  ended : ∀ u, plan.write = some u → u.state = state ∧ u.errorCode = code

theorem saveTransition_ending {state : OperationState} {data : TransitionData} {ownerId : Option Text}
    {attempt : Option Int} {bypass : Bool} {plan : ManagerPlan} (terminal : state.terminal = true)
    (h : policy.saveTransition t state data ownerId none attempt bypass now = .ok plan) :
    Ending t state (data.errorCode.or state.defaultErrorCode) plan := by
  unfold TaskPolicy.saveTransition at h
  obtain ⟨_, -, h⟩ := bind_ok h
  obtain ⟨_, -, h⟩ := bind_ok h
  obtain ⟨moved, transition, h⟩ := bind_ok h
  obtain ⟨updated, claimed, h⟩ := bind_ok h
  have unclaimed : updated = moved := by
    unfold TaskPolicy.claimStarted at claimed
    split at claimed
    · rename_i running
      rw [running] at terminal
      cases terminal
    · cases claimed
      rfl
  have moved_to : moved = t ∧ t.state = state ∨ moved.state = state ∧
      moved.errorCode = data.errorCode.or state.defaultErrorCode := by
    rcases transitionOperation_ok transition with ⟨same, rfl⟩ |
      ⟨legal, -, stamp, consistency, diagnostics, before, rfl⟩
    · exact .inl ⟨rfl, same.symm⟩
    · exact .inr ⟨rfl, rfl⟩
  rw [unclaimed] at h
  split at h
  · rename_i unchanged
    cases h
    constructor
    · intro _
      rcases moved_to with ⟨-, same⟩ | ⟨same, -⟩
      · exact same
      · rw [← unchanged]
        exact same
    · intro u write
      cases write
  · rename_i changed
    cases h
    constructor
    · intro write
      cases write
    · intro u write
      cases write
      exact moved_to.resolve_left fun h => changed h.1

end Ending

section Alone

variable (ctx : RecoveryContext) {w : Session Stores RecoveryRequest}

/-- What a call of the manager does to the stores. -/
inductive Managed (ctx : RecoveryContext) (call : ManagerCall) (s : Stores) :
    Except RecoveryError Unit → Stores → Prop
  | refused (e : RecoveryError) : Managed ctx call s (.error e) s
  | kept (seen : OperationTask) (plan : ManagerPlan) :
      ctx.policy.status call.operationId s.operations = .ok seen →
      ctx.policy.plan ctx.nowText seen call = .ok plan → plan.write = none →
      Managed ctx call s (.ok ()) s
  | saved (seen updated : OperationTask) (plan : ManagerPlan) :
      ctx.policy.status call.operationId s.operations = .ok seen →
      ctx.policy.plan ctx.nowText seen call = .ok plan → plan.write = some updated →
      updated.operationId = call.operationId →
      Managed ctx call s (.ok ()) { s with
        operations := s.operations.insert call.operationId (.record false updated) }

theorem manage_alone (guarded : Bool) (call : ManagerCall) :
    Managed ctx call w.state (ctx.manage guarded call calm w).1
      (ctx.manage guarded call calm w).2.state := by
  unfold manage
  rcases planned : Stores.plan ctx.policy ctx.nowText call w.state with e | ⟨⟨seen, plan⟩, after⟩
  · obtain ⟨value, state⟩ := calm_refused (q := RecoveryRequest.plan guarded call) planned
    rw [bind_raised value, state]
    exact .refused e
  · obtain ⟨rfl, found, made⟩ := plan_request_ok planned
    obtain ⟨value, state⟩ := calm_answered (q := RecoveryRequest.plan guarded call) planned
    rw [bind_returned value]
    generalize (ask (RecoveryRequest.plan guarded call) (Stores.plan ctx.policy ctx.nowText call)
      calm w).2 = w' at state ⊢
    rw [← state] at found ⊢
    rcases plan with ⟨_ | updated, reply⟩
    · exact .kept seen _ found made rfl
    · have named : updated.operationId = call.operationId :=
        (plan_ok made).operationId.trans (status_named found)
      rcases saved : Stores.saveOperation ctx.policy seen updated w'.state with e | ⟨_, after⟩
      · obtain ⟨value, state⟩ :=
          calm_refused (q := RecoveryRequest.saveOperation guarded seen updated) saved
        rw [value, state]
        exact .refused e
      · obtain ⟨value, state⟩ :=
          calm_answered (q := RecoveryRequest.saveOperation guarded seen updated) saved
        rw [value, state]
        rw [saveOperation_eq] at saved
        rcases checked : checkSave ctx.policy seen updated w'.state.operations with e | _
        · rw [checked] at saved
          cases saved
        · rw [checked] at saved
          cases saved
          rw [named]
          exact .saved seen updated _ found made rfl named

variable {ctx}

/-- The call ends its operation. -/
def Ends (ctx : RecoveryContext) (call : ManagerCall) (state : OperationState) (code : Option Text) :
    Prop :=
  state.terminal = true ∧
    ∀ t plan, ctx.policy.plan ctx.nowText t call = .ok plan → Ending t state code plan

theorem cancelled_ends (id : Text) (ownerId : Option Text) (now : Option Stamp) :
    Ends ctx (.cancelled id ownerId now) .cancelled none :=
  ⟨rfl, fun _ _ planned => saveTransition_ending rfl planned⟩

theorem orphan_ends (id code : Text) (message : Option Text) (now : Option Stamp) :
    Ends ctx (.orphan id code message now) .orphaned (some code) :=
  ⟨rfl, fun _ _ planned => saveTransition_ending rfl planned⟩

theorem fail_ends (id code : Text) (message result receiptId : Option Text)
    (retryability : OperationRetryability) (ownerId : Option Text) (now : Option Stamp) :
    Ends ctx (.fail id code message result receiptId retryability ownerId now) .failed (some code) :=
  ⟨rfl, fun _ _ planned => saveTransition_ending rfl planned⟩

/-- A call that returns has ended the operation. -/
theorem Managed.gone {call : ManagerCall} {state : OperationState} {code : Option Text}
    {s s' : Stores} (ends : Ends ctx call state code) (h : Managed ctx call s (.ok ()) s') :
    s'.Gone call.operationId := by
  cases h with
  | kept seen plan found planned unwritten =>
    obtain ⟨file, there, decoded⟩ := status_ok found
    obtain ⟨-, legacy, task, rfl, same⟩ := decode_ok decoded
    refine .inr ⟨legacy, task, there, ?_⟩
    rw [same, (ends.2 seen plan planned).still unwritten]
    exact ends.1
  | saved seen updated plan found planned written named =>
    refine .inr ⟨false, updated, AList.lookup_insert _, ?_⟩
    rw [((ends.2 seen plan planned).ended updated written).1]
    exact ends.1

theorem Managed.work {call : ManagerCall} {r : Except RecoveryError Unit} {s s' : Stores}
    (h : Managed ctx call s r s') : s'.work = s.work := by
  cases h with
  | refused e => rfl
  | kept seen plan found planned unwritten => rfl
  | saved seen updated plan found planned written named => rfl

theorem Managed.operation {call : ManagerCall} {state : OperationState} {code : Option Text}
    {r : Except RecoveryError Unit} {s s' : Stores} (ends : Ends ctx call state code)
    (h : Managed ctx call s r s') :
    s'.operations.lookup call.operationId = s.operations.lookup call.operationId ∨
      ∃ u, s'.operations.lookup call.operationId = some (.record false u) ∧ u.errorCode = code := by
  cases h with
  | refused e => exact .inl rfl
  | kept seen plan found planned unwritten => exact .inl rfl
  | saved seen updated plan found planned written named =>
    exact .inr ⟨updated, AList.lookup_insert _, ((ends.2 seen plan planned).ended updated written).2⟩

variable {item : OperationWorkItem}

theorem deleteWork_keeps (id : Text) : Keeps Stores.operations (ctx.deleteWork id) := by
  apply keeps_ask
  intro s a s' answered
  obtain ⟨_, -, answered⟩ := bind_ok answered
  cases answered
  rfl

theorem releaseBinding_keeps (item : OperationWorkItem) :
    Keeps (fun s => s) (ctx.releaseBinding item) := by
  apply keeps_ask
  intro s a s' answered
  obtain ⟨_, -, answered⟩ := bind_ok answered
  cases answered
  rfl

theorem containChild_keeps (guarded : Bool) (item : OperationWorkItem) :
    Keeps (fun s => s) (ctx.containChild guarded item) := by
  apply keeps_ask
  intro s a s' answered
  obtain ⟨_, -, answered⟩ := bind_ok answered
  cases answered
  rfl

theorem settle_harmless {call : ManagerCall} {state : OperationState} {code : Option Text}
    (ends : Ends ctx call state code) (other : code ≠ some workMissing)
    (named : call.operationId = item.operationId) (bound : Bool) (outcome : ItemOutcome) :
    Harmless item.operationId w.state (ctx.settle item call bound outcome calm w).2.state := by
  have managed := manage_alone ctx (w := w) true call
  have operation := managed.operation ends
  rw [named] at operation
  have told : ∀ s : Stores, s.operations = (ctx.manage true call calm w).2.state.operations →
      s.operations.lookup item.operationId = w.state.operations.lookup item.operationId ∨
      ∃ u, s.operations.lookup item.operationId = some (.record false u) ∧
        u.errorCode ≠ some workMissing := by
    intro s same
    rw [same]
    rcases operation with same | ⟨u, there, code⟩
    · exact .inl same
    · exact .inr ⟨u, there, code ▸ other⟩
  unfold settle
  rcases first : (ctx.manage true call calm w).1 with e | _
  · rw [bind_raised first]
    refine ⟨?_, told _ rfl⟩
    rw [managed.work]
    exact .inl
  · rw [first] at managed
    have gone := managed.gone ends
    rw [named] at gone
    rw [bind_returned first]
    -- the rest of the way only the work file changes
    have kept : ∀ w', (((do
          ctx.deleteWork item.operationId
          if bound then ctx.releaseBinding item
          ret outcome) : Pass ItemOutcome) calm w').2.state.operations = w'.state.operations := by
      apply (deleteWork_keeps item.operationId).bind
      intro _
      split
      · apply Keeps.bind
        · intro w'
          exact congrArg Stores.operations (releaseBinding_keeps item w')
        · exact fun _ => keeps_ret outcome
      · exact (keeps_ret ()).bind fun _ => keeps_ret outcome
    refine ⟨fun _ => .inr (gone.of_cell ?_), told _ (kept _)⟩
    rw [kept]

theorem guarded_state (m : Pass ItemOutcome) :
    (guarded m calm w).2.state = (m calm w).2.state := by
  unfold guarded Client.rescue
  rcases m calm w with ⟨e | a, after⟩
  · change ((if e.conflict then ret ItemOutcome.conflict else raise e : Pass ItemOutcome) calm
      after).2.state = after.state
    split
    · rfl
    · rfl
  · rfl

theorem contained_harmless {guarded : Bool} {m : Text → Pass ItemOutcome}
    (h : ∀ detail w, Harmless item.operationId w.state (m detail calm w).2.state) :
    Harmless item.operationId w.state ((do
      match ← ctx.containChild guarded item with
      | .blocked code detail => ret (.blocked code detail)
      | .contained detail => m detail : Pass ItemOutcome) calm w).2.state := by
  have kept : (ctx.containChild guarded item calm w).2.state = w.state :=
    (containChild_keeps guarded item).state w
  rcases first : (ctx.containChild guarded item calm w).1 with e | contained
  · rw [bind_raised first]
    change Harmless item.operationId w.state (ctx.containChild guarded item calm w).2.state
    rw [kept]
    exact harmless_refl _ _
  · rw [bind_returned first]
    generalize (ctx.containChild guarded item calm w).2 = w' at kept ⊢
    rw [← kept]
    cases contained with
    | contained detail => exact h detail w'
    | blocked code detail => exact harmless_refl _ _

theorem cancelItem_harmless (operation : OperationTask) :
    Harmless item.operationId w.state (ctx.cancelItem item operation calm w).2.state := by
  unfold cancelItem
  split
  · apply contained_harmless
    intro detail w'
    rw [guarded_state]
    exact settle_harmless (cancelled_ends _ _ _) (fun h => nomatch h) rfl true _
  · rw [guarded_state]
    exact settle_harmless (cancelled_ends _ _ _) (fun h => nomatch h) rfl false _

theorem stale_ne_missing : (some "OPERATION_GENERATION_STALE".toList) ≠ some workMissing := by
  decide

theorem retireItem_harmless (operation : OperationTask) (expected : Int) :
    Harmless item.operationId w.state (ctx.retireItem item operation expected calm w).2.state := by
  unfold retireItem
  rw [guarded_state]
  split
  · split
    · apply contained_harmless
      intro detail w'
      exact settle_harmless (orphan_ends _ _ _ _) stale_ne_missing rfl true _
    · exact settle_harmless (orphan_ends _ _ _ _) stale_ne_missing rfl false _
  · exact settle_harmless (fail_ends _ _ _ _ _ _ _ _) stale_ne_missing rfl false _

theorem loseItem_harmless :
    Harmless item.operationId w.state (ctx.loseItem item calm w).2.state := by
  unfold loseItem
  rw [guarded_state]
  apply contained_harmless
  intro detail w'
  exact settle_harmless (orphan_ends _ _ _ _) (by decide) rfl true _

/-- A requeued operation has no error. -/
theorem requeue_operation {id : Text} {now : Option Stamp} {r : Except RecoveryError Unit}
    {s s' : Stores} (h : Managed ctx (.requeue id now) s r s') :
    s'.operations.lookup id = s.operations.lookup id ∨
      ∃ u, s'.operations.lookup id = some (.record false u) ∧ u.errorCode ≠ some workMissing := by
  cases h with
  | refused e => exact .inl rfl
  | kept seen plan found planned unwritten => exact .inl rfl
  | saved seen updated plan found planned written named =>
    refine .inr ⟨updated, AList.lookup_insert _, ?_⟩
    obtain ⟨requeued, moved, planned⟩ := bind_ok planned
    cases planned
    cases written
    obtain ⟨-, -, stamp, -, rfl⟩ := requeueOperation_ok moved
    exact fun h => nomatch h

theorem compareWork_keeps (ctx : RecoveryContext) (item : OperationWorkItem) : Keeps (fun s => s)
    (ask (.compareWork item) (Stores.compareWork ctx.codec item) : Pass Nat) := by
  apply keeps_ask
  intro s a s' answered
  obtain ⟨found, -, answered⟩ := bind_ok answered
  cases found with
  | none => cases answered
  | some current =>
    dsimp only at answered
    split at answered
    · cases answered
    · cases answered
      rfl

/-- Where the item is saved it is there, and the operation is as it was or without an error. -/
theorem requeued_harmless {queued : OperationWorkItem} (named : queued.operationId = item.operationId)
    (revision : Nat) (operation : OperationTask) :
    Harmless item.operationId w.state ((do
      ask (.saveWork queued revision) (Stores.saveWork ctx.codec queued revision)
      if operation.state = .running then
        ctx.manage true (.requeue item.operationId (some ctx.nowText))
      ret .requeued : Pass ItemOutcome) calm w).2.state := by
  rcases saved : Stores.saveWork ctx.codec queued revision w.state with e | ⟨_, after⟩
  · obtain ⟨value, state⟩ := calm_refused (q := RecoveryRequest.saveWork queued revision) saved
    rw [bind_raised value]
    change Harmless item.operationId w.state (ask _ _ calm w).2.state
    rw [state]
    exact harmless_refl _ _
  · obtain ⟨value, state⟩ := calm_answered (q := RecoveryRequest.saveWork queued revision) saved
    obtain ⟨⟨made, _⟩, -, saved⟩ := bind_ok saved
    cases saved
    rw [bind_returned value]
    generalize (ask (RecoveryRequest.saveWork queued revision)
      (Stores.saveWork ctx.codec queued revision) calm w).2 = w' at state ⊢
    have there : w'.state.work.files.lookup item.operationId ≠ none := by
      rw [state, ← named]
      simp only [WorkFiles.insert, AList.lookup_insert]
      intro h
      cases h
    have operations : w'.state.operations = w.state.operations := by rw [state]
    dsimp only
    split
    · have managed := manage_alone ctx (w := w') true (.requeue item.operationId (some ctx.nowText))
      have kept : ((do
          ctx.manage true (.requeue item.operationId (some ctx.nowText))
          ret .requeued : Pass ItemOutcome) calm w').2.state =
          (ctx.manage true (.requeue item.operationId (some ctx.nowText)) calm w').2.state := by
        rcases first : (ctx.manage true (.requeue item.operationId (some ctx.nowText)) calm w').1
          with e | _
        · rw [bind_raised first]
        · rw [bind_returned first]
          rfl
      change Harmless item.operationId w.state ((do
        ctx.manage true (.requeue item.operationId (some ctx.nowText))
        ret .requeued : Pass ItemOutcome) calm w').2.state
      rw [kept]
      constructor
      · rw [managed.work]
        exact fun h => (there h).elim
      · have told := requeue_operation managed
        rw [operations] at told
        exact told
    · refine ⟨fun h => (there h).elim, .inl ?_⟩
      exact congrArg (AList.lookup item.operationId) operations

/-- Work that goes back to the queue is not removed. -/
theorem returnItem_harmless (operation : OperationTask) :
    Harmless item.operationId w.state (ctx.returnItem item operation calm w).2.state := by
  unfold returnItem
  rw [guarded_state]
  rcases requeued : requeueUnstartedWork item ctx.input.now.instant with error | queued
  · exact harmless_refl _ _
  · dsimp only
    have named : queued.operationId = item.operationId := by
      unfold requeueUnstartedWork at requeued
      split at requeued
      · cases requeued
      · cases requeued
        rfl
    have kept := (compareWork_keeps ctx item).state w
    rcases first : (ask (.compareWork item) (Stores.compareWork ctx.codec item) calm w :
      Except RecoveryError Nat × Session Stores RecoveryRequest).1 with e | revision
    · rw [bind_raised first]
      change Harmless item.operationId w.state (ask _ _ calm w).2.state
      rw [kept]
      exact harmless_refl _ _
    · rw [bind_returned first]
      generalize (ask (RecoveryRequest.compareWork item) (Stores.compareWork ctx.codec item)
        calm w).2 = w' at kept ⊢
      rw [← kept]
      exact requeued_harmless named revision operation

theorem orphanWork_state (item : OperationWorkItem) :
    (ctx.orphanWork item calm w).2.state = (ctx.deleteWork item.operationId calm w).2.state := by
  unfold orphanWork
  rcases first : (ctx.deleteWork item.operationId calm w).1 with e | _
  · rw [bind_raised first]
  · rw [bind_returned first]
    rfl

/-- The work of an operation that has ended goes. -/
theorem orphanWork_harmless (gone : w.state.Gone item.operationId) :
    Harmless item.operationId w.state (ctx.orphanWork item calm w).2.state := by
  have kept : (ctx.orphanWork item calm w).2.state.operations = w.state.operations := by
    rw [orphanWork_state]
    exact deleteWork_keeps item.operationId w
  constructor
  · intro _
    exact .inr (gone.of_cell (by rw [kept]))
  · rw [kept]
    exact .inl rfl

/-- A work item whose operation is listed. -/
theorem handleItem_harmless {operations : List OperationTask} {operation : OperationTask}
    (found : operations.find? (·.operationId = item.operationId) = some operation)
    (ended : operation.state.terminal = true → w.state.Gone item.operationId) :
    Harmless item.operationId w.state (ctx.handleItem operations item calm w).2.state := by
  unfold handleItem
  rw [found]
  dsimp only
  split
  · rename_i terminal
    exact orphanWork_harmless (ended terminal)
  · split
    · exact cancelItem_harmless operation
    · rcases ctx.input.expectedConfigGeneration.filter (item.request.configGeneration < ·)
        with _ | expected
      · dsimp only
        split
        · split
          · exact loseItem_harmless
          · exact returnItem_harmless operation
        · exact harmless_refl _ _
      · exact retireItem_harmless operation expected

/-- A work item whose operation is not listed goes, and nothing else. -/
theorem handleItem_unlisted {operations : List OperationTask}
    (unlisted : operations.find? (·.operationId = item.operationId) = none)
    (named : ctx.codec.recordId item.operationId = true) :
    (ctx.handleItem operations item calm w).2.state.operations = w.state.operations ∧
      (ctx.handleItem operations item calm w).2.state.work.files.lookup item.operationId = none := by
  unfold handleItem
  rw [unlisted]
  dsimp only
  rw [orphanWork_state]
  have answered : Stores.deleteWork ctx.codec item.operationId w.state =
      .ok ((), { w.state with work := w.state.work.erase item.operationId }) := by
    unfold Stores.deleteWork Repository.checkId
    rw [named]
    rfl
  obtain ⟨-, state⟩ := calm_answered (q := RecoveryRequest.deleteWork item.operationId) answered
  change (ask _ _ calm w).2.state.operations = _ ∧ (ask _ _ calm w).2.state.work.files.lookup _ = none
  rw [state]
  exact ⟨rfl, AList.lookup_erase _ _⟩

/-- What becomes of an operation that lacks its work: nothing where the call raises. -/
theorem failMissing_alone {t : OperationTask} {file : OperationFile}
    (there : w.state.operations.lookup t.operationId = some file)
    (decoded : OperationStore.decode ctx.policy t.operationId file = .ok t)
    (pending : t.state = .pending) :
    (ctx.failMissing t calm w).2.state = w.state ∧ (∃ e, (ctx.failMissing t calm w).1 = .error e) ∨
    (ctx.failMissing t calm w).1 = .ok () ∧
      (ctx.failMissing t calm w).2.state.work = w.state.work ∧
      ∃ u, (ctx.failMissing t calm w).2.state.operations.lookup t.operationId =
        some (.record false u) ∧ u.state = .failed ∧ u.errorCode = some workMissing := by
  have managed := manage_alone ctx (w := w) false (.fail t.operationId workMissing
    (some "Durable operation has no recoverable work sidecar.".toList) none none .manual none
    (some ctx.nowText))
  have ends : Ends ctx _ .failed (some workMissing) := fail_ends t.operationId workMissing
    (some "Durable operation has no recoverable work sidecar.".toList) none none .manual none
    (some ctx.nowText)
  change Managed ctx _ w.state (ctx.failMissing t calm w).1 (ctx.failMissing t calm w).2.state
    at managed
  generalize ctx.failMissing t calm w = r at managed ⊢
  obtain ⟨value, after⟩ := r
  dsimp only at managed ⊢
  generalize after.state = s' at managed ⊢
  cases managed with
  | refused e => exact .inl ⟨rfl, e, rfl⟩
  | kept seen plan found planned unwritten =>
    -- the record that is pending has not failed
    obtain ⟨file', there', decoded'⟩ := status_ok found
    have same := there.symm.trans there'
    cases same
    have failed := (ends.2 seen plan planned).still unwritten
    have seen_eq := decoded.symm.trans decoded'
    cases seen_eq
    rw [pending] at failed
    cases failed
  | saved seen updated plan found planned written named =>
    obtain ⟨state, code⟩ := (ends.2 seen plan planned).ended updated written
    exact .inr ⟨rfl, rfl, updated, AList.lookup_insert _, state, code⟩

end Alone

end RepoForge
