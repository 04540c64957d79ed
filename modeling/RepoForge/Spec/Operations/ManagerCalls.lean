import RepoForge.Source.Operations.Manager
import RepoForge.Spec.Operations.Tasks

/-!
# What the calls of the manager write

`Successor` is what every write makes of the record it replaces, whichever call it is;
`plan_ok` says so of each call, and that only `reconcile_success` replaces a terminal record.
The lemmas on the store follow, and `next_cases`, which is all that one access of a caller
can do.
-/
namespace RepoForge

open TaskPolicy

variable {policy : TaskPolicy} {t t' : OperationTask} {clock : Stamp}

/-- One record replaced by another. -/
structure Successor (t t' : OperationTask) : Prop where
  operationId : t'.operationId = t.operationId
  recordProvenance : t'.recordProvenance = t.recordProvenance
  later : t.updatedAt.Before t'.updatedAt
  attempt : t.attempt ≤ t'.attempt
  progress : t.state = .running → t'.state = .running → t'.phase = t.phase →
    t.progressCurrent ≤ t'.progressCurrent

/-- The call reconciles the very operation whose effect is unknown. -/
def Reconciles (call : ManagerCall) (t : OperationTask) : Prop :=
  ∃ id result receipt now, call = .reconcileSuccess id result receipt now ∧ t.state = .failed ∧
    t.errorCode = some effectOutcomeUnknown ∧ t.receiptId = some receipt

theorem active_of_allowed {state state' : OperationState} (h : state' ∈ state.allowed) :
    state.terminal = false := by
  cases state
  all_goals first | rfl | simp [OperationState.allowed] at h

theorem allowed_ne_running {state : OperationState} (h : .running ∈ state.allowed) :
    state ≠ .running := by
  rintro rfl
  simp [OperationState.allowed] at h

/-- A claim of a running record. -/
theorem successor_of_claim {ownerId : Text} {leaseExpiresAt now : Stamp} {attempt : Option Int}
    (h : policy.claimOperationOwnership t ownerId leaseExpiresAt now attempt = .ok t') :
    Successor t t' ∧ t.state = .running ∧ t'.state = .running := by
  obtain ⟨running, grown, -, stamp, lease, before, rfl⟩ := claimOperationOwnership_ok h
  exact ⟨⟨rfl, rfl, before, grown, fun _ _ _ => le_rfl⟩, running, running⟩

/-- What a start makes of its record once it has been moved. -/
theorem claimStarted_ok {state : OperationState} {ownerId : Option Text}
    {leaseExpiresAt : Option Stamp} {attempt : Option Int} {now : Stamp}
    (h : policy.claimStarted t state ownerId leaseExpiresAt attempt now = .ok t') :
    t' = t ∨ Successor t t' ∧ t.state = .running ∧ t'.state = .running ∧ t'.phase = t.phase ∧
      t'.progressCurrent = t.progressCurrent ∧
      t'.cancellationRequestedAt = t.cancellationRequestedAt := by
  unfold claimStarted at h
  split at h
  · split at h
    · obtain ⟨successor, running, running'⟩ := successor_of_claim h
      obtain ⟨-, -, -, stamp, lease, -, rfl⟩ := claimOperationOwnership_ok h
      exact .inr ⟨successor, running, running', rfl, rfl, rfl⟩
    · cases h
      exact .inl rfl
    · cases h
  · cases h
    exact .inl rfl

theorem saveTransition_ok {state : OperationState} {data : TransitionData} {ownerId : Option Text}
    {leaseExpiresAt : Option Stamp} {attempt : Option Int} {bypass : Bool} {now : Stamp}
    {reply : ManagerReply} (h : policy.saveTransition t state data ownerId leaseExpiresAt attempt
      bypass now = .ok ⟨some t', reply⟩) :
    Successor t t' ∧ t.state.terminal = false ∧
      t'.cancellationRequestedAt = t.cancellationRequestedAt ∧
      (t'.state = .succeeded → t.cancellationRequestedAt = none) := by
  unfold saveTransition at h
  obtain ⟨_, uncancelled, h⟩ := bind_ok h
  have uncancelled := refuse_ok uncancelled
  simp only [ne_eq, not_and, not_not] at uncancelled
  obtain ⟨_, -, h⟩ := bind_ok h
  obtain ⟨moved, transition, h⟩ := bind_ok h
  obtain ⟨updated, claimed, h⟩ := bind_ok h
  split at h
  · cases h
  · rename_i changed
    cases h
    have claimed := claimStarted_ok claimed
    rcases transitionOperation_ok transition with ⟨same, rfl⟩ |
      ⟨legal, -, stamp, consistency, diagnostics, before, rfl⟩
    · -- the state stays: only a claim changes the record
      obtain ⟨successor, running, running', -, -, kept⟩ := claimed.resolve_left changed
      refine ⟨successor, by rw [running]; rfl, kept, ?_⟩
      intro succeeded
      rw [running'] at succeeded
      cases succeeded
    · have active := active_of_allowed legal
      have apart : t.state = .running → state = .running → False := by
        intro old new
        subst new
        exact allowed_ne_running legal old
      rcases claimed with rfl | ⟨successor, running, running', -, -, kept⟩
      · exact ⟨⟨rfl, rfl, before, le_rfl, fun old new _ => (apart old new).elim⟩, active, rfl,
          uncancelled⟩
      · refine ⟨⟨successor.operationId, successor.recordProvenance, before.trans successor.later,
          successor.attempt, fun old _ _ => (apart old running).elim⟩, active, kept, ?_⟩
        intro succeeded
        rw [running'] at succeeded
        cases succeeded

theorem reconcileSuccess_ok {result receipt : Text} {now : Stamp} {reply : ManagerReply}
    (h : policy.reconcileSuccess t result receipt now = .ok ⟨some t', reply⟩) :
    Successor t t' ∧ t.state = .failed ∧ t.errorCode = some effectOutcomeUnknown ∧
      t.receiptId = some receipt ∧ t'.cancellationRequestedAt = t.cancellationRequestedAt ∧
      t'.state = .succeeded := by
  unfold reconcileSuccess at h
  split at h
  · obtain ⟨-, -, h⟩ := bind_ok h
    cases h
  · obtain ⟨_, exact_, h⟩ := bind_ok h
    obtain ⟨stamp, later, h⟩ := bind_ok h
    have exact_ := refuse_ok exact_
    simp only [ne_eq, not_or, not_not] at exact_
    cases h
    refine ⟨⟨rfl, rfl, nextTimestamp_ok later, le_rfl, ?_⟩, exact_.1, exact_.2.1, exact_.2.2, rfl,
      rfl⟩
    intro running
    rw [exact_.1] at running
    cases running

/-- A call that writes `t'` over `t`. -/
structure CallWritten (call : ManagerCall) (t t' : OperationTask) : Prop extends Successor t t' where
  active : t.state.terminal = false ∨ Reconciles call t
  cancellation : t.cancellationRequestedAt ≠ none → t'.cancellationRequestedAt ≠ none
  succeeded : t'.state = .succeeded → t'.cancellationRequestedAt = t.cancellationRequestedAt ∧
    (t.cancellationRequestedAt = none ∨ Reconciles call t)

theorem Successor.callWritten {call : ManagerCall} (h : Successor t t') (running : t.state = .running)
    (cancellation : t.cancellationRequestedAt ≠ none → t'.cancellationRequestedAt ≠ none)
    (unfinished : t'.state ≠ .succeeded) : CallWritten call t t' where
  toSuccessor := h
  active := .inl (by rw [running]; rfl)
  cancellation := cancellation
  succeeded done := absurd done unfinished

theorem written_of_transition {call : ManagerCall} {state : OperationState} {data : TransitionData}
    {ownerId : Option Text} {leaseExpiresAt : Option Stamp} {attempt : Option Int} {bypass : Bool}
    {now : Stamp} {reply : ManagerReply} (h : policy.saveTransition t state data ownerId
      leaseExpiresAt attempt bypass now = .ok ⟨some t', reply⟩) : CallWritten call t t' := by
  obtain ⟨successor, active, kept, uncancelled⟩ := saveTransition_ok h
  refine ⟨successor, .inl active, ?_, fun succeeded => ⟨kept, .inl (uncancelled succeeded)⟩⟩
  rw [kept]
  exact fun requested => requested

/-- What a call writes. -/
theorem plan_ok {call : ManagerCall} {reply : ManagerReply}
    (h : policy.plan clock t call = .ok ⟨some t', reply⟩) : CallWritten call t t' := by
  cases call with
  | create new now => cases h
  | start id receiptId ownerId lease attempt now => exact written_of_transition h
  | succeed id result receiptId ownerId now => exact written_of_transition h
  | reconcileSuccess id result receipt now =>
    obtain ⟨successor, failed, unknown, matching, kept, -⟩ := reconcileSuccess_ok h
    have reconciles : Reconciles (.reconcileSuccess id result receipt now) t :=
      ⟨id, result, receipt, now, rfl, failed, unknown, matching⟩
    refine ⟨successor, .inr reconciles, ?_, fun _ => ⟨kept, .inr reconciles⟩⟩
    rw [kept]
    exact fun requested => requested
  | fail id code message result receiptId retryability ownerId now => exact written_of_transition h
  | cancelled id ownerId now => exact written_of_transition h
  | expire id message now => exact written_of_transition h
  | orphan id code message now => exact written_of_transition h
  | progress id data ownerId lease now =>
    obtain ⟨_, -, h⟩ := bind_ok h
    obtain ⟨updated, moved, h⟩ := bind_ok h
    obtain ⟨running, forward, -, stamp, before, rfl⟩ := updateOperationProgress_ok moved
    have unfinished : t.state ≠ .succeeded := by
      rw [running]
      exact fun wrong => nomatch wrong
    split at h
    · cases h
      exact Successor.callWritten ⟨rfl, rfl, before, le_rfl, fun _ _ same => forward same⟩ running
        (fun requested => requested) unfinished
    · cases h
    · obtain ⟨renewed, renewal, h⟩ := bind_ok h
      cases h
      obtain ⟨-, -, -, stamp', lease', before', rfl⟩ := renewOperationOwnership_ok renewal
      exact Successor.callWritten ⟨rfl, rfl, before.trans before', le_rfl, fun _ _ same => forward same⟩
        running (fun requested => requested) unfinished
  | renewOwnership id ownerId lease now =>
    obtain ⟨updated, renewed, h⟩ := bind_ok h
    cases h
    obtain ⟨running, -, -, stamp, lease, before, rfl⟩ := renewOperationOwnership_ok renewed
    refine Successor.callWritten ⟨rfl, rfl, before, le_rfl, fun _ _ _ => le_rfl⟩ running
      (fun requested => requested) ?_
    change t.state ≠ .succeeded
    rw [running]
    exact fun wrong => nomatch wrong
  | requeue id now =>
    obtain ⟨updated, requeued, h⟩ := bind_ok h
    cases h
    obtain ⟨running, -, stamp, before, rfl⟩ := requeueOperation_ok requeued
    exact Successor.callWritten ⟨rfl, rfl, before, le_rfl, fun _ pending => nomatch pending⟩ running
      (fun requested => requested) (fun wrong => nomatch wrong)
  | requestCancel id expected now =>
    obtain ⟨_, -, h⟩ := bind_ok h
    obtain ⟨decision, decided, h⟩ := bind_ok h
    split at h
    · cases h
    · rename_i changed
      cases h
      obtain ⟨active, -, stamp, before, same⟩ :=
        (requestOperationCancellation_ok decided).resolve_left changed
      rw [same]
      refine ⟨⟨rfl, rfl, before, le_rfl, fun _ _ _ => le_rfl⟩, .inl active, fun _ => nofun, ?_⟩
      intro succeeded
      change t.state = .succeeded at succeeded
      rw [succeeded] at active
      cases active

section Store

variable {store store' : OperationStore} {id : Text}

theorem write_ok (h : OperationStore.write policy t store = .ok store') :
    Valid policy t ∧ store' = store.insert t.operationId (.record false t) := by
  unfold OperationStore.write at h
  obtain ⟨_, valid, h⟩ := bind_ok h
  obtain ⟨-, -, h⟩ := bind_ok h
  cases h
  exact ⟨(validate_ok valid).2, rfl⟩

theorem store_create_ok (h : OperationStore.create policy t store = .ok store') :
    Valid policy t ∧ t.operationId ∉ store ∧
      store' = store.insert t.operationId (.record false t) := by
  unfold OperationStore.create at h
  obtain ⟨-, -, h⟩ := bind_ok h
  obtain ⟨_, absent, h⟩ := bind_ok h
  obtain ⟨valid, same⟩ := write_ok h
  exact ⟨valid, refuse_ok absent, same⟩

theorem store_read_ok (h : OperationStore.read policy id store = .ok (some t)) :
    ∃ file, store.lookup id = some file ∧ OperationStore.decode policy id file = .ok t := by
  unfold OperationStore.read at h
  obtain ⟨-, -, h⟩ := bind_ok h
  split at h
  · cases h
  · rename_i file found
    obtain ⟨task, decoded, h⟩ := bind_ok h
    cases h
    exact ⟨file, found, decoded⟩

theorem store_save_ok {expected : Stamp}
    (h : OperationStore.save policy t expected store = .ok store') :
    Valid policy t ∧ (∃ file current, store.lookup t.operationId = some file ∧
        OperationStore.decode policy t.operationId file = .ok current ∧
        current.updatedAt = expected) ∧
      store' = store.insert t.operationId (.record false t) := by
  unfold OperationStore.save at h
  obtain ⟨-, -, h⟩ := bind_ok h
  obtain ⟨found, read, h⟩ := bind_ok h
  split at h
  · cases h
  · rename_i current
    obtain ⟨_, fresh, h⟩ := bind_ok h
    obtain ⟨valid, same⟩ := write_ok h
    obtain ⟨file, found, decoded⟩ := store_read_ok read
    exact ⟨valid, ⟨file, current, found, decoded, by simpa using refuse_ok fresh⟩, same⟩

theorem status_ok (h : policy.status id store = .ok t) :
    ∃ file, store.lookup id = some file ∧ OperationStore.decode policy id file = .ok t := by
  unfold status at h
  obtain ⟨found, read, h⟩ := bind_ok h
  split at h
  · cases h
  · cases h
    exact store_read_ok read

/-- What one access of a caller does to the store. -/
inductive Access (policy : TaskPolicy) (caller : Caller) (store store' : OperationStore) : Prop
  | quiet : store' = store → Access policy caller store store'
  | created (t : OperationTask) : Valid policy t → t.recordProvenance = .current →
      t.cancellationRequestedAt = none ∧ t.state = .pending → t.operationId ∉ store →
      store' = store.insert t.operationId (.record false t) → Access policy caller store store'
  | saved (call : ManagerCall) (tries : Nat) (seen updated : OperationTask) (reply : ManagerReply)
      (file : OperationFile) (current : OperationTask) :
      caller = .saving call tries seen updated reply → Valid policy updated →
      store.lookup updated.operationId = some file →
      OperationStore.decode policy updated.operationId file = .ok current →
      current.updatedAt = seen.updatedAt →
      store' = store.insert updated.operationId (.record false updated) →
      Access policy caller store store'

theorem next_access (caller : Caller) :
    Access policy caller store (caller.next policy clock store).2 := by
  fun_cases Caller.next policy clock store caller
  case case2 new now tries task store' made =>
    obtain ⟨t, fresh, made⟩ := bind_ok made
    obtain ⟨after, made, same⟩ := bind_ok made
    cases same
    obtain ⟨valid, -, pending, current, uncancelled⟩ := newOperationTask_ok fresh
    obtain ⟨-, absent, same⟩ := store_create_ok made
    exact .created _ valid current ⟨uncancelled, pending⟩ absent same
  case case6 call tries seen updated reply store' made =>
    obtain ⟨valid, ⟨file, current, found, decoded, stamp⟩, same⟩ := store_save_ok made
    exact .saved call tries seen updated reply file current rfl valid found decoded stamp same
  all_goals exact .quiet rfl

/-- A caller that is about to save has just read the record and planned its call. -/
theorem next_saving {caller : Caller} {call : ManagerCall} {tries : Nat}
    {seen updated : OperationTask} {reply : ManagerReply}
    (h : (caller.next policy clock store).1 = .saving call tries seen updated reply) :
    caller = .calling call tries ∧ policy.status call.operationId store = .ok seen ∧
      policy.plan clock seen call = .ok ⟨some updated, reply⟩ ∧
      (caller.next policy clock store).2 = store := by
  revert h
  fun_cases Caller.next policy clock store caller
  case case5 call' tries' other seen' updated' reply' made =>
    intro h
    obtain ⟨seen, found, made⟩ := bind_ok made
    obtain ⟨plan, planned, same⟩ := bind_ok made
    cases same
    cases h
    exact ⟨rfl, found, planned, rfl⟩
  case case9 not_saving =>
    intro h
    exact (not_saving _ _ _ _ _ h).elim
  all_goals intro h; cases h

/-- A caller reads again only after a save that came too late. -/
theorem next_calling {caller : Caller} {call : ManagerCall} {tries : Nat}
    (h : (caller.next policy clock store).1 = .calling call tries) :
    ∃ before seen updated reply, caller = .saving call before seen updated reply := by
  revert h
  fun_cases Caller.next policy clock store caller
  case case7 call' tries' seen updated reply error failed retry =>
    intro h
    cases h
    exact ⟨tries', seen, updated, reply, rfl⟩
  case case9 not_calling _ =>
    intro h
    exact (not_calling _ _ h).elim
  all_goals intro h; cases h

theorem next_idle {caller : Caller} (h : (caller.next policy clock store).1 = .idle) :
    caller = .idle := by
  revert h
  fun_cases Caller.next policy clock store caller
  case case9 => exact fun h => h
  all_goals intro h; cases h

end Store

end RepoForge

/-!
# The operation store under concurrent callers

`ManagerInv` holds from the empty store on, in every interleaving of the accesses of any
number of callers: every file is a valid record of its own operation, and a caller that is
about to save has planned its call on the record that stands there or on an earlier one.
Stamps only grow, so the save that finds the stamp it expects finds the very record it was
planned on: `step_change` is what a step can do to the store.
-/
namespace RepoForge

variable {policy : TaskPolicy} {store : OperationStore} {s : ManagerSystem} {l : ManagerLabel}

/-- Every file is a valid record under its own name. -/
def Recorded (policy : TaskPolicy) (store : OperationStore) : Prop :=
  ∀ id file, store.lookup id = some file → ∃ t : OperationTask, file = .record false t ∧
    t.operationId = id ∧ Valid policy t ∧ t.recordProvenance = .current

/-- The call in flight was planned on the record that stands in the store or an earlier one. -/
def Held (store : OperationStore) : Caller → Prop
  | .saving call _ seen updated _ => CallWritten call seen updated ∧
      ∃ t, store.lookup seen.operationId = some (.record false t) ∧
        (t = seen ∨ seen.updatedAt.Before t.updatedAt)
  | _ => True

structure ManagerInv (policy : TaskPolicy) (s : ManagerSystem) : Prop where
  recorded : Recorded policy s.store
  held : ∀ p, Held s.store (s.callers p)

theorem Recorded.decoded (h : Recorded policy store) {id : Text} {file : OperationFile}
    {t : OperationTask} (found : store.lookup id = some file)
    (decoded : OperationStore.decode policy id file = .ok t) :
    file = .record false t ∧ t.operationId = id := by
  obtain ⟨t', rfl, named, valid, current⟩ := h id file found
  simp only [OperationStore.decode, named, ne_eq, not_true, if_false, valid.normalize current]
    at decoded
  cases decoded
  exact ⟨rfl, named⟩

theorem Recorded.insert (h : Recorded policy store) {t : OperationTask} (valid : Valid policy t)
    (current : t.recordProvenance = .current) :
    Recorded policy (store.insert t.operationId (.record false t)) := by
  intro id file found
  by_cases same : id = t.operationId
  · subst same
    rw [AList.lookup_insert] at found
    cases found
    exact ⟨t, rfl, rfl, valid, current⟩
  · rw [AList.lookup_insert_ne same] at found
    exact h id file found

/-- A step moves its own caller only. -/
theorem callers_other {q : Nat} (other : q ≠ l.caller) :
    (s.step policy l).callers q = s.callers q := by
  cases l with
  | begin p call => exact Function.update_of_ne other _ _
  | advance p clock => exact Function.update_of_ne other _ _

/-- What a step does to the store. -/
inductive Change (policy : TaskPolicy) (s : ManagerSystem) (l : ManagerLabel)
    (store' : OperationStore) : Prop
  | quiet : store' = s.store → Change policy s l store'
  | created (t : OperationTask) : Valid policy t → t.recordProvenance = .current →
      t.cancellationRequestedAt = none ∧ t.state = .pending → t.operationId ∉ s.store →
      store' = s.store.insert t.operationId (.record false t) → Change policy s l store'
  | replaced (p : Nat) (clock : Stamp) (call : ManagerCall) (tries : Nat) (t t' : OperationTask)
      (reply : ManagerReply) : l = .advance p clock →
      s.callers p = .saving call tries t t' reply → CallWritten call t t' → Valid policy t' →
      s.store.lookup t.operationId = some (.record false t) →
      store' = s.store.insert t.operationId (.record false t') → Change policy s l store'

theorem step_change (inv : ManagerInv policy s) (l : ManagerLabel) :
    Change policy s l (s.step policy l).store := by
  cases l with
  | begin p call => exact .quiet rfl
  | advance p clock =>
    change Change policy s _ ((s.callers p).next policy clock s.store).2
    have access : Access policy (s.callers p) s.store ((s.callers p).next policy clock s.store).2 :=
      next_access (s.callers p)
    cases access with
    | quiet same => exact .quiet same
    | created t valid current fresh absent same => exact .created t valid current fresh absent same
    | saved call tries seen updated reply file current phase valid found decoded stamp same =>
      have held := inv.held p
      rw [phase] at held
      obtain ⟨written, t, stands, latest⟩ := held
      rw [written.operationId] at found decoded same
      obtain ⟨rfl, -⟩ := inv.recorded.decoded found decoded
      rw [stands] at found
      cases found
      -- a later record would have a later stamp
      have own : current = seen := by
        rcases latest with own | later
        · exact own
        · rw [stamp] at later
          exact later.irrefl.elim
      subst own
      exact .replaced p clock call tries current updated reply rfl phase written valid stands same

/-- The records only grow later. -/
theorem Change.stands {store' : OperationStore} (h : Change policy s l store') {id : Text}
    {t : OperationTask} (found : s.store.lookup id = some (.record false t)) :
    ∃ t', store'.lookup id = some (.record false t') ∧
      (t' = t ∨ t.updatedAt.Before t'.updatedAt) := by
  cases h with
  | quiet same => exact ⟨t, same ▸ found, .inl rfl⟩
  | created new valid current fresh absent same =>
    have other : id ≠ new.operationId := by
      rintro rfl
      rw [AList.lookup_eq_none.mpr absent] at found
      cases found
    refine ⟨t, ?_, .inl rfl⟩
    rw [same, AList.lookup_insert_ne other]
    exact found
  | replaced p clock call tries old new reply label phase written valid stands same =>
    by_cases own : id = old.operationId
    · subst own
      rw [stands] at found
      cases found
      refine ⟨new, ?_, .inr written.later⟩
      rw [same]
      exact AList.lookup_insert _
    · refine ⟨t, ?_, .inl rfl⟩
      rw [same, AList.lookup_insert_ne own]
      exact found

theorem Held.change {store' : OperationStore} (h : Change policy s l store') {caller : Caller}
    (held : Held s.store caller) : Held store' caller := by
  cases caller with
  | saving call tries seen updated reply =>
    obtain ⟨written, t, stands, latest⟩ := held
    obtain ⟨t', stands', moved⟩ := h.stands stands
    refine ⟨written, t', stands', ?_⟩
    rcases moved with rfl | later
    · exact latest
    · rcases latest with rfl | earlier
      · exact .inr later
      · exact .inr (earlier.trans later)
  | idle => trivial
  | calling call tries => trivial
  | returned outcome => trivial

/-- Every step keeps the invariant. -/
theorem ManagerInv.step (inv : ManagerInv policy s) (l : ManagerLabel) :
    ManagerInv policy (s.step policy l) := by
  have change := step_change inv l
  refine ⟨?_, ?_⟩
  · cases change with
    | quiet same =>
      rw [same]
      exact inv.recorded
    | created t valid current fresh absent same =>
      rw [same]
      exact inv.recorded.insert valid current
    | replaced p clock call tries t t' reply label phase written valid stands same =>
      obtain ⟨u, own, -, -, current⟩ := inv.recorded _ _ stands
      cases own
      rw [same, ← written.operationId]
      exact inv.recorded.insert valid (written.recordProvenance.trans current)
  · intro q
    have kept := (inv.held q).change change
    cases l with
    | begin p call =>
      by_cases own : q = p
      · subst own
        simp only [ManagerSystem.step, Function.update_self]
        trivial
      · simp only [ManagerSystem.step, Function.update_of_ne own]
        exact kept
    | advance p clock =>
      by_cases own : q = p
      · subst own
        simp only [ManagerSystem.step, Function.update_self]
        cases phase : ((s.callers q).next policy clock s.store).1 with
        | saving call tries seen updated reply =>
          obtain ⟨-, found, planned, same⟩ := next_saving phase
          obtain ⟨file, found, decoded⟩ := status_ok found
          obtain ⟨rfl, named⟩ := inv.recorded.decoded found decoded
          rw [same]
          exact ⟨plan_ok planned, seen, named ▸ found, .inl rfl⟩
        | idle => trivial
        | calling call tries => trivial
        | returned outcome => trivial
      · simp only [ManagerSystem.step, Function.update_of_ne own]
        exact kept

theorem ManagerInv.start : ManagerInv policy .start where
  recorded id file found := by cases found
  held p := trivial

/-- From the empty store on, in every run. -/
theorem ManagerInv.throughout (labels : List ManagerLabel) :
    Runs.Throughout (ManagerSystem.step policy) (ManagerInv policy) .start labels :=
  Runs.Along.invariant (P := fun _ _ => True) (fun _ l inv _ => inv.step l)
    (fun _ _ _ _ => trivial) ManagerInv.start

end RepoForge
