import RepoForge.Spec.Operations.ManagerCalls
import RepoForge.Spec.Operations.AdmissionRuns

/-!
# The lifecycle of operations

From the empty store on, under any number of callers of the manager, whatever they ask for,
however their accesses interleave and whatever the clock shows. `operation_lifecycle` is
about every state and every write of such a run.

`no_success_after_cancel` is the same for the rule that a cancelled operation does not
succeed: `_save_transition` asks for the cancellation, `reconcile_success` does not, and
`reconciled_after_cancel` is the run that shows it.
-/
namespace RepoForge

variable {policy : TaskPolicy} {s : ManagerSystem} {l : ManagerLabel} {id phase : Text}

/-- A stored record passes its validation and is owned only while it runs. -/
def LawfulRecord (policy : TaskPolicy) (id : Text) (file : OperationFile) : Prop :=
  ∃ t : OperationTask, file = .record false t ∧ t.operationId = id ∧ Valid policy t ∧
    t.ownerId.isSome = t.leaseExpiresAt.isSome ∧ (t.ownerId ≠ none → t.state = .running)

/-- What a write of this call may do to a record. -/
structure LawfulWrite (call : ManagerCall) (t t' : OperationTask) : Prop where
  later : t.updatedAt.Before t'.updatedAt
  attempt : t.attempt ≤ t'.attempt
  progress : t.state = .running → t'.state = .running → t'.phase = t.phase →
    t.progressCurrent ≤ t'.progressCurrent
  terminal : t.state.terminal = true → Reconciles call t

/-- The step leaves the record alone, creates it, or is the save of a call that keeps the
rules. -/
def LawfulStep (policy : TaskPolicy) (id : Text) (s : ManagerSystem) (l : ManagerLabel) : Prop :=
  (s.step policy l).store.lookup id = s.store.lookup id ∨ id ∉ s.store ∨
  ∃ p clock call tries t t' reply, l = .advance p clock ∧
    s.callers p = .saving call tries t t' reply ∧
    s.store.lookup id = some (.record false t) ∧
    (s.step policy l).store.lookup id = some (.record false t') ∧ LawfulWrite call t t'

/-- The operation runs, in this phase. -/
def RunsIn (id phase : Text) (s : ManagerSystem) : Prop :=
  ∃ t : OperationTask, s.store.lookup id = some (.record false t) ∧ t.state = .running ∧
    t.phase = phase

theorem ManagerInv.lawful (inv : ManagerInv policy s) {file : OperationFile}
    (found : s.store.lookup id = some file) : LawfulRecord policy id file := by
  obtain ⟨t, same, named, valid, current⟩ := inv.recorded id file found
  obtain ⟨-, -, lawful⟩ := valid.consistent current
  obtain ⟨together, only⟩ := consistent_ownership lawful
  exact ⟨t, same, named, valid, together, only⟩

theorem ManagerInv.lawfulStep (inv : ManagerInv policy s) : LawfulStep policy id s l := by
  unfold LawfulStep
  cases step_change inv l with
  | quiet same => exact .inl (by rw [same])
  | created t valid current fresh absent same =>
    by_cases own : id = t.operationId
    · exact .inr (.inl (own ▸ absent))
    · exact .inl (by rw [same, AList.lookup_insert_ne own])
  | replaced p clock call tries t t' reply label caller written valid stands same =>
    by_cases own : id = t.operationId
    · subst own
      have terminal : t.state.terminal = true → Reconciles call t := by
        intro ended
        rcases written.active with active | reconciles
        · rw [ended] at active
          cases active
        · exact reconciles
      refine .inr (.inr ⟨p, clock, call, tries, t, t', reply, label, caller, stands, ?_,
        written.later, written.attempt, written.progress, terminal⟩)
      rw [same]
      exact AList.lookup_insert _
    · exact .inl (by rw [same, AList.lookup_insert_ne own])

/-- Within a stretch of a run in which the operation runs in one phase, its progress does not
fall. -/
theorem stretch_progress {labels : List ManagerLabel} {t t' : OperationTask}
    (lawful : Runs.Along (ManagerSystem.step policy) (LawfulStep policy id) s labels)
    (stretch : Runs.Throughout (ManagerSystem.step policy) (RunsIn id phase) s labels)
    (first : s.store.lookup id = some (.record false t))
    (last : (Runs.run (ManagerSystem.step policy) s labels).store.lookup id =
      some (.record false t')) :
    t.progressCurrent ≤ t'.progressCurrent := by
  have kept : Runs.Throughout (ManagerSystem.step policy) (fun s => ∃ u : OperationTask,
      s.store.lookup id = some (.record false u) ∧ t.progressCurrent ≤ u.progressCurrent)
      s labels := by
    refine (lawful.both stretch.along).invariant ?_ ⟨t, first, le_rfl⟩
    rintro s l ⟨u, found, low⟩ ⟨step, ⟨v, found', running, in_phase⟩, w, found'', running', in_phase'⟩
    rw [found] at found'
    cases found'
    refine ⟨w, found'', ?_⟩
    rcases step with same | absent | ⟨p, clock, call, tries, x, x', reply, -, -, old, new, write⟩
    · rw [same, found] at found''
      cases found''
      exact low
    · rw [AList.lookup_eq_none.mpr absent] at found
      cases found
    · rw [found] at old
      cases old
      rw [found''] at new
      cases new
      exact low.trans (write.progress running running' (in_phase'.trans in_phase.symm))
  obtain ⟨u, found, low⟩ := kept.last
  rw [last] at found
  cases found
  exact low

/-- Every record ever stored is valid, and owned only while it runs; every write of a record
moves its stamp on, keeps its attempt from falling and its progress from moving back within a
phase, and replaces a terminal record only to reconcile the exact unknown effect; and over
any stretch of the run in which an operation runs in one phase, its progress does not fall. -/
theorem operation_lifecycle (policy : TaskPolicy) (labels : List ManagerLabel) :
    Runs.Throughout (ManagerSystem.step policy)
      (fun s => ∀ id file, s.store.lookup id = some file → LawfulRecord policy id file)
      .start labels ∧
    Runs.Along (ManagerSystem.step policy) (fun s l => ∀ id, LawfulStep policy id s l) .start labels ∧
    ∀ before stretch after, labels = before ++ stretch ++ after → ∀ id phase,
      Runs.Throughout (ManagerSystem.step policy) (RunsIn id phase)
        (ManagerSystem.run policy before) stretch → ∀ t t' : OperationTask,
      (ManagerSystem.run policy before).store.lookup id = some (.record false t) →
      (ManagerSystem.run policy (before ++ stretch)).store.lookup id = some (.record false t') →
      t.progressCurrent ≤ t'.progressCurrent := by
  have inv : Runs.Throughout (ManagerSystem.step policy) (ManagerInv policy) .start labels :=
    ManagerInv.throughout labels
  have lawful : Runs.Along (ManagerSystem.step policy) (fun s l => ∀ id, LawfulStep policy id s l)
      .start labels :=
    inv.along.imp fun s l inv id => inv.1.lawfulStep
  refine ⟨?_, lawful, ?_⟩
  · intro done rest split id file found
    exact (inv done rest split).lawful found
  · rintro before stretch after rfl id phase runs t t' first last
    have within := lawful.within
    rw [ManagerSystem.run, Runs.run_append] at last
    exact stretch_progress (within.imp fun s l step => step id) runs first last

section Cancellation

/-- `reconcile_success` reads the record it is meant for, with a cancellation requested. -/
def ReconcilesCancelled (s : ManagerSystem) (l : ManagerLabel) : Prop :=
  ∃ p clock call tries t, l = .advance p clock ∧ s.callers p = .calling call tries ∧
    s.store.lookup call.operationId = some (.record false t) ∧ Reconciles call t ∧
    t.cancellationRequestedAt ≠ none

/-- A success without a requested cancellation. -/
def Uncancelled (t : OperationTask) : Prop := t.state = .succeeded → t.cancellationRequestedAt = none

/-- No success has a requested cancellation, in the store or about to be saved. -/
structure CancelInv (policy : TaskPolicy) (s : ManagerSystem) : Prop extends ManagerInv policy s where
  stored : ∀ id t, s.store.lookup id = some (.record false t) → Uncancelled t
  planned : ∀ p call tries seen updated reply,
    s.callers p = .saving call tries seen updated reply → Uncancelled updated

theorem CancelInv.step (inv : CancelInv policy s) (free : ¬ ReconcilesCancelled s l) :
    CancelInv policy (s.step policy l) := by
  refine ⟨inv.toManagerInv.step l, ?_, ?_⟩
  · intro id t found
    cases step_change inv.toManagerInv l with
    | quiet same =>
      rw [same] at found
      exact inv.stored id t found
    | created new valid current fresh absent same =>
      rw [same] at found
      by_cases own : id = new.operationId
      · subst own
        rw [AList.lookup_insert] at found
        cases found
        exact fun _ => fresh.1
      · rw [AList.lookup_insert_ne own] at found
        exact inv.stored id t found
    | replaced p clock call tries old new reply label caller written valid stands same =>
      rw [same] at found
      by_cases own : id = old.operationId
      · subst own
        rw [AList.lookup_insert] at found
        cases found
        exact inv.planned p call tries old _ reply caller
      · rw [AList.lookup_insert_ne own] at found
        exact inv.stored id t found
  · intro q call tries seen updated reply caller
    cases l with
    | begin p other =>
      by_cases own : q = p
      · subst own
        simp only [ManagerSystem.step, Function.update_self] at caller
        cases caller
      · simp only [ManagerSystem.step, Function.update_of_ne own] at caller
        exact inv.planned q call tries seen updated reply caller
    | advance p clock =>
      by_cases own : q = p
      · subst own
        simp only [ManagerSystem.step, Function.update_self] at caller
        obtain ⟨calling, found, planned, -⟩ := next_saving caller
        obtain ⟨file, found, decoded⟩ := status_ok found
        obtain ⟨rfl, -⟩ := inv.recorded.decoded found decoded
        intro succeeded
        obtain ⟨kept, none | reconciles⟩ := (plan_ok planned).succeeded succeeded
        · rw [kept]
          exact none
        · rw [kept]
          by_contra requested
          exact free ⟨q, clock, call, tries, seen, rfl, calling, found, reconciles, requested⟩
      · simp only [ManagerSystem.step, Function.update_of_ne own] at caller
        exact inv.planned q call tries seen updated reply caller

/-- No operation is stored as succeeded with a requested cancellation, in every run in which
`reconcile_success` finds no requested cancellation in the record it reconciles. -/
theorem no_success_after_cancel (policy : TaskPolicy) (labels : List ManagerLabel)
    (free : Runs.Along (ManagerSystem.step policy) (fun s l => ¬ ReconcilesCancelled s l)
      .start labels) :
    Runs.Throughout (ManagerSystem.step policy)
      (fun s => ∀ id t, s.store.lookup id = some (.record false t) →
        ¬ (t.state = .succeeded ∧ t.cancellationRequestedAt ≠ none)) .start labels := by
  have start : CancelInv policy .start := by
    refine ⟨ManagerInv.start, ?_, ?_⟩
    · intro id t found
      cases found
    · intro p call tries seen updated reply caller
      cases caller
  have inv := free.invariant (fun s l (inv : CancelInv policy s) free => inv.step free) start
  rintro done rest split id t found ⟨succeeded, requested⟩
  exact requested ((inv done rest split).stored id t found succeeded)

namespace Sample

/-- A time of the first ten seconds of 2024, in UTC. -/
def second (n : Nat) : DateTime := ⟨63839664000000000 + 1000000 * n, 0⟩

def isoformat (time : DateTime) : Text :=
  "2024-01-01T00:00:0".toList ++
    [Nat.digitChar ((time.instant - (second 0).instant) / 1000000).toNat] ++ "+00:00".toList

/-- No message below has anything to redact. -/
def taskPolicy : TaskPolicy where
  sanitizeMessage message := some message
  isoformat := isoformat
  encodes _ := true

def clock (n : Nat) : Stamp := taskPolicy.stamp (second n)

def operationId : Text := "op-0123456789abcdef01234567".toList
def receiptId : Text := "receipt-0123456789abcdef01234567".toList

/-- One caller, one call after the other. -/
def calls : List ManagerCall → Nat → List ManagerLabel
  | [], _ => []
  | call :: rest, n => .begin 0 call :: .advance 0 (clock n) :: .advance 0 (clock n) :: calls rest (n + 1)

def newOperation : NewOperation where
  operationId := operationId
  kind := "workspace_push".toList
  phase := "queued".toList
  cancelSupported := true

/-- The cancellation comes while the operation runs; its effect is then found unknown and
reconciled. -/
def cancelled : List ManagerLabel := calls [
  .create newOperation none,
  .start operationId (some receiptId) none none none none,
  .requestCancel operationId none none,
  .fail operationId effectOutcomeUnknown none none none .none none none,
  .reconcileSuccess operationId "result-1".toList receiptId none] 0

/-- An ordinary success. -/
def succeeding : List ManagerLabel := calls [
  .create newOperation none,
  .start operationId (some receiptId) none none none none,
  .succeed operationId "result-1".toList none none none] 0

/-- The state of a record, and whether its cancellation was requested. -/
def outcome : Option OperationFile → Option (OperationState × Bool)
  | some (.record false t) => some (t.state, t.cancellationRequestedAt.isSome)
  | _ => none

/-- The step is the read of a `reconcile_success`. -/
def reconciling (s : ManagerSystem) : ManagerLabel → Bool
  | .advance p _ => match s.callers p with
    | .calling (.reconcileSuccess _ _ _ _) _ => true
    | _ => false
  | .begin _ _ => false

theorem outcome_some {file : Option OperationFile} {state : OperationState} {requested : Bool}
    (h : outcome file = some (state, requested)) : ∃ t, file = some (.record false t) ∧
      t.state = state ∧ t.cancellationRequestedAt.isSome = requested := by
  unfold outcome at h
  split at h
  · rename_i t
    cases h
    exact ⟨t, rfl, rfl, rfl⟩
  · cases h

theorem not_reconciling (h : reconciling s l = false) : ¬ ReconcilesCancelled s l := by
  rintro ⟨p, clock, call, tries, t, rfl, calling, -, ⟨id, result, receipt, now, rfl, -⟩, -⟩
  simp [reconciling, calling] at h

end Sample

/-- A success that is reported as usual. -/
theorem no_success_after_cancel_plain : ∃ t,
    (ManagerSystem.run Sample.taskPolicy Sample.succeeding).store.lookup Sample.operationId =
      some (.record false t) ∧ t.state = .succeeded ∧
    ¬ (t.state = .succeeded ∧ t.cancellationRequestedAt ≠ none) := by
  have free : Runs.Along (ManagerSystem.step Sample.taskPolicy)
      (fun s l => ¬ ReconcilesCancelled s l) .start Sample.succeeding := by
    iterate 9 refine Runs.along_cons.mpr ⟨Sample.not_reconciling (by decide +kernel), ?_⟩
    exact Runs.along_nil
  have evaluated : Sample.outcome ((ManagerSystem.run Sample.taskPolicy
      Sample.succeeding).store.lookup Sample.operationId) = some (.succeeded, false) := by
    decide +kernel
  obtain ⟨t, found, succeeded, -⟩ := Sample.outcome_some evaluated
  have kept := no_success_after_cancel Sample.taskPolicy Sample.succeeding free
  exact ⟨t, found, succeeded, kept.last Sample.operationId t found⟩

/-- The cancellation was requested, and the operation is reported as succeeded. -/
theorem reconciled_after_cancel : ∃ t,
    (ManagerSystem.run Sample.taskPolicy Sample.cancelled).store.lookup Sample.operationId =
      some (.record false t) ∧ t.state = .succeeded ∧ t.cancellationRequestedAt ≠ none := by
  have evaluated : Sample.outcome ((ManagerSystem.run Sample.taskPolicy
      Sample.cancelled).store.lookup Sample.operationId) = some (.succeeded, true) := by
    decide +kernel
  obtain ⟨t, found, succeeded, requested⟩ := Sample.outcome_some evaluated
  refine ⟨t, found, succeeded, ?_⟩
  intro none
  rw [none] at requested
  cases requested

end Cancellation

end RepoForge

/-!
## Identical work in flight

`admit` looks for an operation in flight with its request before it creates one of its own, and
between the two any other admission may do the same. `single_flight` is about the runs in which
no admission overlooks an operation: when it creates its item, every operation in flight with
an equal request was in the listing that it has gone through, and was read. In
`admitted_twice` two admissions list the empty queue, one after the other, and then both
create their work.
-/
namespace RepoForge

variable {s : AdmissionSystem} {l : AdmissionLabel}

namespace Sample

def workRequest : WorkRequest where
  workspaceId := "ws-1".toList
  expectedHeadSha := List.replicate 40 '0'
  expectedFingerprint := List.replicate 64 '0'
  configGeneration := 1
  form := .profile "full".toList

def admitCall : AdmitCall := ⟨workRequest, "workspace_verification".toList, none⟩

/-- An access that does not raise. -/
def access (digit : Char) : AdmitInput := ⟨none, false, List.replicate 24 digit, second 0⟩

def drawnId (digit : Char) : Text := "op-".toList ++ List.replicate 24 digit

/-- From the listing of the empty queue on, until the work is queued. -/
def queues (p : Nat) (digit : Char) : List AdmissionLabel :=
  [.advance p (access digit), .advance p (access digit), .advance p (access digit),
    .advance p (access digit)]

/-- Both admissions list the queue before one of them creates its work. -/
def twice : List AdmissionLabel :=
  [.admission 0 admitCall, .admission 1 admitCall, .advance 0 (access '0'), .advance 1 (access '1')] ++
    queues 0 '0' ++ queues 1 '1'

/-- The second admission comes when the first has returned. -/
def joined : List AdmissionLabel :=
  .admission 0 admitCall :: .advance 0 (access '0') :: queues 0 '0' ++
    [.admission 1 admitCall, .advance 1 (access '1'), .advance 1 (access '1'), .advance 1 (access '1'),
      .advance 1 (access '1')]

/-- The work is in flight. -/
def flying (id : Text) (s : AdmissionSystem) : Bool :=
  match s.manager.store.lookup id, s.queue.records id with
  | some (.record false t), some e => !t.state.terminal && e.value.request = workRequest
  | _, _ => false

theorem flying_inFlight {id : Text} (h : flying id s = true) : InFlight s id workRequest := by
  unfold flying at h
  split at h
  · rename_i t e found stands
    simp only [Bool.and_eq_true, Bool.not_eq_true', decide_eq_true_eq] at h
    exact ⟨⟨t, found, h.1⟩, e, stands, h.2⟩
  · cases h

/-- The step creates no item, or the first one. -/
def calm (s : AdmissionSystem) : AdmissionLabel → Bool
  | .advance p _ => match s.admits p with
    | .queueing _ _ _ _ _ => s.created.isEmpty
    | _ => true
  | _ => true

theorem calm_not_overlooks {policy : TaskPolicy} (inv : AdmitInv policy s) (h : calm s l = true) :
    ¬ Overlooks s l := by
  rintro ⟨p, input, call, sweep, operation, work, now, id, rfl, phase, -, ⟨-, e, found, -⟩, -⟩
  simp only [calm, phase, List.isEmpty_iff] at h
  have created := (inv.recorded id e found).2
  rw [h] at created
  cases created

theorem along_calm {policy : TaskPolicy} (labels : List AdmissionLabel) (inv : AdmitInv policy s)
    (h : Runs.passes (AdmissionSystem.step policy) calm s labels = true) :
    Runs.Along (AdmissionSystem.step policy) (fun s l => ¬ Overlooks s l) s labels := by
  induction labels generalizing s with
  | nil => exact Runs.along_nil
  | cons l labels ih =>
    simp only [Runs.passes, Bool.and_eq_true] at h
    have seen := calm_not_overlooks inv h.1
    exact Runs.along_cons.mpr ⟨seen, ih (inv.step seen) h.2⟩

/-- What an admission has returned. -/
def admitted (s : AdmissionSystem) (p : Nat) : Option Text :=
  match s.admits p with
  | .returned (.ok operation) => some operation.operationId
  | _ => none

end Sample

end RepoForge
