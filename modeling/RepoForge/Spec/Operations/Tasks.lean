import RepoForge.Source.Operations.OperationTask
import RepoForge.Source.Operations.WorkItem

/-!
# What the functions on operation records return

One lemma for each function of `operation_task.py`: where it returns, the record it returns is
the old one with exactly these fields changed, later by its stamp, and valid.
-/
namespace RepoForge

open TaskPolicy

variable {policy : TaskPolicy} {t t' : OperationTask}

theorem refuse_ok {bad : Prop} [Decidable bad] {error : OperationError} {u : Unit}
    (h : refuse bad error = .ok u) : ¬ bad := by
  unfold refuse at h
  split at h
  · cases h
  · assumption

/-- The first stamp denotes an earlier instant. -/
def Stamp.Before (a b : Stamp) : Prop :=
  ∃ x y, a.parsed = .aware x ∧ b.parsed = .aware y ∧ x.instant < y.instant

theorem Stamp.Before.trans {a b c : Stamp} (first : a.Before b) (then_ : b.Before c) :
    a.Before c := by
  obtain ⟨x, y, ha, hb, lt⟩ := first
  obtain ⟨y', z, hb', hc, lt'⟩ := then_
  rw [hb] at hb'
  cases hb'
  exact ⟨x, z, ha, hc, Int.lt_trans lt lt'⟩

theorem Stamp.Before.irrefl {a : Stamp} (h : a.Before a) : False := by
  obtain ⟨x, y, hx, hy, lt⟩ := h
  rw [hx] at hy
  cases hy
  exact Int.lt_irrefl _ lt

/-- The record passes `validate_operation_task`. -/
def Valid (policy : TaskPolicy) (t : OperationTask) : Prop :=
  policy.validateOperationTask t = .ok t

theorem parseTimestamp_ok {stamp : Stamp} {field : String} {value : DateTime}
    (h : parseTimestamp stamp field = .ok value) : stamp.parsed = .aware value := by
  unfold parseTimestamp at h
  split at h
  · cases h
  · cases h
  · rename_i found
    cases h
    exact found

theorem nextTimestamp_ok {previous candidate stamp : Stamp}
    (h : policy.nextTimestamp previous candidate = .ok stamp) : previous.Before stamp := by
  unfold nextTimestamp at h
  obtain ⟨before, parsed, h⟩ := bind_ok h
  obtain ⟨now, -, h⟩ := bind_ok h
  have previous_at := parseTimestamp_ok parsed
  split at h
  · rename_i early
    obtain ⟨-, -, h⟩ := bind_ok h
    cases h
    refine ⟨before, _, previous_at, rfl, ?_⟩
    simp only [nextOperationTimestamp, early, if_true]
    exact Int.lt_succ before.instant
  · rename_i late
    cases h
    exact ⟨before, now, previous_at, rfl, Int.not_le.mp late⟩

/-- A record comes out of its validation as it went in. -/
theorem validate_ok (h : policy.validateOperationTask t = .ok t') : t' = t ∧ Valid policy t := by
  have same : t' = t := by
    unfold validateOperationTask at h
    iterate 8 obtain ⟨-, -, h⟩ := bind_ok h
    cases h
    rfl
  subst same
  exact ⟨rfl, h⟩

theorem sortedSet_eq_nil {texts : List Text} : sortedSet texts = [] ↔ texts = [] := by
  rw [sortedSet, ← List.length_eq_zero_iff, List.length_insertionSort, List.length_eq_zero_iff,
    List.dedup_eq_nil]

theorem diagnose_eq_nil {found : Bool} {text : String} :
    diagnose found text = [] ↔ found = false := by
  unfold diagnose
  split
  · rename_i yes
    simp [yes]
  · rename_i no
    simpa using no

section Current

/-- A valid record that was never found inconsistent has no diagnostic. -/
theorem Valid.consistent (valid : Valid policy t) (current : t.recordProvenance = .current) :
    t.recordConsistency = .consistent ∧ t.recordDiagnostics = [] ∧
      operationRecordInconsistencies t = [] := by
  unfold Valid validateOperationTask at valid
  iterate 6 obtain ⟨-, -, valid⟩ := bind_ok valid
  obtain ⟨_, checked, -⟩ := bind_ok valid
  rw [validateCurrent, if_pos current] at checked
  obtain ⟨_, quiet, lawful⟩ := bind_ok checked
  have quiet := refuse_ok quiet
  have lawful := refuse_ok lawful
  simp only [ne_eq, not_or, not_not] at quiet lawful
  exact ⟨quiet.1, quiet.2, lawful⟩

theorem consistent_phase (lawful : operationRecordInconsistencies t = [])
    (terminal : t.state.terminal = true) : t.phase = t.state.value := by
  simp only [operationRecordInconsistencies, sortedSet_eq_nil, List.append_eq_nil_iff,
    diagnose_eq_nil] at lawful
  simpa [terminal] using lawful.1.1.1.1.1

/-- The owner and the lease stand together, and only in a running record. -/
theorem consistent_ownership (lawful : operationRecordInconsistencies t = []) :
    t.ownerId.isSome = t.leaseExpiresAt.isSome ∧ (t.ownerId ≠ none → t.state = .running) := by
  simp only [operationRecordInconsistencies, sortedSet_eq_nil, List.append_eq_nil_iff,
    diagnose_eq_nil] at lawful
  obtain ⟨⟨-, together⟩, alone⟩ := lawful
  constructor
  · cases owner : t.ownerId <;> cases lease : t.leaseExpiresAt <;> simp_all
  · intro owned
    simpa [owned] using alone

/-- Such a record is read as it was written. -/
theorem Valid.normalize (valid : Valid policy t) (current : t.recordProvenance = .current) :
    policy.normalizeLoadedOperation t false = .ok t := by
  obtain ⟨consistent, quiet, lawful⟩ := valid.consistent current
  have schema : t.schemaVersion = 2 := by
    have fields := valid
    unfold Valid validateOperationTask at fields
    obtain ⟨_, fields, -⟩ := bind_ok fields
    obtain ⟨_, schema, -⟩ := bind_ok fields
    simpa using refuse_ok schema
  have phase : (if t.state.terminal then t.state.value else t.phase) = t.phase := by
    split
    · rename_i terminal
      exact (consistent_phase lawful terminal).symm
    · rfl
  have nothing : sortedSet [] = [] := rfl
  simp only [normalizeLoadedOperation, lawful, quiet, phase, List.append_nil, nothing, ne_eq,
    not_true, if_false, Bool.false_eq_true]
  rw [← consistent, ← quiet, ← schema]
  exact valid

end Current

section Functions

variable {now : Stamp}

/-- The record of `new_operation_task`. -/
theorem newOperationTask_ok {new : NewOperation} (h : policy.newOperationTask new now = .ok t) :
    Valid policy t ∧ t.operationId = new.operationId ∧ t.state = .pending ∧
      t.recordProvenance = .current ∧ t.cancellationRequestedAt = none := by
  unfold newOperationTask at h
  iterate 6 obtain ⟨-, -, h⟩ := bind_ok h
  obtain ⟨rfl, valid⟩ := validate_ok h
  exact ⟨valid, rfl, rfl, rfl, rfl⟩

/-- A transition leaves the record alone or moves it along the table. -/
theorem transitionOperation_ok {state : OperationState} {data : TransitionData}
    (h : policy.transitionOperation t state data now = .ok t') :
    state = t.state ∧ t' = t ∨
    state ∈ t.state.allowed ∧ Valid policy t' ∧ ∃ stamp consistency diagnostics,
      t.updatedAt.Before stamp ∧
      t' = { policy.transitioned t state data stamp with
        recordConsistency := consistency, recordDiagnostics := diagnostics } := by
  unfold transitionOperation at h
  obtain ⟨-, -, h⟩ := bind_ok h
  split at h
  · rename_i same
    obtain ⟨-, -, h⟩ := bind_ok h
    cases h
    exact .inl ⟨same, rfl⟩
  · obtain ⟨_, legal, h⟩ := bind_ok h
    iterate 4 obtain ⟨-, -, h⟩ := bind_ok h
    obtain ⟨stamp, later, h⟩ := bind_ok h
    have legal : state ∈ t.state.allowed := by simpa using refuse_ok legal
    have before := nextTimestamp_ok later
    split at h
    · obtain ⟨rfl, valid⟩ := validate_ok h
      exact .inr ⟨legal, valid, stamp, _, _, before, rfl⟩
    · obtain ⟨rfl, valid⟩ := validate_ok h
      exact .inr ⟨legal, valid, stamp, _, _, before, rfl⟩

theorem requeueOperation_ok (h : policy.requeueOperation t now = .ok t') :
    t.state = .running ∧ Valid policy t' ∧ ∃ stamp, t.updatedAt.Before stamp ∧
      t' = { t with
        state := .pending
        phase := "queued".toList
        ownerId := none
        leaseExpiresAt := none
        progressMessage := some "Recovered after worker loss before child start".toList
        errorCode := none
        errorMessage := none
        retryability := .automatic
        updatedAt := stamp } := by
  unfold requeueOperation at h
  obtain ⟨-, -, h⟩ := bind_ok h
  obtain ⟨_, running, h⟩ := bind_ok h
  obtain ⟨stamp, later, h⟩ := bind_ok h
  obtain ⟨rfl, valid⟩ := validate_ok h
  exact ⟨by simpa using refuse_ok running, valid, stamp, nextTimestamp_ok later, rfl⟩

theorem claimOperationOwnership_ok {ownerId : Text} {leaseExpiresAt : Stamp} {attempt : Option Int}
    (h : policy.claimOperationOwnership t ownerId leaseExpiresAt now attempt = .ok t') :
    t.state = .running ∧ t.attempt ≤ attempt.getD t.attempt ∧ Valid policy t' ∧
    ∃ stamp lease, t.updatedAt.Before stamp ∧
      t' = { t with
        ownerId := some ownerId
        leaseExpiresAt := some lease
        attempt := attempt.getD t.attempt
        updatedAt := stamp } := by
  unfold claimOperationOwnership at h
  obtain ⟨-, -, h⟩ := bind_ok h
  obtain ⟨_, running, h⟩ := bind_ok h
  obtain ⟨-, -, h⟩ := bind_ok h
  obtain ⟨_, grown, h⟩ := bind_ok h
  obtain ⟨time, -, h⟩ := bind_ok h
  obtain ⟨lease, -, h⟩ := bind_ok h
  obtain ⟨-, -, h⟩ := bind_ok h
  obtain ⟨-, -, h⟩ := bind_ok h
  obtain ⟨stamp, later, h⟩ := bind_ok h
  obtain ⟨rfl, valid⟩ := validate_ok h
  have running : t.state = .running := by simpa using refuse_ok running
  have grown : t.attempt ≤ attempt.getD t.attempt := by simpa using refuse_ok grown
  exact ⟨running, grown, valid, stamp, _, nextTimestamp_ok later, rfl⟩

theorem renewOperationOwnership_ok {ownerId : Text} {leaseExpiresAt : Stamp}
    (h : policy.renewOperationOwnership t ownerId leaseExpiresAt now = .ok t') :
    t.state = .running ∧ t.ownerId = some ownerId ∧ Valid policy t' ∧
    ∃ stamp lease, t.updatedAt.Before stamp ∧
      t' = { t with ownerId := some ownerId, leaseExpiresAt := some lease, updatedAt := stamp } := by
  unfold renewOperationOwnership at h
  obtain ⟨-, -, h⟩ := bind_ok h
  obtain ⟨-, -, h⟩ := bind_ok h
  obtain ⟨_, owned, h⟩ := bind_ok h
  have owned := refuse_ok owned
  simp only [ne_eq, not_or, not_not] at owned
  obtain ⟨running, -, valid, claimed⟩ := claimOperationOwnership_ok h
  exact ⟨running, owned.2, valid, claimed⟩

theorem updateOperationProgress_ok {data : ProgressData}
    (h : policy.updateOperationProgress t data now = .ok t') :
    t.state = .running ∧ (data.phase = t.phase → t.progressCurrent ≤ data.current) ∧
    Valid policy t' ∧ ∃ stamp, t.updatedAt.Before stamp ∧
      t' = { t with
        phase := data.phase
        progressCurrent := data.current
        progressTotal := data.total
        progressUnit := data.unit
        progressMessage := policy.sanitize data.message
        updatedAt := stamp } := by
  unfold updateOperationProgress at h
  obtain ⟨-, -, h⟩ := bind_ok h
  obtain ⟨_, running, h⟩ := bind_ok h
  obtain ⟨-, -, h⟩ := bind_ok h
  obtain ⟨-, -, h⟩ := bind_ok h
  obtain ⟨_, forward, h⟩ := bind_ok h
  obtain ⟨-, -, h⟩ := bind_ok h
  obtain ⟨-, -, h⟩ := bind_ok h
  obtain ⟨stamp, later, h⟩ := bind_ok h
  obtain ⟨rfl, valid⟩ := validate_ok h
  have running : t.state = .running := by simpa using refuse_ok running
  have forward : data.phase = t.phase → t.progressCurrent ≤ data.current := by
    simpa using refuse_ok forward
  exact ⟨running, forward, valid, stamp, nextTimestamp_ok later, rfl⟩

theorem requestOperationCancellation_ok {decision : OperationCancellationDecision}
    (h : policy.requestOperationCancellation t now = .ok decision) :
    decision.task = t ∨
    t.state.terminal = false ∧ Valid policy decision.task ∧ ∃ stamp, t.updatedAt.Before stamp ∧
      decision.task = { t with cancellationRequestedAt := some stamp, updatedAt := stamp } := by
  unfold requestOperationCancellation at h
  obtain ⟨-, -, h⟩ := bind_ok h
  split at h
  · cases h
    exact .inl rfl
  · rename_i active
    split at h
    · cases h
      exact .inl rfl
    · split at h
      · cases h
        exact .inl rfl
      · obtain ⟨stamp, later, h⟩ := bind_ok h
        obtain ⟨updated, valid, h⟩ := bind_ok h
        obtain ⟨rfl, valid⟩ := validate_ok valid
        cases h
        exact .inr ⟨by simpa using active, valid, stamp, nextTimestamp_ok later, rfl⟩

end Functions

end RepoForge

/-!
## The queue under any interleaving

Every saved change of a work item is one of the four commands applied to the item that
stands in the queue (`step_effect`), because `updated_at` rises with every change
(`work_advances`). What each command asks of the item and leaves in it is said once here.
-/
namespace RepoForge

open CompareAndSave

theorem lt_nextOperationTimestamp (previous candidate : Timestamp) :
    previous < nextOperationTimestamp previous candidate := by
  unfold nextOperationTimestamp
  split
  · exact Int.lt_succ previous
  · rename_i late
    exact Int.not_le.mp late

section Commands

variable {item next : OperationWorkItem} {ownerId : Text} {attempt : Nat} {lease now : Timestamp}

theorem claim_ok (h : claimWorkItem item ownerId lease now = .ok next) :
    item.state = .queued ∧ next = { item with
      state := .claimed, attempt := item.attempt + 1, ownerId := some ownerId,
      leaseExpiresAt := some lease, updatedAt := nextOperationTimestamp item.updatedAt now } := by
  unfold claimWorkItem at h
  split at h
  · cases h
  · rename_i queued
    cases h
    exact ⟨by simpa using queued, rfl⟩

theorem requeue_ok (h : requeueUnstartedWork item now = .ok next) :
    item.childStarted = false ∧ next = { item with
      state := .queued, ownerId := none, leaseExpiresAt := none,
      updatedAt := nextOperationTimestamp item.updatedAt now } := by
  unfold requeueUnstartedWork at h
  split at h
  · cases h
  · rename_i unstarted
    cases h
    exact ⟨by simpa using unstarted, rfl⟩

theorem markStarted_ok (h : markWorkChildStarted item ownerId attempt now = .ok next) :
    (item.state = .claimed ∧ item.ownerId = some ownerId ∧ item.attempt = attempt) ∧
      ((item.childStarted = true ∧ next = item) ∨ (item.childStarted = false ∧ next = { item with
        childStarted := true, updatedAt := nextOperationTimestamp item.updatedAt now })) := by
  unfold markWorkChildStarted at h
  split at h
  · cases h
  · rename_i owned
    simp only [not_or, not_not] at owned
    split at h
    · rename_i started
      cases h
      exact ⟨owned, .inl ⟨started, rfl⟩⟩
    · rename_i unstarted
      cases h
      exact ⟨owned, .inr ⟨by simpa using unstarted, rfl⟩⟩

theorem renew_ok (h : renewWorkClaim item ownerId lease now = .ok next) :
    item.state = .claimed ∧ item.ownerId = some ownerId ∧ next = { item with
      leaseExpiresAt := some lease, updatedAt := nextOperationTimestamp item.updatedAt now } := by
  unfold renewWorkClaim at h
  split at h
  · cases h
  · rename_i owned
    simp only [not_or, not_not] at owned
    cases h
    exact ⟨owned.1, owned.2, rfl⟩

end Commands

/-- Every change of an item moves its `updated_at` on. -/
theorem work_advances : Advances WorkCommand.apply OperationWorkItem.updatedAt := by
  intro command item next ok
  cases command with
  | claim ownerId lease now =>
    obtain ⟨-, rfl⟩ := claim_ok ok
    exact .inl (lt_nextOperationTimestamp _ _)
  | renew ownerId lease now =>
    obtain ⟨-, -, rfl⟩ := renew_ok ok
    exact .inl (lt_nextOperationTimestamp _ _)
  | markStarted ownerId attempt now =>
    obtain ⟨-, ⟨-, rfl⟩ | ⟨-, rfl⟩⟩ := markStarted_ok ok
    · exact .inr rfl
    · exact .inl (lt_nextOperationTimestamp _ _)
  | requeue now =>
    obtain ⟨-, rfl⟩ := requeue_ok ok
    exact .inl (lt_nextOperationTimestamp _ _)

abbrev LinkedQueue (q : WorkQueue) : Prop := Linked WorkCommand.apply OperationWorkItem.updatedAt q

abbrev QueueEffect (q q' : WorkQueue) : Prop := Effect WorkCommand.apply q q'

namespace System

variable {s : System}

/-- What a step does to the queue: a call, or a deletion by a worker, or nothing. -/
theorem step_queue (s : System) (l : Label) :
    (∃ a, l = .call a ∧
      (s.step l).queue = s.queue.act WorkCommand.apply OperationWorkItem.updatedAt a) ∨
    (∃ operationId, (s.step l).queue = s.queue.delete operationId) ∨
    (s.step l).queue = s.queue := by
  cases l with
  | call a => exact .inl ⟨a, rfl, rfl⟩
  | operationMissing w =>
    simp only [step]
    split
    · rename_i c _
      exact .inr (.inl ⟨c.operationId, rfl⟩)
    · exact .inr (.inr rfl)
  | cleanedUp w =>
    simp only [step]
    split
    · rename_i c _
      exact .inr (.inl ⟨c.operationId, rfl⟩)
    · exact .inr (.inr rfl)
  | _ =>
    refine .inr (.inr ?_)
    simp only [step]
    first | rfl | (split <;> rfl)

theorem step_linked (linked : LinkedQueue s.queue) (l : Label) : LinkedQueue (s.step l).queue := by
  rcases step_queue s l with ⟨a, -, queue⟩ | ⟨operationId, queue⟩ | queue
  · rw [queue]
    exact linked.act work_advances a
  · rw [queue]
    exact linked.delete operationId
  · rw [queue]
    exact linked

theorem step_effect (linked : LinkedQueue s.queue) (l : Label) :
    QueueEffect s.queue (s.step l).queue := by
  rcases step_queue s l with ⟨a, -, queue⟩ | ⟨operationId, queue⟩ | queue
  · rw [queue]
    exact Store.act_effect linked a
  · exact .deleted operationId (by rw [queue]; rfl) (by rw [queue]; rfl)
  · exact .quiet (by rw [queue]) (by rw [queue])

/-- The system before the first step: only fresh items, and nobody at work. -/
structure Fresh (s : System) : Prop where
  records : ∀ operationId e, s.queue.records operationId = some e →
    e.value.state = .queued ∧ e.value.childStarted = false
  calls : ∀ t, s.queue.calls t = none
  saved : s.queue.saved = []
  results : ∀ operationId, s.results operationId = none
  workers : ∀ w, s.workers w = .idle

theorem newWorkItem_ok {operationId : Text} {request : OperationWorkRequest} {now : Timestamp}
    {item : OperationWorkItem} (h : newWorkItem operationId request now = .ok item) :
    item.state = .queued ∧ item.childStarted = false := by
  unfold newWorkItem at h
  split at h
  · cases h
  · split at h
    · cases h
    · cases h
      exact ⟨rfl, rfl⟩

theorem Fresh.admitted (fresh : Fresh s) (operationId : Text) (request : OperationWorkRequest)
    (now : Timestamp) : Fresh (s.admitted operationId request now) := by
  unfold System.admitted
  split
  · rename_i item made _
    refine ⟨fun other e found => ?_, fresh.calls, fresh.saved, fresh.results, fresh.workers⟩
    by_cases same : other = operationId
    · subst same
      simp only [Function.update_self, Option.some.injEq] at found
      subst found
      exact newWorkItem_ok made
    · simp only [Function.update_of_ne same] at found
      exact fresh.records other e found
  · exact fresh

theorem start_fresh : ∀ requests, Fresh (start requests)
  | [] => ⟨fun _ _ h => (by cases h), fun _ => rfl, rfl, fun _ => rfl, fun _ => rfl⟩
  | (operationId, request, now) :: rest => (start_fresh rest).admitted operationId request now

/-- Induction over a run: what holds at the start and survives each step holds after it. -/
theorem run_induction {I : System → Prop} (each : ∀ s l, I s → I (s.step l)) :
    ∀ (labels : List Label) (s : System), I s → I (s.run labels)
  | [], _, h => h
  | l :: rest, s, h => run_induction each rest (s.step l) (each s l h)

end System

end RepoForge
