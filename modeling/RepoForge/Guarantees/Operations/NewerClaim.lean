import RepoForge.Guarantees.Operations.Lifecycle
import RepoForge.Source.Operations.Manager

/-!
# Requeueing and newer claims

Recovery decides on a record that it has listed, and `manager.requeue` reads the record again
without comparing the two. What it has read, its save replaces and nothing else: the stamp is
compared. So the claim that is moved back to the queue is the one that `manager.requeue` has
read, and `requeue_keeps_newer_claims` is about the runs in which it reads the claim that
recovery has inspected. In `requeue_revokes_newer_claim` a worker claims the item and starts
the operation between the two writes of recovery.
-/
namespace RepoForge

variable {policy : TaskPolicy} {codec : StateCodec OperationWorkItem} {s : RequeueSystem}
  {l : RequeueLabel}

/-- The same owner and attempt. -/
def SameClaim (t u : OperationTask) : Prop := t.ownerId = u.ownerId ∧ t.attempt = u.attempt

/-- A `manager.requeue` of recovery reads another claim than the one that recovery has
inspected. -/
def ReadsNewerClaim (s : RequeueSystem) (l : RequeueLabel) : Prop :=
  ∃ p clock operation call tries t, l = .advance p clock ∧ s.passes p = .requeueing operation ∧
    s.manager.callers p = .calling call tries ∧
    s.manager.store.lookup call.operationId = some (.record false t) ∧ ¬ SameClaim t operation

/-- A step of recovery's `manager.requeue` changes the record of a claim that recovery has not
inspected. -/
def RevokesNewerClaim (policy : TaskPolicy) (codec : StateCodec OperationWorkItem)
    (s : RequeueSystem) (l : RequeueLabel) : Prop :=
  ∃ p clock operation id t, l = .advance p clock ∧ s.passes p = .requeueing operation ∧
    s.manager.store.lookup id = some (.record false t) ∧ ¬ SameClaim t operation ∧
    (s.step policy codec l).manager.store.lookup id ≠ some (.record false t)

/-- The call of a pass in `manager.requeue`. -/
def RequeueCaller (operation : OperationTask) : Caller → Prop
  | .calling call _ => ∃ now, call = .requeue operation.operationId now
  | .saving call _ seen _ _ =>
    (∃ now, call = .requeue operation.operationId now) ∧ SameClaim seen operation
  | _ => False

structure RequeueInv (policy : TaskPolicy) (s : RequeueSystem) : Prop where
  manager : ManagerInv policy s.manager
  own : ∀ p operation, s.passes p = .requeueing operation →
    RequeueCaller operation (s.manager.callers p)

/-- The caller of a requeue after one access of its own: it has returned, or it goes on with
the claim that it read. -/
theorem RequeueCaller.next {m : ManagerSystem} {p : Nat} {clock : Stamp} {operation : OperationTask}
    (inv : ManagerInv policy m) (own : RequeueCaller operation (m.callers p))
    (reads : ∀ call tries t, m.callers p = .calling call tries →
      m.store.lookup call.operationId = some (.record false t) → SameClaim t operation) :
    (∃ outcome, (m.step policy (.advance p clock)).callers p = .returned outcome) ∨
      RequeueCaller operation ((m.step policy (.advance p clock)).callers p) := by
  have moved : (m.step policy (.advance p clock)).callers p =
      ((m.callers p).next policy clock m.store).1 := Function.update_self _ _ _
  rw [moved]
  cases after : ((m.callers p).next policy clock m.store).1 with
  | returned outcome => exact .inl ⟨outcome, rfl⟩
  | saving call tries seen updated reply =>
    obtain ⟨calling, found, -, -⟩ := next_saving after
    obtain ⟨file, found, decoded⟩ := status_ok found
    obtain ⟨rfl, -⟩ := inv.recorded.decoded found decoded
    rw [calling] at own
    exact .inr ⟨own, reads call tries seen calling found⟩
  | idle =>
    rw [next_idle after] at own
    exact own.elim
  | calling call tries =>
    obtain ⟨before, seen, updated, reply, saving⟩ := next_calling after
    rw [saving] at own
    exact .inr own.1

theorem RequeueInv.start : RequeueInv policy .start where
  manager := ManagerInv.start
  own p operation requeueing := by cases requeueing

/-- A pass enters `manager.requeue`. -/
theorem RequeueInv.enter_requeue (inv : RequeueInv policy s) (p : Nat) (operation : OperationTask)
    (now : Option Stamp) (work : Collection OperationWorkItem) :
    RequeueInv policy ⟨s.manager.step policy (.begin p (.requeue operation.operationId now)), work,
      Function.update s.passes p (.requeueing operation)⟩ := by
  refine ⟨inv.manager.step (.begin p (.requeue operation.operationId now)), ?_⟩
  intro q other requeueing
  by_cases own : q = p
  · subst own
    simp only [Function.update_self, RequeuePass.requeueing.injEq] at requeueing
    subst requeueing
    simp only [ManagerSystem.step, Function.update_self]
    exact ⟨now, rfl⟩
  · simp only [Function.update_of_ne own] at requeueing
    simp only [callers_other (l := .begin p (.requeue operation.operationId now)) own]
    exact inv.own q other requeueing

/-- A pass in `manager.requeue` goes on, or is done. -/
theorem RequeueInv.advance_requeue (inv : RequeueInv policy s) {p : Nat} {clock : Stamp}
    {operation : OperationTask} (pass : s.passes p = .requeueing operation)
    (reads : ∀ call tries t, s.manager.callers p = .calling call tries →
      s.manager.store.lookup call.operationId = some (.record false t) → SameClaim t operation) :
    RequeueInv policy (s.next policy codec p clock (.requeueing operation)) := by
  have kept : ∀ q other, q ≠ p → s.passes q = .requeueing other →
      RequeueCaller other ((s.manager.step policy (.advance p clock)).callers q) := by
    intro q other away requeueing
    rw [callers_other (l := .advance p clock) away]
    exact inv.own q other requeueing
  have moved : (∃ outcome, (s.manager.step policy (.advance p clock)).callers p =
        .returned outcome) ∨
      RequeueCaller operation ((s.manager.step policy (.advance p clock)).callers p) :=
    (inv.own p operation pass).next inv.manager reads
  simp only [RequeueSystem.next]
  split
  · refine ⟨inv.manager.step (.advance p clock), ?_⟩
    intro q other requeueing
    by_cases own : q = p
    · subst own
      simp only [Function.update_self] at requeueing
      cases requeueing
    · simp only [Function.update_of_ne own] at requeueing
      exact kept q other own requeueing
  · rename_i unfinished
    refine ⟨inv.manager.step (.advance p clock), ?_⟩
    intro q other requeueing
    by_cases own : q = p
    · subst own
      rw [pass] at requeueing
      cases requeueing
      rcases moved with ⟨outcome, returned⟩ | goes_on
      · exact absurd returned (unfinished outcome)
      · exact goes_on
    · exact kept q other own requeueing

/-- Every step keeps the invariant where `manager.requeue` reads the claim that was inspected. -/
theorem RequeueInv.step (inv : RequeueInv policy s) (same : ¬ ReadsNewerClaim s l) :
    RequeueInv policy (s.step policy codec l) := by
  -- where the manager stands still and no pass enters `manager.requeue`
  have quiet : ∀ p pass work, (∀ operation, pass ≠ .requeueing operation) →
      RequeueInv policy ⟨s.manager, work, Function.update s.passes p pass⟩ := by
    intro p pass work other
    refine ⟨inv.manager, ?_⟩
    intro q operation requeueing
    by_cases own : q = p
    · subst own
      simp only [Function.update_self] at requeueing
      exact absurd requeueing (other operation)
    · simp only [Function.update_of_ne own] at requeueing
      exact inv.own q operation requeueing
  cases l with
  | manager l =>
    simp only [RequeueSystem.step]
    split
    · exact inv
    · rename_i outside
      refine ⟨inv.manager.step l, ?_⟩
      intro q operation requeueing
      have other : q ≠ l.caller := by
        rintro rfl
        exact outside operation requeueing
      simp only [callers_other other]
      exact inv.own q operation requeueing
  | queue x => exact ⟨inv.manager, inv.own⟩
  | list p operationId input =>
    simp only [RequeueSystem.step]
    split
    · exact quiet p _ _ fun _ => nofun
    · exact inv
  | advance p clock =>
    change RequeueInv policy (s.next policy codec p clock (s.passes p))
    cases pass : s.passes p with
    | idle => exact inv
    | inspecting input item =>
      simp only [RequeueSystem.next]
      split
      · exact quiet p _ _ fun _ => nofun
      · split
        · exact quiet p _ _ fun _ => nofun
        · exact quiet p _ _ fun _ => nofun
    | returning input item operation =>
      simp only [RequeueSystem.next]
      split
      · split
        · exact quiet p _ _ fun _ => nofun
        · exact quiet p _ _ fun _ => nofun
      · exact quiet p _ _ fun _ => nofun
    | saving input queued operation revision =>
      simp only [RequeueSystem.next]
      split
      · exact quiet p _ _ fun _ => nofun
      · split
        · exact inv.enter_requeue _ _ _ _
        · exact quiet p _ _ fun _ => nofun
    | requeueing operation =>
      have reads : ∀ call tries t, s.manager.callers p = .calling call tries →
          s.manager.store.lookup call.operationId = some (.record false t) →
          SameClaim t operation := by
        intro call tries t calling found
        by_contra newer
        exact same ⟨p, clock, operation, call, tries, t, rfl, pass, calling, found, newer⟩
      exact inv.advance_requeue pass reads

/-- The save of a requeue replaces the record that it has read. -/
theorem RequeueInv.keeps_claims (inv : RequeueInv policy s) : ¬ RevokesNewerClaim policy codec s l := by
  rintro ⟨p, clock, operation, id, t, rfl, pass, found, newer, changed⟩
  apply changed
  have store : (s.step policy codec (.advance p clock)).manager.store =
      (s.manager.step policy (.advance p clock)).store := by
    simp only [RequeueSystem.step, pass, RequeueSystem.next]
    split <;> rfl
  rw [store]
  cases step_change inv.manager (.advance p clock) with
  | quiet same =>
    rw [same]
    exact found
  | created new valid current fresh absent same =>
    have other : id ≠ new.operationId := by
      rintro rfl
      rw [AList.lookup_eq_none.mpr absent] at found
      cases found
    rw [same, AList.lookup_insert_ne other]
    exact found
  | replaced q clock' call tries old new reply label caller written valid stands same =>
    cases label
    have own := inv.own p operation pass
    rw [caller] at own
    have other : id ≠ old.operationId := by
      rintro rfl
      rw [stands] at found
      cases found
      exact newer own.2
    rw [same, AList.lookup_insert_ne other]
    exact found

/-- No step of recovery's `manager.requeue` changes the record of a claim other than the one
that recovery has inspected, in every run in which `manager.requeue` reads that claim. -/
theorem requeue_keeps_newer_claims (policy : TaskPolicy) (codec : StateCodec OperationWorkItem)
    (labels : List RequeueLabel)
    (same : Runs.Along (RequeueSystem.step policy codec) (fun s l => ¬ ReadsNewerClaim s l)
      .start labels) :
    Runs.Along (RequeueSystem.step policy codec)
      (fun s l => ¬ RevokesNewerClaim policy codec s l) .start labels := by
  have inv := same.invariant (fun s l (inv : RequeueInv policy s) same => inv.step same)
    RequeueInv.start
  intro done l rest split
  exact (inv done (l :: rest) split).keeps_claims

namespace Sample

def workCodec : StateCodec OperationWorkItem := RepoForge.workCodec fun _ _ => .ok ()

def workItem : OperationWorkItem where
  operationId := operationId
  request := ⟨.profile, List.replicate 64 '0', 1⟩
  state := .queued
  attempt := 0
  ownerId := none
  leaseExpiresAt := none
  childStarted := false
  createdAt := (second 0).instant
  updatedAt := (second 0).instant

def claimedItem (attempt : Nat) (ownerId : String) (lease now : Nat) : OperationWorkItem :=
  { workItem with
    state := .claimed
    attempt := attempt
    ownerId := some ownerId.toList
    leaseExpiresAt := some (second lease).instant
    updatedAt := (second now).instant }

/-- A worker has claimed the item of revision `revision` and starts the operation. -/
def worker (caller revision attempt : Nat) (ownerId : String) (lease now : Nat) :
    List RequeueLabel :=
  [.queue ⟨caller, operationId, .save (claimedItem attempt ownerId lease now) revision⟩,
    .manager (.begin caller (.start operationId none (some ownerId.toList) (some (clock lease))
      (some attempt) none)),
    .manager (.advance caller (clock now)), .manager (.advance caller (clock now))]

/-- An admitted operation, and a worker whose lease ends before it has started the child. -/
def abandoned : List RequeueLabel :=
  [.manager (.begin 1 (.create newOperation none)), .manager (.advance 1 (clock 0)),
    .queue ⟨1, operationId, .create workItem⟩] ++ worker 2 1 1 "worker-a" 2 1

/-- A pass at second 3, up to its call of `manager.requeue`. -/
def returned : List RequeueLabel :=
  [.list 0 operationId ⟨second 3, none⟩, .advance 0 (clock 3), .advance 0 (clock 3),
    .advance 0 (clock 3)]

/-- The step is the read of a `manager.requeue` that finds another claim. -/
def readsNewer (s : RequeueSystem) : RequeueLabel → Bool
  | .advance p _ => match s.passes p, s.manager.callers p with
    | .requeueing operation, .calling call _ =>
      match s.manager.store.lookup call.operationId with
      | some (.record false t) =>
        t.ownerId ≠ operation.ownerId || t.attempt ≠ operation.attempt
      | _ => false
    | _, _ => false
  | _ => false

theorem not_readsNewer (h : readsNewer s l = false) : ¬ ReadsNewerClaim s l := by
  rintro ⟨p, clock, operation, call, tries, t, rfl, pass, calling, found, newer⟩
  simp only [readsNewer, pass, calling, found, Bool.or_eq_false_iff, decide_eq_false_iff_not,
    ne_eq, not_not] at h
  exact newer h

/-- Another claim is running before, and pending after. -/
def revokes (s s' : RequeueSystem) : Bool :=
  match s.passes 0, s.manager.store.lookup operationId, s'.manager.store.lookup operationId with
  | .requeueing operation, some (.record false t), some (.record false t') =>
    t.attempt ≠ operation.attempt && t.state = .running && t'.state = .pending
  | _, _, _ => false

theorem revokes_claim {clock : Stamp}
    (h : revokes s (s.step policy codec (.advance 0 clock)) = true) :
    RevokesNewerClaim policy codec s (.advance 0 clock) := by
  unfold revokes at h
  split at h
  · rename_i operation t t' pass before after
    simp only [Bool.and_eq_true, decide_eq_true_eq] at h
    obtain ⟨⟨newer, running⟩, pending⟩ := h
    refine ⟨0, clock, operation, operationId, t, rfl, pass, before, fun same => newer same.2, ?_⟩
    rw [after]
    rintro ⟨rfl⟩
    rw [running] at pending
    cases pending
  · cases h

end Sample

/-- Recovery alone: the claim that has run out goes back to the queue. -/
theorem requeue_keeps_newer_claims_alone :
    Sample.outcome ((Runs.run (RequeueSystem.step Sample.taskPolicy Sample.workCodec) .start
      (Sample.abandoned ++ Sample.returned ++
        [.advance 0 (Sample.clock 3), .advance 0 (Sample.clock 3)])).manager.store.lookup
          Sample.operationId) = some (.pending, false) ∧
    ¬ RevokesNewerClaim Sample.taskPolicy Sample.workCodec
      (Runs.run (RequeueSystem.step Sample.taskPolicy Sample.workCodec) .start
        (Sample.abandoned ++ Sample.returned ++ [.advance 0 (Sample.clock 3)]))
      (.advance 0 (Sample.clock 3)) := by
  have same : Runs.Along (RequeueSystem.step Sample.taskPolicy Sample.workCodec)
      (fun s l => ¬ ReadsNewerClaim s l) .start
      ((Sample.abandoned ++ Sample.returned ++ [.advance 0 (Sample.clock 3)]) ++
        [.advance 0 (Sample.clock 3)]) := by
    iterate 13 refine Runs.along_cons.mpr ⟨Sample.not_readsNewer (by decide +kernel), ?_⟩
    exact Runs.along_nil
  refine ⟨by decide +kernel, ?_⟩
  exact requeue_keeps_newer_claims Sample.taskPolicy Sample.workCodec _ same _ _ [] rfl

/-- A second worker claims the item and starts the operation between the two writes of
recovery; the save of `manager.requeue` then takes its claim away. -/
theorem requeue_revokes_newer_claim :
    RevokesNewerClaim Sample.taskPolicy Sample.workCodec
      (Runs.run (RequeueSystem.step Sample.taskPolicy Sample.workCodec) .start
        (Sample.abandoned ++ Sample.returned ++ Sample.worker 3 3 2 "worker-b" 9 4 ++
          [.advance 0 (Sample.clock 5)]))
      (.advance 0 (Sample.clock 5)) :=
  Sample.revokes_claim (by decide +kernel)

end RepoForge
