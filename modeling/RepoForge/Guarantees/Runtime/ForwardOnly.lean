import RepoForge.Source.Runtime.Transitions
import RepoForge.Spec.Persistence.Repository

/-!
# The transition ledger moves forward

Whatever a writer holds, either it is the record as it stands or the record has a later revision
(`Ledger.held`). So a save that succeeds was computed from the record it replaces, and it is enough
that one call of the coordinator moves the status forward from there (`Follows`).
-/
namespace RepoForge.Transitions
open RuntimeTransitionStatus Repository

/-- What may be persisted after a status. -/
def Follows (earlier later : RuntimeTransitionStatus) : Prop :=
  earlier ∈ forwardChain ∧ earlier ∉ terminalOutcomes ∧
    (later ∈ forwardChain → forwardChain.idxOf earlier ≤ forwardChain.idxOf later)

theorem Follows.trans {a b c : RuntimeTransitionStatus} (first : Follows a b) (second : Follows b c) :
    Follows a c :=
  ⟨first.1, first.2.1, fun chained => (first.2.2 second.1).trans (second.2.2 chained)⟩

section Calls

variable {iso : Text → Bool} {t next : RuntimeTransition} {now : Text}

theorem advance_ok {target : RuntimeTransitionStatus} {completedAt code message : Option Text}
    (h : t.advance iso target now completedAt code message = .ok next) :
    target ∈ t.status.allowed ∧ next.status = target ∧ next.transitionId = t.transitionId := by
  unfold RuntimeTransition.advance at h
  split_ifs at h with illegal
  obtain ⟨_, -, h⟩ := bind_ok h
  cases h
  exact ⟨illegal, rfl, rfl⟩

theorem applyDomain_ok {phase : RuntimeTransitionStatus} (h : applyDomain iso t phase now = .ok next) :
    next.status = phase ∧ next.transitionId = t.transitionId := by
  unfold applyDomain at h
  split at h
  · rename_i made
    cases h
    exact (advance_ok made).2
  · cases h

theorem walk_ok {phases : List RuntimeTransitionStatus} (h : walk iso now phases t = .ok next) :
    next.status = phases.getLastD t.status ∧ next.transitionId = t.transitionId := by
  induction phases generalizing t with
  | nil =>
    cases h
    exact ⟨rfl, rfl⟩
  | cons phase phases ih =>
    obtain ⟨middle, first, h⟩ := bind_ok h
    obtain ⟨status, id⟩ := ih h
    obtain ⟨reached, same⟩ := applyDomain_ok first
    rw [reached] at status
    rw [List.getLastD_cons]
    exact ⟨status, id.trans same⟩

theorem indexInChain_ok {status : RuntimeTransitionStatus} {n : Nat}
    (h : indexInChain status = .ok n) : status ∈ forwardChain ∧ n = forwardChain.idxOf status := by
  unfold indexInChain at h
  split_ifs at h with chained
  cases h
  exact ⟨chained, rfl⟩

/-- The walk to a phase ends there. -/
theorem walk_to_phase : ∀ current ∈ forwardChain, ∀ phase ∈ realPhases,
    forwardChain.idxOf current ≤ forwardChain.idxOf phase →
      (between (forwardChain.idxOf current) (forwardChain.idxOf phase)).getLastD current = phase ∧
        current ∉ terminalOutcomes := by
  decide

/-- No outcome is allowed at the end of a walk from a terminal status. -/
theorem walk_to_outcome : ∀ current ∈ forwardChain, ∀ outcome ∈ terminalOutcomes,
    ∀ branch ∈ forwardChain, outcomeBranch outcome = some branch →
      outcome ∈ ((between (forwardChain.idxOf current) (forwardChain.idxOf branch)).getLastD
        current).allowed →
      current ∉ terminalOutcomes ∧ (outcome ∈ forwardChain →
        forwardChain.idxOf current ≤ forwardChain.idxOf outcome) := by
  decide

theorem effectRecord_follows {status : RuntimeTransitionStatus}
    (h : effectRecord iso t status now = .ok next) :
    next.transitionId = t.transitionId ∧ Follows t.status next.status := by
  unfold effectRecord at h
  split_ifs at h with phase
  obtain ⟨current, at_, h⟩ := bind_ok h
  obtain ⟨target, there, h⟩ := bind_ok h
  obtain ⟨chained, rfl⟩ := indexInChain_ok at_
  obtain ⟨-, rfl⟩ := indexInChain_ok there
  split_ifs at h with regress
  obtain ⟨reached, same⟩ := walk_ok h
  obtain ⟨ends, open_⟩ := walk_to_phase _ chained _ phase (not_lt.mp regress)
  rw [ends] at reached
  rw [reached]
  exact ⟨same, chained, open_, fun _ => not_lt.mp regress⟩

theorem outcomeApply_ok {outcome : RuntimeTransitionStatus} {code message : Option Text}
    (h : outcomeApply iso outcome t now code message = .ok next) :
    outcome ∈ t.status.allowed ∧ next.status = outcome ∧ next.transitionId = t.transitionId := by
  unfold outcomeApply at h
  split at h
  case h_7 => cases h
  all_goals exact advance_ok h

theorem outcomeRecord_follows {outcome : RuntimeTransitionStatus} {code message : Option Text}
    (h : outcomeRecord iso t outcome now code message = .ok next) :
    next.transitionId = t.transitionId ∧ Follows t.status next.status := by
  unfold outcomeRecord at h
  split_ifs at h with supported
  split at h
  · rename_i made
    cases h
    unfold terminalize at made
    split at made
    · cases made
    · rename_i branch leaves
      obtain ⟨current, at_, made⟩ := bind_ok made
      obtain ⟨target, there, made⟩ := bind_ok made
      obtain ⟨walked, walks, applied⟩ := bind_ok made
      obtain ⟨chained, rfl⟩ := indexInChain_ok at_
      obtain ⟨branched, rfl⟩ := indexInChain_ok there
      obtain ⟨reached, same⟩ := walk_ok walks
      obtain ⟨permitted, status, id⟩ := outcomeApply_ok applied
      rw [reached] at permitted
      obtain ⟨open_, later⟩ := walk_to_outcome _ chained _ supported _ branched leaves
        permitted
      rw [status]
      exact ⟨id.trans same, chained, open_, later⟩
  · cases h

end Calls

section Runs

variable {iso : Text → Bool} {encodes : Nat → RuntimeTransition → Except StateError Unit}
  {s : LedgerSystem}

/-- What was persisted for an id, the latest first. -/
def LedgerSystem.history (s : LedgerSystem) (id : Text) : List RuntimeTransition :=
  s.persisted.filter fun t => decide (t.transitionId = id)

structure Ledger (s : LedgerSystem) : Prop where
  absent : ∀ id, s.records.lookup id = none → s.history id = []
  latest : ∀ id revision t, s.records.lookup id = some (.readable revision t) →
    t.transitionId = id ∧ ∃ earlier, s.history id = t :: earlier
  forward : ∀ id, (s.history id).Pairwise fun later earlier => Follows earlier.status later.status
  /-- An envelope is of the record as it stands, or of one that was replaced. -/
  held : ∀ writer envelope, s.received writer = some envelope → ∃ revision t,
    s.records.lookup envelope.value.transitionId = some (.readable revision t) ∧
      (envelope.revision < revision ∨ envelope.revision = revision ∧ envelope.value = t)

theorem ledger_empty : Ledger emptyLedger where
  absent _ _ := rfl
  latest _ _ _ found := by cases found
  forward _ := .nil
  held _ _ received := by cases received

/-- A record is created, or replaced by one that may follow it. -/
theorem Ledger.settled (h : Ledger s) (writer revision : Nat) (next : RuntimeTransition)
    (placed : s.records.lookup next.transitionId = none ∧ revision = 1 ∨
      ∃ old before, s.records.lookup next.transitionId = some (.readable old before) ∧
        revision = old + 1 ∧ Follows before.status next.status) :
    Ledger {
      records := s.records.insert next.transitionId (.readable revision next)
      received := Function.update s.received writer (some ⟨next.transitionId, revision, next⟩)
      persisted := next :: s.persisted } where
  absent id gone := by
    by_cases own : id = next.transitionId
    · rw [own, AList.lookup_insert] at gone
      cases gone
    · rw [AList.lookup_insert_ne own] at gone
      have other : next.transitionId ≠ id := fun same => own same.symm
      simpa [LedgerSystem.history, other] using h.absent id gone
  latest id r t found := by
    by_cases own : id = next.transitionId
    · subst own
      rw [AList.lookup_insert] at found
      cases found
      exact ⟨rfl, s.history next.transitionId, by simp [LedgerSystem.history]⟩
    · rw [AList.lookup_insert_ne own] at found
      have other : next.transitionId ≠ id := fun same => own same.symm
      simpa [LedgerSystem.history, other] using h.latest id r t found
  forward id := by
    by_cases own : id = next.transitionId
    · subst own
      have grown : LedgerSystem.history ⟨s.records.insert next.transitionId (.readable revision next),
          Function.update s.received writer (some ⟨next.transitionId, revision, next⟩),
          next :: s.persisted⟩ next.transitionId = next :: s.history next.transitionId := by
        simp [LedgerSystem.history]
      rw [grown, List.pairwise_cons]
      refine ⟨?_, h.forward _⟩
      intro earlier here
      rcases placed with ⟨gone, -⟩ | ⟨old, before, found, -, follows⟩
      · rw [h.absent _ gone] at here
        cases here
      · obtain ⟨-, rest, history⟩ := h.latest _ old before found
        have ordered := h.forward next.transitionId
        rw [history] at here ordered
        rcases List.mem_cons.mp here with rfl | older
        · exact follows
        · exact ((List.pairwise_cons.mp ordered).1 earlier older).trans follows
    · have other : next.transitionId ≠ id := fun same => own same.symm
      simpa [LedgerSystem.history, other] using h.forward id
  held w envelope received := by
    simp only at received ⊢
    by_cases mine : w = writer
    · rw [mine, Function.update_self] at received
      cases received
      exact ⟨revision, next, AList.lookup_insert _, .inr ⟨rfl, rfl⟩⟩
    · rw [Function.update_of_ne mine] at received
      obtain ⟨r, t, found, current⟩ := h.held w envelope received
      by_cases own : envelope.value.transitionId = next.transitionId
      · rw [own] at found ⊢
        rcases placed with ⟨gone, -⟩ | ⟨old, before, there, rfl, -⟩
        · rw [gone] at found
          cases found
        · rw [found] at there
          cases there
          refine ⟨r + 1, next, AList.lookup_insert _, .inl ?_⟩
          omega
      · exact ⟨r, t, by rw [AList.lookup_insert_ne own, found], current⟩

/-- A save under the revision of a received envelope. -/
theorem Ledger.save (h : Ledger s) {writer : Nat} {envelope : StateEnvelope RuntimeTransition}
    (received : s.received writer = some envelope) (made : Except TransitionError RuntimeTransition)
    (follows : ∀ next, made = .ok next →
      next.transitionId = envelope.value.transitionId ∧ Follows envelope.value.status next.status) :
    Ledger (s.save encodes writer envelope.revision made) := by
  cases made with
  | error e => exact h
  | ok next =>
    obtain ⟨same, forward⟩ := follows next rfl
    simp only [LedgerSystem.save]
    cases saved : Repository.save (transitionCodec encodes) next.transitionId next envelope.revision
        s.records with
    | error e => exact h
    | ok result =>
      obtain ⟨made, records⟩ := result
      obtain ⟨rfl, ⟨old, found⟩, rfl⟩ := save_ok saved
      obtain ⟨r, t, there, current⟩ := h.held writer envelope received
      rw [← same, found] at there
      cases there
      rcases current with stale | ⟨-, value⟩
      · omega
      · exact h.settled writer (envelope.revision + 1) next
          (.inr ⟨envelope.revision, old, found, rfl, value ▸ forward⟩)

/-- One call keeps the ledger. -/
theorem Ledger.step (h : Ledger s) (l : Nat × WriterCall) : Ledger (step iso encodes s l) := by
  obtain ⟨writer, call⟩ := l
  cases call with
  | recordAttempt id now attempt =>
    simp only [Transitions.step]
    split
    · rename_i t made
      cases created : Repository.create (transitionCodec encodes) t.transitionId t s.records with
      | error e => exact h
      | ok result =>
        obtain ⟨envelope, records⟩ := result
        obtain ⟨rfl, absent, rfl⟩ := create_ok created
        exact h.settled writer 1 t (.inl ⟨absent, rfl⟩)
    · exact h
  | read id =>
    simp only [Transitions.step]
    split
    · rename_i envelope found
      obtain ⟨-, there⟩ := read_eq_some found
      obtain ⟨own, -⟩ := h.latest id _ _ there
      refine ⟨h.absent, h.latest, h.forward, ?_⟩
      intro w e received
      simp only at received ⊢
      by_cases mine : w = writer
      · rw [mine, Function.update_self] at received
        cases received
        exact ⟨_, _, own ▸ there, .inr ⟨rfl, rfl⟩⟩
      · rw [Function.update_of_ne mine] at received
        exact h.held w e received
    · exact h
  | markEffect status now =>
    simp only [Transitions.step]
    split
    · rename_i envelope received
      exact h.save received _ fun next made => effectRecord_follows made
    · exact h
  | markOutcome outcome now code message =>
    simp only [Transitions.step]
    split
    · rename_i envelope received
      exact h.save received _ fun next made => outcomeRecord_follows made
    · exact h

theorem run_ledger (labels : List (Nat × WriterCall)) :
    Ledger (Runs.run (step iso encodes) emptyLedger labels) :=
  (Runs.Along.invariant (P := fun _ _ => True) (fun _ l h _ => h.step l)
    (Runs.along_of_forall fun _ _ _ => trivial) ledger_empty).last

end Runs

/-- The statuses persisted for an id, in their order. -/
def statuses (s : LedgerSystem) (id : Text) : List RuntimeTransitionStatus :=
  (s.history id).reverse.map (·.status)

/-- However the calls of the writers interleave: the statuses persisted for an id never go back
along the chain, at most one is terminal, and it is the last. -/
theorem forward_only (iso : Text → Bool) (encodes : Nat → RuntimeTransition → Except StateError Unit)
    (labels : List (Nat × WriterCall)) (id : Text) :
    let persisted := statuses (Runs.run (step iso encodes) emptyLedger labels) id
    persisted.Pairwise (fun earlier later => earlier ∈ forwardChain ∧
      (later ∈ forwardChain → forwardChain.idxOf earlier ≤ forwardChain.idxOf later)) ∧
    (persisted.filter fun status => decide (status ∈ terminalOutcomes)).length ≤ 1 ∧
    ∀ before outcome after, persisted = before ++ outcome :: after → outcome ∈ terminalOutcomes →
      after = [] := by
  intro persisted
  have ordered : persisted.Pairwise Follows := by
    have ledger : Ledger (Runs.run (step iso encodes) emptyLedger labels) := run_ledger labels
    have latest := ledger.forward id
    rw [← List.pairwise_reverse] at latest
    exact List.pairwise_map.mpr latest
  refine ⟨ordered.imp fun follows => ⟨follows.1, follows.2.2⟩, ?_, ?_⟩
  · have final := ordered.filter fun status => decide (status ∈ terminalOutcomes)
    match listed : persisted.filter fun status => decide (status ∈ terminalOutcomes) with
    | [] => simp
    | [_] => simp
    | first :: second :: rest =>
      rw [listed] at final
      have terminal : first ∈ terminalOutcomes := by
        have here : first ∈ persisted.filter fun status => decide (status ∈ terminalOutcomes) := by
          rw [listed]
          exact List.mem_cons_self
        exact of_decide_eq_true (List.mem_filter.mp here).2
      exact absurd terminal ((List.pairwise_cons.mp final).1 second List.mem_cons_self).2.1
  · intro before outcome after split terminal
    rw [split, List.pairwise_append] at ordered
    cases after with
    | nil => rfl
    | cons next rest =>
      exact absurd terminal
        ((List.pairwise_cons.mp ordered.2.1).1 next List.mem_cons_self).2.1

end RepoForge.Transitions
