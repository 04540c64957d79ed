import RepoForge.Source.Operations.Admission
import RepoForge.Spec.Operations.ManagerCalls
import RepoForge.Spec.Operations.Tasks

/-!
# Admissions beside everything else

What one step of an admission, of a client of the manager or of a client of the queue leaves of
the facts that an admission has found: an operation that has ended stays ended, an id whose
item is gone never gets one again, and the request of an item stays. So what was not in flight
when an admission looked at it is not in flight later (`InFlight.before`), and only the
creation of an item brings an id into flight.
-/
namespace RepoForge

open CompareAndSave

section Ended

variable {policy : TaskPolicy} {s : ManagerSystem} {l : ManagerLabel} {id : Text}

/-- An operation that has ended stays ended. -/
theorem plan_terminal {clock : Stamp} {t t' : OperationTask} {call : ManagerCall}
    {reply : ManagerReply} (h : policy.plan clock t call = .ok ⟨some t', reply⟩)
    (ended : t.state.terminal = true) : t'.state.terminal = true := by
  rcases (plan_ok h).active with active | ⟨id, result, receipt, now, rfl, -⟩
  · rw [ended] at active
    cases active
  · obtain ⟨-, -, -, -, -, succeeded⟩ := reconcileSuccess_ok h
    rw [succeeded]
    rfl

/-- No call is about to bring an ended operation back. -/
structure EndedInv (policy : TaskPolicy) (s : ManagerSystem) : Prop extends ManagerInv policy s where
  planned : ∀ p call tries seen updated reply,
    s.callers p = .saving call tries seen updated reply → seen.state.terminal = true →
      updated.state.terminal = true

theorem EndedInv.start : EndedInv policy .start where
  toManagerInv := ManagerInv.start
  planned p call tries seen updated reply caller := by cases caller

theorem EndedInv.step (inv : EndedInv policy s) (l : ManagerLabel) :
    EndedInv policy (s.step policy l) := by
  refine ⟨inv.toManagerInv.step l, ?_⟩
  intro q call tries seen updated reply caller
  cases l with
  | begin p other =>
    by_cases own : q = p
    · subst own
      simp only [ManagerSystem.step, Function.update_self] at caller
      cases caller
    · simp only [ManagerSystem.step, Function.update_of_ne own] at caller
      exact inv.planned q call tries seen updated reply caller
  | advance p clock =>
    by_cases own : q = p
    · subst own
      simp only [ManagerSystem.step, Function.update_self] at caller
      obtain ⟨-, -, planned, -⟩ := next_saving caller
      exact plan_terminal planned
    · simp only [ManagerSystem.step, Function.update_of_ne own] at caller
      exact inv.planned q call tries seen updated reply caller

/-- The operation is stored and has not ended. -/
def Unended (id : Text) (store : OperationStore) : Prop :=
  ∃ t, store.lookup id = some (.record false t) ∧ t.state.terminal = false

theorem Unended.before (inv : EndedInv policy s) (h : Unended id (s.step policy l).store)
    (stored : id ∈ s.store) : Unended id s.store := by
  obtain ⟨t, found, active⟩ := h
  cases step_change inv.toManagerInv l with
  | quiet same => exact ⟨t, same ▸ found, active⟩
  | created new valid current fresh absent same =>
    have other : id ≠ new.operationId := fun own => absent (own ▸ stored)
    rw [same, AList.lookup_insert_ne other] at found
    exact ⟨t, found, active⟩
  | replaced p clock call tries old new reply label caller written valid stands same =>
    rw [same] at found
    by_cases own : id = old.operationId
    · subst own
      rw [AList.lookup_insert] at found
      cases found
      refine ⟨old, stands, ?_⟩
      by_contra ended
      rw [inv.planned p call tries old t reply caller (by simpa using ended)] at active
      cases active
    · rw [AList.lookup_insert_ne own] at found
      exact ⟨t, found, active⟩

theorem stored_step (inv : ManagerInv policy s) (stored : id ∈ s.store) :
    id ∈ (s.step policy l).store := by
  cases step_change inv l with
  | quiet same =>
    rw [same]
    exact stored
  | created new valid current fresh absent same =>
    rw [same]
    exact (AList.mem_insert s.store).mpr (.inr stored)
  | replaced p clock call tries old new reply label caller written valid stands same =>
    rw [same]
    exact (AList.mem_insert s.store).mpr (.inr stored)

/-- A creation is one access. -/
theorem create_returns {p : Nat} {new : NewOperation} {now : Option Stamp} {tries : Nat}
    {clock : Stamp} (calling : s.callers p = .calling (.create new now) tries) :
    (∃ error, (s.step policy (.advance p clock)).callers p = .returned (.error error)) ∨
      ∃ task, (s.step policy (.advance p clock)).callers p = .returned (.ok (.task task)) := by
  simp only [ManagerSystem.step, Function.update_self, calling, Caller.next]
  split
  · rename_i error failed
    exact .inl ⟨error, rfl⟩
  · rename_i task store made
    exact .inr ⟨task, rfl⟩

/-- A creation that returns has found the id free, and has taken it. -/
theorem manager_creates {p : Nat} {new : NewOperation} {now : Option Stamp} {tries : Nat}
    {clock : Stamp} {reply : ManagerReply} (calling : s.callers p = .calling (.create new now) tries)
    (returned : (s.step policy (.advance p clock)).callers p = .returned (.ok reply)) :
    new.operationId ∉ s.store ∧ new.operationId ∈ (s.step policy (.advance p clock)).store := by
  simp only [ManagerSystem.step, Function.update_self, calling, Caller.next] at returned ⊢
  split at returned
  · cases returned
  · rename_i task store made
    obtain ⟨t, fresh, made⟩ := bind_ok made
    obtain ⟨after, made, same⟩ := bind_ok made
    cases same
    obtain ⟨-, absent, rfl⟩ := store_create_ok made
    obtain ⟨-, named, -⟩ := newOperationTask_ok fresh
    rw [named] at absent
    refine ⟨absent, ?_⟩
    simp only
    rw [← named]
    exact (AList.mem_insert s.store).mpr (.inl rfl)

end Ended

/-- There is a work item with this request, and its operation has not ended. -/
def InFlight (s : AdmissionSystem) (id : Text) (request : WorkRequest) : Prop :=
  Unended id s.manager.store ∧ ∃ e, s.queue.records id = some e ∧ e.value.request = request

/-- Before the search of an admission, or after the admission. -/
def AdmitPhase.outside : AdmitPhase → Bool
  | .idle | .listing _ | .returned _ => true
  | _ => false

/-- The item is written, whatever the call then reports. -/
def AdmitInput.writes (input : AdmitInput) : Prop := input.raised = none ∨ input.written = true

namespace AdmissionSystem

variable {policy : TaskPolicy} {s : AdmissionSystem} {l : AdmissionLabel} {p : Nat}
  {phase : AdmitPhase}

section Fields

variable {work : QueuedWork} {call : ManagerCall} {operationId : Text} {now : DateTime}
  {error : StoreException}

@[simp] theorem enter_manager : (s.enter p phase).manager = s.manager := rfl
@[simp] theorem enter_queue : (s.enter p phase).queue = s.queue := rfl
@[simp] theorem enter_created : (s.enter p phase).created = s.created := rfl
@[simp] theorem enter_admits : (s.enter p phase).admits = Function.update s.admits p phase := rfl
@[simp] theorem insert_manager : (s.insert work).manager = s.manager := rfl
@[simp] theorem insert_created :
    (s.insert work).created = work.item.operationId :: s.created := rfl
@[simp] theorem insert_admits : (s.insert work).admits = s.admits := rfl
@[simp] theorem call_manager :
    (s.call policy p call phase).manager = s.manager.step policy (.begin p call) := rfl
@[simp] theorem call_queue : (s.call policy p call phase).queue = s.queue := rfl
@[simp] theorem call_created : (s.call policy p call phase).created = s.created := rfl
@[simp] theorem call_admits :
    (s.call policy p call phase).admits = Function.update s.admits p phase := rfl
@[simp] theorem fail_queue : (s.fail policy p operationId now error).queue = s.queue := rfl
@[simp] theorem fail_created : (s.fail policy p operationId now error).created = s.created := rfl
@[simp] theorem fail_admits : (s.fail policy p operationId now error).admits =
    Function.update s.admits p (.failing error) := rfl
@[simp] theorem passOver_manager : (s.passOver p error phase).manager = s.manager := rfl
@[simp] theorem passOver_queue : (s.passOver p error phase).queue = s.queue := rfl
@[simp] theorem passOver_created : (s.passOver p error phase).created = s.created := rfl

end Fields

/-- What a step does to the work items. -/
inductive QueueChange (s : AdmissionSystem) (l : AdmissionLabel) (s' : AdmissionSystem) : Prop
  | quiet : s'.queue = s.queue → s'.created = s.created → QueueChange s l s'
  | acted (action : Action Nat Text WorkCommand) :
      s'.queue = s.queue.act QueuedWork.apply QueuedWork.updatedAt action →
      s'.created = s.created → QueueChange s l s'
  | inserted (p : Nat) (input : AdmitInput) (call : AdmitCall) (sweep : Sweep)
      (operation : OperationTask) (work : QueuedWork) (now : DateTime) :
      l = .advance p input → s.admits p = .queueing call sweep operation work now →
      s.queue.records work.item.operationId = none → input.writes →
      s'.queue = (s.insert work).queue → s'.created = work.item.operationId :: s.created →
      QueueChange s l s'

theorem queue_change (s : AdmissionSystem) (l : AdmissionLabel) :
    QueueChange s l (s.step policy l) := by
  cases l with
  | manager l =>
    simp only [step]
    split <;> exact .quiet rfl rfl
  | queue action => exact .acted action rfl rfl
  | admission p call =>
    simp only [step]
    split
    · split <;> exact .quiet rfl rfl
    · split <;> exact .quiet rfl rfl
    · exact .quiet rfl rfl
  | stop p => exact .quiet rfl rfl
  | advance p input =>
    simp only [step]
    generalize phase : s.admits p = stands
    fun_cases AdmissionSystem.next policy s p input stands
    case case20 call sweep operation work now calm free =>
      exact .inserted p input call sweep operation work now rfl phase free (.inl calm) rfl rfl
    case case21 call sweep operation work now error raised free =>
      by_cases written : input.written = true
      · simp only [written, if_true]
        exact .inserted p input call sweep operation work now rfl phase free (.inr written) rfl rfl
      · simp only [written, Bool.false_eq_true, if_false]
        exact .quiet rfl rfl
    all_goals exact .quiet rfl rfl

/-- What a step does to the operations: a step of the manager at most, which is not that of an
admission in `manager.create` unless it is its own. -/
theorem manager_change (s : AdmissionSystem) (l : AdmissionLabel) :
    (s.step policy l).manager = s.manager ∨
    ∃ m, (s.step policy l).manager = s.manager.step policy m ∧
      ∀ p call sweep operationId now, s.admits p = .creating call sweep operationId now →
        p = m.caller → ∃ input, l = .advance p input := by
  cases l with
  | manager m =>
    simp only [step]
    split
    · exact .inl rfl
    · exact .inl rfl
    · rename_i outside _
      refine .inr ⟨m, rfl, ?_⟩
      rintro p call sweep operationId now creating rfl
      exact absurd creating (outside call sweep operationId now)
  | queue action => exact .inl rfl
  | admission p call =>
    simp only [step]
    split
    · split <;> exact .inl rfl
    · split <;> exact .inl rfl
    · exact .inl rfl
  | stop p => exact .inl rfl
  | advance p input =>
    simp only [step]
    have own : ∀ m : ManagerLabel, m.caller = p → ∀ q call sweep operationId now,
        s.admits q = .creating call sweep operationId now → q = m.caller →
        ∃ input', AdmissionLabel.advance p input = .advance q input' := by
      rintro m rfl q call sweep operationId now - rfl
      exact ⟨input, rfl⟩
    generalize s.admits p = stands
    fun_cases AdmissionSystem.next policy s p input stands
    case case21 =>
      split
      · exact .inr ⟨.begin p _, rfl, own _ rfl⟩
      · exact .inr ⟨.begin p _, rfl, own _ rfl⟩
    all_goals first
      | exact .inl rfl
      | exact .inr ⟨.begin p _, rfl, own _ rfl⟩
      | exact .inr ⟨.advance p _, rfl, own _ rfl⟩

/-- An admission leaves the others where they stand. -/
theorem next_admits {q : Nat} {input : AdmitInput} (other : q ≠ p) :
    (s.next policy p input phase).admits q = s.admits q := by
  fun_cases AdmissionSystem.next policy s p input phase
  case case21 =>
    split
    · exact Function.update_of_ne other _ _
    · exact Function.update_of_ne other _ _
  all_goals first
    | rfl
    | exact Function.update_of_ne other _ _

/-- A step leaves an admission where it stands, or is its own access, or begins or ends it. -/
theorem step_admits (s : AdmissionSystem) (l : AdmissionLabel) (p : Nat) :
    (s.step policy l).admits p = s.admits p ∨ (∃ input, l = .advance p input) ∨
      ((s.step policy l).admits p).outside = true := by
  have begun : ∀ q phase, phase.outside = true → (s.enter q phase).admits p = s.admits p ∨
      ((s.enter q phase).admits p).outside = true := by
    intro q phase outside
    by_cases own : p = q
    · subst own
      exact .inr (by simpa using outside)
    · exact .inl (Function.update_of_ne own _ _)
  cases l with
  | manager l =>
    simp only [step]
    split <;> exact .inl rfl
  | queue action => exact .inl rfl
  | admission q call =>
    have entered : (step policy s (.admission q call)) = s ∨ ∃ phase, phase.outside = true ∧
        step policy s (.admission q call) = s.enter q phase := by
      simp only [step]
      split
      · split
        · exact .inr ⟨_, rfl, rfl⟩
        · exact .inr ⟨_, rfl, rfl⟩
      · split
        · exact .inr ⟨_, rfl, rfl⟩
        · exact .inr ⟨_, rfl, rfl⟩
      · exact .inl rfl
    rcases entered with same | ⟨phase, outside, same⟩
    · exact .inl (by rw [same])
    · rw [same]
      rcases begun q phase outside with still | outside
      · exact .inl still
      · exact .inr (.inr outside)
  | advance q input =>
    by_cases own : p = q
    · subst own
      exact .inr (.inl ⟨input, rfl⟩)
    · exact .inl (next_admits own)
  | stop q =>
    rcases begun q .idle rfl with still | outside
    · exact .inl still
    · exact .inr (.inr outside)

end AdmissionSystem

section Work

variable {command : WorkCommand} {work next : QueuedWork}

theorem QueuedWork.apply_ok (h : work.apply command = .ok next) :
    command.apply work.item = .ok next.item ∧ next.request = work.request := by
  unfold QueuedWork.apply at h
  split at h
  · cases h
  · rename_i item made
    cases h
    exact ⟨made, rfl⟩

theorem QueuedWork.new_ok {operationId : Text} {request : WorkRequest} {now : Timestamp}
    (h : QueuedWork.new operationId request now = .ok work) :
    work.item.operationId = operationId ∧ work.request = request := by
  unfold QueuedWork.new at h
  split at h
  · cases h
  · rename_i item made
    cases h
    exact ⟨(newWorkItem_made made).1, rfl⟩

theorem QueuedWork.advances : Advances QueuedWork.apply QueuedWork.updatedAt := by
  intro command work next ok
  obtain ⟨applied, kept⟩ := QueuedWork.apply_ok ok
  rcases work_advances _ _ _ applied with later | same
  · exact .inl later
  · right
    cases work
    cases next
    simp only at kept same
    subst kept same
    rfl

end Work

section Flight

variable {policy : TaskPolicy} {s s' : AdmissionSystem} {l : AdmissionLabel} {p : Nat} {id : Text}
  {request : WorkRequest}

/-- Of the ids that the search of an admission has listed and could read, those in flight with
its request are still ahead of it. -/
def SearchCovers (s : AdmissionSystem) (request : WorkRequest) (sweep : Sweep) (ahead : Text → Prop) :
    Prop :=
  (∀ id ∈ sweep.listed, id ∈ s.created) ∧
    ∀ id ∈ sweep.listed, id ∉ sweep.unreadable → InFlight s id request → ahead id

/-- The item under this id has this request. -/
def Asks (request : WorkRequest) (work : QueuedWork) (id : Text) : Prop :=
  work.item.operationId = id ∧ work.request = request

/-- What an admission knows where it stands. -/
def Searched (policy : TaskPolicy) (s : AdmissionSystem) (p : Nat) : AdmitPhase → Prop
  | .reading call sweep left found => SearchCovers s call.request sweep fun id =>
      id ∈ left ∨ ∃ e ∈ found, Asks call.request e.value id
  | .matching call sweep left => SearchCovers s call.request sweep fun id =>
      ∃ work ∈ left, Asks call.request work id
  | .creating call sweep operationId now =>
      SearchCovers s call.request sweep (fun _ => False) ∧ ∃ tries, s.manager.callers p =
        .calling (.create (call.newOperation operationId) (some (policy.stamp now))) tries
  | .queueing call sweep _ work _ =>
      SearchCovers s call.request sweep (fun _ => False) ∧ work.request = call.request ∧
        work.item.operationId ∈ s.manager.store ∧ work.item.operationId ∉ s.created
  | _ => True

/-- Identical work is in flight once. -/
def SingleFlight (s : AdmissionSystem) : Prop :=
  ∀ request id id', InFlight s id request → InFlight s id' request → id = id'

/-- An admission is to create this item. -/
def Queues (s : AdmissionSystem) (p : Nat) (work : QueuedWork) : Prop :=
  ∃ call sweep operation now, s.admits p = .queueing call sweep operation work now

structure AdmitInv (policy : TaskPolicy) (s : AdmissionSystem) : Prop where
  ended : EndedInv policy s.manager
  linked : Linked QueuedWork.apply QueuedWork.updatedAt s.queue
  recorded : ∀ id e, s.queue.records id = some e → e.value.item.operationId = id ∧ id ∈ s.created
  called : ∀ t call, s.queue.calls t = some call → call.key ∈ s.created
  stored : ∀ id ∈ s.created, id ∈ s.manager.store
  searched : ∀ p, Searched policy s p (s.admits p)
  distinct : ∀ p q work work', Queues s p work → Queues s q work' →
    work.item.operationId = work'.item.operationId → p = q
  single : SingleFlight s

/-- A step keeps what is created, and the ids that it creates an item under are new ones. -/
theorem created_kept (change : s.QueueChange l s') (created : id ∈ s.created) : id ∈ s'.created := by
  cases change with
  | quiet queue same => exact same ▸ created
  | acted action queue same => exact same ▸ created
  | inserted p input call sweep operation work now label phase free writes queue same =>
    rw [same]
    exact List.mem_cons_of_mem _ created

/-- The record of an item is the one that the step before left, or that of an item with the same
request, unless the step has created it. -/
theorem record_before (linked : Linked QueuedWork.apply QueuedWork.updatedAt s.queue)
    (change : s.QueueChange l s') {e : Envelope QueuedWork} (found : s'.queue.records id = some e) :
    (∃ e', s.queue.records id = some e' ∧ e'.value.item.operationId = e.value.item.operationId ∧
        e'.value.request = e.value.request) ∨
      ∃ p input call sweep operation work now, l = .advance p input ∧
        s.admits p = .queueing call sweep operation work now ∧ input.writes ∧
        id = work.item.operationId ∧ e.value = work ∧ id ∈ s'.created := by
  cases change with
  | quiet queue same =>
    rw [queue] at found
    exact .inl ⟨e, found, rfl, rfl⟩
  | acted action queue same =>
    rw [queue] at found
    cases Store.act_effect linked action with
    | quiet records saved =>
      rw [records] at found
      exact .inl ⟨e, found, rfl, rfl⟩
    | saved k command before next stands applied records saved =>
      rw [records] at found
      by_cases own : id = k
      · subst own
        rw [Function.update_self] at found
        cases found
        obtain ⟨applied, kept⟩ := QueuedWork.apply_ok applied
        exact .inl ⟨before, stands, (WorkCommand.apply_kept applied).1.symm, kept.symm⟩
      · rw [Function.update_of_ne own] at found
        exact .inl ⟨e, found, rfl, rfl⟩
    | deleted k records saved =>
      rw [records] at found
      by_cases own : id = k
      · simp [own] at found
      · rw [Function.update_of_ne own] at found
        exact .inl ⟨e, found, rfl, rfl⟩
  | inserted p input call sweep operation work now label phase free writes queue same =>
    rw [queue] at found
    by_cases own : id = work.item.operationId
    · simp only [AdmissionSystem.insert, own, Function.update_self, Option.some.injEq] at found
      refine .inr ⟨p, input, call, sweep, operation, work, now, label, phase, writes, own,
        found ▸ rfl, ?_⟩
      rw [same, own]
      exact List.mem_cons_self
    · simp only [AdmissionSystem.insert, Function.update_of_ne own] at found
      exact .inl ⟨e, found, rfl, rfl⟩

/-- Only the creation of its item brings an id into flight. -/
theorem InFlight.before (inv : AdmitInv policy s) (change : s.QueueChange l s')
    (moved : s'.manager = s.manager ∨ ∃ m, s'.manager = s.manager.step policy m)
    (h : InFlight s' id request) :
    InFlight s id request ∨
      ∃ p input call sweep operation work now, l = .advance p input ∧
        s.admits p = .queueing call sweep operation work now ∧ input.writes ∧
        id = work.item.operationId ∧ request = work.request := by
  obtain ⟨unended, e, found, asked⟩ := h
  rcases record_before inv.linked change found with ⟨e', found', -, same⟩ |
    ⟨p, input, call, sweep, operation, work, now, label, phase, writes, own, value, -⟩
  · refine .inl ⟨?_, e', found', same.trans asked⟩
    rcases moved with still | ⟨m, moved⟩
    · rwa [still] at unended
    · rw [moved] at unended
      exact unended.before inv.ended (inv.stored id (inv.recorded id e' found').2)
  · exact .inr ⟨p, input, call, sweep, operation, work, now, label, phase, writes, own,
      by rw [← asked, value]⟩

/-- What an admission has covered stays covered. -/
theorem SearchCovers.kept {sweep : Sweep} {ahead : Text → Prop} (inv : AdmitInv policy s)
    (change : s.QueueChange l s')
    (moved : s'.manager = s.manager ∨ ∃ m, s'.manager = s.manager.step policy m)
    (h : SearchCovers s request sweep ahead) : SearchCovers s' request sweep ahead := by
  refine ⟨fun id listed => created_kept change (h.1 id listed), ?_⟩
  intro id listed readable flight
  rcases flight.before inv change moved with before |
    ⟨p, input, call, sweep', operation, work, now, label, phase, writes, rfl, -⟩
  · exact h.2 id listed readable before
  · have searched := inv.searched p
    rw [phase] at searched
    exact absurd (h.1 _ listed) searched.2.2.2

theorem SearchCovers.imp {sweep : Sweep} {ahead ahead' : Text → Prop} (h : SearchCovers s request sweep ahead)
    (implies : ∀ id, InFlight s id request → ahead id → ahead' id) :
    SearchCovers s request sweep ahead' :=
  ⟨h.1, fun id listed readable flight => implies id flight (h.2 id listed readable flight)⟩

/-- An id that could not be read is no longer ahead. -/
theorem SearchCovers.miss {sweep : Sweep} {ahead ahead' : Text → Prop} (h : SearchCovers s request sweep ahead)
    (implies : ∀ other, other ≠ id → ahead other → ahead' other) :
    SearchCovers s request (sweep.miss id) ahead' := by
  refine ⟨h.1, ?_⟩
  intro other listed readable flight
  obtain ⟨apart, readable⟩ : other ≠ id ∧ other ∉ sweep.unreadable := by
    simpa [Sweep.miss] using readable
  exact implies other apart (h.2 other listed readable flight)

/-- Where an item is passed over, the others are still ahead. -/
theorem Asks.later {work : QueuedWork} {left : List QueuedWork} (apart : id ≠ work.item.operationId)
    (h : ∃ found ∈ work :: left, Asks request found id) : ∃ found ∈ left, Asks request found id := by
  obtain ⟨found, member, asks⟩ := h
  rcases List.mem_cons.mp member with rfl | later
  · exact absurd asks.1.symm apart
  · exact ⟨found, later, asks⟩

theorem mem_listed (h : id ∈ s.listed) : id ∈ s.created := by
  have sorted := List.mem_of_mem_take h
  rw [mem_sortBy] at sorted
  exact List.mem_of_mem_filter sorted

theorem mem_pageOrder {found : List (Envelope QueuedWork)} {e : Envelope QueuedWork}
    (h : e ∈ found) : e.value ∈ pageOrder found := by
  simp only [pageOrder, List.mem_map, List.mem_reverse, mem_sortBy]
  exact ⟨e, h, rfl⟩

theorem moved_step (s : AdmissionSystem) (l : AdmissionLabel) :
    (s.step policy l).manager = s.manager ∨
      ∃ m, (s.step policy l).manager = s.manager.step policy m := by
  rcases s.manager_change l with still | ⟨m, moved, -⟩
  · exact .inl still
  · exact .inr ⟨m, moved⟩

/-- What an admission knows survives the steps of the others. -/
theorem Searched.other (inv : AdmitInv policy s) (away : ∀ input, l ≠ .advance p input) :
    Searched policy (s.step policy l) p (s.admits p) := by
  have searched := inv.searched p
  have change := @AdmissionSystem.queue_change policy s l
  have moved := @moved_step policy s l
  cases phase : s.admits p with
  | idle => trivial
  | listing call => trivial
  | returned outcome => trivial
  | failing error => trivial
  | reading call sweep left found =>
    rw [phase] at searched
    exact SearchCovers.kept inv change moved searched
  | matching call sweep left =>
    rw [phase] at searched
    exact SearchCovers.kept inv change moved searched
  | creating call sweep operationId now =>
    rw [phase] at searched
    obtain ⟨covers, tries, calling⟩ := searched
    refine ⟨covers.kept inv change moved, tries, ?_⟩
    rcases s.manager_change l with still | ⟨m, stepped, own⟩
    · rw [still]
      exact calling
    · have other : p ≠ m.caller := by
        intro same
        obtain ⟨input, label⟩ := own p call sweep operationId now phase same
        exact away input label
      rw [stepped, callers_other other]
      exact calling
  | queueing call sweep operation work now =>
    rw [phase] at searched
    obtain ⟨covers, asked, stored, uncreated⟩ := searched
    refine ⟨covers.kept inv change moved, asked, ?_, ?_⟩
    · rcases moved with still | ⟨m, stepped⟩
      · rw [still]
        exact stored
      · rw [stepped]
        exact stored_step inv.ended.toManagerInv stored
    · cases change with
      | quiet queue same =>
        rw [same]
        exact uncreated
      | acted action queue same =>
        rw [same]
        exact uncreated
      | inserted q input call' sweep' operation' work' now' label phase' free writes queue same =>
        rw [same]
        intro member
        rcases List.mem_cons.mp member with own | created
        · have here := inv.distinct p q work work' ⟨call, sweep, operation, now, phase⟩
            ⟨call', sweep', operation', now', phase'⟩ own
          exact away input (here ▸ label)
        · exact uncreated created

/-- What an admission knows after an access of its own. -/
theorem Searched.next (inv : AdmitInv policy s) (input : AdmitInput) :
    Searched policy (s.step policy (.advance p input)) p
      ((s.step policy (.advance p input)).admits p) := by
  have searched := inv.searched p
  simp only [AdmissionSystem.step]
  generalize phase : s.admits p = stands at searched
  fun_cases AdmissionSystem.next policy s p input stands
  case case3 call error raised =>
    simp only [AdmissionSystem.passOver, AdmissionSystem.enter_admits, Function.update_self]
    split
    · exact ⟨nofun, nofun⟩
    · trivial
  case case4 call calm =>
    simp only [AdmissionSystem.enter_admits, Function.update_self]
    exact ⟨fun id listed => mem_listed listed, fun id listed _ _ => .inl listed⟩
  case case5 call sweep found =>
    simp only [AdmissionSystem.enter_admits, Function.update_self]
    refine SearchCovers.imp (s := s) searched ?_
    rintro id - (left | ⟨e, member, asks⟩)
    · cases left
    · exact ⟨e.value, mem_pageOrder member, asks⟩
  case case6 call sweep id left found error raised =>
    simp only [AdmissionSystem.passOver, AdmissionSystem.enter_admits, Function.update_self]
    split
    · refine SearchCovers.miss (s := s) searched ?_
      rintro other apart (ahead | seen)
      · exact .inl ((List.mem_cons.mp ahead).resolve_left apart)
      · exact .inr seen
    · trivial
  case case7 call sweep id left found gone calm =>
    simp only [AdmissionSystem.enter_admits, Function.update_self]
    refine SearchCovers.imp (s := s) searched ?_
    rintro other ⟨-, e, stands, -⟩ (ahead | seen)
    · refine .inl ((List.mem_cons.mp ahead).resolve_left ?_)
      rintro rfl
      rw [gone] at stands
      cases stands
    · exact .inr seen
  case case8 call sweep id left found envelope read calm =>
    simp only [AdmissionSystem.enter_admits, Function.update_self]
    refine SearchCovers.imp (s := s) searched ?_
    rintro other ⟨-, e, stands, asked⟩ (ahead | ⟨e', member, asks⟩)
    · rcases List.mem_cons.mp ahead with rfl | later
      · rw [read] at stands
        cases stands
        exact .inr ⟨envelope, List.mem_cons_self, (inv.recorded _ _ read).1, asked⟩
      · exact .inl later
    · exact .inr ⟨e', List.mem_cons_of_mem _ member, asks⟩
  case case9 call sweep operationId =>
    simp only [AdmissionSystem.call_admits, Function.update_self]
    refine ⟨SearchCovers.imp (s := s) searched ?_, 1, ?_⟩
    · rintro id - ⟨work, member, -⟩
      cases member
    · simp only [AdmissionSystem.call_manager, ManagerSystem.step, Function.update_self]
      rfl
  case case10 call sweep work left different =>
    simp only [AdmissionSystem.enter_admits, Function.update_self]
    refine SearchCovers.imp (s := s) searched ?_
    rintro id - ⟨found, member, asks⟩
    rcases List.mem_cons.mp member with rfl | later
    · exact absurd asks.2 different
    · exact ⟨found, later, asks⟩
  case case11 call sweep work left same error raised =>
    simp only [AdmissionSystem.passOver, AdmissionSystem.enter_admits, Function.update_self]
    split
    · exact SearchCovers.miss (s := s) searched fun id apart ahead => Asks.later apart ahead
    · trivial
  case case12 call sweep work left same error failed calm =>
    simp only [AdmissionSystem.enter_admits, Function.update_self]
    exact SearchCovers.miss (s := s) searched fun id apart ahead => Asks.later apart ahead
  case case13 call sweep work left same operation found calm terminal =>
    simp only [AdmissionSystem.enter_admits, Function.update_self]
    refine SearchCovers.imp (s := s) searched ?_
    intro id flight ahead
    refine Asks.later ?_ ahead
    rintro rfl
    obtain ⟨t, stands, active⟩ := flight.1
    obtain ⟨file, found, decoded⟩ := status_ok found
    obtain ⟨rfl, -⟩ := inv.ended.recorded.decoded found decoded
    rw [stands] at found
    cases found
    rw [terminal] at active
    cases active
  case case15 call sweep operationId now manager operation work made returned =>
    obtain ⟨covers, tries, calling⟩ := searched
    simp only [AdmissionSystem.enter_admits, Function.update_self]
    obtain ⟨named, asked⟩ := QueuedWork.new_ok made
    have free : operationId ∉ s.manager.store ∧ operationId ∈ manager.store :=
      manager_creates calling returned
    refine ⟨?_, asked, named ▸ free.2, ?_⟩
    · have quiet : s.QueueChange (.advance p input) { s with manager } := .quiet rfl rfl
      have kept := SearchCovers.kept inv quiet
        (.inr ⟨.advance p (policy.stamp input.now), rfl⟩) covers
      exact kept
    · rw [named]
      exact fun created => free.1 (inv.stored _ created)
  case case18 call sweep operationId now manager no_error no_work no_item =>
    obtain ⟨covers, tries, calling⟩ := searched
    rcases create_returns calling with ⟨error, failed⟩ | ⟨task, made⟩
    · exact (no_error error failed).elim
    · cases item : QueuedWork.new operationId call.request now.instant with
      | error error => exact (no_item task error made item).elim
      | ok work => exact (no_work task work made item).elim
  case case24 error manager no_reply no_error =>
    change Searched policy _ p (s.admits p)
    rw [phase]
    trivial
  case case1 =>
    rw [phase]
    trivial
  case case2 =>
    rw [phase]
    trivial
  all_goals
    simp only [AdmissionSystem.enter_admits, AdmissionSystem.fail_admits, Function.update_self]
    trivial

/-- An admission creates its item while an operation with the same request is in flight that its
search has not listed, or could not read. -/
def Overlooks (s : AdmissionSystem) (l : AdmissionLabel) : Prop :=
  ∃ p input call sweep operation work now id, l = .advance p input ∧
    s.admits p = .queueing call sweep operation work now ∧ input.writes ∧
    InFlight s id call.request ∧ (id ∉ sweep.listed ∨ id ∈ sweep.unreadable)

/-- An admission that is about to create its item, after a step: it was before, or it has just
created its operation. -/
theorem Queues.before (inv : AdmitInv policy s) {work : QueuedWork}
    (h : Queues (s.step policy l) p work) :
    Queues s p work ∨ (∃ input, l = .advance p input) ∧ work.item.operationId ∉ s.manager.store := by
  obtain ⟨call, sweep, operation, now, queueing⟩ := h
  rcases @AdmissionSystem.step_admits policy s l p with same | ⟨input, rfl⟩ | away
  · rw [same] at queueing
    exact .inl ⟨call, sweep, operation, now, queueing⟩
  · refine .inr ⟨⟨input, rfl⟩, ?_⟩
    have searched := inv.searched p
    simp only [AdmissionSystem.step] at queueing
    generalize phase : s.admits p = stands at searched queueing
    revert queueing
    fun_cases AdmissionSystem.next policy s p input stands
    case case15 call' sweep' operationId now' manager operation' work' made returned =>
      intro queueing
      obtain ⟨-, tries, calling⟩ := searched
      simp only [AdmissionSystem.enter_admits, Function.update_self, AdmitPhase.queueing.injEq]
        at queueing
      obtain ⟨-, -, -, rfl, -⟩ := queueing
      rw [(QueuedWork.new_ok made).1]
      exact (manager_creates calling returned).1
    case case18 call' sweep' operationId now' manager no_error no_work no_item =>
      obtain ⟨-, tries, calling⟩ := searched
      rcases create_returns calling with ⟨error, failed⟩ | ⟨task, made⟩
      · exact (no_error error failed).elim
      · cases item : QueuedWork.new operationId call'.request now'.instant with
        | error error => exact (no_item task error made item).elim
        | ok work' => exact (no_work task work' made item).elim
    all_goals intro queueing
    case case1 =>
      rw [phase] at queueing
      cases queueing
    case case2 =>
      rw [phase] at queueing
      cases queueing
    case case24 =>
      change s.admits p = _ at queueing
      rw [phase] at queueing
      cases queueing
    case case3 =>
      simp only [AdmissionSystem.passOver, AdmissionSystem.enter_admits, Function.update_self]
        at queueing
      split at queueing <;> cases queueing
    case case6 =>
      simp only [AdmissionSystem.passOver, AdmissionSystem.enter_admits, Function.update_self]
        at queueing
      split at queueing <;> cases queueing
    case case11 =>
      simp only [AdmissionSystem.passOver, AdmissionSystem.enter_admits, Function.update_self]
        at queueing
      split at queueing <;> cases queueing
    all_goals
      simp only [AdmissionSystem.enter_admits, AdmissionSystem.call_admits,
        AdmissionSystem.fail_admits, Function.update_self] at queueing
      cases queueing
  · rw [queueing] at away
    cases away

theorem AdmitInv.single_step (inv : AdmitInv policy s) (seen : ¬ Overlooks s l) :
    SingleFlight (s.step policy l) := by
  have change := @AdmissionSystem.queue_change policy s l
  have moved := @moved_step policy s l
  -- an id that is brought into flight meets no other
  have alone : ∀ p input call sweep operation work now id, l = .advance p input →
      s.admits p = .queueing call sweep operation work now → input.writes →
      ¬ InFlight s id work.request := by
    rintro p input call sweep operation work now id rfl phase writes flight
    have searched := inv.searched p
    rw [phase] at searched
    obtain ⟨covers, asked, -, -⟩ := searched
    rw [asked] at flight
    by_cases missed : id ∉ sweep.listed ∨ id ∈ sweep.unreadable
    · exact seen ⟨p, input, call, sweep, operation, work, now, id, rfl, phase, writes, flight, missed⟩
    · simp only [not_or, not_not] at missed
      exact covers.2 id missed.1 missed.2 flight
  intro request id id' flight flight'
  rcases flight.before inv change moved with before |
    ⟨p, input, call, sweep, operation, work, now, label, phase, writes, rfl, rfl⟩
  · rcases flight'.before inv change moved with before' |
      ⟨p, input, call, sweep, operation, work, now, label, phase, writes, rfl, rfl⟩
    · exact inv.single request id id' before before'
    · exact absurd before (alone p input call sweep operation work now id label phase writes)
  · rcases flight'.before inv change moved with before' |
      ⟨q, input', call', sweep', operation', work', now', label', phase', writes', rfl, same⟩
    · exact absurd before' (alone p input call sweep operation work now id' label phase writes)
    · rw [label] at label'
      cases label'
      rw [phase] at phase'
      cases phase'
      rfl

theorem Searched.outside {stands : AdmitPhase} (h : stands.outside = true) :
    Searched policy s p stands := by
  cases stands with
  | idle => trivial
  | listing call => trivial
  | returned outcome => trivial
  | reading call sweep left found => cases h
  | matching call sweep left => cases h
  | creating call sweep operationId now => cases h
  | queueing call sweep operation work now => cases h
  | failing error => trivial

theorem AdmitInv.searched_step (inv : AdmitInv policy s) (l : AdmissionLabel) (p : Nat) :
    Searched policy (s.step policy l) p ((s.step policy l).admits p) := by
  by_cases own : ∃ input, l = .advance p input
  · obtain ⟨input, rfl⟩ := own
    exact Searched.next inv input
  · rcases @AdmissionSystem.step_admits policy s l p with same | advanced | outside
    · rw [same]
      exact Searched.other inv fun input label => own ⟨input, label⟩
    · exact absurd advanced own
    · exact Searched.outside outside

theorem AdmitInv.distinct_step (inv : AdmitInv policy s) {q : Nat} {work work' : QueuedWork}
    (h : Queues (s.step policy l) p work) (h' : Queues (s.step policy l) q work')
    (same : work.item.operationId = work'.item.operationId) : p = q := by
  have stored : ∀ p work, Queues s p work → work.item.operationId ∈ s.manager.store := by
    rintro p work ⟨call, sweep, operation, now, phase⟩
    have searched := inv.searched p
    rw [phase] at searched
    exact searched.2.2.1
  rcases h.before inv with before | ⟨⟨input, rfl⟩, free⟩
  · rcases h'.before inv with before' | ⟨-, free⟩
    · exact inv.distinct p q work work' before before' same
    · exact absurd (same ▸ stored p work before) free
  · rcases h'.before inv with before' | ⟨⟨input', label⟩, -⟩
    · exact absurd (same ▸ stored q work' before') free
    · cases label
      rfl

theorem AdmitInv.linked_step (inv : AdmitInv policy s) (l : AdmissionLabel) :
    Linked QueuedWork.apply QueuedWork.updatedAt (s.step policy l).queue := by
  cases @AdmissionSystem.queue_change policy s l with
  | quiet queue same =>
    rw [queue]
    exact inv.linked
  | acted action queue same =>
    rw [queue]
    exact inv.linked.act QueuedWork.advances action
  | inserted q input call sweep operation work now label phase free writes queue same =>
    rw [queue]
    refine inv.linked.create ⟨1, work⟩ ?_
    intro t held calling same
    have searched := inv.searched q
    rw [phase] at searched
    exact searched.2.2.2 (same ▸ inv.called t held calling)

theorem AdmitInv.called_step (inv : AdmitInv policy s) (l : AdmissionLabel) :
    ∀ t call, (s.step policy l).queue.calls t = some call → call.key ∈ (s.step policy l).created := by
  intro t call held
  have change := @AdmissionSystem.queue_change policy s l
  apply created_kept change
  cases change with
  | quiet queue same =>
    rw [queue] at held
    exact inv.called t call held
  | acted action queue same =>
    rw [queue] at held
    rcases Store.act_calls held with ⟨e, found⟩ | ⟨before, held, same⟩
    · exact (inv.recorded call.key e found).2
    · rw [← same]
      exact inv.called t before held
  | inserted q input call' sweep operation work now label phase free writes queue same =>
    rw [queue] at held
    exact inv.called t call held

theorem AdmitInv.recorded_step (inv : AdmitInv policy s) (l : AdmissionLabel)
    {e : Envelope QueuedWork} (found : (s.step policy l).queue.records id = some e) :
    e.value.item.operationId = id ∧ id ∈ (s.step policy l).created := by
  have change := @AdmissionSystem.queue_change policy s l
  rcases record_before inv.linked change found with ⟨e', found', named, -⟩ |
    ⟨p, input, call, sweep, operation, work, now, label, phase, writes, own, value, created⟩
  · obtain ⟨same, created⟩ := inv.recorded id e' found'
    exact ⟨named ▸ same, created_kept change created⟩
  · rw [value]
    exact ⟨own.symm, created⟩

theorem AdmitInv.stored_step (inv : AdmitInv policy s) (l : AdmissionLabel)
    (created : id ∈ (s.step policy l).created) : id ∈ (s.step policy l).manager.store := by
  have before : id ∈ s.manager.store := by
    cases @AdmissionSystem.queue_change policy s l with
    | quiet queue same => exact inv.stored id (same ▸ created)
    | acted action queue same => exact inv.stored id (same ▸ created)
    | inserted q input call sweep operation work now label phase free writes queue same =>
      rw [same] at created
      rcases List.mem_cons.mp created with rfl | old
      · have searched := inv.searched q
        rw [phase] at searched
        exact searched.2.2.1
      · exact inv.stored id old
  rcases @moved_step policy s l with still | ⟨m, moved⟩
  · rw [still]
    exact before
  · rw [moved]
    exact RepoForge.stored_step inv.ended.toManagerInv before

/-- Every step keeps the invariant, but where an admission overlooks an operation. -/
theorem AdmitInv.step (inv : AdmitInv policy s) (seen : ¬ Overlooks s l) :
    AdmitInv policy (s.step policy l) where
  ended := by
    rcases @moved_step policy s l with still | ⟨m, moved⟩
    · rw [still]
      exact inv.ended
    · rw [moved]
      exact inv.ended.step m
  linked := inv.linked_step l
  recorded _ _ found := inv.recorded_step l found
  called := inv.called_step l
  stored _ created := inv.stored_step l created
  searched := inv.searched_step l
  distinct _ _ _ _ h h' same := inv.distinct_step h h' same
  single := inv.single_step seen

theorem AdmitInv.start : AdmitInv policy .start where
  ended := EndedInv.start
  linked := linked_idle fun _ => rfl
  recorded id e found := by cases found
  called t call held := by cases held
  stored id created := by cases created
  searched p := trivial
  distinct p q work work' h := by
    obtain ⟨call, sweep, operation, now, phase⟩ := h
    cases phase
  single request id id' flight := by
    obtain ⟨-, e, found, -⟩ := flight
    cases found

end Flight

end RepoForge
