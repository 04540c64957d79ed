import RepoForge.Guarantees.Egress.Redacted
import RepoForge.Guarantees.HotReload.DisposedOnce
import RepoForge.Source.HotReload.ServiceRouter

/-!
# What a failed reload leaves behind

The active container stays, and no operation runs at the durable commit after a drain. The error
paths reopen the gate whatever it was before: a gate that was failed closed is open after them.
-/
namespace RepoForge.HotReload

open PyStr PyDict Runs

/-- How many admitted operations of a gate read, or write. -/
def runningAt (running : List Operation) (gate : Nat) (mutating : Bool) : Nat :=
  running.countP fun op => op.gate = gate ∧ op.mutating = mutating

/-- The counters of the gates are the numbers of operations they have admitted. -/
def Counted (m : ReloadMachine) : Prop :=
  ∀ gate, (m.gates gate).activeReads = runningAt m.running gate false ∧
    (m.gates gate).activeWrites = runningAt m.running gate true

def ReloadEvent.isReload : ReloadEvent → Bool
  | .advance _ => true
  | _ => false

/-- The same run without the reload. -/
def withoutReload (events : List ReloadEvent) : List ReloadEvent :=
  events.filter fun event => !event.isReload

/-- A gate that admits operations. -/
def Admits (gate : OperationGate) : Prop := gate.state = .opened

section

variable (R : Egress.Runtime) (request : ReloadRequest)

/-- Where the reload comes to reopen a gate, the gate would be open without it. -/
def ReopensOpen (m : ReloadMachine) (events : List ReloadEvent) : Prop :=
  ∀ done expired rest candidate drained error, events = done ++ .advance expired :: rest →
    (run (ReloadMachine.step R request) m done).reload = .reopening candidate drained error →
    Admits ((run (ReloadMachine.step R request) m (withoutReload done)).gates drained.gate)

end

variable {R : Egress.Runtime} {request : ReloadRequest} {m : ReloadMachine}
  {events : List ReloadEvent}

/-! ### The gates -/

section Gates

variable {gate next : OperationGate} {operationId : PyStr} {mutating : Bool}

/-- An admitted operation is counted; the gate was open, and stays so. -/
theorem enter_ok (ok : gate.enter operationId mutating = .ok next) :
    Admits gate ∧ next.state = gate.state ∧
      next.activeReads = gate.activeReads + (if mutating then 0 else 1) ∧
      next.activeWrites = gate.activeWrites + (if mutating then 1 else 0) := by
  unfold OperationGate.enter at ok
  split at ok
  · cases ok
  · split_ifs at ok
  · rename_i opened
    cases mutating
    · cases ok
      exact ⟨opened, rfl, rfl, (Int.add_zero _).symm⟩
    · cases ok
      exact ⟨opened, rfl, (Int.add_zero _).symm, rfl⟩

theorem leave_state : (gate.leave operationId mutating).state = gate.state := by
  cases mutating <;> rfl

theorem leave_counts (gate : OperationGate) (operationId : PyStr) (mutating : Bool) :
    (gate.leave operationId mutating).activeReads =
        gate.activeReads - (if mutating then 0 else 1) ∧
      (gate.leave operationId mutating).activeWrites =
        gate.activeWrites - (if mutating then 1 else 0) := by
  cases mutating
  · exact ⟨rfl, (Int.sub_zero _).symm⟩
  · exact ⟨(Int.sub_zero _).symm, rfl⟩

theorem beginDrain_ok {reason correlationId : PyStr} {details : List (PyStr × Detail)}
    (ok : gate.beginDrain R reason correlationId details = .ok next) :
    next.state = .draining ∧ next.activeReads = gate.activeReads ∧
      next.activeWrites = gate.activeWrites := by
  obtain ⟨sanitized, -, made⟩ := bind_ok ok
  cases made
  exact ⟨rfl, rfl, rfl⟩

end Gates

theorem setGate_apply {g g' : Nat} {next : OperationGate} :
    (m.setGate g next).gates g' = if g' = g then next else m.gates g' :=
  Function.update_apply _ _ _ _

def ReloadEvent.closes (g : Nat) : ReloadEvent → Bool
  | .failClosed gate _ _ => g = gate
  | _ => false

/-- The state of a gate changes under `fail_closed` and the reload only. -/
theorem step_state {event : ReloadEvent} (other : event.isReload = false) (g : Nat) :
    ((m.step R request event).gates g).state =
      if event.closes g then .failClosed else (m.gates g).state := by
  cases event with
  | enter operation =>
    rw [if_neg (by simp [ReloadEvent.closes])]
    simp only [ReloadMachine.step]
    split
    · rfl
    · rename_i next ok
      rw [setGate_apply]
      split_ifs with here
      · rw [here, (enter_ok ok).2.1]
      · rfl
  | leave operation =>
    rw [if_neg (by simp [ReloadEvent.closes])]
    simp only [ReloadMachine.step]
    split_ifs
    · rw [setGate_apply]
      split_ifs with here
      · rw [here, leave_state]
      · rfl
    · rfl
  | failClosed gate reason correlationId =>
    simp only [ReloadMachine.step, ReloadEvent.closes, setGate_apply, decide_eq_true_eq]
    split_ifs <;> rfl
  | advance expired => cases other

/-! ### The reload -/

/-- The container whose gate the reload has taken to drain. -/
def ReloadAt.drained : ReloadAt → Option GenerationServiceContainer
  | .draining _ drained _ | .waiting _ drained | .committing _ (some drained) => some drained
  | .reopening _ drained _ => some drained
  | _ => none

/-- Everything that one access of the reload can do. -/
inductive Move (m : ReloadMachine) : ReloadMachine → Prop
  | quiet (reload : ReloadAt) (disposed : List GenerationServiceContainer)
      (free : reload.drained = none) : Move m { m with reload, disposed }
  | still : Move m m
  | takes (reload : ReloadAt) (there : reload.drained = some m.router.active)
      (early : ∀ c d, reload ≠ .waiting c d ∧ reload ≠ .committing c (some d)) :
      Move m { m with reload }
  | fails (candidate drained : GenerationServiceContainer) (error : Raised)
      (there : m.reload.drained = some drained) :
      Move m { m with reload := .reopening candidate drained error }
  | drains (candidate drained : GenerationServiceContainer) (next : OperationGate)
      (there : m.reload.drained = some drained) (draining : next.state = .draining)
      (reads : next.activeReads = (m.gates drained.gate).activeReads)
      (writes : next.activeWrites = (m.gates drained.gate).activeWrites) :
      Move m { m.setGate drained.gate next with reload := .waiting candidate drained }
  | idles (candidate drained : GenerationServiceContainer)
      (there : m.reload = .waiting candidate drained)
      (idle : (m.gates drained.gate).idle = true) :
      Move m { m with reload := .committing candidate (some drained) }
  | swaps (router : AtomicServiceRouter) (previous : GenerationServiceContainer)
      (disposed : List GenerationServiceContainer) :
      Move m { m with router, disposed, reload := .returned previous }
  | reopens (candidate drained : GenerationServiceContainer) (error : Raised)
      (there : m.reload = .reopening candidate drained error) :
      Move m ((m.setGate drained.gate (m.gates drained.gate).reopen).discard (some candidate) error)

theorem buildCandidate_move {current : Int} : Move m (m.buildCandidate request current) := by
  unfold ReloadMachine.buildCandidate
  split
  · exact .quiet _ _ rfl
  · split
    · exact .quiet _ _ rfl
    · split
      · exact .quiet _ _ rfl
      · exact .quiet _ _ rfl
      · exact .quiet _ _ rfl

theorem prepare_move : Move m (m.prepare request) := by
  unfold ReloadMachine.prepare
  dsimp only
  split
  · split_ifs
    · exact .quiet _ _ rfl
    · exact buildCandidate_move
  · exact buildCandidate_move

theorem advance_move {expired : Bool} : Move m (m.advance R request expired) := by
  unfold ReloadMachine.advance
  split
  · exact prepare_move
  · dsimp only
    split_ifs
    · exact .takes _ rfl (by simp)
    · exact .takes _ rfl (by simp)
  · rename_i candidate drained details here
    have there : m.reload.drained = some drained := by rw [here]; rfl
    split
    · exact .fails _ _ _ there
    · rename_i next ok
      obtain ⟨draining, reads, writes⟩ := beginDrain_ok ok
      exact .drains _ _ _ there draining reads writes
  · rename_i candidate drained here
    have there : m.reload.drained = some drained := by rw [here]; rfl
    split_ifs with idle
    · exact .idles _ _ here idle
    · exact .fails _ _ _ there
    · exact .still
  · rename_i candidate drained here
    split
    · cases drained with
      | none => exact .quiet _ _ rfl
      | some drained =>
        have there : m.reload.drained = some drained := by rw [here]; rfl
        exact .fails _ _ _ there
    · exact .swaps _ _ _
  · rename_i candidate drained error here
    exact .reopens _ _ _ here
  · exact .still
  · exact .still

/-- The reload opens the gate that it comes to reopen, and no other. -/
theorem Move.admits {m' : ReloadMachine} {g : Nat} (move : Move m m')
    (opened : Admits (m'.gates g)) :
    Admits (m.gates g) ∨
      ∃ candidate drained error, m.reload = .reopening candidate drained error ∧
        drained.gate = g := by
  cases move with
  | drains candidate drained next there draining =>
    rw [Admits] at opened
    dsimp only at opened
    rw [setGate_apply] at opened
    split_ifs at opened with here
    · rw [draining] at opened
      cases opened
    · exact .inl opened
  | reopens candidate drained error there =>
    rw [Admits] at opened
    dsimp only [ReloadMachine.discard] at opened
    rw [setGate_apply] at opened
    split_ifs at opened with here
    · exact .inr ⟨candidate, drained, error, there, here.symm⟩
    · exact .inl opened
  | _ => exact .inl opened

theorem withoutReload_append {done : List ReloadEvent} {event : ReloadEvent} :
    withoutReload (done ++ [event]) =
      withoutReload done ++ if event.isReload then [] else [event] := by
  rw [withoutReload, List.filter_append, ← withoutReload]
  cases event <;> rfl

/-- A gate that admits operations would admit them without the reload. -/
theorem admits_without (reopens : ReopensOpen R request m events) :
    ∀ done rest, events = done ++ rest → ∀ g,
      Admits ((run (ReloadMachine.step R request) m done).gates g) →
      Admits ((run (ReloadMachine.step R request) m (withoutReload done)).gates g) := by
  intro done
  induction done using List.reverseRecOn with
  | nil => exact fun _ _ _ opened => opened
  | append_singleton done event ih =>
    intro rest split g opened
    have before := ih (event :: rest) (by rw [split]; simp) g
    rw [run_append, run_cons, run_nil] at opened
    rw [withoutReload_append, run_append]
    cases own : event.isReload with
    | true =>
      cases event with
      | advance expired =>
        rw [if_pos rfl, run_nil]
        rcases (advance_move (R := R)).admits opened with
          open_ | ⟨candidate, drained, error, there, rfl⟩
        · exact before open_
        · exact reopens done expired rest candidate drained error (by rw [split]; simp) there
      | enter => cases own
      | leave => cases own
      | failClosed => cases own
    | false =>
      rw [if_neg Bool.false_ne_true, run_cons, run_nil]
      rw [Admits, step_state own] at opened ⊢
      split_ifs at opened ⊢
      exact before opened

/-! ### Operations under way -/

theorem runningAt_cons {running : List Operation} {operation : Operation} {g : Nat}
    {mutating : Bool} :
    runningAt (operation :: running) g mutating = runningAt running g mutating +
      if operation.gate = g ∧ operation.mutating = mutating then 1 else 0 := by
  simp [runningAt, List.countP_cons]

theorem runningAt_erase {running : List Operation} {operation : Operation} {g : Nat}
    {mutating : Bool} (here : operation ∈ running) :
    runningAt running g mutating = runningAt (running.erase operation) g mutating +
      if operation.gate = g ∧ operation.mutating = mutating then 1 else 0 := by
  rw [← runningAt_cons]
  exact (List.perm_cons_erase here).countP_eq _

/-- No move of the reload changes a counter. -/
theorem Move.counted {m' : ReloadMachine} (move : Move m m') (counted : Counted m) :
    Counted m' := by
  intro g
  have before := counted g
  cases move with
  | drains candidate drained next there draining reads writes =>
    dsimp only
    rw [setGate_apply]
    split_ifs with here
    · rw [reads, writes, ← here]
      exact before
    · exact before
  | reopens candidate drained error there =>
    dsimp only [ReloadMachine.discard]
    rw [setGate_apply]
    split_ifs with here
    · subst here
      exact before
    · exact before
  | _ => exact before

/-- An operation that enters or leaves is counted at its gate. -/
theorem counted_step {event : ReloadEvent} (counted : Counted m) :
    Counted (m.step R request event) := by
  intro g
  have before := counted g
  cases event with
  | enter operation =>
    simp only [ReloadMachine.step]
    split
    · exact before
    · rename_i next ok
      obtain ⟨-, -, reads, writes⟩ := enter_ok ok
      dsimp only
      rw [runningAt_cons, runningAt_cons, setGate_apply]
      by_cases here : g = operation.gate
      · subst here
        rw [if_pos rfl, reads, writes]
        cases operation.mutating <;> simp [before]
      · have apart : ¬ operation.gate = g := fun same => here same.symm
        simp [here, apart, before]
  | leave operation =>
    simp only [ReloadMachine.step]
    split_ifs with there
    · obtain ⟨reads, writes⟩ := before
      rw [runningAt_erase there] at reads writes
      obtain ⟨lessReads, lessWrites⟩ := leave_counts (m.gates operation.gate)
        operation.operationId operation.mutating
      dsimp only
      rw [setGate_apply]
      by_cases here : g = operation.gate
      · subst here
        rw [if_pos rfl, lessReads, lessWrites, reads, writes]
        cases operation.mutating <;> simp
      · have apart : ¬ operation.gate = g := fun same => here same.symm
        simpa [here, apart] using And.intro reads writes
    · exact before
  | failClosed gate reason correlationId =>
    simp only [ReloadMachine.step]
    rw [setGate_apply]
    split_ifs with here
    · subst here
      exact before
    · exact before
  | advance expired => exact (advance_move (R := R)).counted counted g

/-- What holds throughout a reload that starts in `start`. -/
structure Handing (start m : ReloadMachine) : Prop where
  counted : Counted m
  router : (∃ previous, m.reload = .returned previous) ∨ m.router = start.router
  drained : ∀ d, m.reload.drained = some d → d = start.router.active
  shut : ∀ c d, m.reload = .waiting c d ∨ m.reload = .committing c (some d) →
    ¬ Admits (m.gates d.gate)
  idle : ∀ c d, m.reload = .committing c (some d) → ∀ op ∈ m.running, op.gate ≠ d.gate

variable {start m' : ReloadMachine}

/-- A step that leaves the reload where it is, and opens no gate. -/
theorem Handing.aside (handing : Handing start m) (reload : m'.reload = m.reload)
    (router : m'.router = m.router) (counted : Counted m')
    (shut : ∀ g, Admits (m'.gates g) → Admits (m.gates g))
    (entered : ∀ op ∈ m'.running, op ∈ m.running ∨ Admits (m.gates op.gate)) :
    Handing start m' := by
  constructor
  · exact counted
  · rw [reload, router]
    exact handing.router
  · rw [reload]
    exact handing.drained
  · intro c d here opened
    rw [reload] at here
    exact handing.shut c d here (shut _ opened)
  · intro c d here op running same
    rw [reload] at here
    rcases entered op running with before | opened
    · exact handing.idle c d here op before same
    · rw [same] at opened
      exact handing.shut c d (.inr here) opened

/-- An idle gate has no operation under way. -/
theorem idle_gate (counted : Counted m) {g : Nat} (idle : (m.gates g).idle = true) :
    ∀ op ∈ m.running, op.gate ≠ g := by
  intro op running same
  simp only [OperationGate.idle, Bool.and_eq_true, decide_eq_true_eq] at idle
  obtain ⟨reads, writes⟩ := counted g
  have positive : 0 < runningAt m.running g op.mutating :=
    List.countP_pos_iff.mpr ⟨op, running, by simp [same]⟩
  cases mutating : op.mutating <;> rw [mutating] at positive <;> omega

theorem Handing.move (handing : Handing start m) (move : Move m m')
    (going : ∀ previous, m.reload ≠ .returned previous) : Handing start m' := by
  have unswapped : m.router = start.router :=
    handing.router.resolve_left fun ⟨previous, there⟩ => going previous there
  have counted := move.counted handing.counted
  cases move with
  | quiet reload disposed free =>
    refine ⟨counted, .inr unswapped, ?_, ?_, ?_⟩
    · intro d there
      rw [free] at there
      cases there
    · rintro c d (rfl | rfl) <;> cases free
    · rintro c d rfl
      cases free
  | still => exact handing
  | takes reload there early =>
    refine ⟨counted, .inr unswapped, ?_, ?_, ?_⟩
    · intro d here
      rw [there] at here
      rw [← Option.some.inj here, unswapped]
    · intro c d here
      exact absurd here (not_or.mpr (early c d))
    · intro c d here
      exact absurd here (early c d).2
  | fails candidate drained error there =>
    refine ⟨counted, .inr unswapped, ?_, by simp, by simp⟩
    intro d here
    exact handing.drained d (there.trans here)
  | drains candidate drained next there draining =>
    refine ⟨counted, .inr unswapped, ?_, ?_, by simp⟩
    · intro d here
      exact handing.drained d (there.trans here)
    · rintro c d (here | here)
      · cases here
        rw [Admits]
        dsimp only
        rw [setGate_apply, if_pos rfl, draining]
        simp
      · cases here
  | idles candidate drained there idle =>
    refine ⟨counted, .inr unswapped, ?_, ?_, ?_⟩
    · intro d here
      refine handing.drained d ?_
      rw [there]
      exact here
    · rintro c d (here | here)
      · cases here
      · cases here
        exact handing.shut _ _ (.inl there)
    · intro c d here
      cases here
      exact idle_gate handing.counted idle
  | swaps router previous disposed =>
    exact ⟨counted, .inl ⟨previous, rfl⟩, by simp [ReloadAt.drained], by simp, by simp⟩
  | reopens candidate drained error there =>
    exact ⟨counted, .inr unswapped, by simp [ReloadAt.drained, ReloadMachine.discard],
      by simp [ReloadMachine.discard], by simp [ReloadMachine.discard]⟩

theorem handing_step {event : ReloadEvent} (handing : Handing start m) :
    Handing start (m.step R request event) := by
  have counted : Counted (m.step R request event) := counted_step handing.counted
  have shut : event.isReload = false → ∀ g, Admits ((m.step R request event).gates g) →
      Admits (m.gates g) := by
    intro other g opened
    rw [Admits, step_state other] at opened
    split_ifs at opened
    exact opened
  cases event with
  | enter operation =>
    cases ok : (m.gates operation.gate).enter operation.operationId operation.mutating with
    | error e => simpa [ReloadMachine.step, ok] using handing
    | ok next =>
      simp only [ReloadMachine.step, ok] at counted shut ⊢
      refine handing.aside rfl rfl counted (shut rfl) fun op running => ?_
      rcases List.mem_cons.mp running with rfl | running
      · exact .inr (enter_ok ok).1
      · exact .inl running
  | leave operation =>
    simp only [ReloadMachine.step] at counted shut ⊢
    split_ifs at counted shut ⊢
    · exact handing.aside rfl rfl counted (shut rfl) fun _ running =>
        .inl (List.mem_of_mem_erase running)
    · exact handing
  | failClosed gate reason correlationId =>
    exact handing.aside rfl rfl counted (shut rfl) fun _ running => .inl running
  | advance expired =>
    by_cases ended : ∃ previous, m.reload = .returned previous
    · obtain ⟨previous, ended⟩ := ended
      simpa [ReloadMachine.step, ReloadMachine.advance, ended] using handing
    · exact handing.move advance_move fun previous there => ended ⟨previous, there⟩

theorem handing_run (handing : Handing start m) :
    Handing start (run (ReloadMachine.step R request) m events) := by
  induction events generalizing m with
  | nil => exact handing
  | cons event events ih => exact ih (handing_step handing)

/-- What the run so far has kept: of the container that was active, of its gate, and of the
operations under way when the durable commit comes after a drain. -/
structure Harmless (R : Egress.Runtime) (request : ReloadRequest) (start : ReloadMachine)
    (done : List ReloadEvent) : Prop where
  active : ∀ error, (run (ReloadMachine.step R request) start done).reload = .raised error →
    (run (ReloadMachine.step R request) start done).router.active = start.router.active
  gate : ∀ error, (run (ReloadMachine.step R request) start done).reload = .raised error →
    Admits ((run (ReloadMachine.step R request) start done).gates start.router.active.gate) →
    Admits ((run (ReloadMachine.step R request) start (withoutReload done)).gates
      start.router.active.gate)
  handoff : ∀ candidate drained,
    (run (ReloadMachine.step R request) start done).reload = .committing candidate (some drained) →
    ∀ op ∈ (run (ReloadMachine.step R request) start done).running,
      op.gate ≠ start.router.active.gate

/-- On gates that are open, beside no call of `fail_closed`. -/
theorem reopensOpen_of_open (opened : ∀ g, Admits (start.gates g))
    (calm : ∀ event ∈ events, ∀ g, event.closes g = false) :
    ReopensOpen R request start events := by
  intro done expired rest candidate drained error split _
  have stays : ∀ (others : List ReloadEvent) (m : ReloadMachine), (∀ g, Admits (m.gates g)) →
      (∀ event ∈ others, event.isReload = false ∧ ∀ g, event.closes g = false) →
      ∀ g, Admits ((run (ReloadMachine.step R request) m others).gates g) := by
    intro others
    induction others with
    | nil => exact fun m opened _ => opened
    | cons event others ih =>
      intro m opened plain
      obtain ⟨first, later⟩ := List.forall_mem_cons.mp plain
      refine ih _ (fun g => ?_) later
      rw [Admits, step_state first.1, first.2 g]
      exact opened g
  refine stays _ start opened (fun event there => ?_) _
  obtain ⟨there, own⟩ := List.mem_filter.mp there
  refine ⟨by simpa using own, calm event ?_⟩
  rw [split]
  exact List.mem_append_left _ there

section Sample

/-- A build of generation 2 whose durable commit raises. -/
def sampleRequest : ReloadRequest where
  generation := 2
  expectedActive := some 1
  correlationId := lit "c"
  activationOperationId := none
  activationReceiptId := none
  build := .ok secondContainer
  repositories := .ok []
  identity := some (.ok {
    serverBuildSha := List.replicate 64 (.scalar '0')
    serverVersion := lit "1"
    activeGeneration := 1
    toolSurfaceHash := List.replicate 64 (.scalar '0')
    inputContractDigest := List.replicate 64 (.scalar '0')
    outputContractDigest := List.replicate 64 (.scalar '0')
    runtimeProtocolVersion := 1
    processStartIdentity := List.replicate 64 (.scalar '0') })
  commit := .error ⟨lit "OSError", lit "disk"⟩

def sampleStart : ReloadMachine where
  router := .init firstContainer
  gates _ := .init
  running := []
  reload := .ready
  disposed := []

theorem sampleStart_counted : Counted sampleStart := fun _ => ⟨rfl, rfl⟩

def sampleOperation : Operation := ⟨1, lit "op", true⟩

/-- An operation that ends while the reload waits for it. -/
def drainedRun : List ReloadEvent :=
  [.enter sampleOperation, .advance false, .advance false, .advance false, .advance false,
    .leave sampleOperation, .advance false, .advance false, .advance false]

/-- The gate is failed closed before the reload. -/
def closedRun : List ReloadEvent :=
  .failClosed 1 (lit "fault") (lit "c") :: List.replicate 6 (.advance false)

def ReloadAt.failed : ReloadAt → Bool
  | .raised _ => true
  | _ => false

theorem raised_of_failed {reload : ReloadAt} (failed : reload.failed = true) :
    ∃ error, reload = .raised error := by
  cases reload <;> cases failed
  exact ⟨_, rfl⟩

end Sample

end RepoForge.HotReload
