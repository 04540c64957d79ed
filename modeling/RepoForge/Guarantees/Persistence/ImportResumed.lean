import RepoForge.Source.Persistence.ProcessLeases
import RepoForge.Spec.Persistence.Repository

/-!
# Running the import again

`leases.create` refuses an id that has a lease, so a run that got as far as its first lease has every
later run raise at it. The import ends as it should exactly where no earlier run wrote anything
(`resumed_iff`).
-/
namespace RepoForge.LeaseImport
open Interruptible
open Interruptible.Proc (check)

section Calls
variable {α β : Type} {change : Stores → Except ImportError (α × Stores)}
  {next : α → Proc Stores ImportError β} {s after : Stores} {value : α} {n : Nat}

theorem call_ok (goes : change s = .ok (value, after)) :
    call change s = ⟨[after], after, .ok value⟩ := by
  simp [call, goes]

theorem call_error {e : ImportError} (refused : change s = .error e) :
    call change s = ⟨[], s, .error e⟩ := by
  simp [call, refused]

theorem call_returns (returns : (call change s).result = .ok value) :
    change s = .ok (value, (call change s).state) := by
  cases changed : change s with
  | error e =>
    rw [call_error changed] at returns
    cases returns
  | ok done =>
    rw [call_ok changed] at returns ⊢
    cases returns
    rfl

theorem bind_call_ok (goes : change s = .ok (value, after)) :
    (call change >>= next) s =
      ⟨after :: (next value after).visited, (next value after).state,
        (next value after).result⟩ := by
  have run := call_ok goes
  have result : (call change s).result = .ok value := by rw [run]
  rw [Proc.bind_run result, run]
  rfl

theorem bind_call_error {e : ImportError} (refused : change s = .error e) :
    (call change >>= next) s = ⟨[], s, .error e⟩ := by
  have run := call_error refused
  rw [Proc.bind_run_error (e := e) (by rw [run]), run]

theorem stopped_call (goes : change s = .ok (value, after)) :
    stopped (call change >>= next) (some (n + 1)) s = stopped (next value) (some n) after := by
  rw [stopped_some, stopped_some, bind_call_ok goes, List.getElem?_cons_succ]

theorem stopped_call_error {e : ImportError} (refused : change s = .error e) :
    stopped (call change >>= next) (some n) s = s := by
  rw [stopped_some, bind_call_error refused]
  cases n <;> rfl

theorem bind_check_ok {look : Stores → Except ImportError α} (seen : look s = .ok value) :
    (check look >>= next) s = next value s := by
  have result : ((check look : Proc Stores ImportError α) s).result = .ok value := seen
  rw [Proc.bind_run result]
  rfl

end Calls

section Lease
variable {codec : StateCodec ProcessLease} {now : Text} {binding : ExecutionWorkerBinding}
  {lease : ProcessLease} {s : Stores}

theorem leaseOf_ok (made : leaseOf now binding = .ok lease) :
    lease.leaseId = binding.workerId ∧ lease.pid = some binding.pid ∧
      statusByBindingState binding.state = some lease.status := by
  unfold leaseOf at made
  split at made
  · cases made
  · rename_i status prescribed
    simp only at made
    cases checked : checkLease _ with
    | error e =>
      rw [checked] at made
      cases made
    | ok _ =>
      rw [checked] at made
      cases made
      exact ⟨rfl, rfl, prescribed⟩

/-- The JSON store takes a lease of the binding. -/
def Creatable (codec : StateCodec ProcessLease) (now : Text) (binding : ExecutionWorkerBinding) : Prop :=
  ∃ lease, leaseOf now binding = .ok lease ∧ validLeaseId binding.workerId = true ∧
    codec.recordId binding.workerId = true ∧ codec.encodes 1 lease = .ok ()

/-- And so does the shadow. -/
def Importable (codec : StateCodec ProcessLease) (now : Text) (binding : ExecutionWorkerBinding) :
    Prop :=
  Creatable codec now binding ∧ binding.pid < 2 ^ 63

theorem create_ok_iff {envelope : StateEnvelope ProcessLease} {after : Stores} :
    create codec lease s = .ok (envelope, after) ↔
      validLeaseId lease.leaseId = true ∧ codec.recordId lease.leaseId = true ∧
      codec.encodes 1 lease = .ok () ∧ lease.leaseId ∉ s.leases ∧
      envelope = ⟨lease.leaseId, 1, lease⟩ ∧
      after = { s with leases := s.leases.insert lease.leaseId (.readable 1 lease) } := by
  unfold create Repository.create Repository.checkId
  by_cases valid : validLeaseId lease.leaseId = true
  · by_cases safe : codec.recordId lease.leaseId = true
    · cases encoded : codec.encodes 1 lease with
      | error e => simp [valid, safe, bind, Except.bind]
      | ok _ =>
        by_cases there : lease.leaseId ∈ s.leases
        · simp [valid, safe, there, bind, Except.bind]
        · simp [valid, safe, there, bind, Except.bind, eq_comm]
    · simp [valid, safe, bind, Except.bind]
  · simp [valid]

theorem writeShadow_ok_iff {revision : Nat} {after : Stores} :
    writeShadow lease revision s = .ok ((), after) ↔
      lease.pid.getD 0 < 2 ^ 63 ∧ revision < 2 ^ 63 ∧
      after = { s with shadow := s.shadow.insert lease.leaseId (rowOf lease revision) } := by
  unfold writeShadow rowOf
  by_cases large : 2 ^ 63 ≤ lease.pid.getD 0 ∨ 2 ^ 63 ≤ revision
  · rw [if_pos large]
    constructor
    · intro stored
      cases stored
    · rintro ⟨pid, revision, -⟩
      omega
  · rw [if_neg large]
    obtain ⟨pid, number⟩ : lease.pid.getD 0 < 2 ^ 63 ∧ revision < 2 ^ 63 := by omega
    constructor
    · intro stored
      cases stored
      exact ⟨pid, number, rfl⟩
    · rintro ⟨-, -, rfl⟩
      rfl

end Lease

section Runs
variable {codec : StateCodec ProcessLease} {now : Text} {binding : ExecutionWorkerBinding}
  {page rest : List ExecutionWorkerBinding} {s t : Stores} {n m : Nat}

/-- One binding goes into both stores. -/
structure Imports (codec : StateCodec ProcessLease) (now : Text) (binding : ExecutionWorkerBinding)
    (s t : Stores) : Prop where
  importable : Importable codec now binding
  free : binding.workerId ∉ s.leases
  stored : ∃ lease row, leaseOf now binding = .ok lease ∧
    t = { leases := s.leases.insert binding.workerId (.readable 1 lease)
          shadow := s.shadow.insert binding.workerId row }

theorem Imports.of_free (importable : Importable codec now binding) (free : binding.workerId ∉ s.leases) :
    ∃ t, Imports codec now binding s t := by
  obtain ⟨lease, made, -⟩ := importable.1
  exact ⟨_, importable, free, lease, rowOf lease 1, made, rfl⟩

/-- The run after its first binding. -/
theorem importAll_cons (imports : Imports codec now binding s t) :
    ∃ t, Imports codec now binding s t ∧
      (importAll codec now (binding :: rest) n s).result = (importAll codec now rest (n + 1) t).result ∧
      (importAll codec now (binding :: rest) n s).state = (importAll codec now rest (n + 1) t).state := by
  obtain ⟨⟨⟨lease, made, valid, safe, encoded⟩, small⟩, free, -⟩ := imports
  obtain ⟨same, pid, -⟩ := leaseOf_ok made
  rw [← same] at valid safe free
  have created := create_ok_iff.mpr ⟨valid, safe, encoded, free, rfl, rfl⟩
  have shown := (@writeShadow_ok_iff lease
    { s with leases := s.leases.insert lease.leaseId (.readable 1 lease) } 1 _).mpr
    ⟨by simpa [pid] using small, by decide, rfl⟩
  refine ⟨_, ⟨⟨⟨lease, made, ?_, ?_, encoded⟩, small⟩, ?_, lease, rowOf lease 1, made, rfl⟩, ?_, ?_⟩
  · rwa [← same]
  · rwa [← same]
  · rwa [← same]
  · rw [importAll, bind_check_ok made, bind_call_ok created, bind_call_ok shown, same]
  · rw [importAll, bind_check_ok made, bind_call_ok created, bind_call_ok shown, same]

/-- A run that returns imported its first binding. -/
theorem imports_of_returns
    (returns : (importAll codec now (binding :: rest) n s).result = .ok m) :
    ∃ t, Imports codec now binding s t := by
  rw [importAll] at returns
  obtain ⟨lease, made, returns, -⟩ := Proc.bind_returns returns
  obtain ⟨envelope, created, returns, -⟩ := Proc.bind_returns returns
  obtain ⟨⟨⟩, shown, -, -⟩ := Proc.bind_returns returns
  obtain ⟨same, pid, -⟩ := leaseOf_ok made
  have small := (writeShadow_ok_iff.mp (call_returns shown)).1
  obtain ⟨valid, safe, encoded, free, -, -⟩ := create_ok_iff.mp (call_returns created)
  rw [pid, Option.getD_some] at small
  rw [same] at valid safe free
  exact Imports.of_free ⟨⟨lease, made, valid, safe, encoded⟩, small⟩ free

/-- Nothing in the way of a page. -/
def Fresh (codec : StateCodec ProcessLease) (now : Text) (page : List ExecutionWorkerBinding)
    (s : Stores) : Prop :=
  ∀ binding ∈ page, Importable codec now binding ∧ binding.workerId ∉ s.leases

section Imported
variable {id : Text}

theorem Imports.leases_other (imports : Imports codec now binding s t) (other : id ≠ binding.workerId) :
    t.leases.lookup id = s.leases.lookup id := by
  obtain ⟨-, -, lease, row, -, rfl⟩ := imports
  exact AList.lookup_insert_ne other

theorem Imports.shadow_other (imports : Imports codec now binding s t) (other : id ≠ binding.workerId) :
    t.shadow.lookup id = s.shadow.lookup id := by
  obtain ⟨-, -, lease, row, -, rfl⟩ := imports
  exact AList.lookup_insert_ne other

theorem Imports.mem_leases_iff (imports : Imports codec now binding s t) (other : id ≠ binding.workerId) :
    id ∈ t.leases ↔ id ∈ s.leases := by
  rw [← AList.lookup_isSome, ← AList.lookup_isSome, imports.leases_other other]

end Imported

/-- A run over different ids returns where nothing is in its way. -/
theorem importAll_returns_iff (unique : (page.map (·.workerId)).Nodup) :
    (∃ m, (importAll codec now page n s).result = .ok m) ↔ Fresh codec now page s := by
  induction page generalizing s n with
  | nil =>
    constructor
    · intro _ b inside
      cases inside
    · intro _
      exact ⟨n, rfl⟩
  | cons b rest ih =>
    rw [List.map_cons, List.nodup_cons] at unique
    obtain ⟨apart, unique⟩ := unique
    have different : ∀ c ∈ rest, c.workerId ≠ b.workerId := by
      intro c inside same
      exact apart (same ▸ List.mem_map_of_mem inside)
    have later : ∀ t, Imports codec now b s t →
        (Fresh codec now rest t ↔ Fresh codec now rest s) := by
      intro t imports
      apply forall₂_congr
      intro c inside
      rw [imports.mem_leases_iff (different c inside)]
    constructor
    · rintro ⟨m, returns⟩
      obtain ⟨t, imports⟩ := imports_of_returns returns
      obtain ⟨t, imports, result, -⟩ := @importAll_cons codec now b rest s t n imports
      have tail := (later t imports).mp ((ih unique).mp ⟨m, result ▸ returns⟩)
      intro c inside
      cases inside with
      | head => exact ⟨imports.importable, imports.free⟩
      | tail _ inside => exact tail c inside
    · intro fresh
      obtain ⟨importable, free⟩ := fresh b List.mem_cons_self
      obtain ⟨t, imports⟩ := Imports.of_free importable free
      obtain ⟨t, imports, result, -⟩ := @importAll_cons codec now b rest s t n imports
      rw [result]
      apply (ih unique).mpr
      apply (later t imports).mpr
      intro c inside
      exact fresh c (List.mem_cons_of_mem b inside)

/-- What a run that returns leaves under an id that is not on its page. -/
theorem importAll_other {id : Text} (returns : (importAll codec now page n s).result = .ok m)
    (other : id ∉ page.map (·.workerId)) :
    (importAll codec now page n s).state.leases.lookup id = s.leases.lookup id ∧
      (importAll codec now page n s).state.shadow.lookup id = s.shadow.lookup id := by
  induction page generalizing s n with
  | nil => exact ⟨rfl, rfl⟩
  | cons b rest ih =>
    rw [List.map_cons, List.mem_cons, not_or] at other
    obtain ⟨t, imports⟩ := imports_of_returns returns
    obtain ⟨t, imports, result, state⟩ := @importAll_cons codec now b rest s t n imports
    rw [state, ← imports.leases_other other.1, ← imports.shadow_other other.1]
    exact ih (result ▸ returns) other.2

/-- What it leaves for a binding of its page. -/
theorem importAll_stored (unique : (page.map (·.workerId)).Nodup)
    (returns : (importAll codec now page n s).result = .ok m) (inside : binding ∈ page) :
    binding.workerId ∈ (importAll codec now page n s).state.shadow ∧
    ∃ lease, (importAll codec now page n s).state.leases.lookup binding.workerId =
        some (.readable 1 lease) ∧ statusByBindingState binding.state = some lease.status := by
  induction page generalizing s n with
  | nil => cases inside
  | cons b rest ih =>
    rw [List.map_cons, List.nodup_cons] at unique
    obtain ⟨t, imports⟩ := imports_of_returns returns
    obtain ⟨t, imports, result, state⟩ := @importAll_cons codec now b rest s t n imports
    rw [state]
    rw [result] at returns
    cases inside with
    | tail _ inside => exact ih unique.2 returns inside
    | head =>
      obtain ⟨leases, shadow⟩ := importAll_other returns unique.1
      obtain ⟨-, -, lease, row, made, rfl⟩ := imports
      rw [← AList.lookup_isSome, leases, shadow, AList.lookup_insert, AList.lookup_insert]
      exact ⟨rfl, lease, rfl, (leaseOf_ok made).2.2⟩

end Runs

section Cuts
variable {codec : StateCodec ProcessLease} {now : Text} {first : ExecutionWorkerBinding}
  {page rest : List ExecutionWorkerBinding} {s t u : Stores} {n k : Nat}

/-- Every lease file is still there, as it was. -/
def Extends (s t : Stores) : Prop :=
  ∀ id file, s.leases.lookup id = some file → t.leases.lookup id = some file

theorem Extends.mem {id : Text} (kept : Extends s t) (inside : id ∈ s.leases) : id ∈ t.leases := by
  obtain ⟨file, found⟩ := Option.isSome_iff_exists.mp (AList.lookup_isSome.mpr inside)
  exact AList.lookup_isSome.mp (Option.isSome_iff_exists.mpr ⟨file, kept id file found⟩)

theorem call_spec {α : Type} {P : Stores → Prop} {change : Stores → Except ImportError (α × Stores)}
    (keeps : ∀ s value t, P s → change s = .ok (value, t) → P t) :
    Spec P (call change) (fun _ => P) (fun _ => P) P := by
  have kept : ∀ s, P s → (∀ v ∈ (call change s).visited, P v) ∧ P (call change s).state := by
    intro s start
    cases changed : change s with
    | error e =>
      rw [call_error changed]
      exact ⟨by simp, start⟩
    | ok done =>
      have after := keeps s done.1 done.2 start changed
      rw [call_ok changed]
      exact ⟨by simpa using after, after⟩
  constructor
  case visits => exact fun s start => (kept s start).1
  case returns => exact fun s start _ _ => (kept s start).2
  case raises => exact fun s start _ _ => (kept s start).2

theorem create_extends {lease : ProcessLease} : Spec (Extends u) (call (create codec lease))
    (fun _ => Extends u) (fun _ => Extends u) (Extends u) := by
  apply call_spec
  intro s envelope t kept created id file found
  obtain ⟨-, -, -, free, -, rfl⟩ := create_ok_iff.mp created
  have there := kept id file found
  by_cases same : id = lease.leaseId
  · subst same
    rw [AList.lookup_eq_none.mpr free] at there
    cases there
  · rwa [AList.lookup_insert_ne same]

theorem writeShadow_extends {lease : ProcessLease} {revision : Nat} :
    Spec (Extends u) (call (writeShadow lease revision)) (fun _ => Extends u) (fun _ => Extends u)
      (Extends u) := by
  apply call_spec
  intro s value t kept stored
  obtain ⟨-, -, rfl⟩ := writeShadow_ok_iff.mp stored
  exact kept

/-- A run only adds leases, wherever it stops. -/
theorem importAll_extends : Spec (Extends u) (importAll codec now page n) (fun _ => Extends u)
    (fun _ => Extends u) (Extends u) := by
  induction page generalizing n with
  | nil => exact Spec.ret n fun _ kept => kept
  | cons b rest ih =>
    apply Spec.bind (Spec.check (fun _ kept _ _ => kept) fun _ kept _ _ => kept)
    intro lease
    apply create_extends.bind
    intro envelope
    apply writeShadow_extends.bind
    intro _
    exact ih

theorem stopped_extends {attempt : Option Nat} (kept : Extends u s) :
    Extends u (stopped (importAll codec now page n) attempt s) :=
  importAll_extends.stopped kept kept (fun _ _ kept => kept) (fun _ _ kept => kept) attempt

theorem stopped_leaseOf {lease : ProcessLease} (made : leaseOf now first = .ok lease) :
    stopped (importAll codec now (first :: rest) n) (some k) s =
      stopped (do
        let envelope ← call (create codec lease)
        call (writeShadow lease envelope.revision)
        importAll codec now rest (n + 1)) (some k) s := by
  rw [importAll]
  exact stopped_check made

/-- A binding that the JSON store takes has a lease as soon as the run wrote anything. -/
theorem stopped_creatable (creatable : Creatable codec now first) :
    first.workerId ∈ (stopped (importAll codec now (first :: rest) n) (some (k + 1)) s).leases := by
  by_cases free : first.workerId ∈ s.leases
  · exact (stopped_extends (u := s) fun _ _ found => found).mem free
  · obtain ⟨lease, made, valid, safe, encoded⟩ := creatable
    obtain ⟨same, -, -⟩ := leaseOf_ok made
    rw [← same] at valid safe free ⊢
    have created := create_ok_iff.mpr ⟨valid, safe, encoded, free, rfl, rfl⟩
    rw [stopped_leaseOf made, stopped_call created]
    have tail := (@writeShadow_extends
      { s with leases := s.leases.insert lease.leaseId (.readable 1 lease) } lease 1).bind
      fun _ => @importAll_extends codec now rest _ (n + 1)
    apply Extends.mem (tail.stopped _ _ (fun _ _ kept => kept) (fun _ _ kept => kept) (some k))
    · simp
    · intro id file found
      exact found
    · intro id file found
      exact found

/-- One that it does not take ends the run before its first write. -/
theorem stopped_not_creatable (refused : ¬ Creatable codec now first) :
    stopped (importAll codec now (first :: rest) n) (some k) s = s := by
  cases made : leaseOf now first with
  | error e =>
    rw [importAll]
    exact stopped_check_error made
  | ok lease =>
    rw [stopped_leaseOf made]
    cases created : create codec lease s with
    | error e => exact stopped_call_error created
    | ok done =>
      obtain ⟨valid, safe, encoded, -⟩ := create_ok_iff.mp created
      rw [(leaseOf_ok made).1] at valid safe
      exact absurd ⟨lease, made, valid, safe, encoded⟩ refused

end Cuts

section Attempts
variable {bindingCodec : StateCodec ExecutionWorkerBinding} {codec : StateCodec ProcessLease}
  {bindings : BindingStore} {attempts : List Attempt} {s u : Stores}

/-- The attempt wrote nothing. -/
def Quiet (codec : StateCodec ProcessLease) (page : List ExecutionWorkerBinding)
    (attempt : Attempt) : Prop :=
  ∀ first ∈ page.head?, attempt.writes = 0 ∨ ¬ Creatable codec attempt.now first

theorem stopped_quiet {page : List ExecutionWorkerBinding} {attempt : Attempt}
    (quiet : Quiet codec page attempt) :
    stopped (importAll codec attempt.now page 0) (some attempt.writes) s = s := by
  cases page with
  | nil => exact stopped_pure _
  | cons first rest =>
    rcases quiet first rfl with none | refused
    · rw [none]
      rfl
    · exact stopped_not_creatable refused

theorem afterAttempts_extends (kept : Extends u s) :
    Extends u (afterAttempts bindingCodec codec bindings attempts s) := by
  induction attempts generalizing s with
  | nil => exact kept
  | cons attempt later ih => exact ih (stopped_extends kept)

theorem afterAttempts_quiet
    (quiet : ∀ attempt ∈ attempts, Quiet codec (activeBindings bindingCodec bindings) attempt) :
    afterAttempts bindingCodec codec bindings attempts s = s := by
  induction attempts generalizing s with
  | nil => rfl
  | cons attempt later ih =>
    have same : stopped (importActiveBindings bindingCodec codec bindings attempt.now)
        (some attempt.writes) s = s := stopped_quiet (quiet attempt List.mem_cons_self)
    rw [afterAttempts, List.foldl_cons, same]
    exact ih fun next inside => quiet next (List.mem_cons_of_mem attempt inside)

/-- Where the first binding has no lease in the end, no attempt wrote anything. -/
theorem quiet_of_free (free : ∀ first ∈ (activeBindings bindingCodec bindings).head?,
      first.workerId ∉ (afterAttempts bindingCodec codec bindings attempts s).leases) :
    ∀ attempt ∈ attempts, Quiet codec (activeBindings bindingCodec bindings) attempt := by
  induction attempts generalizing s with
  | nil =>
    intro attempt inside
    cases inside
  | cons attempt later ih =>
    intro next inside
    cases inside with
    | tail _ inside => exact ih free next inside
    | head =>
      intro first leading
      by_contra wrote
      rw [not_or, not_not] at wrote
      obtain ⟨k, writes⟩ : ∃ k, attempt.writes = k + 1 := Nat.exists_eq_succ_of_ne_zero wrote.1
      apply free first leading
      apply (@afterAttempts_extends _ _ _ later _ _ fun _ _ found => found).mem
      obtain ⟨rest, page⟩ : ∃ rest, activeBindings bindingCodec bindings = first :: rest :=
        List.head?_eq_some_iff.mp leading
      unfold importActiveBindings
      dsimp only
      rw [page, writes]
      exact stopped_creatable wrote.2

end Attempts

section Listing
variable {bindingCodec : StateCodec ExecutionWorkerBinding} {bindings : BindingStore}
  {b : ExecutionWorkerBinding}

/-- The registry holds the binding, and it may have a worker. -/
structure IsActive (bindingCodec : StateCodec ExecutionWorkerBinding) (bindings : BindingStore)
    (b : ExecutionWorkerBinding) : Prop where
  filed : ∃ revision, bindings.records.lookup b.workerId = some (.readable revision b)
  named : bindingCodec.recordId b.workerId = true
  active : b.state ∈ activeStates

/-- The ids of the one page that the import looks at. -/
def Listed (bindings : BindingStore) (b : ExecutionWorkerBinding) : Prop :=
  b.workerId ∈ (Repository.listIds 2000 0 bindings.records).1

theorem listed_record {found : StateEnvelope ExecutionWorkerBinding} {id : Text}
    (seen : (match Repository.read bindingCodec id bindings.records with
      | .ok found => found
      | .error _ => none) = some found) :
    found.value.workerId = id ∧ bindingCodec.recordId id = true ∧
      bindings.records.lookup id = some (.readable found.revision found.value) := by
  cases read : Repository.read bindingCodec id bindings.records with
  | error e =>
    rw [read] at seen
    cases seen
  | ok result =>
    rw [read] at seen
    cases seen
    obtain ⟨-, stored⟩ := Repository.read_eq_some read
    obtain ⟨⟨⟩, checked, -⟩ := bind_ok read
    refine ⟨bindings.filed id _ _ stored, ?_, stored⟩
    by_contra refused
    rw [Repository.checkId, if_neg refused] at checked
    cases checked

theorem mem_activeBindings :
    b ∈ activeBindings bindingCodec bindings ↔
      IsActive bindingCodec bindings b ∧ Listed bindings b := by
  unfold activeBindings listRecords
  simp only [List.mem_filter, List.mem_map, List.mem_reverse, mem_sortBy, List.mem_filterMap,
    decide_eq_true_eq]
  constructor
  · rintro ⟨⟨found, ⟨id, listed, seen⟩, rfl⟩, active⟩
    obtain ⟨rfl, named, stored⟩ := listed_record seen
    exact ⟨⟨⟨found.revision, stored⟩, named, active⟩, listed⟩
  · rintro ⟨⟨⟨revision, stored⟩, named, active⟩, listed⟩
    refine ⟨⟨⟨b.workerId, revision, b⟩, ⟨b.workerId, listed, ?_⟩, rfl⟩, active⟩
    simp [Repository.read, Repository.checkId, named, stored, bind, Except.bind]

theorem activeBindings_unique :
    ((activeBindings bindingCodec bindings).map (·.workerId)).Nodup := by
  have distinct : (Repository.sortedIds bindings.records).Nodup :=
    (List.perm_insertionSort _ _).nodup_iff.mpr bindings.records.keys_nodup
  have page : (Repository.listIds 2000 0 bindings.records).1.Nodup :=
    List.Nodup.sublist ((List.take_sublist _ _).trans (List.drop_sublist _ _)) distinct
  have records : (((listRecords bindingCodec bindings.records).map (·.value)).map
      (·.workerId)).Nodup := by
    unfold listRecords
    rw [List.map_map, List.map_reverse, List.nodup_reverse, (perm_sortBy.map _).nodup_iff, List.map_filterMap]
    apply page.filterMap
    intro id id' workerId first second
    obtain ⟨found, seen, rfl⟩ := Option.map_eq_some_iff.mp first
    obtain ⟨found', seen', same⟩ := Option.map_eq_some_iff.mp second
    rw [← (listed_record seen).1, ← (listed_record seen').1]
    exact same.symm
  exact List.Nodup.sublist (List.filter_sublist.map _) records

end Listing

section Resumed
variable (bindingCodec : StateCodec ExecutionWorkerBinding) (codec : StateCodec ProcessLease)
  (bindings : BindingStore) (attempts : List Attempt) (now : Text) (s : Stores)

/-- The last run, which nothing interrupts. -/
def finalRun : Outcome Stores ImportError Nat :=
  importActiveBindings bindingCodec codec bindings now
    (afterAttempts bindingCodec codec bindings attempts s)

/-- The runs come to the complete import in the end. -/
structure Resumed : Prop where
  returns : ∃ m, (finalRun bindingCodec codec bindings attempts now s).result = .ok m
  leased : ∀ b, IsActive bindingCodec bindings b →
    ∃ revision lease, (finalRun bindingCodec codec bindings attempts now s).state.leases.lookup
        b.workerId = some (.readable revision lease) ∧
      (b.workerId ∉ s.leases → statusByBindingState b.state = some lease.status)
  kept : Extends s (finalRun bindingCodec codec bindings attempts now s).state
  shadowed : ∀ b, IsActive bindingCodec bindings b →
    b.workerId ∈ (finalRun bindingCodec codec bindings attempts now s).state.shadow

/-- No earlier run has left a trace, and nothing is in the way of the last one. -/
structure Resumable : Prop where
  quiet : ∀ attempt ∈ attempts, Quiet codec (activeBindings bindingCodec bindings) attempt
  fresh : ∀ b, IsActive bindingCodec bindings b → Listed bindings b →
    Importable codec now b ∧ b.workerId ∉ s.leases
  unlisted : ∀ b, IsActive bindingCodec bindings b → ¬ Listed bindings b →
    b.workerId ∈ s.shadow ∧ ∃ revision lease, s.leases.lookup b.workerId = some (.readable revision lease)

theorem resumed_iff : Resumed bindingCodec codec bindings attempts now s ↔
    Resumable bindingCodec codec bindings attempts now s := by
  have unique := @activeBindings_unique bindingCodec bindings
  have off : ∀ b, ¬ Listed bindings b →
      b.workerId ∉ (activeBindings bindingCodec bindings).map (·.workerId) := by
    intro b hidden inside
    obtain ⟨c, inside, same⟩ := List.mem_map.mp inside
    rw [Listed, ← same] at hidden
    exact hidden (mem_activeBindings.mp inside).2
  constructor
  · rintro ⟨⟨m, returns⟩, leased, -, shadowed⟩
    have fresh := (importAll_returns_iff unique).mp ⟨m, returns⟩
    have quiet : ∀ attempt ∈ attempts, Quiet codec (activeBindings bindingCodec bindings) attempt := by
      apply quiet_of_free
      intro first leading
      exact (fresh first (List.mem_of_mem_head? leading)).2
    have start : afterAttempts bindingCodec codec bindings attempts s = s := afterAttempts_quiet quiet
    rw [start] at fresh
    refine ⟨quiet, ?_, ?_⟩
    · intro b active listed
      exact fresh b (mem_activeBindings.mpr ⟨active, listed⟩)
    · intro b active hidden
      obtain ⟨leases, shadow⟩ := importAll_other returns (off b hidden)
      rw [start] at leases shadow
      obtain ⟨revision, lease, found, -⟩ := leased b active
      have row := AList.lookup_isSome.mpr (shadowed b active)
      rw [finalRun, start] at found row
      exact ⟨AList.lookup_isSome.mp (shadow ▸ row), revision, lease, leases ▸ found⟩
  · rintro ⟨quiet, fresh, unlisted⟩
    have start : afterAttempts bindingCodec codec bindings attempts s = s := afterAttempts_quiet quiet
    have final : finalRun bindingCodec codec bindings attempts now s =
        importAll codec now (activeBindings bindingCodec bindings) 0 s := by
      rw [finalRun, start]
      rfl
    have ready : Fresh codec now (activeBindings bindingCodec bindings) s := by
      intro b inside
      obtain ⟨active, listed⟩ := mem_activeBindings.mp inside
      exact fresh b active listed
    obtain ⟨m, returns⟩ := (importAll_returns_iff (n := 0) unique).mpr ready
    refine ⟨?_, ?_, ?_, ?_⟩
    · rw [final]
      exact ⟨m, returns⟩
    · intro b active
      rw [final]
      by_cases listed : Listed bindings b
      · have inside := mem_activeBindings.mpr ⟨active, listed⟩
        obtain ⟨-, lease, found, prescribed⟩ := importAll_stored unique returns inside
        exact ⟨1, lease, found, fun _ => prescribed⟩
      · obtain ⟨-, revision, lease, found⟩ := unlisted b active listed
        refine ⟨revision, lease, ?_, ?_⟩
        · rw [(importAll_other returns (off b listed)).1, found]
        · intro missing
          rw [AList.lookup_eq_none.mpr missing] at found
          cases found
    · rw [final]
      exact importAll_extends.returns s (fun _ _ found => found) m returns
    · intro b active
      rw [final]
      by_cases listed : Listed bindings b
      · exact (importAll_stored unique returns (mem_activeBindings.mpr ⟨active, listed⟩)).1
      · rw [← AList.lookup_isSome, (importAll_other returns (off b listed)).2, AList.lookup_isSome]
        exact (unlisted b active listed).1

/-- A worker that runs. -/
def sampleBinding : ExecutionWorkerBinding :=
  { workerId := "worker-00ff00ff00ff00ff".toList
    pid := 4321
    pgid := 4321
    processStartToken := some "4321:1".toList
    generation := 1
    releaseSha := none
    supervisorPid := 4000
    supervisorProcessIdentity := "4000:1".toList
    correlationId := "daemon-1".toList
    startedAt := "2026-01-01T00:00:00Z".toList
    state := .running }

def sampleBindings : BindingStore where
  records := (∅ : Collection ExecutionWorkerBinding).insert sampleBinding.workerId
    (.readable 1 sampleBinding)
  filed := by
    intro id revision binding found
    by_cases same : id = sampleBinding.workerId
    · subst same
      rw [AList.lookup_insert] at found
      cases found
      rfl
    · rw [AList.lookup_insert_ne same, AList.lookup_empty] at found
      cases found

def sampleTime : Text := "2026-01-02T00:00:00Z".toList

/-- The first run dies between the lease and its shadow row, and the next one raises. -/
theorem crash_is_permanent :
    (finalRun (workerCodec fun _ _ => .ok ()) (leaseCodec fun _ _ => .ok ()) sampleBindings
      [⟨sampleTime, 1⟩] sampleTime ⟨∅, ∅⟩).result = .error (.state .alreadyExists) ∧
    ¬ Resumed (workerCodec fun _ _ => .ok ()) (leaseCodec fun _ _ => .ok ()) sampleBindings
      [⟨sampleTime, 1⟩] sampleTime ⟨∅, ∅⟩ := by
  have raises : (finalRun (workerCodec fun _ _ => .ok ()) (leaseCodec fun _ _ => .ok ())
      sampleBindings [⟨sampleTime, 1⟩] sampleTime ⟨∅, ∅⟩).result =
        .error (.state .alreadyExists) := by rfl
  refine ⟨raises, ?_⟩
  intro resumed
  obtain ⟨m, returns⟩ := resumed.returns
  rw [raises] at returns
  cases returns

end Resumed

end RepoForge.LeaseImport
