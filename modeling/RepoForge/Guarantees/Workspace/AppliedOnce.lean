import RepoForge.Guarantees.Workspace.KeyedDisk

/-!
# Keyed mutations are applied at most once

`Calls` are the runs of calls under one key, each finished or cut short between two of its
steps. `keyed_mutation_once` is about those in which no crash leaves a blocked journal and
every plan can be undone: after the next recovery either no call has done anything, or one
call has, its receipt is there, and every later call with its request gets its result.

`keyed_replay_blocked` is the run in which the first call crashes while it deletes its
journal, after the manifest and before the directory: its receipt is there and its file is
there, and the same call again raises instead of returning the result.
-/
namespace RepoForge

open Interruptible Interruptible.Proc

variable {Details : Type} {E : Engine} {codec : ReceiptCodec Details} {workspaceId : Text}

section Receipts

theorem safeReceiptName_key (binding : KeyBinding) :
    safeReceiptName (receiptName binding.keyHash) = true := by
  obtain ⟨length, hex⟩ := binding.hashed
  have front : ("orkspace_mutate-".toList.all fun c =>
      c.isLower || c.isDigit || c = '_' || c = '.' || c = '-') = true := by decide
  have back : (".json".toList.all fun c =>
      c.isLower || c.isDigit || c = '_' || c = '.' || c = '-') = true := by decide
  have middle : (binding.keyHash.all fun c =>
      c.isLower || c.isDigit || c = '_' || c = '.' || c = '-') = true := by
    rw [List.all_eq_true]
    intro c hc
    rcases hex c hc with digit | letter
    · simp [digit]
    · simp only [List.mem_cons, List.not_mem_nil, or_false] at letter
      rcases letter with rfl | rfl | rfl | rfl | rfl | rfl <;> decide
  have name : receiptName binding.keyHash =
      'w' :: ("orkspace_mutate-".toList ++ (binding.keyHash ++ ".json".toList)) := by
    unfold receiptName
    rw [List.append_assoc]
    rfl
  have size : ("orkspace_mutate-".toList ++ (binding.keyHash ++ ".json".toList)).length = 85 := by
    rw [List.length_append, List.length_append, length]
    decide
  rw [name, safeReceiptName, size, List.all_append, List.all_append, front, middle, back]
  decide

/-- A receipt is read back by a call with its key: the recorded result for the same request,
a conflict for another one. -/
theorem decodeReceipt_encodeReceipt {binding other : KeyBinding} {result : MutateResult Details}
    (key : other.keyHash = binding.keyHash) (here : result.workspaceId = workspaceId) :
    decodeReceipt codec workspaceId other (encodeReceipt codec binding result) =
      if other.requestDigest = binding.requestDigest then .ok (codec.sanitize result)
      else .error .idempotencyConflict := by
  unfold decodeReceipt encodeReceipt
  rw [codec.decode_encode]
  have same : (codec.sanitize result).workspaceId = workspaceId :=
    (codec.sanitize_workspaceId result).trans here
  by_cases digest : other.requestDigest = binding.requestDigest
  · simp [key, digest, same, receiptSchemaVersion]
  · simp [key, digest, Ne.symm digest, receiptSchemaVersion]

end Receipts

section Calls

variable {F F' : FileMap} {call : MutateCall Details} {binding : KeyBinding} {id : Text}
  {w w' : World}

/-- The actions that a call commits. -/
def MutateCall.performed (call : MutateCall Details) (planned : Planned Details) :
    List (TransactionAction Text) :=
  if call.dryRun then [] else planned.actions

/-- What a call did that claimed its key: it planned on a tree with the files `F`, its actions
were accepted there, they lead to the files `F'`, and this is its result. -/
def Carried (workspaceId : Text) (F : FileMap) (call : MutateCall Details) (F' : FileMap)
    (result : MutateResult Details) : Prop :=
  ∃ t planned actions, (∀ p, t.fileAt p = F p) ∧ call.plan t = .ok planned ∧
    validatePlan t true (call.performed planned) = .ok actions ∧
    F' = levelFiles t actions actions.length ∧
    (result = unchangedResult workspaceId planned call.dryRun ∨ ∃ id made,
      committedResult workspaceId planned id (changedPaths actions) made = .ok result)

theorem Carried.workspaceId_eq {result : MutateResult Details}
    (h : Carried workspaceId F call F' result) : result.workspaceId = workspaceId := by
  obtain ⟨t, planned, actions, -, -, -, -, rfl | ⟨id, made, built⟩⟩ := h
  · unfold unchangedResult
    split <;> rfl
  · obtain ⟨details, -, done⟩ := bind_ok built
    cases done
    rfl

/-- The disk after this call claimed its key. -/
def ClaimedDisk (E : Engine) (codec : ReceiptCodec Details) (workspaceId : Text) (F : FileMap)
    (call : MutateCall Details) (binding : KeyBinding) (w : World) : Prop :=
  ∃ id v F' result, w = crashed id v ∧ Carried workspaceId F call F' result ∧
    Claimed E F' (receiptName binding.keyHash) (encodeReceipt codec binding result) v

/-- Every plan that the call can commit on the recovered disk can be undone. -/
def PlansWell (E : Engine) (call : MutateCall Details) (w : World) : Prop :=
  ∀ planned actions, call.plan (recoverPending E w).state.tree = .ok planned →
    validatePlan (recoverPending E w).state.tree true (call.performed planned) = .ok actions →
    Replayable (recoverPending E w).state.tree actions ∧
      Separate (recoverPending E w).state.tree actions

theorem receiptOnly_keyed (result : MutateResult Details) :
    Keyed (receiptOnly codec binding result) (receiptName binding.keyHash) := by
  refine ⟨_, rfl, ?_⟩
  intro id changed t n payload made
  cases made
  rfl

theorem mutateOptions_keyed {planned : Planned Details} (bound : call.binding = some binding) :
    Keyed (mutateOptions codec workspaceId call planned) (receiptName binding.keyHash) := by
  refine ⟨fun id changed t => do
    let result ← committedResult workspaceId planned id changed t
    .ok (receiptName binding.keyHash, encodeReceipt codec binding result), ?_, ?_⟩
  · simp [mutateOptions, bound]
  · intro id changed t n payload made
    obtain ⟨result, -, done⟩ := bind_ok made
    cases done
    rfl

theorem settled_receiptOnly {t : Tree} {planned : Planned Details} {v : View}
    (files : ∀ p, t.fileAt p = F p) (plan : call.plan t = .ok planned)
    (nothing : call.performed planned = [])
    (settled : Settled E (receiptOnly codec binding (unchangedResult workspaceId planned
      call.dryRun)) id (receiptName binding.keyHash) t [] v) :
    ClaimedDisk E codec workspaceId F call binding (crashed id v) := by
  obtain ⟨actions, payload, accepted, ⟨factory, given, made⟩, claimed⟩ := settled
  cases given
  cases made
  refine ⟨id, v, _, _, rfl, ⟨t, planned, actions, files, plan, ?_, rfl, .inl rfl⟩, claimed⟩
  rw [nothing]
  exact accepted

theorem settled_mutateOptions {t : Tree} {planned : Planned Details} {v : View}
    (bound : call.binding = some binding) (files : ∀ p, t.fileAt p = F p)
    (plan : call.plan t = .ok planned) (wet : call.dryRun = false)
    (settled : Settled E (mutateOptions codec workspaceId call planned) id
      (receiptName binding.keyHash) t planned.actions v) :
    ClaimedDisk E codec workspaceId F call binding (crashed id v) := by
  obtain ⟨actions, payload, accepted, ⟨factory, given, made⟩, claimed⟩ := settled
  have keyed : (mutateOptions codec workspaceId call planned).commitReceiptFactory.isSome = true := by
    rw [given]
    rfl
  rw [keyed] at accepted
  simp only [mutateOptions, bound, Option.map_some, Option.some.injEq] at given
  subst given
  obtain ⟨result, built, done⟩ := bind_ok made
  cases done
  refine ⟨id, v, _, result, rfl, ⟨t, planned, actions, files, plan, ?_, rfl,
    .inr ⟨id, v.tree, built⟩⟩, claimed⟩
  rw [MutateCall.performed, wet]
  exact accepted

/-- A call under a free key claims it, or leaves it free. -/
theorem mutate_unclaimed (bound : call.binding = some binding)
    (unclaimed : UnclaimedDisk E F (receiptName binding.keyHash) w) (resumable : Resumable w)
    (well : PlansWell E call w) :
    Spec (· = w) (mutate E codec workspaceId id call)
      (fun _ w' => UnclaimedDisk E F (receiptName binding.keyHash) w' ∨
        ClaimedDisk E codec workspaceId F call binding w')
      (fun _ w' => UnclaimedDisk E F (receiptName binding.keyHash) w' ∨
        ClaimedDisk E codec workspaceId F call binding w')
      (fun w' => UnclaimedDisk E F (receiptName binding.keyHash) w' ∨
        ClaimedDisk E codec workspaceId F call binding w') := by
  obtain ⟨id', v, T, actions, rfl, base, unclaimed⟩ := unclaimed
  refine Spec.bind (Q := fun _ w => w = (recoverPending E (crashed id' v)).state ∧ ∃ u,
      w = crashed id u ∧ Rested F (receiptName binding.keyHash) u) (Spec.mapError _
    (((recoverPending_unclaimed base unclaimed resumable).both Spec.run).weaken (fun _ h => h) ?_
      (fun _ _ h => h.1) ?_) fun _ _ h => h.elim) fun _ => Spec.pointwise ?_
  · rintro _ w ⟨⟨u, rfl, rested⟩, -, state⟩
    exact ⟨state, u, World.crashed_idle rested.journal, rested⟩
  · rintro w ⟨⟨u, rfl, still⟩, -⟩
    exact .inl ⟨id', u, T, actions, rfl, base, still⟩
  rintro _ ⟨state, u, rfl, rested⟩
  have tree : (recoverPending E (crashed id' v)).state.tree = u.tree := by
    rw [← state]
    rfl
  unfold PlansWell at well
  rw [tree] at well
  have free : UnclaimedDisk E F (receiptName binding.keyHash) (crashed id u) := by
    obtain ⟨base, unclaimed⟩ := rested.unclaimed
    exact ⟨id, u, u.tree, [], rfl, base, unclaimed⟩
  -- the lookup finds nothing
  refine Spec.bind (Q := fun found w => found = none ∧ w = crashed id u) ?_ fun found =>
    Spec.pointwise ?_
  · rw [bound]
    refine Spec.bind (Q := fun found w => found = none ∧ w = crashed id u) (Spec.mapError _
      (Spec.check (E := fun _ w => w = crashed id u ∧ False) ?_ ?_) fun _ _ h => h.2.elim)
      fun found => Spec.pointwise ?_
    · rintro w rfl found passed
      rw [safeReceiptName_key, if_pos rfl] at passed
      cases passed
      exact ⟨AList.lookup_eq_none.mpr rested.free, rfl⟩
    · rintro w rfl e refused
      rw [safeReceiptName_key, if_pos rfl] at refused
      cases refused
    · rintro w ⟨rfl, rfl⟩
      exact Spec.ret _ fun _ h => ⟨rfl, h⟩
  rintro w ⟨rfl, rfl⟩
  refine Spec.bind (Q := fun planned w => call.plan u.tree = .ok planned ∧ w = crashed id u)
    (Spec.check ?_ ?_) fun planned => Spec.pointwise ?_
  · rintro w rfl planned passed
    refine ⟨?_, rfl⟩
    change (call.plan u.tree).mapError MutateError.refused = .ok planned at passed
    cases h : call.plan u.tree with
    | ok got =>
      rw [h] at passed
      cases passed
      rfl
    | error e =>
      rw [h] at passed
      cases passed
  · rintro w rfl e _
    exact .inl free
  rintro w ⟨plan, rfl⟩
  have planned_well := fun actions => well planned actions plan
  split
  · rename_i nothing
    have none : call.performed planned = [] := by
      unfold MutateCall.performed
      split
      · rfl
      · rename_i wet
        exact nothing.resolve_left wet
    rw [none] at planned_well
    refine Spec.bind (Q := fun _ w' => UnclaimedDisk E F (receiptName binding.keyHash) w' ∨
      ClaimedDisk E codec workspaceId F call binding w') ?_ fun _ => Spec.ret _ fun _ h => h
    rw [bound]
    refine Spec.bind (Spec.mapError _ ((commit_keyed rested (receiptOnly_keyed _)
      planned_well).weaken (fun _ h => h) ?_ (fun _ _ h => .inl h) ?_) fun _ _ h => h) fun _ =>
        Spec.ret _ fun _ h => h
    · rintro _ w ⟨u', actions, rfl, -, -, -, settled⟩
      exact .inr (settled_receiptOnly rested.files plan none settled)
    · rintro w (still | ⟨u', rfl, settled⟩)
      · exact .inl still
      · exact .inr (settled_receiptOnly rested.files plan none settled)
  · rename_i something
    have wet : call.dryRun = false := by
      simpa using fun dry => something (.inl dry)
    have all : call.performed planned = planned.actions := by
      rw [MutateCall.performed, wet]
      rfl
    have keyed : Keyed (mutateOptions codec workspaceId call planned)
        (receiptName binding.keyHash) := mutateOptions_keyed bound
    rw [all] at planned_well
    refine Spec.bind (Q := fun _ w' => UnclaimedDisk E F (receiptName binding.keyHash) w' ∨
      ClaimedDisk E codec workspaceId F call binding w') (Spec.mapError _ ((commit_keyed rested keyed
        ?_).weaken (fun _ h => h) ?_ (fun _ _ h => .inl h) ?_) fun _ _ h => h) fun receipt =>
          Spec.check (fun _ h _ _ => h) fun _ h _ _ => h
    · obtain ⟨factory, given, -⟩ := keyed
      rw [given]
      exact planned_well
    · rintro _ w ⟨u', actions, rfl, -, -, -, settled⟩
      exact .inr (settled_mutateOptions bound rested.files plan wet settled)
    · rintro w (still | ⟨u', rfl, settled⟩)
      · exact .inl still
      · exact .inr (settled_mutateOptions bound rested.files plan wet settled)

/-- The lookup of a key that has a receipt. -/
theorem replay_claimed {other : KeyBinding} {result : MutateResult Details}
    (key : other.keyHash = binding.keyHash) (here : result.workspaceId = workspaceId)
    (there : w.receipts.lookup (receiptName binding.keyHash) =
      some (encodeReceipt codec binding result)) :
    replay codec workspaceId (some other) w =
      ⟨[], w, if other.requestDigest = binding.requestDigest then .ok (some (codec.sanitize result))
        else .error .idempotencyConflict⟩ := by
  have loaded : mapError MutateError.transaction (loadCommitReceipt (receiptName other.keyHash)) w =
      ⟨[], w, .ok (some (encodeReceipt codec binding result))⟩ := by
    rw [← key] at there
    simp only [mapError, loadCommitReceipt, check, safeReceiptName_key, if_true, there]
    rfl
  have decoded : (check fun _ => decodeReceipt codec workspaceId other
      (encodeReceipt codec binding result) : Proc World MutateError (MutateResult Details)) w =
      ⟨[], w, if other.requestDigest = binding.requestDigest then .ok (codec.sanitize result)
        else .error .idempotencyConflict⟩ := by
    rw [check, decodeReceipt_encodeReceipt key here]
  rw [replay, bind_run (by rw [loaded]), loaded]
  by_cases digest : other.requestDigest = binding.requestDigest
  · simp only [digest, if_true] at decoded ⊢
    rw [bind_run (by rw [decoded]), decoded]
    rfl
  · simp only [digest, if_false] at decoded ⊢
    rw [bind_run_error (by rw [decoded]), decoded]
    rfl

/-- A call under a claimed key only recovers: it returns the recorded result to the same
request, and a conflict to another one. -/
theorem mutate_claimed {F : FileMap} {v : View} {id' : Text} {other : KeyBinding}
    {result : MutateResult Details} (bound : call.binding = some other)
    (key : other.keyHash = binding.keyHash) (here : result.workspaceId = workspaceId)
    (claimed : Claimed E F (receiptName binding.keyHash) (encodeReceipt codec binding result) v)
    (resumable : Resumable (crashed id' v)) :
    mutate E codec workspaceId id call (crashed id' v) =
      ⟨(recoverPending E (crashed id' v)).visited, (recoverPending E (crashed id' v)).state,
        if other.requestDigest = binding.requestDigest then .ok (codec.sanitize result)
        else .error .idempotencyConflict⟩ := by
  obtain ⟨report, ok, u, state, -, still⟩ := (recoverPending_claimed claimed resumable).completes rfl
  have recovered : (mapError MutateError.transaction (recoverPending E) (crashed id' v)).result =
      .ok report := by
    rw [mapError, ok]
    rfl
  have found : replay codec workspaceId (some other) (recoverPending E (crashed id' v)).state = _ :=
    replay_claimed key here (by rw [state]; exact still.receipt)
  rw [mutate, bind_run recovered, bound]
  simp only [mapError]
  by_cases digest : other.requestDigest = binding.requestDigest
  · simp only [digest, if_true] at found ⊢
    rw [bind_run (by rw [found]), found]
    simp [pure, Proc.ret]
  · simp only [digest, if_false] at found ⊢
    rw [bind_run_error (by rw [found]), found]
    simp

end Calls

section Runs

/-- A call that finished or was cut short between two of its steps. -/
def CallLeaves (E : Engine) (codec : ReceiptCodec Details) (workspaceId id : Text)
    (call : MutateCall Details) (w w' : World) : Prop :=
  InterruptedAt (mutate E codec workspaceId id call) w w' ∨
    w' = (mutate E codec workspaceId id call w).state

/-- The runs of calls under one key from a disk: each call finds a journal whose recovery is
not blocked and plans what can be undone. -/
inductive Calls (E : Engine) (codec : ReceiptCodec Details) (workspaceId keyHash : Text)
    (start : World) : List (MutateCall Details) → World → Prop
  | none : Calls E codec workspaceId keyHash start [] start
  | call {calls : List (MutateCall Details)} {call : MutateCall Details} {binding : KeyBinding}
      {id : Text} {w w' : World} :
      Calls E codec workspaceId keyHash start calls w →
      call.binding = some binding → binding.keyHash = keyHash → Resumable w → PlansWell E call w →
      CallLeaves E codec workspaceId id call w w' →
      Calls E codec workspaceId keyHash start (calls ++ [call]) w'

variable {keyHash : Text} {start w : World} {calls : List (MutateCall Details)} {F : FileMap}

/-- A call of this run claimed the key. -/
def ClaimedBy (E : Engine) (codec : ReceiptCodec Details) (workspaceId keyHash : Text) (F : FileMap)
    (calls : List (MutateCall Details)) (w : World) : Prop :=
  ∃ (k : Nat) (call : MutateCall Details) (binding : KeyBinding), calls[k]? = some call ∧ call.binding = some binding ∧
    binding.keyHash = keyHash ∧ ClaimedDisk E codec workspaceId F call binding w

theorem ClaimedBy.later (h : ClaimedBy E codec workspaceId keyHash F calls w)
    (last : MutateCall Details) : ClaimedBy E codec workspaceId keyHash F (calls ++ [last]) w := by
  obtain ⟨k, call, binding, there, bound, key, claimed⟩ := h
  have short : k < calls.length := (List.getElem?_eq_some_iff.mp there).1
  exact ⟨k, call, binding, by rw [List.getElem?_append_left short, there], bound, key, claimed⟩

/-- What a call leaves under a claimed key: the claim stands. -/
theorem ClaimedDisk.call {call last : MutateCall Details} {binding other : KeyBinding} {id : Text}
    {w' : World} (claimed : ClaimedDisk E codec workspaceId F call binding w)
    (bound : last.binding = some other) (key : other.keyHash = binding.keyHash)
    (resumable : Resumable w) (leaves : CallLeaves E codec workspaceId id last w w') :
    ClaimedDisk E codec workspaceId F call binding w' := by
  obtain ⟨id', v, F', result, rfl, carried, claimed⟩ := claimed
  have run : mutate E codec workspaceId id last (crashed id' v) = _ :=
    mutate_claimed bound key carried.workspaceId_eq claimed resumable
  have recovery := recoverPending_claimed claimed resumable
  have kept : ∀ u, Claimed E F' (receiptName binding.keyHash) (encodeReceipt codec binding result) u →
      ClaimedDisk E codec workspaceId F call binding (crashed id' u) :=
    fun u still => ⟨id', u, F', result, rfl, carried, still⟩
  rcases leaves with (rfl | visited) | rfl
  · exact kept v claimed
  · rw [run] at visited
    obtain ⟨u, rfl, still⟩ := recovery.visits _ rfl _ visited
    exact kept u still
  · obtain ⟨-, -, u, state, -, still⟩ := recovery.completes rfl
    rw [run, state]
    exact kept u still

/-- Along a run the key is free, or one of its calls claimed it. -/
theorem Calls.unclaimed_or_claimed (runs : Calls E codec workspaceId keyHash start calls w)
    (free : UnclaimedDisk E F (receiptName keyHash) start) :
    UnclaimedDisk E F (receiptName keyHash) w ∨ ClaimedBy E codec workspaceId keyHash F calls w := by
  induction runs with
  | none => exact .inl free
  | @call calls call binding id w w' _ bound key resumable well leaves ih =>
    subst key
    rcases ih with unclaimed | ⟨k, first, binding₀, there, bound₀, key₀, claimed⟩
    · have spec : Spec (· = w) (mutate E codec workspaceId id call) _ _ _ :=
        mutate_unclaimed bound unclaimed resumable well
      have after : UnclaimedDisk E F (receiptName binding.keyHash) w' ∨
          ClaimedDisk E codec workspaceId F call binding w' := by
        rcases leaves with (rfl | visited) | rfl
        · exact .inl unclaimed
        · exact spec.visits w rfl w' visited
        · cases ended : (mutate E codec workspaceId id call w).result with
          | ok result => exact spec.returns w rfl result ended
          | error e => exact spec.raises w rfl e ended
      refine after.imp_right fun claimed => ⟨calls.length, call, binding, ?_, bound, rfl, claimed⟩
      simp
    · right
      have kept := claimed.call bound key₀.symm resumable leaves
      exact ClaimedBy.later ⟨k, first, binding₀, there, bound₀, key₀, kept⟩ call

/-- In every run of calls under one key the next recovery completes, and then either the key
has no receipt and the files are those of the start, or exactly the actions of one call of the
run are applied and its receipt is there. From then on a call under the key changes nothing:
it returns that call's result to the same request and a conflict to another one. -/
theorem keyed_mutation_once (E : Engine) (codec : ReceiptCodec Details) (workspaceId keyHash : Text)
    (W : Workspace) (R : AList fun _ : Text => Bytes) (new : receiptName keyHash ∉ R)
    (calls : List (MutateCall Details)) (w : World)
    (runs : Calls E codec workspaceId keyHash ⟨W.tree, ∅, R⟩ calls w) (resumable : Resumable w) :
    (∃ report, (recoverPending E w).result = .ok report) ∧
    (((recoverPending E w).state.receipts.lookup (receiptName keyHash) = none ∧
        ∀ p, (recoverPending E w).state.tree.fileAt p = W.tree.fileAt p) ∨
      ∃ (k : Nat) (call : MutateCall Details) (binding : KeyBinding) (F : FileMap)
        (result : MutateResult Details), calls[k]? = some call ∧ call.binding = some binding ∧
        Carried workspaceId W.tree.fileAt call F result ∧
        (recoverPending E w).state.receipts.lookup (receiptName keyHash) =
          some (encodeReceipt codec binding result) ∧
        (∀ p, (recoverPending E w).state.tree.fileAt p = F p) ∧
        ∀ (id : Text) (later : MutateCall Details) (other : KeyBinding), later.binding = some other → other.keyHash = keyHash →
          (mutate E codec workspaceId id later w).state = (recoverPending E w).state ∧
          (mutate E codec workspaceId id later w).result =
            if other.requestDigest = binding.requestDigest then .ok (codec.sanitize result)
            else .error .idempotencyConflict) := by
  have free : UnclaimedDisk E W.tree.fileAt (receiptName keyHash) ⟨W.tree, ∅, R⟩ := by
    have rested : Rested W.tree.fileAt (receiptName keyHash) ⟨W.tree, none, R⟩ :=
      ⟨rfl, W.wellFormed, fun _ => rfl, new⟩
    have ⟨base, unclaimed⟩ : Base _ _ _ ∧ Unclaimed E [] _ _ _ _ := rested.unclaimed
    exact ⟨[], _, _, _, rfl, base, unclaimed⟩
  rcases runs.unclaimed_or_claimed free with ⟨id, v, T, actions, rfl, base, unclaimed⟩ | claimed
  · obtain ⟨report, ok, u, state, rested⟩ :=
      (recoverPending_unclaimed base unclaimed resumable).completes rfl
    refine ⟨⟨report, ok⟩, .inl ⟨?_, ?_⟩⟩
    · rw [state]
      exact AList.lookup_eq_none.mpr rested.free
    · rw [state]
      exact rested.files
  · obtain ⟨k, call, binding, there, bound, rfl, id, v, F, result, rfl, carried, claimed⟩ := claimed
    obtain ⟨report, ok, u, state, -, still⟩ :=
      (recoverPending_claimed claimed resumable).completes rfl
    refine ⟨⟨report, ok⟩, .inr ⟨k, call, binding, F, result, there, bound, carried, ?_, ?_, ?_⟩⟩
    · rw [state]
      exact still.receipt
    · rw [state]
      exact still.files
    · intro id' later other asked key
      rw [mutate_claimed asked key carried.workspaceId_eq claimed resumable]
      exact ⟨rfl, rfl⟩

end Runs

namespace Sample

/-- Each character as four bytes, and a zero at the end. -/
def encodeText : Text → Bytes
  | [] => [0]
  | c :: text =>
    1 :: .ofNat c.toNat :: .ofNat (c.toNat / 256) :: .ofNat (c.toNat / 65536) :: encodeText text

def decodeTexts (text : Text) : Bytes → List Text
  | 1 :: a :: b :: c :: rest =>
    decodeTexts (text ++ [.ofNat (a.toNat + 256 * b.toNat + 65536 * c.toNat)]) rest
  | _ :: rest => text :: decodeTexts [] rest
  | [] => []

theorem decodeTexts_encodeText (rest : Bytes) : ∀ text done : Text,
    decodeTexts done (encodeText text ++ rest) = (done ++ text) :: decodeTexts [] rest
  | [], done => by simp [encodeText, decodeTexts]
  | c :: text, done => by
    have small : c.toNat < 256 * 65536 := by
      have same : c.toNat = c.val.toNat := rfl
      rcases c.valid with low | high <;> omega
    have char : c.toNat % 256 + 256 * (c.toNat / 256 % 256) + 65536 * (c.toNat / 65536 % 256) =
        c.toNat := by
      omega
    have later := decodeTexts_encodeText rest text (done ++ [c])
    simp only [encodeText, List.cons_append, decodeTexts, UInt8.toNat_ofNat', Nat.reducePow, char,
      Char.ofNat_toNat, later]
    simp

theorem decodeTexts_flatMap (texts : List Text) :
    decodeTexts [] (texts.flatMap encodeText) = texts := by
  induction texts with
  | nil => rfl
  | cons text texts ih =>
    rw [List.flatMap_cons, decodeTexts_encodeText, ih]
    rfl

def flag (b : Bool) : Text := if b then ['1'] else []

def resultTexts : Option (MutateResult Unit) → List Text
  | none => []
  | some r => r.workspaceId :: flag r.dryRun :: flag r.ready :: flag r.changed ::
      flag r.wouldChange :: flag r.transactionId.isSome :: r.transactionId.getD [] :: r.changedPaths

def readResult : List Text → Option (MutateResult Unit)
  | workspaceId :: dryRun :: ready :: changed :: wouldChange :: committed :: id :: changedPaths =>
    some ⟨workspaceId, dryRun ≠ [], ready ≠ [], changed ≠ [], wouldChange ≠ [], changedPaths,
      if committed ≠ [] then some id else none, ()⟩
  | _ => none

theorem readResult_resultTexts (r : Option (MutateResult Unit)) : readResult (resultTexts r) = r := by
  rcases r with _ | ⟨ws, dryRun, ready, changed, wouldChange, paths, id, ⟨⟩⟩
  · rfl
  · cases dryRun <;> cases ready <;> cases changed <;> cases wouldChange <;> cases id <;> rfl

/-- A receipt as its fields in order; nothing in it is redacted. -/
def receiptCodec : ReceiptCodec Unit where
  encode r := (List.replicate r.schemaVersion '1' :: r.action :: r.keyHash ::
    r.requestFingerprint :: resultTexts r.result).flatMap encodeText
  decode bytes := match decodeTexts [] bytes with
    | version :: action :: keyHash :: requestFingerprint :: result =>
      some ⟨version.length, action, keyHash, requestFingerprint, readResult result⟩
    | _ => none
  sanitize result := result
  decode_encode r := by
    rw [decodeTexts_flatMap]
    simp [readResult_resultTexts]
  sanitize_workspaceId _ := rfl

def keyBinding : KeyBinding where
  keyHash := List.replicate 64 '0'
  requestDigest := "digest".toList
  hashed := by
    refine ⟨List.length_replicate, fun c member => .inl ?_⟩
    obtain rfl := List.eq_of_mem_replicate member
    decide

def addPlan : List (TransactionAction Text) := [.createFile "b".toList [2] 0o644]
def addActions : List (TransactionAction Path) := [.createFile b [2] 0o644]

/-- A keyed call that creates `b`. -/
def addCall : MutateCall Unit where
  binding := some keyBinding
  dryRun := false
  plan _ := .ok ⟨addPlan, true, true, (), fun _ => .ok ()⟩
  validateBudget _ := .ok ()

def ownId : Text := "workspace".toList

def resting : World := ⟨workspace.tree, ∅, ∅⟩

/-- What the call leaves when it finishes. -/
def created : World := (mutate engine receiptCodec ownId transaction addCall resting).state

/-- The manifest of the journal is deleted, its directory is still there. -/
def halfPurged : World :=
  ((mutate engine receiptCodec ownId transaction addCall resting).visited.reverse[1]?).getD
    resting

theorem add_replayable : Replayable workspace.tree addActions where
  creates k path data mode ha m le := by
    rcases k with _ | k
    · obtain rfl : m = 0 := by omega
      cases ha
      decide
    · simp [addActions] at ha
  moves k source destination ha := by
    rcases k with _ | k <;> simp [addActions] at ha
  rewrites k m source destination data preserveMode ha := by
    rcases k with _ | k <;> simp [addActions] at ha
  apart i j a b p q lt _ hb := by
    rcases j with _ | j
    · omega
    · simp [addActions] at hb

theorem add_separate : Separate workspace.tree addActions where
  original p on := by
    obtain ⟨a, member, hp⟩ := on
    obtain rfl := List.mem_singleton.mp member
    obtain rfl := List.mem_singleton.mp hp
    decide
  planned p q hp hq := by
    obtain ⟨a, member, hp⟩ := hp
    obtain rfl := List.mem_singleton.mp member
    obtain rfl := List.mem_singleton.mp hp
    obtain ⟨a, member, hq⟩ := hq
    obtain rfl := List.mem_singleton.mp member
    obtain rfl := List.mem_singleton.mp hq
    decide

theorem add_plansWell : PlansWell engine addCall resting := by
  have tree : (recoverPending engine resting).state.tree = workspace.tree := by
    rw [recoverPending_clean engine rfl]
    rfl
  intro planned actions plan accepted
  cases plan
  rw [tree] at accepted ⊢
  have same : validatePlan workspace.tree true addPlan = .ok addActions := by decide
  obtain rfl : addActions = actions := by
    rw [MutateCall.performed] at accepted
    exact Except.ok.inj (same.symm.trans accepted)
  exact ⟨add_replayable, add_separate⟩

theorem created_journal : created.journal = ∅ := by
  have keys : created.journal.keys = [] := by decide +kernel
  have empty : ∀ l : AList fun _ : Text => TxDir, l.keys = [] → l = ∅ :=
    fun l none => AList.ext (List.map_eq_nil_iff.mp none)
  exact empty _ keys

theorem created_call : Calls engine receiptCodec ownId keyBinding.keyHash resting [addCall]
    created :=
  .call .none rfl rfl (resumable_of_empty rfl) add_plansWell (.inr rfl)

end Sample

/-- The call again after it finished: it has its recorded result. -/
theorem keyed_mutation_once_repeated : ∃ result,
    (mutate Sample.engine Sample.receiptCodec Sample.ownId "0002".toList Sample.addCall
      Sample.created).result = .ok result := by
  obtain ⟨-, ⟨missing, -⟩ | ⟨k, call, binding, F, result, there, bound, -, -, -, again⟩⟩ :=
    keyed_mutation_once Sample.engine Sample.receiptCodec Sample.ownId
      Sample.keyBinding.keyHash Sample.workspace ∅ (by simp) [Sample.addCall] Sample.created
      Sample.created_call (resumable_of_empty Sample.created_journal)
  · rw [recoverPending_clean Sample.engine Sample.created_journal] at missing
    have there : (Sample.created.receipts.lookup
        (receiptName Sample.keyBinding.keyHash)).isSome = true := by decide +kernel
    change Sample.created.receipts.lookup (receiptName Sample.keyBinding.keyHash) = none at missing
    rw [missing] at there
    cases there
  · refine ⟨_, ((again _ Sample.addCall Sample.keyBinding rfl rfl).2.trans (if_pos ?_))⟩
    obtain rfl : call = Sample.addCall := by
      rcases k with _ | k
      · exact (Option.some.inj there).symm
      · simp at there
    cases bound
    rfl

/-- A crash while the journal of the finished call is deleted, after its manifest and before
its directory: the file and the receipt are there, and the same call raises. -/
theorem keyed_replay_blocked :
    Sample.halfPurged ∈ (mutate Sample.engine Sample.receiptCodec Sample.ownId
      Sample.transaction Sample.addCall Sample.resting).visited ∧
    Sample.halfPurged.tree.fileAt Sample.b = some ⟨[2], 0o644⟩ ∧
    (Sample.halfPurged.receipts.lookup (receiptName Sample.keyBinding.keyHash)).isSome = true ∧
    (mutate Sample.engine Sample.receiptCodec Sample.ownId "0002".toList Sample.addCall
      Sample.halfPurged).result = .error (.transaction (.noManifest Sample.transaction)) := by
  refine ⟨?_, by decide +kernel, by decide +kernel, by decide +kernel⟩
  have long : 1 < (mutate Sample.engine Sample.receiptCodec Sample.ownId
      Sample.transaction Sample.addCall Sample.resting).visited.reverse.length := by
    decide +kernel
  rw [Sample.halfPurged, List.getElem?_eq_getElem long]
  exact List.mem_reverse.mp (List.getElem_mem long)

end RepoForge
