import RepoForge.Source.Operations.OperationPayload
import RepoForge.Spec.Operations.Tasks

/-!
# Loading an operation record

A record that was read is written and read again as it is, unless it cannot be written or is a
legacy record that was inconsistent: its provenance changes from migrated to recovered when it is
loaded for the second time.
-/
namespace RepoForge.OperationPayload
open JsonLoads (Value)
open PyStr (lit)
open WorkPayload (Fields payloadOf optional shapeOk)

variable {R : Runtime}

/-- The task is written, and read again as it was. -/
def Reloads (R : Runtime) (loaded : LoadedTask) : Prop :=
  ∃ payload, encode R loaded = .ok payload ∧
    decode R loaded.task.operationId payload = .ok loaded

/-- Each timestamp has been parsed from its text. -/
structure Stamped (R : Runtime) (task : OperationTask) : Prop where
  created : stampOf R (PyStr.ofText task.createdAt.text) = task.createdAt
  updated : stampOf R (PyStr.ofText task.updatedAt.text) = task.updatedAt
  expires : ∀ stamp ∈ task.expiresAt, stampOf R (PyStr.ofText stamp.text) = stamp
  lease : ∀ stamp ∈ task.leaseExpiresAt, stampOf R (PyStr.ofText stamp.text) = stamp
  cancellation : ∀ stamp ∈ task.cancellationRequestedAt,
    stampOf R (PyStr.ofText stamp.text) = stamp

/-- The fields of a record disagree on more than the phase of a terminal one, which is set right. -/
def Unsettled (task : OperationTask) : Prop :=
  operationRecordInconsistencies
    { task with phase := if task.state.terminal then task.state.value else task.phase } ≠ []

section Reading

theorem some_bind {α β : Type} {x : Option α} {f : α → Option β} {a : α} {b : β}
    (first : x = some a) (rest : f a = some b) : x.bind f = some b := by
  rw [first]
  exact rest

theorem str_text (text : Text) : str R (textValue text) = some (PyStr.ofText text) := rfl

theorem optionalStr_text (value : Option Text) :
    optionalStr (optional textValue value) = some (value.map PyStr.ofText) := by
  cases value <;> rfl

theorem optionalStr_stamp (value : Option Stamp) :
    optionalStr (optional stampValue value) =
      some (value.map fun stamp => PyStr.ofText stamp.text) := by
  cases value <;> rfl

theorem optionalInteger_optional (value : Option Int) :
    optionalInteger (optional .int value) = some value := by
  cases value <;> rfl

theorem replaced_texts (value : Option Text) :
    (value.map PyStr.ofText).map (·.replaced) = value := by
  cases value with
  | none => rfl
  | some text => exact congrArg some (PyStr.replaced_ofText text)

theorem stampOf_stamps {value : Option Stamp}
    (stamped : ∀ stamp ∈ value, stampOf R (PyStr.ofText stamp.text) = stamp) :
    (value.map fun stamp => PyStr.ofText stamp.text).map (stampOf R) = value := by
  cases value with
  | none => rfl
  | some stamp => exact congrArg some (stamped stamp rfl)

theorem bindingOf_bindingValue (binding : Option OperationSnapshotBinding) :
    bindingOf (optional bindingValue binding) = some binding := by
  cases binding with
  | none => rfl
  | some b =>
    refine some_bind (optionalStr_text b.headSha) ?_
    refine some_bind (optionalStr_text b.workspaceFingerprint) ?_
    refine some_bind (optionalInteger_optional b.configGeneration) ?_
    refine some_bind (optionalStr_text b.evidenceSnapshotId) ?_
    rw [replaced_texts, replaced_texts, replaced_texts]

theorem diagnosticsOf_texts (texts : List Text) :
    diagnosticsOf (.list (texts.map textValue)) = some (texts.map PyStr.ofText) := by
  rw [diagnosticsOf]
  induction texts with
  | nil => rfl
  | cons text texts ih =>
    rw [List.map_cons, List.mapM_cons, ih]
    rfl

theorem member_state (state : OperationState) :
    member states OperationState.value (textValue state.value) = some state := by
  cases state <;> rfl

theorem member_retryability (retryability : OperationRetryability) :
    member [.none, .manual, .automatic] retryabilityValue
      (textValue (retryabilityValue retryability)) = some retryability := by
  cases retryability <;> rfl

theorem member_provenance (provenance : RecordProvenance) :
    member [.current, .legacyMigrated, .recoveredInconsistent] provenanceValue
      (textValue (provenanceValue provenance)) = some provenance := by
  cases provenance <;> rfl

end Reading

section Payloads

variable {task : OperationTask}

theorem recordOf_payload (task : OperationTask) : recordOf R false (payloadFields task) =
    some (task.recordProvenance, task.recordDiagnostics.map PyStr.ofText,
      task.receiptId.map PyStr.ofText) := by
  refine some_bind (optionalStr_text task.receiptId) ?_
  refine some_bind (member_provenance task.recordProvenance) ?_
  refine some_bind (str_text (consistencyValue task.recordConsistency)) ?_
  exact some_bind (diagnosticsOf_texts task.recordDiagnostics) rfl

theorem replaced_list (texts : List Text) :
    (texts.map PyStr.ofText).map (·.replaced) = texts := by
  rw [List.map_map]
  exact (List.map_congr_left fun text _ => PyStr.replaced_ofText text).trans (List.map_id texts)

theorem encodable_texts (value : Option Text) :
    (value.map PyStr.ofText).all PyStr.encodable = true := by
  cases value with
  | none => rfl
  | some text => exact PyStr.ofText_encodable text

theorem encodable_stamps (value : Option Stamp) :
    (value.map fun stamp => PyStr.ofText stamp.text).all PyStr.encodable = true := by
  cases value with
  | none => rfl
  | some stamp => exact PyStr.ofText_encodable stamp.text

/-- What is read from a payload, but for the consistency. -/
theorem taskOf_payload (stamped : Stamped R task) (schema : task.schemaVersion = 2) :
    taskOf R false (payloadFields task) =
      some ⟨{ task with recordConsistency := .consistent }, true⟩ := by
  refine some_bind (bindingOf_bindingValue task.snapshotBinding) ?_
  refine some_bind (str_text task.operationId) ?_
  refine some_bind (str_text task.kind) ?_
  refine some_bind (member_state task.state) ?_
  refine some_bind (str_text task.phase) ?_
  refine some_bind (show integer (.int task.progressCurrent) = some _ from rfl) ?_
  refine some_bind (optionalInteger_optional task.progressTotal) ?_
  refine some_bind (optionalStr_text task.progressUnit) ?_
  refine some_bind (optionalStr_text task.progressMessage) ?_
  refine some_bind (optionalStr_text task.taskId) ?_
  refine some_bind (optionalStr_text task.workspaceId) ?_
  refine some_bind (optionalStr_text task.resultReference) ?_
  refine some_bind (optionalStr_text task.errorCode) ?_
  refine some_bind (optionalStr_text task.errorMessage) ?_
  refine some_bind (member_retryability task.retryability) ?_
  refine some_bind (a := task.cancelSupported) rfl ?_
  refine some_bind (optionalStr_stamp task.cancellationRequestedAt) ?_
  refine some_bind (str_text task.createdAt.text) ?_
  refine some_bind (str_text task.updatedAt.text) ?_
  refine some_bind (optionalStr_stamp task.expiresAt) ?_
  refine some_bind (optionalStr_text task.ownerId) ?_
  refine some_bind (optionalStr_stamp task.leaseExpiresAt) ?_
  refine some_bind (recordOf_payload task) ?_
  refine some_bind (a := task.attempt) rfl ?_
  simp only [PyStr.replaced_ofText, replaced_texts, replaced_list, stamped.created,
    stamped.updated, stampOf_stamps stamped.expires, stampOf_stamps stamped.lease,
    stampOf_stamps stamped.cancellation, PyStr.ofText_encodable, List.all_cons, encodable_texts,
    encodable_stamps, List.all_nil, Bool.and_self]
  rw [← schema]

end Payloads

section Writing

/-- No key in the value is forbidden. -/
def Plain (R : Runtime) (value : Value) : Prop := ∀ path, forbidden R path value = none

theorem plain_optional {α : Type} {encode : α → Value} (each : ∀ a, Plain R (encode a))
    (value : Option α) : Plain R (optional encode value) := by
  intro path
  cases value with
  | none => rfl
  | some a => exact each a path

theorem plain_text (text : Text) : Plain R (textValue text) := fun _ => rfl

theorem plain_texts (texts : List Text) : Plain R (.list (texts.map textValue)) := by
  intro path
  rw [forbidden]
  induction texts with
  | nil => rfl
  | cons text texts ih => rw [List.map_cons, forbiddenItem, plain_text, ih, Option.none_or]

theorem plain_dict {fields : List (String × Value)}
    (keys : ∀ field ∈ fields, forbiddenKeys.contains (normalizedKey R (lit field.1)) = false)
    (values : ∀ field ∈ fields, Plain R field.2) : Plain R (.dict (payloadOf fields)) := by
  intro path
  rw [forbidden]
  induction fields with
  | nil => rfl
  | cons field fields ih =>
    have rest := ih (fun other here => keys other (List.mem_cons_of_mem field here))
      fun other here => values other (List.mem_cons_of_mem field here)
    change forbiddenField R path ((lit field.1, field.2) :: payloadOf fields) = none
    rw [forbiddenField, keys field List.mem_cons_self, if_neg Bool.false_ne_true,
      values field List.mem_cons_self, rest, Option.none_or]

theorem plain_binding (binding : OperationSnapshotBinding) : Plain R (bindingValue binding) := by
  refine plain_dict ?_ ?_
  · simp only [List.forall_mem_cons]
    exact ⟨rfl, rfl, rfl, rfl, nofun⟩
  · simp only [List.forall_mem_cons]
    exact ⟨plain_optional plain_text _, plain_optional plain_text _,
      plain_optional (fun _ _ => rfl) _, plain_optional plain_text _, nofun⟩

theorem plain_payload (task : OperationTask) : Plain R (.dict (payloadFields task)) := by
  refine plain_dict ?_ ?_
  · simp only [List.forall_mem_cons]
    and_intros
    all_goals first | rfl | exact nofun
  · simp only [List.forall_mem_cons]
    and_intros
    all_goals first
      | exact plain_text _
      | exact fun _ => rfl
      | exact plain_optional plain_text _
      | exact plain_optional (fun _ _ => rfl) _
      | exact plain_optional plain_binding _
      | exact plain_texts _
      | exact nofun

theorem encode_iff {loaded : LoadedTask} {payload : Value}
    (valid : Valid R.policy loaded.task) : encode R loaded = .ok payload ↔
      writable loaded = true ∧ payload = .dict (payloadFields loaded.task) := by
  rw [encode, valid]
  dsimp only
  rw [plain_payload]
  dsimp only
  split
  · rename_i fits
    constructor
    · intro same
      cases same
      exact ⟨fits, rfl⟩
    · rintro ⟨-, rfl⟩
      rfl
  · rename_i refused
    exact iff_of_false nofun fun both => refused both.1

theorem decode_payload {task : OperationTask} {loaded : LoadedTask} (stamped : Stamped R task)
    (schema : task.schemaVersion = 2) :
    decode R task.operationId (.dict (payloadFields task)) = .ok loaded ↔
      loaded.encodable = true ∧
        R.policy.normalizeLoadedOperation task false = .ok loaded.task := by
  have version : versionOf R (payloadFields task) = .ok false := by
    have stated : WorkPayload.get (payloadFields task) "schema_version" = .int 2 := by
      rw [← schema]
      rfl
    rw [versionOf, stated]
    rfl
  have shape : ((expectedFieldSets false).any fun names =>
      shapeOk names [] ((payloadFields task).map (·.1))) = true := rfl
  have same : isText task.operationId (WorkPayload.get (payloadFields task) "operation_id") = true :=
    decide_eq_true rfl
  have overwritten : R.policy.normalizeLoadedOperation
      { task with recordConsistency := .consistent } false =
        R.policy.normalizeLoadedOperation task false := rfl
  rw [decode, version, ok_bind, plain_payload]
  dsimp only
  rw [if_neg (not_not.mpr shape), same, Bool.not_true, if_neg Bool.false_ne_true,
    taskOf_payload stamped schema]
  dsimp only
  rw [overwritten]
  cases R.policy.normalizeLoadedOperation task false with
  | ok read =>
    constructor
    · intro found
      cases found
      exact ⟨rfl, rfl⟩
    · rintro ⟨encodable, found⟩
      cases found
      cases loaded
      cases encodable
      rfl
  | error error =>
    apply iff_of_false
    · dsimp only
      intro found
      split at found <;> cases found
    · rintro ⟨-, found⟩
      cases found

end Writing

section Normalizing

variable {policy : TaskPolicy} {read task : OperationTask} {legacy : Bool}

theorem sortedSet_congr {texts others : List Text} (same : ∀ x, x ∈ texts ↔ x ∈ others) :
    sortedSet texts = sortedSet others := by
  have perm : texts.dedup.Perm others.dedup := by
    refine (List.perm_ext_iff_of_nodup (List.nodup_dedup _) (List.nodup_dedup _)).mpr fun x => ?_
    rw [List.mem_dedup, List.mem_dedup, same]
  have sorted : ∀ items : List Text, (items.insertionSort (· ≤ ·)).Pairwise (· ≤ ·) :=
    fun items => List.pairwise_insertionSort _ items
  exact (((List.perm_insertionSort _ _).trans perm).trans
    (List.perm_insertionSort _ _).symm).eq_of_pairwise (fun _ _ _ _ => le_antisymm) (sorted _)
      (sorted _)

theorem mem_sortedSet {texts : List Text} {x : Text} : x ∈ sortedSet texts ↔ x ∈ texts := by
  rw [sortedSet, List.mem_insertionSort, List.mem_dedup]

/-- The phase of a terminal record, set right. -/
def rephased (task : OperationTask) : OperationTask :=
  { task with phase := if task.state.terminal then task.state.value else task.phase }

theorem rephased_observed :
    operationRecordInconsistencies (rephased task) ⊆ operationRecordInconsistencies task := by
  intro x here
  have quiet : diagnose ((rephased task).state.terminal &&
      (rephased task).phase ≠ (rephased task).state.value) "terminal_phase_mismatch" = [] := by
    rw [diagnose_eq_nil]
    cases terminal : task.state.terminal <;> simp [rephased, terminal]
  unfold operationRecordInconsistencies at here ⊢
  rw [mem_sortedSet, quiet, List.nil_append] at here
  rw [mem_sortedSet]
  simp only [List.append_assoc] at here ⊢
  exact List.mem_append_right _ here

/-- A record that was read is what normalization has made of its fields. -/
theorem normalize_ok (read_ok : policy.normalizeLoadedOperation task legacy = .ok read) :
    Valid policy read ∧ read = { rephased task with
      recordProvenance := if legacy then .legacyMigrated
        else if operationRecordInconsistencies task ≠ [] then .recoveredInconsistent
        else task.recordProvenance
      recordConsistency := if sortedSet (task.recordDiagnostics ++
        operationRecordInconsistencies task) ≠ [] then .recordInconsistent else .consistent
      recordDiagnostics := sortedSet (task.recordDiagnostics ++
        operationRecordInconsistencies task)
      schemaVersion := 2 } := by
  obtain ⟨same, valid⟩ := validate_ok read_ok
  rw [← same] at valid
  exact ⟨valid, same⟩

/-- Only the provenance may change when it is read again. -/
theorem normalize_again (read_ok : policy.normalizeLoadedOperation task legacy = .ok read) :
    policy.normalizeLoadedOperation read false =
      policy.validateOperationTask { read with
        recordProvenance := if operationRecordInconsistencies (rephased task) ≠ [] then
          .recoveredInconsistent else read.recordProvenance } := by
  obtain ⟨-, same⟩ := normalize_ok read_ok
  have observed : operationRecordInconsistencies read =
      operationRecordInconsistencies (rephased task) := by
    rw [same]
    rfl
  have diagnostics : sortedSet (read.recordDiagnostics ++ operationRecordInconsistencies read) =
      read.recordDiagnostics := by
    have kept : read.recordDiagnostics = sortedSet (task.recordDiagnostics ++
        operationRecordInconsistencies task) := by rw [same]
    rw [kept, observed]
    refine sortedSet_congr fun x => ?_
    rw [List.mem_append, mem_sortedSet, List.mem_append]
    exact or_iff_left_of_imp fun here => .inr (rephased_observed here)
  have phase : (if read.state.terminal then read.state.value else read.phase) = read.phase := by
    rw [same]
    cases terminal : task.state.terminal <;> simp [rephased, terminal]
  have consistency : (if read.recordDiagnostics ≠ [] then RecordConsistency.recordInconsistent
      else .consistent) = read.recordConsistency := by rw [same]
  have schema : read.schemaVersion = 2 := by rw [same]
  rw [TaskPolicy.normalizeLoadedOperation, diagnostics, phase, consistency, observed, ← schema]
  rfl

/-- Reading a record again leaves it as it is exactly if it was no legacy record, or is settled. -/
theorem normalize_again_iff (read_ok : policy.normalizeLoadedOperation task legacy = .ok read) :
    policy.normalizeLoadedOperation read false = .ok read ↔ ¬ (legacy = true ∧ Unsettled task) := by
  obtain ⟨valid, same⟩ := normalize_ok read_ok
  rw [normalize_again read_ok]
  have provenance : read.recordProvenance = if legacy then .legacyMigrated
      else if operationRecordInconsistencies task ≠ [] then .recoveredInconsistent
      else task.recordProvenance := by rw [same]
  change _ ↔ ¬ (legacy = true ∧ operationRecordInconsistencies (rephased task) ≠ [])
  by_cases unsettled : operationRecordInconsistencies (rephased task) ≠ []
  · rw [if_pos unsettled]
    have observed : operationRecordInconsistencies task ≠ [] := fun none =>
      unsettled (List.eq_nil_iff_forall_not_mem.mpr fun x here => by
        have listed := rephased_observed here
        rw [none] at listed
        cases listed)
    cases legacy with
    | true =>
      refine iff_of_false (fun again => ?_) (fun settled => settled ⟨rfl, unsettled⟩)
      have changed := congrArg OperationTask.recordProvenance (validate_ok again).1
      rw [provenance] at changed
      cases changed
    | false =>
      rw [if_neg Bool.false_ne_true, if_pos observed] at provenance
      refine iff_of_true ?_ (fun both => nomatch both.1)
      rw [← provenance]
      exact valid
  · rw [if_neg unsettled]
    exact iff_of_true valid fun both => unsettled both.2

end Normalizing

section Reloading

theorem stampOf_stampOf {s : PyStr} (encodable : s.encodable = true) :
    stampOf R (PyStr.ofText (stampOf R s).text) = stampOf R s := by
  change stampOf R (PyStr.ofText s.replaced) = _
  rw [PyStr.ofText_replaced encodable]

theorem stampOf_read {s : Option PyStr} (encodable : s.all PyStr.encodable = true) :
    ∀ stamp ∈ s.map (stampOf R), stampOf R (PyStr.ofText stamp.text) = stamp := by
  intro stamp here
  obtain ⟨text, rfl, rfl⟩ := Option.map_eq_some_iff.mp here
  exact stampOf_stampOf encodable

theorem taskOf_read {legacy : Bool} {fields : Fields} {loaded : LoadedTask}
    (read : taskOf R legacy fields = some loaded) (encodable : loaded.encodable = true) :
    Stamped R loaded.task := by
  unfold taskOf at read
  iterate 16 obtain ⟨_, -, read⟩ := Option.bind_eq_some_iff.mp read
  obtain ⟨cancellation, -, read⟩ := Option.bind_eq_some_iff.mp read
  obtain ⟨created, -, read⟩ := Option.bind_eq_some_iff.mp read
  obtain ⟨updated, -, read⟩ := Option.bind_eq_some_iff.mp read
  obtain ⟨expires, -, read⟩ := Option.bind_eq_some_iff.mp read
  obtain ⟨_, -, read⟩ := Option.bind_eq_some_iff.mp read
  obtain ⟨lease, -, read⟩ := Option.bind_eq_some_iff.mp read
  obtain ⟨_, -, read⟩ := Option.bind_eq_some_iff.mp read
  obtain ⟨_, -, read⟩ := Option.bind_eq_some_iff.mp read
  cases read
  simp only [List.all_cons, List.all_nil, Bool.and_true, Bool.and_eq_true] at encodable
  obtain ⟨⟨first, last⟩, -, -, -, cancelled, expired, leased⟩ := encodable
  exact ⟨stampOf_stampOf first, stampOf_stampOf last, stampOf_read expired, stampOf_read leased,
    stampOf_read cancelled⟩

theorem decode_ok {id : Text} {raw : Value} {loaded : LoadedTask}
    (read : decode R id raw = .ok loaded) : ∃ fields legacy before, raw = .dict fields ∧
      versionOf R fields = .ok legacy ∧ taskOf R legacy fields = some before ∧
      R.policy.normalizeLoadedOperation before.task legacy = .ok loaded.task ∧
      loaded.encodable = before.encodable := by
  cases raw with
  | dict fields =>
    obtain ⟨legacy, version, read⟩ := bind_ok read
    split at read
    · cases read
    split at read
    · cases read
    split at read
    · cases read
    split at read
    · cases read
    · rename_i before found
      split at read
      · rename_i task normal
        cases read
        exact ⟨fields, legacy, before, rfl, version, found, normal, rfl⟩
      · split at read <;> cases read
  | _ => cases read

theorem reloads_iff {loaded : LoadedTask} (valid : Valid R.policy loaded.task)
    (stamped : loaded.encodable = true → Stamped R loaded.task)
    (schema : loaded.task.schemaVersion = 2) : Reloads R loaded ↔
      writable loaded = true ∧ R.policy.normalizeLoadedOperation loaded.task false =
        .ok loaded.task := by
  constructor
  · rintro ⟨payload, encoded, decoded⟩
    obtain ⟨fits, rfl⟩ := (encode_iff valid).mp encoded
    have encodable : loaded.encodable = true := by
      simp only [writable, Bool.and_eq_true] at fits
      exact fits.1.1.1.1
    exact ⟨fits, ((decode_payload (stamped encodable) schema).mp decoded).2⟩
  · rintro ⟨fits, again⟩
    have encodable : loaded.encodable = true := by
      simp only [writable, Bool.and_eq_true] at fits
      exact fits.1.1.1.1
    exact ⟨_, (encode_iff valid).mpr ⟨fits, rfl⟩,
      (decode_payload (stamped encodable) schema).mpr ⟨encodable, again⟩⟩

/-- A legacy record whose fields disagree on more than the phase. -/
def LegacyUnsettled (R : Runtime) (payload : Value) : Prop :=
  ∃ fields before, payload = .dict fields ∧ versionOf R fields = .ok true ∧
    taskOf R true fields = some before ∧ Unsettled before.task

/-- Exactly the records that can be written and are no unsettled legacy ones are read again as they
were read, and exactly the current tasks that can be written as they are. -/
theorem records_reloaded (R : Runtime) :
    (∀ id payload loaded, decode R id payload = .ok loaded →
      (Reloads R loaded ↔ writable loaded = true ∧ ¬ LegacyUnsettled R payload)) ∧
    ∀ loaded, Valid R.policy loaded.task → loaded.task.recordProvenance = .current →
      Stamped R loaded.task → (Reloads R loaded ↔ writable loaded = true) := by
  constructor
  · intro id payload loaded decoded
    obtain ⟨fields, legacy, before, rfl, version, read, normal, encodable⟩ := decode_ok decoded
    obtain ⟨valid, same⟩ := normalize_ok normal
    have stamped : loaded.encodable = true → Stamped R loaded.task := by
      intro clean
      obtain ⟨created, updated, expires, lease, cancellation⟩ :=
        taskOf_read read (encodable ▸ clean)
      rw [same]
      exact ⟨created, updated, expires, lease, cancellation⟩
    rw [reloads_iff valid stamped (by rw [same]), normalize_again_iff normal]
    refine and_congr_right fun _ => not_congr ⟨?_, ?_⟩
    · rintro ⟨rfl, unsettled⟩
      exact ⟨fields, before, rfl, version, read, unsettled⟩
    · rintro ⟨_, other, payload, old, found, unsettled⟩
      cases payload
      rw [version] at old
      cases old
      rw [read] at found
      cases found
      exact ⟨rfl, unsettled⟩
  · intro loaded valid current stamped
    have again := valid.normalize current
    obtain ⟨-, same⟩ := normalize_ok again
    rw [reloads_iff valid (fun _ => stamped) (by rw [same])]
    exact and_iff_left again

end Reloading

section Sample

def sampleRuntime : Runtime where
  policy := ⟨some, fun _ => [], fun _ => true⟩
  str _ := none
  repr _ := []
  lower s := s
  parsed _ := .aware ⟨0, 0⟩

def sampleId : Text := "op-0123456789abcdef01234567".toList

/-- A legacy record of a failed operation. -/
def legacyFailed (errorCode : Option Text) : Fields := payloadOf [
  ("operation_id", textValue sampleId),
  ("kind", textValue "verification".toList),
  ("state", textValue "failed".toList),
  ("phase", textValue "tests".toList),
  ("progress_current", .int 1),
  ("progress_total", .null),
  ("progress_unit", .null),
  ("progress_message", .null),
  ("task_id", .null),
  ("workspace_id", .null),
  ("snapshot_binding", .null),
  ("result_reference", .null),
  ("error_code", optional textValue errorCode),
  ("error_message", .null),
  ("retryability", textValue "none".toList),
  ("cancel_supported", .bool true),
  ("cancellation_requested_at", .null),
  ("created_at", textValue "2026-01-01T00:00:00+00:00".toList),
  ("updated_at", textValue "2026-01-01T00:00:00+00:00".toList),
  ("expires_at", .null),
  ("schema_version", .int 1)]

def migratedFailed (errorCode : Option Text) (consistency : RecordConsistency)
    (diagnostics : List Text) : LoadedTask where
  task :=
    { operationId := sampleId
      kind := "verification".toList
      state := .failed
      phase := "failed".toList
      progressCurrent := 1
      progressTotal := none
      progressUnit := none
      progressMessage := none
      taskId := none
      workspaceId := none
      snapshotBinding := none
      resultReference := none
      errorCode := errorCode
      errorMessage := none
      retryability := .none
      cancelSupported := true
      cancellationRequestedAt := none
      createdAt := ⟨"2026-01-01T00:00:00+00:00".toList, .aware ⟨0, 0⟩⟩
      updatedAt := ⟨"2026-01-01T00:00:00+00:00".toList, .aware ⟨0, 0⟩⟩
      expiresAt := none
      recordProvenance := .legacyMigrated
      recordConsistency := consistency
      recordDiagnostics := diagnostics }
  encodable := true

theorem records_reloaded_failed : Reloads sampleRuntime (migratedFailed
    (some "TESTS".toList) .recordInconsistent ["terminal_phase_mismatch".toList]) := by
  refine ((records_reloaded sampleRuntime).1 sampleId
    (.dict (legacyFailed (some "TESTS".toList))) _
    (by decide +kernel)).mpr ⟨by decide +kernel, ?_⟩
  rintro ⟨fields, before, same, -, read, unsettled⟩
  have settled : ((taskOf sampleRuntime true (legacyFailed (some "TESTS".toList))).all fun before =>
      operationRecordInconsistencies (rephased before.task) = []) = true := by
    decide +kernel
  cases same
  rw [read] at settled
  exact unsettled (of_decide_eq_true settled)

/-- Without an error code the record is migrated, and then recovered. -/
theorem legacy_failure_changes : ∃ loaded written again,
    decode sampleRuntime sampleId (.dict (legacyFailed none)) = .ok loaded ∧
    encode sampleRuntime loaded = .ok written ∧ decode sampleRuntime sampleId written = .ok again ∧
    again.task.recordProvenance ≠ loaded.task.recordProvenance := by
  let diagnostics := ["terminal_error_missing".toList, "terminal_phase_mismatch".toList]
  let migrated := migratedFailed none .recordInconsistent diagnostics
  have valid : Valid sampleRuntime.policy migrated.task := by
    unfold Valid
    decide +kernel
  have stamped : Stamped sampleRuntime migrated.task := ⟨rfl, rfl, nofun, nofun, nofun⟩
  refine ⟨migrated, _, ⟨{ migrated.task with recordProvenance := .recoveredInconsistent }, true⟩,
    by decide +kernel, (encode_iff valid).mpr ⟨by decide +kernel, rfl⟩,
    (decode_payload stamped rfl).mpr ⟨rfl, by decide +kernel⟩, by decide⟩

end Sample

end RepoForge.OperationPayload
