import RepoForge.Guarantees.Operations.Isolation

/-!
# Orphans by listing

The pass takes a work item for an orphan if its operation is not in the listing of the
operations, and an operation for one without work if its work item is not in the listing of
the work. A listing leaves out what cannot be read and what comes after the first 2,000 files,
so absence from a listing is not absence from the store: an operation file that cannot be read
is enough for its work item to be deleted (`unreadable_operation_loses_work`).

`orphan_decisions` says exactly when a pass with nobody else there is sound (`SoundRecovery`):
each work item that the pass gets to and does not find in the listing of the operations has no
operation file, or one that has ended, and each operation that it fails for want of work has no
work file (`Trusted`). The pass is read record by record: `pass_cell` says what it can leave of
the files of an operation, `pass_item` and `pass_missing` what it does leave.
-/
namespace RepoForge

open Clients Client RecoveryContext

/-- A work item is removed only where its operation is absent or has ended, and an operation is
failed for want of work only where there is no work file. -/
structure SoundRecovery (s s' : Stores) : Prop where
  removed : ∀ id, s.work.files.lookup id ≠ none → s'.work.files.lookup id = none → s'.Gone id
  missing : ∀ id u, s'.operations.lookup id = some (.record false u) →
    u.errorCode = some workMissing → s'.operations.lookup id ≠ s.operations.lookup id →
    s'.work.files.lookup id = none

/-- The operations that lack their work by the listings. -/
def listedMissing (ctx : RecoveryContext) (s : Stores) : List OperationTask :=
  (listedOperations ctx s).filter (ctx.lacksWork ((listedWork ctx s).map (·.operationId)))

/-- What the pass concludes from its listings is so. -/
structure Trusted (ctx : RecoveryContext) (s : Stores) : Prop where
  orphan : ∀ item, Reaches (ctx.handleItem (listedOperations ctx s)) s (listedWork ctx s) item →
    item.operationId ∉ (listedOperations ctx s).map (·.operationId) → s.Gone item.operationId
  missing : (∀ item ∈ listedWork ctx s, Settles (ctx.handleItem (listedOperations ctx s)) s item) →
    ∀ t, Reaches ctx.failMissing s (listedMissing ctx s) t → Settles ctx.failMissing s t →
      s.work.files.lookup t.operationId = none

section Listed

variable (ctx : RecoveryContext) (s : Stores)

theorem listedWork_nodup : ((listedWork ctx s).map (·.operationId)).Nodup :=
  (listWork_spec (D := fun _ => False) (w := ⟨s, []⟩) touches_calm (listWork_calm ctx)).2.1

theorem listedOperations_nodup : ((listedOperations ctx s).map (·.operationId)).Nodup :=
  (listOperations_spec (D := fun _ => False) (w := ⟨s, []⟩) touches_calm
    (listOperations_calm ctx)).2.1

variable {ctx s}

theorem listedWork_read {item : OperationWorkItem} (listed : item ∈ listedWork ctx s) :
    ∃ e, Repository.read ctx.codec item.operationId s.work.files = .ok (some e) ∧ e.value = item :=
  ((listWork_spec (D := fun _ => False) (w := ⟨s, []⟩) touches_calm (listWork_calm ctx)).2.2 item
    not_false).mp listed |>.2

theorem listedOperations_read {t : OperationTask} (listed : t ∈ listedOperations ctx s) :
    ∃ file, s.operations.lookup t.operationId = some file ∧
      OperationStore.decode ctx.policy t.operationId file = .ok t :=
  store_read_ok ((((listOperations_spec (D := fun _ => False) (w := ⟨s, []⟩) touches_calm
    (listOperations_calm ctx)).2.2 t not_false).mp listed).2)

/-- A listed work item has a good name and a file. -/
theorem listedWork_file {item : OperationWorkItem} (listed : item ∈ listedWork ctx s) :
    ctx.codec.recordId item.operationId = true ∧ s.work.files.lookup item.operationId ≠ none := by
  obtain ⟨e, read, -⟩ := listedWork_read listed
  constructor
  · obtain ⟨_, checked, -⟩ := bind_ok read
    unfold Repository.checkId at checked
    split at checked
    · assumption
    · cases checked
  · rw [(Repository.read_eq_some read).2]
    exact fun h => nomatch h

/-- A listed operation that has ended has so in its file. -/
theorem listedOperations_ended {t : OperationTask} (listed : t ∈ listedOperations ctx s)
    (ended : t.state.terminal = true) : s.Gone t.operationId := by
  obtain ⟨file, there, decoded⟩ := listedOperations_read listed
  obtain ⟨-, legacy, task, rfl, same⟩ := decode_ok decoded
  exact .inr ⟨legacy, task, there, same ▸ ended⟩

end Listed

section Pass

variable {ctx : RecoveryContext} {s : Stores}

/-- The stores that the pass leaves. -/
def RecoveryContext.recovered (ctx : RecoveryContext) (s : Stores) : Stores :=
  (ctx.recoverOperationWork calm ⟨s, []⟩).2.state

/-- The pass starts its loops with what it has listed, and the stores are still the same. -/
theorem recovered_eq (ctx : RecoveryContext) (s : Stores) : ∃ w, w.state = s ∧
    ctx.recovered s = (ctx.finish (listedWork ctx s, s.workIds.2)
      (listedOperations ctx s, s.operationIds.2) calm w).2.state := by
  have first := listWork_calm ctx (w := ⟨s, []⟩)
  have same := (listWork_quiet ctx).state ⟨s, []⟩
  have second := listOperations_calm ctx (w := (ctx.listWork calm ⟨s, []⟩).2)
  rw [same] at second
  refine ⟨(ctx.listOperations calm (ctx.listWork calm ⟨s, []⟩).2).2, ?_, ?_⟩
  · rw [(listOperations_quiet ctx).state, same]
  · unfold RecoveryContext.recovered
    rw [recoverOperationWork_eq, bind_returned first, proceed, bind_returned second]

theorem missing_unlisted {t : OperationTask} (member : t ∈ listedMissing ctx s) :
    t.operationId ∉ (listedWork ctx s).map (·.operationId) := by
  intro listed
  have lacks := (List.mem_filter.mp member).2
  simp [lacksWork, listed] at lacks

/-- The loop over the work items leaves the operations without work alone. -/
theorem handled_missing {w : Session Stores RecoveryRequest} (same : w.state = s) {t : OperationTask}
    (member : t ∈ listedMissing ctx s) :
    ((ctx.handled (listedWork ctx s, s.workIds.2) (listedOperations ctx s, s.operationIds.2)
      calm w).2.state).cell t.operationId = s.cell t.operationId := by
  subst same
  exact collect_frame_calm (ctx.handleItem_about _) (missing_unlisted member)

/-- What the pass can leave of the files of an operation. -/
theorem pass_cell (ctx : RecoveryContext) (s : Stores) (x : Text) : (ctx.recovered s).cell x = s.cell x ∨
    (∃ item, Reaches (ctx.handleItem (listedOperations ctx s)) s (listedWork ctx s) item ∧
      item.operationId = x ∧ (ctx.recovered s).cell x =
        (ctx.handleItem (listedOperations ctx s) item calm ⟨s, []⟩).2.state.cell x) ∨
    (∀ item ∈ listedWork ctx s, Settles (ctx.handleItem (listedOperations ctx s)) s item) ∧
      ∃ t, Reaches ctx.failMissing s (listedMissing ctx s) t ∧ t.operationId = x ∧
        (ctx.recovered s).cell x = (ctx.failMissing t calm ⟨s, []⟩).2.state.cell x := by
  obtain ⟨w, same, eq⟩ := recovered_eq ctx s
  have first := collect_cell (w := w) (s := s) (ctx.handleItem_about (listedOperations ctx s))
    (listedWork_nodup ctx s) (fun _ _ => by rw [same]) x
  rw [same] at first
  rcases handled : (ctx.handled (listedWork ctx s, s.workIds.2)
    (listedOperations ctx s, s.operationIds.2) calm w).1 with e | outcomes
  · rw [eq, finish_raised handled]
    rcases first with kept | reached
    · exact .inl kept
    · exact .inr (.inl reached)
  · have settled := (collect_settled (ctx.handleItem_about (listedOperations ctx s))
      (listedWork_nodup ctx s) (fun _ _ => by rw [same])).mp ⟨outcomes, handled⟩
    have second := collect_cell (s := s) ctx.failMissing_about
      (missing_nodup (listedOperations_nodup ctx s) _)
      (fun t member => handled_missing same member) x
    rw [eq, finish_session handled]
    rcases second with kept | ⟨t, reached, named, left⟩
    · rcases first with kept' | ⟨item, reached, named, left⟩
      · exact .inl (kept.trans kept')
      · exact .inr (.inl ⟨item, reached, named, kept.trans left⟩)
    · exact .inr (.inr ⟨settled, t, reached, named, left⟩)

/-- What the pass does with a work item that it gets to. -/
theorem pass_item {item : OperationWorkItem}
    (reached : Reaches (ctx.handleItem (listedOperations ctx s)) s (listedWork ctx s) item) :
    (ctx.recovered s).cell item.operationId =
      (ctx.handleItem (listedOperations ctx s) item calm ⟨s, []⟩).2.state.cell item.operationId := by
  obtain ⟨w, same, eq⟩ := recovered_eq ctx s
  have first := collect_reached (w := w) (ctx.handleItem_about (listedOperations ctx s))
    (listedWork_nodup ctx s) (fun _ _ => by rw [same]) reached
  rw [eq]
  rcases handled : (ctx.handled (listedWork ctx s, s.workIds.2)
    (listedOperations ctx s, s.operationIds.2) calm w).1 with e | outcomes
  · rw [finish_raised handled]
    exact first
  · rw [finish_session handled]
    refine (collect_frame_calm ctx.failMissing_about ?_).trans first
    intro image
    obtain ⟨t, member, named⟩ := List.mem_map.mp image
    exact missing_unlisted member (named ▸ List.mem_map_of_mem reached.mem)

/-- What the pass does with an operation without work that it gets to. -/
theorem pass_missing {t : OperationTask}
    (settled : ∀ item ∈ listedWork ctx s, Settles (ctx.handleItem (listedOperations ctx s)) s item)
    (reached : Reaches ctx.failMissing s (listedMissing ctx s) t) :
    (ctx.recovered s).cell t.operationId =
      (ctx.failMissing t calm ⟨s, []⟩).2.state.cell t.operationId := by
  obtain ⟨w, same, eq⟩ := recovered_eq ctx s
  obtain ⟨outcomes, handled⟩ := (collect_settled (w := w)
    (ctx.handleItem_about (listedOperations ctx s)) (listedWork_nodup ctx s)
    (fun _ _ => by rw [same])).mpr settled
  have returned : (ctx.handled (listedWork ctx s, s.workIds.2)
    (listedOperations ctx s, s.operationIds.2) calm w).1 = .ok outcomes := handled
  rw [eq, finish_session returned]
  exact collect_reached ctx.failMissing_about (missing_nodup (listedOperations_nodup ctx s) _)
    (fun t member => handled_missing same member) reached

end Pass

section Sound

variable {ctx : RecoveryContext} {s : Stores}

/-- An operation that the pass fails for want of work was pending. -/
theorem missing_pending {t : OperationTask} (member : t ∈ listedMissing ctx s) :
    t ∈ listedOperations ctx s ∧ t.state = .pending := by
  obtain ⟨listed, lacks⟩ := List.mem_filter.mp member
  simp only [lacksWork, Bool.and_eq_true, decide_eq_true_eq] at lacks
  exact ⟨listed, lacks.1.1.1.2⟩

theorem find_listed {item : OperationWorkItem} :
    (listedOperations ctx s).find? (·.operationId = item.operationId) = none ↔
      item.operationId ∉ (listedOperations ctx s).map (·.operationId) := by
  rw [List.find?_eq_none]
  constructor
  · intro none image
    obtain ⟨t, member, named⟩ := List.mem_map.mp image
    simpa [named] using none t member
  · intro unlisted t member
    have other : t.operationId ≠ item.operationId :=
      fun same => unlisted (same ▸ List.mem_map_of_mem member)
    simpa using other

/-- A work item whose operation is listed is handled soundly. -/
theorem listed_item {item : OperationWorkItem}
    (listed : item.operationId ∈ (listedOperations ctx s).map (·.operationId)) :
    Harmless item.operationId s
      (ctx.handleItem (listedOperations ctx s) item calm ⟨s, []⟩).2.state := by
  rcases found : (listedOperations ctx s).find? (·.operationId = item.operationId) with _ | t
  · exact (find_listed.mp found listed).elim
  · obtain ⟨member, named⟩ := (mem_find (listedOperations_nodup ctx s)).mp found
    refine handleItem_harmless (w := ⟨s, []⟩) found fun ended => ?_
    rw [← named]
    exact listedOperations_ended member ended

/-- What the pass does with an operation that lacks its work. -/
theorem missing_alone {t : OperationTask} (member : t ∈ listedMissing ctx s) :
    (ctx.failMissing t calm ⟨s, []⟩).2.state = s ∧
      (∃ e, (ctx.failMissing t calm ⟨s, []⟩).1 = .error e) ∨
    (ctx.failMissing t calm ⟨s, []⟩).1 = .ok () ∧
      (ctx.failMissing t calm ⟨s, []⟩).2.state.work = s.work ∧
      ∃ u, (ctx.failMissing t calm ⟨s, []⟩).2.state.operations.lookup t.operationId =
        some (.record false u) ∧ u.state = .failed ∧ u.errorCode = some workMissing := by
  obtain ⟨listed, pending⟩ := missing_pending member
  obtain ⟨file, there, decoded⟩ := listedOperations_read listed
  exact failMissing_alone (w := ⟨s, []⟩) there decoded pending

theorem removed_of_trusted (trusted : Trusted ctx s) {id : Text}
    (there : s.work.files.lookup id ≠ none) (removed : (ctx.recovered s).work.files.lookup id = none) :
    (ctx.recovered s).Gone id := by
  rcases pass_cell ctx s id with same | ⟨item, reached, rfl, left⟩ |
    ⟨settled, t, reached, rfl, left⟩
  · rw [cell_work same] at removed
    exact (there removed).elim
  · have operations := cell_operations left
    by_cases listed : item.operationId ∈ (listedOperations ctx s).map (·.operationId)
    · have harmless := listed_item listed
      rw [cell_work left] at removed
      exact ((harmless.work removed).resolve_left there).of_cell operations
    · have unlisted := handleItem_unlisted (w := ⟨s, []⟩) (find_listed.mpr listed)
        (listedWork_file reached.mem).1
      rw [unlisted.1] at operations
      exact (trusted.orphan item reached listed).of_cell operations
  · rw [cell_work left] at removed
    rcases missing_alone reached.mem with ⟨same, -⟩ | ⟨-, same, -⟩
    · rw [same] at removed
      exact (there removed).elim
    · rw [same] at removed
      exact (there removed).elim

theorem missing_of_trusted (trusted : Trusted ctx s) {id : Text} {u : OperationTask}
    (found : (ctx.recovered s).operations.lookup id = some (.record false u))
    (code : u.errorCode = some workMissing)
    (changed : (ctx.recovered s).operations.lookup id ≠ s.operations.lookup id) :
    (ctx.recovered s).work.files.lookup id = none := by
  rcases pass_cell ctx s id with same | ⟨item, reached, rfl, left⟩ |
    ⟨settled, t, reached, rfl, left⟩
  · exact (changed (cell_operations same)).elim
  · have operations := cell_operations left
    by_cases listed : item.operationId ∈ (listedOperations ctx s).map (·.operationId)
    · rcases (listed_item listed).operation with same | ⟨u', found', other⟩
      · exact (changed (operations.trans same)).elim
      · rw [operations, found'] at found
        cases found
        exact (other code).elim
    · have unlisted := handleItem_unlisted (w := ⟨s, []⟩) (find_listed.mpr listed)
        (listedWork_file reached.mem).1
      rw [unlisted.1] at operations
      exact (changed operations).elim
  · rcases missing_alone reached.mem with ⟨same, -⟩ | ⟨returned, same, -⟩
    · have operations := cell_operations left
      rw [same] at operations
      exact (changed operations).elim
    · rw [cell_work left, same]
      exact trusted.missing settled t reached ⟨(), returned⟩

theorem trusted_of_sound (sound : SoundRecovery s (ctx.recovered s)) : Trusted ctx s := by
  constructor
  · intro item reached unlisted
    obtain ⟨named, there⟩ := listedWork_file reached.mem
    obtain ⟨kept, removed⟩ :=
      handleItem_unlisted (w := ⟨s, []⟩) (find_listed.mpr unlisted) named
    have left := pass_item reached
    have gone := sound.removed item.operationId there ((cell_work left).trans removed)
    have operations := cell_operations left
    rw [kept] at operations
    exact gone.of_cell operations.symm
  · intro settled t reached settles
    have left := pass_missing settled reached
    obtain ⟨listed, pending⟩ := missing_pending reached.mem
    rcases missing_alone reached.mem with ⟨-, e, raised⟩ | ⟨-, same, u, found, failed, code⟩
    · obtain ⟨_, returned⟩ := settles
      rw [raised] at returned
      cases returned
    · have found' := (cell_operations left).trans found
      have changed : (ctx.recovered s).operations.lookup t.operationId ≠
          s.operations.lookup t.operationId := by
        obtain ⟨file, there, decoded⟩ := listedOperations_read listed
        obtain ⟨-, legacy, task, rfl, state⟩ := decode_ok decoded
        rw [found', there]
        intro equal
        cases equal
        rw [← state, failed] at pending
        cases pending
      have absent := sound.missing t.operationId u found' code changed
      rw [cell_work left, same] at absent
      exact absent

/-- The orphan decisions of a pass are sound exactly if what it concludes from its listings is so. -/
theorem orphan_decisions (ctx : RecoveryContext) (s : Stores) :
    SoundRecovery s (ctx.recovered s) ↔ Trusted ctx s := by
  constructor
  · exact trusted_of_sound
  · intro trusted
    constructor
    · intro id there removed
      exact removed_of_trusted trusted there removed
    · intro id u found code changed
      exact missing_of_trusted trusted found code changed

/-- Where the listings are whole and every file can be read, the pass may conclude what it does. -/
theorem trusted_of_readable (wholeWork : s.workIds.2 = false) (whole : s.operationIds.2 = false)
    (work : ∀ id, s.work.files.lookup id ≠ none →
      ∃ e, Repository.read ctx.codec id s.work.files = .ok (some e))
    (operations : ∀ id, s.operations.lookup id ≠ none → "op-".toList.isPrefixOf id = true ∧
      ∃ t, OperationStore.read ctx.policy id s.operations = .ok (some t)) : Trusted ctx s := by
  have listedIf := (listWork_spec (D := fun _ => False) (w := ⟨s, []⟩) touches_calm
    (listWork_calm ctx)).2.2
  have listedIf' := (listOperations_spec (D := fun _ => False) (w := ⟨s, []⟩) touches_calm
    (listOperations_calm ctx)).2.2
  constructor
  · intro item _ unlisted
    by_contra present
    have there : s.operations.lookup item.operationId ≠ none := fun absent => present (.inl absent)
    obtain ⟨named, t, read⟩ := operations item.operationId there
    obtain ⟨file, -, decoded⟩ := store_read_ok read
    have own := (decode_ok decoded).1
    have listed : t ∈ listedOperations ctx s := by
      apply (listedIf' t not_false).mpr
      rw [own]
      exact ⟨(mem_operationIds whole).mpr ⟨there, named⟩, read⟩
    exact unlisted (own ▸ List.mem_map_of_mem listed)
  · intro _ t reached _
    by_contra there
    obtain ⟨e, read⟩ := work t.operationId there
    have own : e.value.operationId = t.operationId :=
      s.work.named _ e.revision e.value (Repository.read_eq_some read).2
    have listed : e.value ∈ listedWork ctx s := by
      apply (listedIf e.value not_false).mpr
      rw [own]
      exact ⟨(mem_workIds wholeWork).mpr there, e, read, rfl⟩
    exact missing_unlisted reached.mem (own ▸ List.mem_map_of_mem listed)

end Sound

namespace Sample

/-- The file of one of the two operations cannot be decoded. -/
def corrupted : Stores where
  operations := cancelledTwice.operations.insert operationId
    (.unreadable ⟨.operationCorrupt, "Operation record cannot be decoded safely"⟩)
  work := cancelledTwice.work

end Sample

open Sample

/-- The operation file is still there, and its work item is deleted. -/
theorem unreadable_operation_loses_work :
    corrupted.work.files.lookup operationId = some (.readable 1 workItem) ∧
    (recovery.recovered corrupted).work.files.lookup operationId = none ∧
    (recovery.recovered corrupted).operations.lookup operationId =
      some (.unreadable ⟨.operationCorrupt, "Operation record cannot be decoded safely"⟩) ∧
    ¬ SoundRecovery corrupted (recovery.recovered corrupted) := by
  have before : corrupted.work.files.lookup operationId = some (.readable 1 workItem) := by
    decide +kernel
  have removed : (recovery.recovered corrupted).work.files.lookup operationId = none := by
    decide +kernel
  have still : (recovery.recovered corrupted).operations.lookup operationId =
      some (.unreadable ⟨.operationCorrupt, "Operation record cannot be decoded safely"⟩) := by
    decide +kernel
  refine ⟨before, removed, still, ?_⟩
  intro sound
  have there : corrupted.work.files.lookup operationId ≠ none := by
    rw [before]
    exact fun h => nomatch h
  rcases sound.removed operationId there removed with absent | ⟨legacy, t, found, -⟩
  · rw [still] at absent
    cases absent
  · rw [still] at found
    cases found

end RepoForge
