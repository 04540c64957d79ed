import RepoForge.Source.Operations.Recovery
import RepoForge.Spec.Operations.ManagerCalls
import RepoForge.Spec.Persistence.Repository

/-!
# The recovery pass, record by record

The cell of an operation id is its operation file and its work file. Each request of the pass
but for the two listings is on one cell, so what the pass does with a work item is about the
cell of its operation (`handleItem_about`), and so is what it does with an operation that lacks
its work (`failMissing_about`).
-/
namespace RepoForge

open Clients Client

/-- The two files of an operation. -/
def Stores.cell (id : Text) (s : Stores) : Option OperationFile × Option (Stored OperationWorkItem) :=
  (s.operations.lookup id, s.work.files.lookup id)

/-- The cell that a request is on. -/
def RecoveryRequest.on : RecoveryRequest → Option Text
  | workIds | operationIds => none
  | readWork id | readOperation id | deleteWork id => some id
  | plan _ call => some call.operationId
  | saveOperation _ _ updated => some updated.operationId
  | compareWork item | contain _ item | release item => some item.operationId
  | saveWork queued _ => some queued.operationId

/-- A program of the pass that is about one operation. -/
abbrev AboutRecord {α : Type} (id : Text) (m : Pass α) : Prop :=
  About Stores.cell RecoveryRequest.on id m

section Requests

variable {policy : TaskPolicy} {codec : StateCodec OperationWorkItem} {s t : Stores} {id : Text}

theorem cell_operations (same : s.cell id = t.cell id) :
    s.operations.lookup id = t.operations.lookup id := congrArg Prod.fst same

theorem cell_work (same : s.cell id = t.cell id) :
    s.work.files.lookup id = t.work.files.lookup id := congrArg Prod.snd same

theorem repository_read_congr (same : s.cell id = t.cell id) :
    Repository.read codec id s.work.files = Repository.read codec id t.work.files := by
  unfold Repository.read
  rw [cell_work same]

theorem store_read_congr (same : s.cell id = t.cell id) :
    OperationStore.read policy id s.operations = OperationStore.read policy id t.operations := by
  unfold OperationStore.read
  rw [cell_operations same]

theorem local_look {α : Type} {answer : Stores → Except RecoveryError (α × Stores)}
    (look : Stores → Except RecoveryError α) (eq : ∀ s, answer s = (look s).map fun a => (a, s))
    (same : ∀ s t, s.cell id = t.cell id → look s = look t) : Local Stores.cell id answer :=
  local_of look (fun a => a) (fun _ s => s) eq same (fun _ _ _ _ => rfl) (fun _ _ _ equal => equal)

theorem readWork_local : Local Stores.cell id (Stores.readWork codec id) := by
  apply local_look (fun s => asState (Repository.read codec id s.work.files))
  · intro s
    rfl
  · intro s t same
    rw [repository_read_congr same]

theorem readOperation_local : Local Stores.cell id (Stores.readOperation policy id) := by
  apply local_look (fun s => asOperation (OperationStore.read policy id s.operations))
  · intro s
    rfl
  · intro s t same
    rw [store_read_congr same]

theorem deleteWork_local : Local Stores.cell id (Stores.deleteWork codec id) := by
  apply local_of (fun _ => asState (Repository.checkId codec id)) (fun _ => ())
    fun _ s => { s with work := s.work.erase id }
  · intro s
    rfl
  · intro s t same
    rfl
  · intro _ s x other
    exact Prod.ext rfl (AList.lookup_erase_ne other)
  · intro _ s t same
    have kept := cell_operations same
    simp only [Stores.cell, WorkFiles.erase, AList.lookup_erase, kept]

theorem plan_local (now : Stamp) (call : ManagerCall) :
    Local Stores.cell call.operationId (Stores.plan policy now call) := by
  apply local_look fun s => do
    let seen ← asOperation (policy.status call.operationId s.operations)
    let plan ← asOperation (policy.plan now seen call)
    .ok (seen, plan)
  · intro s
    unfold Stores.plan
    rcases asOperation (policy.status call.operationId s.operations) with e | seen
    · rfl
    · simp only [bind, Except.bind]
      rcases asOperation (policy.plan now seen call) with e | plan
      · rfl
      · rfl
  · intro s t same
    unfold TaskPolicy.status
    rw [store_read_congr same]

/-- What a save of an operation checks. -/
def checkSave (policy : TaskPolicy) (seen updated : OperationTask) (store : OperationStore) :
    Except RecoveryError Unit :=
  (asOperation (OperationStore.save policy updated seen.updatedAt store)).map fun _ => ()

theorem saveOperation_eq (seen updated : OperationTask) (s : Stores) :
    Stores.saveOperation policy seen updated s = (checkSave policy seen updated s.operations).map
      fun _ => ((), { s with
        operations := s.operations.insert updated.operationId (.record false updated) }) := by
  unfold Stores.saveOperation checkSave
  rcases saved : OperationStore.save policy updated seen.updatedAt s.operations with e | store
  · rfl
  · obtain ⟨-, -, rfl⟩ := store_save_ok saved
    rfl

theorem checkSave_congr {seen updated : OperationTask}
    (same : s.cell updated.operationId = t.cell updated.operationId) :
    checkSave policy seen updated s.operations = checkSave policy seen updated t.operations := by
  unfold checkSave OperationStore.save OperationStore.write
  rw [store_read_congr same]
  rcases policy.validateOperationTask updated with e | checked
  · rfl
  · rcases OperationStore.read policy updated.operationId t.operations with e | _ | current
    · rfl
    · rfl
    · simp only [bind, Except.bind]
      rcases refuse (current.updatedAt ≠ seen.updatedAt)
        (changedSince seen.updatedAt current.updatedAt) with e | _
      · rfl
      · simp only
        rcases refuse (policy.encodes updated = false)
          ⟨.stateTooLarge, "State record exceeds its encoded size bound"⟩ with e | _
        · rfl
        · rfl

theorem saveOperation_local (seen updated : OperationTask) :
    Local Stores.cell updated.operationId (Stores.saveOperation policy seen updated) := by
  apply local_of (fun s => checkSave policy seen updated s.operations) (fun _ => ())
    fun _ s => { s with
      operations := s.operations.insert updated.operationId (.record false updated) }
  · exact saveOperation_eq seen updated
  · intro s t same
    exact checkSave_congr same
  · intro _ s x other
    exact Prod.ext (AList.lookup_insert_ne other) rfl
  · intro _ s t same
    have kept := cell_work same
    simp only [Stores.cell, AList.lookup_insert, kept]

theorem compareWork_local (item : OperationWorkItem) :
    Local Stores.cell item.operationId (Stores.compareWork codec item) := by
  apply local_look fun s => (Stores.compareWork codec item s).map Prod.fst
  · intro s
    unfold Stores.compareWork
    rcases asState (Repository.read codec item.operationId s.work.files) with e | _ | current
    · rfl
    · rfl
    · simp only [bind, Except.bind]
      split
      · rfl
      · rfl
  · intro s t same
    unfold Stores.compareWork
    rw [repository_read_congr same]
    rcases asState (Repository.read codec item.operationId t.work.files) with e | _ | current
    · rfl
    · rfl
    · simp only [bind, Except.bind]
      split
      · rfl
      · rfl

/-- The revision that a save of a work item gives it. -/
def savedRevision (codec : StateCodec OperationWorkItem) (queued : OperationWorkItem) (revision : Nat)
    (files : Collection OperationWorkItem) : Except RecoveryError Nat :=
  (asState (Repository.save codec queued.operationId queued revision files)).map (·.1.revision)

theorem savedRevision_congr {queued : OperationWorkItem} {revision : Nat}
    (same : s.cell queued.operationId = t.cell queued.operationId) :
    savedRevision codec queued revision s.work.files =
      savedRevision codec queued revision t.work.files := by
  unfold savedRevision Repository.save
  rw [repository_read_congr same]
  rcases Repository.read codec queued.operationId t.work.files with e | _ | current
  · rfl
  · rfl
  · simp only [bind, Except.bind]
    split
    · rfl
    · rcases codec.encodes (current.revision + 1) queued with e | _
      · rfl
      · rfl

theorem saveWork_local (queued : OperationWorkItem) (revision : Nat) :
    Local Stores.cell queued.operationId (Stores.saveWork codec queued revision) := by
  apply local_of (fun s => savedRevision codec queued revision s.work.files) (fun _ => ())
    fun saved s => { s with work := s.work.insert queued saved }
  · intro s
    unfold Stores.saveWork savedRevision
    rcases Repository.save codec queued.operationId queued revision s.work.files with e | ⟨_, _⟩
    · rfl
    · rfl
  · intro s t same
    exact savedRevision_congr same
  · intro saved s x other
    exact Prod.ext rfl (AList.lookup_insert_ne other)
  · intro saved s t same
    have kept := cell_operations same
    simp only [Stores.cell, WorkFiles.insert, AList.lookup_insert, kept]

end Requests

section Records

variable {policy : TaskPolicy} {id : Text} {file : OperationFile} {t : OperationTask}

/-- A record that can be read is one of its own name, in the state that its file has. -/
theorem decode_ok (h : OperationStore.decode policy id file = .ok t) :
    t.operationId = id ∧ ∃ legacy task, file = .record legacy task ∧ task.state = t.state := by
  unfold OperationStore.decode at h
  split at h
  · cases h
  · rename_i legacy task
    split at h
    · cases h
    · rename_i named
      split at h
      · rename_i normalized made
        cases h
        obtain ⟨rfl, -⟩ := validate_ok made
        exact ⟨not_not.mp named, legacy, task, rfl, rfl⟩
      · split at h
        · cases h
        · cases h

theorem status_named {store : OperationStore} (h : policy.status id store = .ok t) :
    t.operationId = id := by
  obtain ⟨file, -, decoded⟩ := status_ok h
  exact (decode_ok decoded).1

theorem asOperation_ok {α : Type} {x : Except OperationError α} {a : α}
    (h : asOperation x = .ok a) : x = .ok a := by
  cases x with
  | ok b =>
    cases h
    rfl
  | error e => cases h

theorem asState_ok {α : Type} {x : Except StateError α} {a : α}
    (h : asState x = .ok a) : x = .ok a := by
  cases x with
  | ok b =>
    cases h
    rfl
  | error e => cases h

theorem plan_request_ok {now : Stamp} {call : ManagerCall} {s s' : Stores} {plan : ManagerPlan}
    (h : Stores.plan policy now call s = .ok ((t, plan), s')) :
    s' = s ∧ policy.status call.operationId s.operations = .ok t ∧
      policy.plan now t call = .ok plan := by
  unfold Stores.plan at h
  obtain ⟨seen, found, h⟩ := bind_ok h
  obtain ⟨plan', planned, h⟩ := bind_ok h
  cases h
  exact ⟨rfl, asOperation_ok found, asOperation_ok planned⟩

end Records

namespace RecoveryContext

variable (ctx : RecoveryContext) {id : Text}

theorem manage_about (guarded : Bool) (call : ManagerCall) :
    AboutRecord call.operationId (ctx.manage guarded call) := by
  have planned : AboutRecord call.operationId
      (ask (.plan guarded call) (Stores.plan ctx.policy ctx.nowText call)) :=
    (plan_local ctx.nowText call).ask rfl
  apply planned.bind
  intro ⟨seen, plan⟩ returned
  obtain ⟨s, s', answered⟩ := returns_ask returned
  obtain ⟨-, found, planned⟩ := plan_request_ok answered
  rcases plan with ⟨_ | updated, reply⟩
  · exact about_ret ()
  · have named : updated.operationId = call.operationId :=
      (plan_ok planned).operationId.trans (status_named found)
    have saved : AboutRecord updated.operationId
        (ask (.saveOperation guarded seen updated) (Stores.saveOperation ctx.policy seen updated)) :=
      (saveOperation_local seen updated).ask rfl
    rw [named] at saved
    exact saved

theorem deleteWork_about : AboutRecord id (ctx.deleteWork id) := deleteWork_local.ask rfl

theorem containChild_about (guarded : Bool) (item : OperationWorkItem) :
    AboutRecord item.operationId (ctx.containChild guarded item) :=
  (local_look (fun _ => ctx.contain item) (fun _ => rfl) (fun _ _ _ => rfl)).ask rfl

theorem releaseBinding_about (item : OperationWorkItem) :
    AboutRecord item.operationId (ctx.releaseBinding item) :=
  (local_look (fun _ => ctx.release item) (fun _ => rfl) (fun _ _ _ => rfl)).ask rfl

theorem guarded_about {m : Pass ItemOutcome} (h : AboutRecord id m) : AboutRecord id (guarded m) := by
  apply h.rescue
  intro e
  split
  · exact about_ret _
  · exact about_raise e

variable {item : OperationWorkItem}

theorem settle_about {call : ManagerCall} (named : call.operationId = item.operationId) (bound : Bool)
    (outcome : ItemOutcome) : AboutRecord item.operationId (ctx.settle item call bound outcome) := by
  apply (named ▸ ctx.manage_about true call).bind
  intro _ _
  apply ctx.deleteWork_about.bind
  intro _ _
  split
  · exact (ctx.releaseBinding_about item).bind fun _ _ => about_ret outcome
  · exact (about_ret ()).bind fun _ _ => about_ret outcome

theorem orphanWork_about : AboutRecord item.operationId (ctx.orphanWork item) :=
  ctx.deleteWork_about.bind fun _ _ => about_ret _

/-- A work item whose child is contained first. -/
theorem contained_about {guarded : Bool} {m : Text → Pass ItemOutcome}
    (h : ∀ detail, AboutRecord item.operationId (m detail)) :
    AboutRecord item.operationId (do
      match ← ctx.containChild guarded item with
      | .blocked code detail => ret (.blocked code detail)
      | .contained detail => m detail) := by
  apply (ctx.containChild_about guarded item).bind
  intro contained _
  cases contained with
  | contained detail => exact h detail
  | blocked code detail => exact about_ret _

theorem cancelItem_about (operation : OperationTask) :
    AboutRecord item.operationId (ctx.cancelItem item operation) := by
  unfold cancelItem
  split
  · exact ctx.contained_about fun _ => guarded_about (ctx.settle_about rfl true _)
  · exact guarded_about (ctx.settle_about rfl false _)

theorem retireItem_about (operation : OperationTask) (expected : Int) :
    AboutRecord item.operationId (ctx.retireItem item operation expected) := by
  apply guarded_about
  split
  · split
    · exact ctx.contained_about fun _ => ctx.settle_about rfl true _
    · exact ctx.settle_about rfl false _
  · exact ctx.settle_about rfl false _

theorem loseItem_about : AboutRecord item.operationId (ctx.loseItem item) :=
  guarded_about (ctx.contained_about fun _ => ctx.settle_about rfl true _)

theorem returnItem_about (operation : OperationTask) :
    AboutRecord item.operationId (ctx.returnItem item operation) := by
  apply guarded_about
  split
  · exact about_raise _
  · rename_i queued requeued
    have named : queued.operationId = item.operationId := by
      unfold requeueUnstartedWork at requeued
      split at requeued
      · cases requeued
      · cases requeued
        rfl
    have compared : AboutRecord item.operationId
        (ask (.compareWork item) (Stores.compareWork ctx.codec item)) :=
      (compareWork_local item).ask rfl
    apply compared.bind
    intro revision _
    have saved : AboutRecord queued.operationId
        (ask (.saveWork queued revision) (Stores.saveWork ctx.codec queued revision)) :=
      (saveWork_local queued revision).ask rfl
    rw [named] at saved
    apply saved.bind
    intro _ _
    split
    · exact (ctx.manage_about true (.requeue item.operationId (some ctx.nowText))).bind
        fun _ _ => about_ret _
    · exact (about_ret ()).bind fun _ _ => about_ret _

theorem handleItem_about (operations : List OperationTask) (item : OperationWorkItem) :
    AboutRecord item.operationId (ctx.handleItem operations item) := by
  unfold handleItem
  split
  · exact ctx.orphanWork_about
  · rename_i operation found
    split
    · exact ctx.orphanWork_about
    · split
      · exact ctx.cancelItem_about operation
      · split
        · rename_i expected _
          exact ctx.retireItem_about operation expected
        · split
          · split
            · exact ctx.loseItem_about
            · exact ctx.returnItem_about operation
          · exact about_ret _

theorem failMissing_about (operation : OperationTask) :
    AboutRecord operation.operationId (ctx.failMissing operation) :=
  ctx.manage_about false (.fail operation.operationId workMissing _ none none .manual none _)

end RecoveryContext

end RepoForge
