import RepoForge.Source.Operations.WorkPayload

/-!
# Work items survive persistence

What is decoded is built with the constructors, as what the transitions start from is, and an item
whose request is built with them is decoded from its payload as it was.
-/
namespace RepoForge.WorkPayload
open JsonLoads (Value)
open PyStr (lit)

variable {R : Runtime}

section Built

/-- The requests that the constructors make. -/
inductive Requested : OperationWorkRequest → Prop where
  | profile (workspaceId profileName expectedHeadSha expectedFingerprint : PyStr)
      (configGeneration : Int) : Requested (.profile workspaceId profileName expectedHeadSha
        expectedFingerprint configGeneration)
  | diagnostic (workspaceId diagnosticId : PyStr) (selector selector2 : Option (List PyStr))
      (intent expectation expectedFailureClass : Option PyStr) (forceRerun rerunFailed : Bool)
      (expectedHeadSha expectedFingerprint : PyStr) (configGeneration : Int) :
      Requested (.diagnostic workspaceId diagnosticId selector selector2 intent expectation
        expectedFailureClass forceRerun rerunFailed expectedHeadSha expectedFingerprint
        configGeneration)
  | adhoc {workspaceId : PyStr} {argv : List PyStr} {script shell : Option PyStr}
      {argvSequence : Option (List (List PyStr))} {workingDirectory : Option PyStr}
      {mutability : PyStr} {stdinText : Option PyStr} {expectedHeadSha expectedFingerprint : PyStr}
      {configGeneration : Int} {request : OperationWorkRequest}
      (made : OperationWorkRequest.adhoc workspaceId argv script shell argvSequence workingDirectory
        mutability stdinText expectedHeadSha expectedFingerprint configGeneration = .ok request) :
      Requested request

/-- The items that the constructors and transitions make. -/
inductive Built (R : Runtime) : OperationWorkItem → Prop where
  | new {operationId now : PyStr} {request : OperationWorkRequest} {item : OperationWorkItem}
      (requested : Requested request) (made : newWorkItem operationId request now = .ok item) :
      Built R item
  | claim {item claimed : OperationWorkItem} {ownerId leaseExpiresAt now : PyStr}
      (built : Built R item) (made : claimWorkItem R item ownerId leaseExpiresAt now = .ok claimed) :
      Built R claimed
  | requeue {item queued : OperationWorkItem} {now : PyStr} (built : Built R item)
      (made : requeueUnstartedWork R item now = .ok queued) : Built R queued
  | markStarted {item started : OperationWorkItem} {ownerId now : PyStr} {attempt : Nat}
      (built : Built R item)
      (made : markWorkChildStarted R item ownerId attempt now = .ok started) : Built R started
  | renew {item renewed : OperationWorkItem} {ownerId leaseExpiresAt now : PyStr}
      (built : Built R item)
      (made : renewWorkClaim R item ownerId leaseExpiresAt now = .ok renewed) : Built R renewed

/-- What the codec needs of an item. -/
structure Storable (item : OperationWorkItem) : Prop where
  requested : Requested item.request
  version : item.schemaVersion = 1

theorem Built.storable {item : OperationWorkItem} (built : Built R item) : Storable item := by
  induction built with
  | new requested made =>
    unfold newWorkItem at made
    split at made
    · cases made
    split at made
    · cases made
    · cases made
      exact ⟨requested, rfl⟩
  | claim _ made ih =>
    unfold claimWorkItem at made
    split at made
    · cases made
    · obtain ⟨_, _, made⟩ := bind_ok made
      cases made
      exact ⟨ih.requested, ih.version⟩
  | requeue _ made ih =>
    unfold requeueUnstartedWork at made
    split at made
    · cases made
    · obtain ⟨_, _, made⟩ := bind_ok made
      cases made
      exact ⟨ih.requested, ih.version⟩
  | markStarted _ made ih =>
    unfold markWorkChildStarted at made
    split at made
    · cases made
    split at made
    · cases made
      exact ih
    · obtain ⟨_, _, made⟩ := bind_ok made
      cases made
      exact ⟨ih.requested, ih.version⟩
  | renew _ made ih =>
    unfold renewWorkClaim at made
    split at made
    · cases made
    · obtain ⟨_, _, made⟩ := bind_ok made
      cases made
      exact ⟨ih.requested, ih.version⟩

end Built

section Reading

variable {fields : Fields} {key : String}

theorem item_eq {value : Value} (here : fields.lookup (lit key) = some value) :
    item fields key = .ok value := by
  rw [item, here]

theorem get_eq {value : Value} (here : fields.lookup (lit key) = some value) :
    get fields key = value := by
  rw [get, here, Option.getD_some]

theorem text_eq {s : PyStr} (here : fields.lookup (lit key) = some (.str s)) :
    text R fields key = .ok s := by
  rw [text, item_eq here]
  rfl

theorem integer_eq {n : Int} (here : fields.lookup (lit key) = some (.int n)) :
    integer R fields key = .ok n := by
  rw [integer, item_eq here]
  rfl

theorem flag_eq {b : Bool} (here : fields.lookup (lit key) = some (.bool b)) :
    flag R fields key = .ok b := by
  rw [flag, item_eq here]
  rfl

theorem optionalText_eq {s : Option PyStr}
    (here : fields.lookup (lit key) = some (optional .str s)) :
    optionalText R fields key = .ok s := by
  rw [optionalText, get_eq here]
  cases s <;> rfl

theorem mapM_map_inverse {α : Type} {encode : α → Value} {decode : Value → Option α}
    (inverse : ∀ a, decode (encode a) = some a) (items : List α) :
    (items.map encode).mapM decode = some items := by
  induction items with
  | nil => rfl
  | cons a items ih =>
    rw [List.map_cons, List.mapM_cons, inverse, ih]
    rfl

theorem stringsOf_strings (texts : List PyStr) : stringsOf (strings texts) = some texts := by
  have inverse : ∀ s : PyStr, stringOf (.str s) = some s := fun _ => rfl
  rw [strings, stringsOf, mapM_map_inverse inverse]

theorem sequenceOf_strings (sequence : List (List PyStr)) :
    sequenceOf (.list (sequence.map strings)) = some sequence := by
  rw [sequenceOf, mapM_map_inverse stringsOf_strings]

theorem nullable_optional {α : Type} {encode : α → Value} {decode : Value → Option α}
    {message : String} (inverse : ∀ a, decode (encode a) = some a)
    (present : ∀ a, encode a ≠ .null) (value : Option α) :
    nullable decode message (optional encode value) = .ok value := by
  cases value with
  | none => rfl
  | some a =>
    rw [optional, Option.elim_some, nullable]
    · rw [required, inverse]
      rfl
    · exact present a

theorem selectors_optional (selector : Option (List PyStr)) :
    selectors (optional strings selector) = .ok selector :=
  nullable_optional stringsOf_strings nofun selector

end Reading

section Requests

theorem postInit_ok {request made : OperationWorkRequest}
    (passed : OperationWorkRequest.postInit request = .ok made) : made = request := by
  unfold OperationWorkRequest.postInit at passed
  split at passed
  · cases passed
    rfl
  split at passed
  · cases passed
  split at passed
  · cases passed
  split at passed
  · cases passed
  · cases passed
    rfl

theorem requestFromPayload_requestPayload {request : OperationWorkRequest}
    (requested : Requested request) :
    requestFromPayload R request.kind (requestPayload request) = .ok request := by
  cases requested with
  | profile =>
    change profileRequest R _ = _
    rw [profileRequest, text_eq rfl, ok_bind, text_eq rfl, ok_bind, text_eq rfl, ok_bind,
      text_eq rfl, ok_bind, integer_eq rfl, ok_bind]
    rfl
  | diagnostic =>
    change diagnosticRequest R _ = _
    rw [diagnosticRequest, item_eq rfl, ok_bind, selectors_optional, ok_bind, item_eq rfl, ok_bind,
      selectors_optional, ok_bind, text_eq rfl, ok_bind, text_eq rfl, ok_bind, optionalText_eq rfl,
      ok_bind, optionalText_eq rfl, ok_bind, optionalText_eq rfl, ok_bind, flag_eq rfl, ok_bind,
      flag_eq rfl, ok_bind, text_eq rfl, ok_bind, text_eq rfl, ok_bind, integer_eq rfl, ok_bind]
    rfl
  | adhoc made =>
    have same := postInit_ok made
    subst same
    change adhocRequest R _ = _
    rw [adhocRequest, item_eq rfl, ok_bind, required, stringsOf_strings, ok_bind, get_eq rfl,
      nullable_optional sequenceOf_strings nofun, ok_bind, text_eq rfl, ok_bind,
      optionalText_eq rfl, ok_bind, optionalText_eq rfl, ok_bind, optionalText_eq rfl, ok_bind,
      text_eq rfl, ok_bind, optionalText_eq rfl, ok_bind, text_eq rfl, ok_bind, text_eq rfl,
      ok_bind, integer_eq rfl, ok_bind]
    exact made

theorem requestFromPayload_requested {kind : OperationWorkKind} {fields : Fields}
    {request : OperationWorkRequest}
    (decoded : requestFromPayload R kind fields = .ok request) : Requested request := by
  cases kind with
  | profile =>
    obtain ⟨_, _, decoded⟩ := bind_ok decoded
    obtain ⟨_, _, decoded⟩ := bind_ok decoded
    obtain ⟨_, _, decoded⟩ := bind_ok decoded
    obtain ⟨_, _, decoded⟩ := bind_ok decoded
    obtain ⟨_, _, decoded⟩ := bind_ok decoded
    cases decoded
    exact .profile ..
  | diagnostic =>
    change diagnosticRequest R fields = _ at decoded
    unfold diagnosticRequest at decoded
    iterate 14 obtain ⟨_, _, decoded⟩ := bind_ok decoded
    cases decoded
    exact .diagnostic ..
  | adhoc =>
    change adhocRequest R fields = _ at decoded
    unfold adhocRequest at decoded
    iterate 12 obtain ⟨_, _, decoded⟩ := bind_ok decoded
    exact .adhoc decoded

theorem requestKind_requestPayload (request : OperationWorkRequest) :
    requestKind (requestPayload request) = some request.kind := by
  unfold requestPayload
  cases request.kind <;> rfl

theorem shapeOk_requestPayload (request : OperationWorkRequest) :
    shapeOk (requestFields request.kind) (optionalFields request.kind)
      ((requestPayload request).map (·.1)) = true := by
  unfold requestPayload
  cases request.kind <;> rfl

end Requests

section Items

theorem workItemFromPayload_workItemPayload {i : OperationWorkItem} (storable : Storable i) :
    workItemFromPayload R (workItemPayload i) = .ok i := by
  have request := requestFromPayload_requestPayload (R := R) storable.requested
  have state : stateOf (stateValue i.state) = .ok i.state := by
    cases i.state <;> rfl
  have shape : shapeOk workItemFields [] ((workItemPayload i).map (·.1)) = true := rfl
  have asked : get (workItemPayload i) "request" = .dict (requestPayload i.request) := get_eq rfl
  have attempt : get (workItemPayload i) "attempt" = .int i.attempt := get_eq rfl
  have version : get (workItemPayload i) "schema_version" = .int i.schemaVersion := get_eq rfl
  have started : get (workItemPayload i) "child_started" = .bool i.childStarted := get_eq rfl
  unfold workItemFromPayload
  rw [asked, attempt, version, started]
  dsimp only
  rw [requestKind_requestPayload]
  dsimp only
  rw [if_neg (not_not.mpr ⟨shape, storable.version, Int.natCast_nonneg _,
      shapeOk_requestPayload i.request⟩), request, ok_bind, text_eq rfl, ok_bind, text_eq rfl, ok_bind,
    state, ok_bind, optionalText_eq rfl, ok_bind, optionalText_eq rfl, ok_bind, text_eq rfl, ok_bind,
    text_eq rfl, ok_bind, Int.toNat_natCast]

theorem workItemFromPayload_storable {payload : Fields} {i : OperationWorkItem}
    (decoded : workItemFromPayload R payload = .ok i) : Storable i := by
  unfold workItemFromPayload at decoded
  split at decoded
  · split at decoded
    · cases decoded
    split at decoded
    · cases decoded
    · rename_i shape
      obtain ⟨request, requested, decoded⟩ := bind_ok decoded
      iterate 7 obtain ⟨_, _, decoded⟩ := bind_ok decoded
      cases decoded
      exact ⟨requestFromPayload_requested requested, (not_not.mp shape).2.1⟩
  · cases decoded

/-- Encoding and decoding gives an item back, whether it was built or decoded. -/
theorem work_items_stored (R : Runtime) :
    (∀ i, Built R i → workItemFromPayload R (workItemPayload i) = .ok i) ∧
    ∀ payload i, workItemFromPayload R payload = .ok i →
      workItemFromPayload R (workItemPayload i) = .ok i :=
  ⟨fun _ built => workItemFromPayload_workItemPayload built.storable,
    fun _ _ decoded => workItemFromPayload_workItemPayload (workItemFromPayload_storable decoded)⟩

/-- A script, queued. -/
def queuedScript : OperationWorkItem where
  operationId := lit "op-0123456789abcdef01234567"
  request :=
    { kind := .adhoc
      workspaceId := lit "ws-1"
      expectedHeadSha := lit "head"
      expectedFingerprint := List.replicate 64 (.scalar 'a')
      configGeneration := 3
      script := some (lit "make")
      shell := some (lit "bash")
      stdinText := some (lit "y") }
  state := .queued
  attempt := 0
  ownerId := none
  leaseExpiresAt := none
  childStarted := false
  createdAt := lit "2026-01-01T00:00:00+00:00"
  updatedAt := lit "2026-01-01T00:00:00+00:00"

theorem work_items_stored_script :
    workItemFromPayload ⟨fun _ => none, fun _ => none, fun _ => true, fun _ => .malformed,
      fun _ => []⟩ (workItemPayload queuedScript) = .ok queuedScript := by
  have requested : Requested queuedScript.request :=
    @Requested.adhoc (lit "ws-1") [] (some (lit "make")) (some (lit "bash")) none none
      (lit "read_only") (some (lit "y")) (lit "head") (List.replicate 64 (.scalar 'a')) 3 _ rfl
  have made : newWorkItem queuedScript.operationId queuedScript.request queuedScript.createdAt =
      .ok queuedScript := rfl
  exact (work_items_stored _).1 queuedScript (.new requested made)

end Items

end RepoForge.WorkPayload
