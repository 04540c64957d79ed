import RepoForge.Source.Approvals.PendingPolicyChanges
import RepoForge.Spec.Persistence.Repository

/-!
# Requests and payloads in step

The invariant of the two stores, what each operation of the service needs of them, and what it does
to them.
-/
namespace RepoForge.Approvals

open Scripts PyDict PyStr

/-- A request with this identifier and status is stored. -/
def StoredWith (id : Text) (holds : ApprovalRequest → Prop) (s : Stores) : Prop :=
  ∃ revision request, s.requests.lookup id = some (.readable revision request) ∧ holds request

def Pending (id : Text) (s : Stores) : Prop := StoredWith id (fun r => r.status = .pending) s

def Decided (id : Text) (s : Stores) : Prop := StoredWith id (fun r => r.status ≠ .pending) s

/-- The payload of the change has the digest. -/
def Bound (id payloadDigest : Text) (s : Stores) : Prop :=
  ∃ file, s.payloads.lookup id = some file ∧ file.payloadDigest = payloadDigest

structure InStep (s : Stores) : Prop where
  readable : ∀ id file, s.requests.lookup id = some file →
    ∃ revision request, file = .readable revision request ∧ request.requestId = id
  valid : ∀ id ∈ s.requests, isApprovalId id = true
  bound : ∀ id revision request, s.requests.lookup id = some (.readable revision request) →
    request.status = .pending → Bound id request.binding.payloadDigest s
  digests : ∀ id file, s.payloads.lookup id = some file →
    digest file.payload = .ok file.payloadDigest
  few : s.requests.keys.length ≤ maxListed

theorem inStep_empty : InStep emptyStores where
  readable _ _ there := by cases there
  valid _ there := by cases there
  bound _ _ _ there := by cases there
  digests _ _ there := by cases there
  few := Nat.zero_le _

/-- What an operation needs. -/
def Needs : Access → Stores → Prop
  | .create request, s =>
    request.requestId ∈ s.requests ∨ Bound request.requestId request.binding.payloadDigest s
  | .decide decided, _ => decided.status ≠ .pending
  | .drop id, s => Decided id s
  | _, _ => True

/-- A clean-up is harmless where no pending request has the payload and nobody is about to create
one; a request is created where fewer are stored than a listing takes. -/
def harmless {ι : Type} (tag : Access) (fault : Fault Failure) (s : Stores)
    (view : ι → Option Access) : Prop :=
  match tag with
  | .cleanUp id => fault.acts = true → ¬ Pending id s ∧
      ∀ q request, view q = some (.create request) → request.requestId ≠ id
  | .create request => fault.acts = true → request.requestId ∉ s.requests →
      s.requests.keys.length < maxListed
  | _ => True

def outline (ι : Type) : Outline ι Access Stores where
  inv := InStep
  need _ := Needs

variable {R : Environment} {s t : Stores} {id : Text} {ι : Type} {p : ι}
  {view : ι → Option Access}

/-- A step that loses no request, keeps the decisions, and the payloads of requests that are still
to be created. -/
theorem needs_kept {tag : Access} (members : ∀ id, id ∈ s.requests → id ∈ t.requests)
    (decided : ∀ id, Decided id s → Decided id t)
    (payloads : ∀ request, tag = .create request → request.requestId ∉ t.requests →
      ∀ file, s.payloads.lookup request.requestId = some file →
        t.payloads.lookup request.requestId = some file)
    (needs : Needs tag s) : Needs tag t := by
  cases tag with
  | create request =>
    by_cases there : request.requestId ∈ t.requests
    · exact .inl there
    · rcases needs with old | ⟨file, held, same⟩
      · exact absurd (members _ old) there
      · exact .inr ⟨file, payloads request rfl there file held, same⟩
  | drop id => exact decided id needs
  | decide decided => exact needs
  | look => exact trivial
  | store id => exact trivial
  | cleanUp id => exact trivial

theorem mem_insert_of_mem {c : Collection ApprovalRequest} {other : Text}
    {file : Stored ApprovalRequest} (there : id ∈ c) : id ∈ c.insert other file := by
  rw [AList.mem_insert]
  exact .inr there

/-! ### What the calls of the stores do -/

theorem checkPayloadId_ok (ok : checkPayloadId id = .ok ()) : isApprovalId id = true := by
  unfold checkPayloadId at ok
  split at ok
  · assumption
  · cases ok

theorem findPayload_ok {found : Option Record} (ok : findPayload id s = .ok found) :
    isApprovalId id = true ∧ (found = none → s.payloads.lookup id = none) ∧
      ∀ payload, found = some payload → ∃ file, s.payloads.lookup id = some file ∧
        file.payload = payload ∧ digest payload = .ok file.payloadDigest := by
  unfold findPayload at ok
  obtain ⟨_, checked, ok⟩ := bind_ok ok
  refine ⟨checkPayloadId_ok checked, ?_⟩
  split at ok
  · rename_i absent
    cases ok
    exact ⟨fun _ => absent, fun _ same => by cases same⟩
  · rename_i file held
    obtain ⟨current, computed, ok⟩ := bind_ok ok
    split_ifs at ok with differs
    cases ok
    refine ⟨fun none => (by cases none), ?_⟩
    intro payload same
    cases same
    exact ⟨file, held, rfl, by rw [not_not.mp differs, computed]⟩

/-- A saved payload is new, or was there with the same digest. -/
theorem savePayload_ok {record : Record} {new : Text}
    (ok : savePayload R id record s = .ok (new, t)) : Bound id new t ∧
      (t = s ∨ s.payloads.lookup id = none ∧ digest record = .ok new ∧
        t = { s with payloads := s.payloads.insert id ⟨record, new⟩ }) := by
  unfold savePayload at ok
  obtain ⟨computed, hashed, ok⟩ := bind_ok ok
  obtain ⟨_, -, ok⟩ := bind_ok ok
  obtain ⟨found, read, ok⟩ := bind_ok ok
  obtain ⟨-, absent, held⟩ := findPayload_ok read
  cases found with
  | some current =>
    obtain ⟨currentDigest, again, ok⟩ := bind_ok ok
    split_ifs at ok with differs
    cases ok
    obtain ⟨file, there, -, same⟩ := held current rfl
    refine ⟨⟨file, there, ?_⟩, .inl rfl⟩
    rw [again] at same
    cases same
    exact not_not.mp differs
  | none =>
    simp only at ok
    split_ifs at ok
    cases ok
    refine ⟨⟨⟨record, new⟩, AList.lookup_insert _, rfl⟩, .inr ⟨absent rfl, hashed, rfl⟩⟩

theorem deletePayload_ok {u : Unit} (ok : deletePayload id s = .ok (u, t)) :
    t = { s with payloads := s.payloads.erase id } := by
  unfold deletePayload at ok
  obtain ⟨_, -, ok⟩ := bind_ok ok
  cases ok
  rfl

theorem onRequests_ok {α : Type} {a : α}
    {call : Collection ApprovalRequest → Except StateError (α × Collection ApprovalRequest)}
    (ok : onRequests call s = .ok (a, t)) :
    ∃ requests, call s.requests = .ok (a, requests) ∧ t = { s with requests := requests } := by
  unfold onRequests at ok
  split at ok
  · rename_i a' requests result
    cases ok
    exact ⟨requests, result, rfl⟩
  · cases ok

theorem create_valid {request : ApprovalRequest} {made : StateEnvelope ApprovalRequest}
    {c c' : Collection ApprovalRequest}
    (ok : Repository.create (codec R) id request c = .ok (made, c')) : isApprovalId id = true := by
  unfold Repository.create at ok
  obtain ⟨_, checked, -⟩ := bind_ok ok
  unfold Repository.checkId at checked
  split at checked
  · assumption
  · cases checked

/-! ### What the operations keep -/

theorem store_keeps {record : Record} {new : Text} (inv : InStep s)
    (ok : savePayload R id record s = .ok (new, t)) :
    (outline ι).Keeps p view s t ∧ Bound id new t := by
  obtain ⟨bound, same | ⟨absent, hashed, after⟩⟩ := savePayload_ok ok
  · rw [same] at bound ⊢
    exact ⟨Outline.keeps_refl inv, bound⟩
  · refine ⟨⟨?_, ?_⟩, bound⟩
    · have kept : ∀ other file, s.payloads.lookup other = some file →
          t.payloads.lookup other = some file := by
        intro other file held
        have different : other ≠ id := by
          rintro rfl
          rw [absent] at held
          cases held
        rw [after, AList.lookup_insert_ne different]
        exact held
      subst after
      refine ⟨inv.readable, inv.valid, ?_, ?_, inv.few⟩
      · intro other revision request there pending
        obtain ⟨file, held, same⟩ := inv.bound other revision request there pending
        exact ⟨file, kept other file held, same⟩
      · intro other file held
        by_cases same : other = id
        · subst same
          rw [AList.lookup_insert] at held
          cases held
          exact hashed
        · rw [AList.lookup_insert_ne same] at held
          exact inv.digests other file held
    · intro q tag _ _ needs
      refine needs_kept (s := s) ?_ ?_ ?_ needs
      · intro other there
        rw [after]
        exact there
      · intro other there
        rw [after]
        exact there
      · intro request _ _ file held
        have different : request.requestId ≠ id := by
          intro same
          rw [same, absent] at held
          cases held
        rw [after, AList.lookup_insert_ne different]
        exact held

theorem create_keeps {request : ApprovalRequest} {made : StateEnvelope ApprovalRequest}
    (inv : InStep s) (needs : Needs (.create request) s)
    (room : request.requestId ∉ s.requests → s.requests.keys.length < maxListed)
    (ok : onRequests (Repository.create (codec R) request.requestId request) s = .ok (made, t)) :
    (outline ι).Keeps p view s t := by
  obtain ⟨requests, created, rfl⟩ := onRequests_ok ok
  obtain ⟨-, absent, rfl⟩ := Repository.create_ok created
  have fresh : request.requestId ∉ s.requests := AList.lookup_eq_none.mp absent
  have bound : Bound request.requestId request.binding.payloadDigest s :=
    needs.resolve_left fresh
  refine ⟨⟨?_, ?_, ?_, inv.digests, ?_⟩, ?_⟩
  · intro other file there
    by_cases same : other = request.requestId
    · subst same
      rw [AList.lookup_insert] at there
      cases there
      exact ⟨1, request, rfl, rfl⟩
    · rw [AList.lookup_insert_ne same] at there
      exact inv.readable other file there
  · intro other there
    rcases AList.mem_insert _ |>.mp there with rfl | there
    · exact create_valid created
    · exact inv.valid other there
  · intro other revision found there pending
    by_cases same : other = request.requestId
    · subst same
      rw [AList.lookup_insert] at there
      cases there
      exact bound
    · rw [AList.lookup_insert_ne same] at there
      exact inv.bound other revision found there pending
  · rw [(Repository.keys_insert_new fresh).length_eq]
    exact room fresh
  · intro q tag _ _ needs
    refine needs_kept (fun _ there => mem_insert_of_mem there) ?_ (fun _ _ _ _ held => held) needs
    rintro other ⟨revision, found, there, decided⟩
    refine ⟨revision, found, ?_, decided⟩
    have different : other ≠ request.requestId := by
      intro same
      rw [same, absent] at there
      cases there
    rw [AList.lookup_insert_ne different]
    exact there

/-- The payload of a change whose request is not pending is removed. -/
theorem delete_keeps {u : Unit} (inv : InStep s) (idle : ¬ Pending id s)
    (nobody : ∀ q request, q ≠ p → view q = some (.create request) →
      request.requestId ≠ id ∨ request.requestId ∈ s.requests)
    (ok : deletePayload id s = .ok (u, t)) : (outline ι).Keeps p view s t := by
  have after := deletePayload_ok ok
  subst after
  refine ⟨⟨inv.readable, inv.valid, ?_, ?_, inv.few⟩, ?_⟩
  · intro other revision request there pending
    obtain ⟨file, held, same⟩ := inv.bound other revision request there pending
    have different : other ≠ id := by
      rintro rfl
      exact idle ⟨revision, request, there, pending⟩
    exact ⟨file, by rw [AList.lookup_erase_ne different]; exact held, same⟩
  · intro other file held
    by_cases same : other = id
    · subst same
      rw [AList.lookup_erase] at held
      cases held
    · rw [AList.lookup_erase_ne same] at held
      exact inv.digests other file held
  · intro q tag other stands needs
    refine needs_kept (s := s) (fun _ there => there) (fun _ there => there) ?_ needs
    intro request same absent file held
    subst same
    have different := (nobody q request other stands).resolve_right absent
    rw [AList.lookup_erase_ne different]
    exact held

/-- A decision is recorded. -/
theorem decide_keeps {decided : ApprovalRequest} {revision : Nat}
    {made : StateEnvelope ApprovalRequest} (inv : InStep s) (final : decided.status ≠ .pending)
    (ok : onRequests (Repository.save (codec R) decided.requestId decided revision) s =
      .ok (made, t)) :
    (outline ι).Keeps p view s t ∧ Decided decided.requestId t := by
  obtain ⟨requests, saved, rfl⟩ := onRequests_ok ok
  obtain ⟨-, ⟨old, there⟩, rfl⟩ := Repository.save_ok saved
  have inside : decided.requestId ∈ s.requests := by
    rw [← AList.lookup_isSome, there]
    rfl
  refine ⟨⟨⟨?_, ?_, ?_, inv.digests, ?_⟩, ?_⟩, revision + 1, decided, AList.lookup_insert _, final⟩
  · intro other file found
    by_cases same : other = decided.requestId
    · subst same
      rw [AList.lookup_insert] at found
      cases found
      exact ⟨revision + 1, decided, rfl, rfl⟩
    · rw [AList.lookup_insert_ne same] at found
      exact inv.readable other file found
  · intro other found
    rcases AList.mem_insert _ |>.mp found with rfl | found
    · exact inv.valid _ inside
    · exact inv.valid other found
  · intro other revision' found here pending
    by_cases same : other = decided.requestId
    · subst same
      rw [AList.lookup_insert] at here
      cases here
      exact absurd pending final
    · rw [AList.lookup_insert_ne same] at here
      exact inv.bound other revision' found here pending
  · rw [(Repository.keys_insert_old inside).length_eq]
    exact inv.few
  · intro q tag _ _ needs
    refine needs_kept (fun _ found => mem_insert_of_mem found) ?_ (fun _ _ _ _ held => held) needs
    rintro other ⟨revision', found, here, closed⟩
    by_cases same : other = decided.requestId
    · subst same
      exact ⟨revision + 1, decided, AList.lookup_insert _, final⟩
    · exact ⟨revision', found, by rw [AList.lookup_insert_ne same]; exact here, closed⟩

/-! ### The calls of the service -/

theorem postInit_ok {α : Type} {value made : α} {valid : Bool} (ok : postInit value valid = .ok made) :
    made = value := by
  unfold postInit at ok
  split at ok
  · cases ok
    rfl
  · cases ok

theorem decideApproval_ok {request decided : ApprovalRequest} {status : ApprovalStatus}
    {actor decidedAt reason : PyStr}
    (ok : decideApproval request status actor decidedAt reason = .ok decided) :
    decided.status ≠ .pending ∧ decided.requestId = request.requestId := by
  unfold decideApproval at ok
  dsimp only at ok
  split_ifs at ok with same pending
  · obtain ⟨decision, -, ok⟩ := bind_ok ok
    rw [postInit_ok ok]
    exact ⟨same, rfl⟩
  · obtain ⟨decision, -, ok⟩ := bind_ok ok
    split_ifs at ok with again
    cases ok
    rw [again.1]
    exact ⟨same, rfl⟩

/-- A request is for the identifier in its record, and bound to the digest it is given. -/
theorem requestOf_ok {record : Record} {payloadDigest : Text} {request : ApprovalRequest}
    (ok : requestOf R record payloadDigest = .ok request) :
    idText (((get record (lit "change_id")).map (str R)).getD []) = .ok request.requestId ∧
      request.binding.payloadDigest = payloadDigest := by
  unfold requestOf at ok
  simp only at ok
  split_ifs at ok with missing
  obtain ⟨subject, -, ok⟩ := bind_ok ok
  obtain ⟨generation, -, ok⟩ := bind_ok ok
  obtain ⟨binding, bound, ok⟩ := bind_ok ok
  obtain ⟨requestId, identified, ok⟩ := bind_ok ok
  rw [postInit_ok ok]
  simp only
  refine ⟨?_, by rw [postInit_ok bound]⟩
  rcases value : get record (lit "change_id") with _ | json
  · have absent : lit "change_id" ∈ required.filter fun name => (get record name).isNone := by
      rw [List.mem_filter, value]
      exact ⟨List.mem_map_of_mem (by decide), rfl⟩
    rw [not_not.mp missing] at absent
    cases absent
  · rw [value] at identified
    exact identified

section Programs

variable {P : Stores → Prop} {Q : Unit → Stores → Prop} {X : Failure → Stores → Prop}

theorem quiet_readRequest :
    Annotated (outline ι) harmless p P (readRequest R id)
      (fun found _ => ∀ envelope, found = some envelope → envelope.value.requestId = id)
      fun _ _ => True := by
  refine (Annotated.look (fun _ => trivial) ?_ fun _ _ _ => trivial).weaken (fun _ _ _ => trivial)
    (fun _ _ _ q => q) fun _ _ _ _ => trivial
  rintro s _ inv read envelope rfl
  have there : Repository.read (codec R) id s.requests = .ok (some envelope) := by
    unfold findRequest at read
    rcases result : Repository.read (codec R) id s.requests with e | found
    · rw [result] at read
      cases read
    · rw [result] at read
      cases read
      rfl
  obtain ⟨-, stored⟩ := Repository.read_eq_some there
  obtain ⟨revision, request, same, named⟩ := inv.readable id _ stored
  cases same
  exact named

theorem quiet_listRecords :
    Annotated (outline ι) harmless p P (listRecords R) (fun _ _ => True) fun _ _ => True := by
  refine Annotated.bind (Q := fun _ _ => True) ?_ fun ids => ?_
  · exact (Annotated.look (fun _ => trivial) (fun _ _ _ _ => trivial) fun _ _ _ => trivial).weaken
      (fun _ _ _ => trivial) (fun _ _ _ q => q) fun _ _ _ _ => trivial
  · refine Annotated.bind (Annotated.collect fun id => ?_) fun found =>
      Annotated.ret fun _ _ _ => trivial
    refine Annotated.handle (Y := fun _ _ => True) ?_ fun e => ?_
    · exact quiet_readRequest.weaken (fun _ _ h => h) (fun _ _ _ _ => trivial) fun _ _ _ x => x
    cases e <;> first | exact Annotated.ret fun _ _ _ => trivial |
      exact Annotated.raise fun _ _ _ => trivial

theorem persist_outlined {record : Record} {existing : Option (StateEnvelope ApprovalRequest)}
    (named : idText (((get record (lit "change_id")).map (str R)).getD []) = .ok id) :
    Annotated (outline ι) harmless p P (persist R id record existing) (fun _ _ => True)
      fun _ _ => True := by
  refine Annotated.bind (Q := fun payloadDigest s => Bound id payloadDigest s) ?_
    fun payloadDigest => ?_
  · refine Annotated.call (fun _ _ _ => trivial) ?_ (fun _ _ _ _ _ => trivial)
      (fun _ _ _ _ => trivial) ?_
    · intro s view new t inv _ ok _
      exact store_keeps inv ok
    · intro s view new t e inv _ ok _
      exact ⟨(store_keeps inv ok).1, trivial⟩
  refine Annotated.bind (Q := fun request s => request.requestId = id ∧
    Bound id request.binding.payloadDigest s) ?_ fun request => ?_
  · refine Annotated.ofExcept ?_ fun _ _ _ _ _ => trivial
    intro request s _ bound ok
    obtain ⟨same, digested⟩ := requestOf_ok ok
    rw [named] at same
    cases same
    exact ⟨rfl, digested ▸ bound⟩
  cases existing with
  | none =>
    refine Annotated.bind (Q := fun _ _ => True) ?_ fun _ => Annotated.ret fun _ _ _ => trivial
    refine Annotated.call ?_ ?_ (fun _ _ _ _ _ => trivial) (fun _ _ _ _ => trivial) ?_
    · rintro s _ ⟨same, bound⟩
      exact .inr (same ▸ bound)
    · intro s view made t inv needs ok allowed
      exact ⟨create_keeps inv needs (allowed rfl) ok, trivial⟩
    · intro s view made t e inv needs ok allowed
      exact ⟨create_keeps inv needs (allowed rfl) ok, trivial⟩
  | some envelope =>
    simp only
    split_ifs
    · exact Annotated.raise fun _ _ _ => trivial
    · exact Annotated.ret fun _ _ _ => trivial

theorem undo_outlined {existing : Option (StateEnvelope ApprovalRequest)} {e : Failure} :
    Annotated (outline ι) harmless p P (undo id existing e) (fun _ _ => True)
      fun _ _ => True := by
  unfold undo
  dsimp only
  split_ifs
  · cases existing with
    | none =>
      refine Annotated.bind (Q := fun _ _ => True) ?_ fun _ => Annotated.raise fun _ _ _ => trivial
      have kept : ∀ s view (u : Unit) t (fault : Fault Failure), InStep s → fault.acts = true →
          deletePayload id s = .ok (u, t) → harmless (Access.cleanUp id) fault s view →
          (outline ι).Keeps p view s t := by
        intro s view u t fault inv acts ok allowed
        obtain ⟨idle, nobody⟩ := allowed acts
        exact delete_keeps inv idle (fun q request _ stands => .inl (nobody q request stands)) ok
      refine Annotated.call (fun _ _ _ => trivial) ?_ (fun _ _ _ _ _ => trivial)
        (fun _ _ _ _ => trivial) ?_
      · intro s view u t inv _ ok allowed
        exact ⟨kept s view u t .done inv rfl ok allowed, trivial⟩
      · intro s view u t e inv _ ok allowed
        exact ⟨kept s view u t (.after e) inv rfl ok allowed, trivial⟩
    | some envelope => exact Annotated.raise fun _ _ _ => trivial
  · exact Annotated.raise fun _ _ _ => trivial

theorem save_outlined {record : Record} :
    Annotated (outline ι) harmless p P (save R record) (fun _ _ => True) fun _ _ => True := by
  refine quiet_listRecords.bind fun records => ?_
  refine Annotated.bind (Q := fun requestId _ =>
    idText (((get record (lit "change_id")).map (str R)).getD []) = .ok requestId) ?_ fun id => ?_
  · refine Annotated.ofExcept ?_ fun _ _ _ _ _ => trivial
    intro requestId s _ _ ok
    cases named : idText (((get record (lit "change_id")).map (str R)).getD []) with
    | error e =>
      rw [named] at ok
      cases ok
    | ok found =>
      rw [named] at ok
      cases ok
      rfl
  intro s inv named
  refine Annotated.bind (P := fun _ => True) (Q := fun _ _ => True) ?_ (fun existing => ?_) s inv
    trivial
  · unfold existingRequest
    split_ifs
    · exact Annotated.ret fun _ _ _ => trivial
    · exact quiet_readRequest.weaken (fun _ _ h => h) (fun _ _ _ _ => trivial) fun _ _ _ x => x
  · split_ifs
    · exact Annotated.raise fun _ _ _ => trivial
    · exact (persist_outlined named).handle fun e => undo_outlined

theorem settle_outlined {envelope : StateEnvelope ApprovalRequest} {status : ApprovalStatus}
    {actor decidedAt reason : PyStr} (named : envelope.value.requestId = id) :
    Annotated (outline ι) harmless p P (settle R envelope status actor decidedAt reason)
      (fun _ => Decided id) fun _ _ => True := by
  refine Annotated.bind (Q := fun decided _ => decided.status ≠ .pending ∧ decided.requestId = id)
    (Annotated.ofExcept ?_ fun _ _ _ _ _ => trivial) fun decided => ?_
  · intro decided s _ _ ok
    exact named ▸ decideApproval_ok ok
  rintro s inv ⟨final, same⟩
  subst same
  refine Annotated.bind (P := fun _ => decided.status ≠ .pending)
    (Q := fun _ => Decided decided.requestId) (R := fun _ => Decided decided.requestId) ?_
    (fun _ => Annotated.ret fun _ _ there => there) s inv final
  refine Annotated.call (fun _ _ final => final) ?_ (fun _ _ _ _ _ => trivial)
    (fun _ _ _ _ => trivial) ?_
  · intro s view made t inv final ok _
    exact decide_keeps inv final ok
  · intro s view made t e inv final ok _
    exact ⟨(decide_keeps inv final ok).1, trivial⟩

theorem decideChange_outlined {status : ApprovalStatus} {actor decidedAt reason : PyStr} :
    Annotated (outline ι) harmless p P (decideChange R id status actor decidedAt reason)
      (fun _ _ => True) fun _ _ => True := by
  refine quiet_readRequest.bind fun found => ?_
  cases found with
  | none => exact Annotated.raise fun _ _ _ => trivial
  | some envelope =>
    intro s inv named
    have named := named envelope rfl
    refine Annotated.bind (P := fun _ => True) (Q := fun _ => Decided id) ?_ (fun _ => ?_) s inv
      trivial
    · exact (settle_outlined named).handle fun e => Annotated.raise fun _ _ _ => trivial
    have kept : ∀ s view (u : Unit) t, InStep s → Decided id s → deletePayload id s = .ok (u, t) →
        (outline ι).Keeps p view s t := by
      rintro s view u t inv ⟨revision, request, there, final⟩ ok
      refine delete_keeps inv ?_ ?_ ok
      · rintro ⟨revision', request', there', pending⟩
        rw [there] at there'
        cases there'
        exact final pending
      · intro q other _ _
        by_cases same : other.requestId = id
        · right
          rw [same, ← AList.lookup_isSome, there]
          rfl
        · exact .inl same
    refine Annotated.call (fun _ _ there => there) ?_ (fun _ _ _ _ _ => trivial)
      (fun _ _ _ _ => trivial) ?_
    · intro s view u t inv there ok _
      exact ⟨kept s view u t inv there ok, trivial⟩
    · intro s view u t e inv there ok _
      exact ⟨kept s view u t inv there ok, trivial⟩

theorem outlined : Machine.OutlinedBy (kernel R ι) (outline ι) (fun _ _ _ => True) harmless where
  programs p call s inv _ := by
    cases call with
    | save record => exact save_outlined (P := fun _ => True) s inv trivial
    | approve id actor decidedAt => exact decideChange_outlined (P := fun _ => True) s inv trivial
    | reject id actor decidedAt => exact decideChange_outlined (P := fun _ => True) s inv trivial
    | invalidate id actor decidedAt => exact decideChange_outlined (P := fun _ => True) s inv trivial
  crashes _ _ _ _ inv _ _ := Outline.keeps_refl inv

end Programs

end RepoForge.Approvals
