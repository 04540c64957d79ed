import RepoForge.Spec.Approvals.InStep

/-!
# Every pending approval can be reviewed

In every run whose clean-ups are harmless, the two stores stay in step, and a pending request is
loaded and listed in every state. The handler of `save` removes the payload of a change where
`save` has found no request; by then another call may have created it.
-/
namespace RepoForge.Approvals

open Scripts PyDict PyStr Runs

variable {R : Environment} {s : Stores} {id : Text}

/-! ### The readers -/

theorem findRequest_eq (inv : InStep s) (there : id ∈ s.requests) :
    ∃ envelope, findRequest R id s = .ok (some envelope) ∧ envelope.recordId = id ∧
      s.requests.lookup id = some (.readable envelope.revision envelope.value) := by
  obtain ⟨file, stored⟩ := Option.isSome_iff_exists.mp (AList.lookup_isSome.mpr there)
  obtain ⟨revision, request, rfl, -⟩ := inv.readable id file stored
  refine ⟨⟨id, revision, request⟩, ?_, rfl, stored⟩
  have known : isApprovalId id = true := inv.valid id there
  simp only [findRequest, Repository.read, Repository.checkId, codec, known, if_true, ok_bind,
    stored]
  rfl

theorem findRequest_of_stored (inv : InStep s) {revision : Nat} {request : ApprovalRequest}
    (stored : s.requests.lookup id = some (.readable revision request)) :
    findRequest R id s = .ok (some ⟨id, revision, request⟩) := by
  have there : id ∈ s.requests := by
    rw [← AList.lookup_isSome, stored]
    rfl
  obtain ⟨envelope, found, same, again⟩ := findRequest_eq (R := R) inv there
  rw [stored] at again
  cases envelope
  cases again
  cases same
  exact found

/-- The payload of a pending request is found, and has its digest. -/
theorem findPayload_pending (inv : InStep s) {revision : Nat} {request : ApprovalRequest}
    (stored : s.requests.lookup id = some (.readable revision request))
    (pending : request.status = .pending) : ∃ payload, findPayload id s = .ok (some payload) ∧
      digest payload = .ok request.binding.payloadDigest := by
  have there : id ∈ s.requests := by
    rw [← AList.lookup_isSome, stored]
    rfl
  obtain ⟨file, held, same⟩ := inv.bound id revision request stored pending
  have hashed := inv.digests id file held
  have known : isApprovalId id = true := inv.valid id there
  refine ⟨file.payload, ?_, by rw [hashed, same]⟩
  simp only [findPayload, checkPayloadId, known, if_true, ok_bind, held, hashed, ne_eq,
    not_true_eq_false, if_false]

/-- What `list_records` reads of a request. -/
def envelopeOf (s : Stores) (id : Text) : Option (StateEnvelope ApprovalRequest) :=
  match s.requests.lookup id with
  | some (.readable revision request) => some ⟨id, revision, request⟩
  | _ => none

/-- `list_records` returns every request. -/
theorem listRecords_solo (inv : InStep s) : ∃ records,
    (listRecords R).solo s = some (.ok records, s) ∧ ∀ envelope, envelope ∈ records ↔
      s.requests.lookup envelope.recordId = some (.readable envelope.revision envelope.value) := by
  have each : ∀ id ∈ (Repository.listIds maxListed 0 s.requests).1,
      ((readRequest R id).handle leaveOut).solo s = some (.ok (envelopeOf s id), s) := by
    intro id listed
    have there := (Repository.mem_listIds_whole inv.few).mp listed
    obtain ⟨envelope, read, same, stored⟩ := findRequest_eq (R := R) inv there
    refine Script.solo_handle ?_
    rw [readRequest, Script.solo_look read]
    simp only [envelopeOf, stored]
    cases envelope
    cases same
    rfl
  refine ⟨(sortBy (fun item => toLex (item.revision, item.recordId))
    (((Repository.listIds maxListed 0 s.requests).1.map (envelopeOf s)).filterMap fun item => item)).reverse,
    ?_, ?_⟩
  · have listing : (Script.look (E := Failure) Access.look fun t : Stores =>
        .ok (Repository.listIds maxListed 0 t.requests).1).solo s =
          some (.ok (Repository.listIds maxListed 0 s.requests).1, s) := rfl
    unfold listRecords
    rw [Script.solo_bind listing, Script.solo_bind (Script.solo_collect each)]
    rfl
  · intro envelope
    simp only [List.mem_reverse, mem_sortBy, List.mem_filterMap, List.mem_map,
      exists_eq_right, Repository.mem_listIds_whole inv.few]
    constructor
    · rintro ⟨id, there, same⟩
      obtain ⟨envelope', -, named, stored⟩ := findRequest_eq (R := R) inv there
      simp only [envelopeOf, stored, Option.some.injEq] at same
      subst same
      exact stored
    · intro stored
      refine ⟨envelope.recordId, ?_, ?_⟩
      · rw [← AList.lookup_isSome, stored]
        rfl
      · simp only [envelopeOf, stored]

/-- Every pending request has its payload, is loaded, and is listed. -/
structure Reviewable (R : Environment) (s : Stores) : Prop where
  payload : ∀ id revision request, s.requests.lookup id = some (.readable revision request) →
    request.status = .pending → ∃ file, s.payloads.lookup id = some file ∧
      digest file.payload = .ok request.binding.payloadDigest
  loads : ∀ id, Pending id s → ∃ payload, (load R id).solo s = some (.ok payload, s)
  summarized : ∃ items, (summaries R).solo s = some (.ok items, s) ∧
    ∀ id, Pending id s → ∃ item ∈ items, item.changeId = id

theorem load_solo (inv : InStep s) (pending : Pending id s) :
    ∃ payload, (load R id).solo s = some (.ok payload, s) := by
  obtain ⟨revision, request, stored, waiting⟩ := pending
  obtain ⟨payload, read, hashed⟩ := findPayload_pending inv stored waiting
  refine ⟨payload, ?_⟩
  unfold load
  rw [readRequest, Script.solo_bind (Script.solo_look (findRequest_of_stored inv stored))]
  simp only [waiting, ne_eq, not_true_eq_false, if_false]
  rw [readPayload, Script.solo_bind (Script.solo_look read)]
  simp only
  rw [Script.solo_bind (Script.solo_ofExcept hashed), if_neg (by simp)]
  rfl

theorem summaries_solo (inv : InStep s) : ∃ items,
    (summaries R).solo s = some (.ok items, s) ∧
      ∀ id, Pending id s → ∃ item ∈ items, item.changeId = id := by
  obtain ⟨records, listed, complete⟩ := listRecords_solo (R := R) inv
  have waiting : ∀ request ∈ pendingOf records, ∃ revision,
      s.requests.lookup request.requestId = some (.readable revision request) ∧
        request.status = .pending := by
    intro request here
    obtain ⟨inside, pending⟩ := List.mem_filter.mp (mem_sortBy.mp here)
    obtain ⟨envelope, member, rfl⟩ := List.mem_map.mp inside
    have stored := (complete envelope).mp member
    obtain ⟨revision, request, same, named⟩ := inv.readable _ _ stored
    cases same
    rw [named]
    exact ⟨envelope.revision, stored, of_decide_eq_true pending⟩
  let payloadOf (request : ApprovalRequest) : Record :=
    ((s.payloads.lookup request.requestId).map PayloadFile.payload).getD []
  have each : ∀ request ∈ pendingOf records,
      (summarize request).solo s = some (.ok (summaryOf request (payloadOf request)), s) := by
    intro request here
    obtain ⟨revision, stored, pending⟩ := waiting request here
    obtain ⟨payload, read, -⟩ := findPayload_pending inv stored pending
    obtain ⟨-, -, held⟩ := findPayload_ok read
    obtain ⟨file, there, same, -⟩ := held payload rfl
    unfold summarize
    rw [readPayload, Script.solo_bind (Script.solo_look read)]
    simp only [payloadOf, there, Option.map_some, Option.getD_some, same]
    rfl
  refine ⟨(pendingOf records).map fun request => summaryOf request (payloadOf request), ?_, ?_⟩
  · unfold summaries
    rw [Script.solo_bind listed, Script.solo_collect each]
  · rintro id ⟨revision, request, stored, pending⟩
    obtain ⟨revision', request', same, named⟩ := inv.readable _ _ stored
    cases same
    refine ⟨_, List.mem_map_of_mem (a := request) ?_, named⟩
    refine mem_sortBy.mpr (List.mem_filter.mpr ⟨List.mem_map.mpr ⟨⟨id, revision, request⟩, ?_, rfl⟩,
      decide_eq_true pending⟩)
    exact (complete ⟨id, revision, request⟩).mpr stored

theorem InStep.reviewable (inv : InStep s) : Reviewable R s where
  payload id revision request stored pending := by
    obtain ⟨file, held, same⟩ := inv.bound id revision request stored pending
    exact ⟨file, held, by rw [inv.digests id file held, same]⟩
  loads _ pending := load_solo inv pending
  summarized := summaries_solo inv

/-! ### The runs -/

theorem standing_start {ι : Type} : Machine.Standing (outline ι) harmless (start ι) where
  inv := inStep_empty
  process _ _ _ there := by cases there

theorem pending_reviewable {ι : Type} [DecidableEq ι] {labels : List (Event ι Call Failure)}
    (allowed : Runs.Along (Machine.step (kernel R ι)) (Machine.Allowed (fun _ _ _ => True) harmless)
      (start ι) labels) :
    Throughout (Machine.step (kernel R ι)) (fun m => Reviewable R m.shared) (start ι) labels := by
  have kept := Machine.standing outlined standing_start allowed
  exact fun done rest split => (kept done rest split).inv.reviewable

/-! ### Two calls of `save` for one change -/

def sampleEnvironment : Environment where
  str _ := lit "..."
  int _ := none
  encodes _ _ := .ok ()
  fits _ := true

def sampleId : Text := "chg-0123456789abcdef0123".toList

def sampleRecord : Record := [
  (lit "change_id", .str (ofText sampleId)),
  (lit "repo_id", .str (lit "demo")),
  (lit "reason", .str (lit "expand profile capability")),
  (lit "created_at", .str (lit "2026-07-14T00:00:00+00:00")),
  (lit "capability_delta", .str (lit "expansion")),
  (lit "changes", .list []),
  (lit "expected_generation", .int 1),
  (lit "expected_source_sha256", .str (ofText (List.replicate 64 'a'))),
  (lit "proposal_id", .str (ofText sampleId))]

/-- A process saves a change by itself. -/
def savedLabels : List (Event Bool Call Failure) :=
  .start true (.save sampleRecord) :: List.replicate 4 (.go true .done)

/-- Whether a step cleans nothing up, and has room for what it creates. -/
def plain (m : ApprovalMachine Bool) : Event Bool Call Failure → Bool
  | .start _ _ => true
  | .go p _ => match m.nextTag p with
    | some (.cleanUp _) => false
    | some (.create _) => m.shared.requests.keys.length < maxListed
    | _ => true

theorem allowed_of_plain (m : ApprovalMachine Bool) (l : Event Bool Call Failure)
    (easy : plain m l = true) : Machine.Allowed (fun _ _ _ => True) harmless m l := by
  cases l with
  | start p call => exact trivial
  | go p fault =>
    intro tag stands
    cases tag with
    | cleanUp id => simp [plain, stands] at easy
    | create request =>
      intro _ _
      simpa [plain, stands] using easy
    | look => exact trivial
    | store id => exact trivial
    | decide decided => exact trivial
    | drop id => exact trivial

theorem pending_reviewable_saved :
    Throughout (Machine.step (kernel sampleEnvironment Bool))
      (fun m => Reviewable sampleEnvironment m.shared) (start Bool) savedLabels :=
  pending_reviewable (along_of_passes allowed_of_plain (by decide +kernel))

/-- The other one has found no request of the change before, and goes on after. -/
def racingLabels : List (Event Bool Call Failure) :=
  [.start false (.save sampleRecord), .go false .done, .go false .done] ++ savedLabels ++
    List.replicate 3 (.go false .done)

/-- Whether the sample change is stored as pending. -/
def samplePending (s : Stores) : Bool :=
  match s.requests.lookup sampleId with
  | some (.readable _ request) => request.status = .pending
  | _ => false

def sampleGone (s : Stores) : Bool := samplePending s && (s.payloads.lookup sampleId).isNone

theorem not_reviewable_of_gone (gone : sampleGone s = true) : ¬Reviewable R s := by
  intro reviewable
  obtain ⟨pending, gone⟩ := (Bool.and_eq_true _ _).mp gone
  unfold samplePending at pending
  split at pending
  · rename_i revision request stored
    obtain ⟨file, held, -⟩ := reviewable.payload _ _ _ stored (of_decide_eq_true pending)
    rw [held] at gone
    cases gone
  · cases pending

theorem racing_gone :
    sampleGone (run (Machine.step (kernel sampleEnvironment Bool)) (start Bool) racingLabels).shared =
      true := by
  decide +kernel

theorem clean_up_loses_payload : ¬ ∀ (R : Environment) (labels : List (Event Bool Call Failure)),
    Throughout (Machine.step (kernel R Bool)) (fun m => Reviewable R m.shared) (start Bool)
      labels := by
  intro claim
  exact not_reviewable_of_gone racing_gone (claim sampleEnvironment racingLabels).last

end RepoForge.Approvals
