import RepoForge.Guarantees.Persistence.MigrationAtomic

/-!
# A failed cleanup restores the collection

Any number of processes run `apply_cleanup` of one preview beside the calls of the repository, each
step with any fault. If every attempt starts with none of its candidates in the trash, then a
journal that says `rolled_back` means that each record the attempts have moved is back with
previewed bytes, unless somebody else has changed it since, and `committed` is written only when
every candidate is gone (`failed_cleanup_restores`). An attempt undoes only its own moves, so one
that fails after another has crashed leaves the records of that other in the trash
(`crashed_moves_stay`).
-/
namespace RepoForge

open Scripts Runs

namespace Lifecycle

variable {J : Type} (codec : LifecycleCodec J) (preview : StateCleanupPreview)

/-- The bytes are those that the preview has for the record. -/
def Previewed (id : Text) (b : Bytes) : Prop :=
  ∃ item ∈ preview.candidates, item.recordId = id ∧ codec.sha256 b = item.checksum

def Trashed (s : StateRoot) (id : Text) : Prop :=
  s.records id = none ∧ ∃ b, s.trash preview.planId id = some b ∧ Previewed codec preview id b

def Present (s : StateRoot) (id : Text) : Prop :=
  ∃ b, s.records id = some b ∧ Previewed codec preview id b

def cleanupPhase (s : StateRoot) : Option JournalPhase :=
  (s.cleanups preview.planId).map (·.phase)

/-- None of the candidates is in the trash. -/
def TrashEmpty (s : StateRoot) : Prop :=
  ∀ item ∈ preview.candidates, s.trash preview.planId item.recordId = none

structure CleanupInv (s : StateRoot) : Prop where
  /-- What the attempts have moved and nobody else has changed is in one of the two places. -/
  kept : ∀ id, s.moved preview.planId id = true → s.author id = .cleanup preview.planId →
    Trashed codec preview s id ∨ Present codec preview s id
  rolledBack : cleanupPhase preview s = some .rolledBack → TrashEmpty preview s

/-- `committed` is written only when every candidate is gone. -/
def removedFirst (J : Type) (preview : StateCleanupPreview) : StepRule J where
  allows _ _ w w' := cleanupPhase preview w.root ≠ some .committed →
    cleanupPhase preview w'.root = some .committed →
    ∀ item ∈ preview.candidates, w'.root.records item.recordId = none
  locks _ _ s t same pending committed := absurd (by rw [← same]; exact committed) pending

variable {codec preview} {s : StateRoot}

section Changes

theorem CleanupInv.change {id : Text} {content : Option Bytes} (inv : CleanupInv codec preview s) :
    CleanupInv codec preview (s.store id content .repository) := by
  refine ⟨?_, inv.rolledBack⟩
  intro other moved author
  by_cases same : other = id
  · subst same
    simp [StateRoot.store] at author
  · have before := inv.kept other moved (by simpa [StateRoot.store, same] using author)
    simpa [Trashed, Present, StateRoot.store, same] using before

theorem CleanupInv.putCleanup {journal : CleanupJournal} (inv : CleanupInv codec preview s)
    (empty : journal.phase = .rolledBack → TrashEmpty preview s) :
    CleanupInv codec preview (s.putCleanup preview.planId journal) := by
  refine ⟨inv.kept, ?_⟩
  intro phase
  exact empty (by simpa [cleanupPhase, StateRoot.putCleanup] using phase)

/-- A candidate with its previewed bytes may be moved while the cleanup is under way. -/
theorem CleanupInv.moveOut {id : Text} (inv : CleanupInv codec preview s)
    (under : cleanupPhase preview s ≠ some .rolledBack) (present : Present codec preview s id) :
    CleanupInv codec preview (s.moveOut preview.planId id) := by
  refine ⟨?_, fun phase => absurd phase under⟩
  intro other moved author
  by_cases same : other = id
  · subst same
    obtain ⟨b, stored, sum⟩ := present
    refine .inl ⟨by simp [StateRoot.moveOut, StateRoot.store], b, ?_, sum⟩
    simpa [StateRoot.moveOut, StateRoot.store, StateRoot.putTrash] using stored
  · have before := inv.kept other (by simpa [StateRoot.moveOut, same] using moved)
      (by simpa [StateRoot.moveOut, StateRoot.store, StateRoot.putTrash, same] using author)
    simpa [Trashed, Present, StateRoot.moveOut, StateRoot.store, StateRoot.putTrash, same] using
      before

theorem CleanupInv.moveBack {id : Text} {b : Bytes} (inv : CleanupInv codec preview s)
    (under : cleanupPhase preview s ≠ some .rolledBack) (there : s.trash preview.planId id = some b)
    (sum : Previewed codec preview id b) :
    CleanupInv codec preview (s.moveBack preview.planId id) := by
  refine ⟨?_, fun phase => absurd phase under⟩
  intro other moved author
  by_cases same : other = id
  · subst same
    refine .inr ⟨b, ?_, sum⟩
    simp [StateRoot.moveBack, StateRoot.store, StateRoot.putTrash, there]
  · have before := inv.kept other moved
      (by simpa [StateRoot.moveBack, StateRoot.store, StateRoot.putTrash, same] using author)
    simpa [Trashed, Present, StateRoot.moveBack, StateRoot.store, StateRoot.putTrash, same] using
      before

end Changes

section Locked

variable {goes : LifecycleAction → Fault LifecycleError → LifecycleWorld → Prop} {p : Nat}
  {c : LifecycleCall J}

abbrev cleaning (codec : LifecycleCodec J) (preview : StateCleanupPreview) :
    Discipline Nat (LifecycleCall J) LifecycleWorld :=
  guarded none (CleanupInv codec preview) (removedFirst J preview)

/-- The attempt has moved these, and nothing else of the preview is in the trash. -/
structure Moving (codec : LifecycleCodec J) (preview : StateCleanupPreview) (moved : List Text)
    (s : StateRoot) : Prop where
  under : cleanupPhase preview s = some .applying
  trashed : ∀ id ∈ moved, s.trash preview.planId id = none ∨ Trashed codec preview s id
  rest : ∀ item ∈ preview.candidates, item.recordId ∈ moved ∨
    s.trash preview.planId item.recordId = none

theorem Moving.not_rolledBack {moved : List Text} (moving : Moving codec preview moved s) :
    cleanupPhase preview s ≠ some .rolledBack := by
  rw [moving.under]
  simp

/-- What is not a write of `committed` needs no reason. -/
theorem not_committed_allowed {w w' : LifecycleWorld}
    (phase : cleanupPhase preview w'.root ≠ some .committed) :
    (removedFirst J preview).allows p c w w' :=
  fun _ committed => absurd committed phase

/-- A candidate that is gone, or is still to be looked at. -/
def Remaining (preview : StateCleanupPreview) (items : List StateCleanupCandidate) (s : StateRoot) :
    Prop :=
  ∀ item ∈ preview.candidates, item ∈ items ∨ s.records item.recordId = none

theorem Remaining.tail {item : StateCleanupCandidate} {items : List StateCleanupCandidate}
    (remaining : Remaining preview (item :: items) s) (gone : s.records item.recordId = none) :
    Remaining preview items s := by
  intro other there
  rcases remaining other there with waiting | done
  · rcases List.mem_cons.mp waiting with rfl | waiting
    · exact .inr gone
    · exact .inl waiting
  · exact .inr done

theorem moveOut_cleaning {item : StateCleanupCandidate} {items : List StateCleanupCandidate}
    {moved : List Text} (member : item ∈ preview.candidates) :
    Triple (cleaning codec preview) goes p c
      (Held p fun s _ => (Moving codec preview moved s ∧ Remaining preview (item :: items) s) ∧
        ∃ b, s.records item.recordId = some b ∧ codec.sha256 b = item.checksum)
      (moveOut p preview item)
      (fun _ => Held p fun s _ => Moving codec preview (item.recordId :: moved) s ∧
        Remaining preview items s)
      (fun _ => Held p fun s _ => Moving codec preview moved s) := by
  refine held_perform nobody_turn (fun w => ⟨rfl, rfl, (own_verify _ _).checks⟩) ?_ ?_ ?_ ?_
  · intro w _ inv ⟨⟨moving, _⟩, b, stored, sum⟩
    refine ⟨inv.moveOut moving.not_rolledBack ⟨b, stored, item, member, rfl, sum⟩,
      not_committed_allowed ?_⟩
    change cleanupPhase preview w.root ≠ some .committed
    rw [moving.under]
    simp
  · intro w _ ⟨⟨moving, remaining⟩, b, stored, sum⟩
    refine ⟨⟨moving.under, ?_, ?_⟩, ?_⟩
    · intro id there
      by_cases same : id = item.recordId
      · subst same
        refine .inr ⟨by simp [LifecycleWorld.verify, LifecycleWorld.onRoot, StateRoot.moveOut,
          StateRoot.store], b, ?_, item, member, rfl, sum⟩
        simpa [LifecycleWorld.verify, LifecycleWorld.onRoot, StateRoot.moveOut, StateRoot.store,
          StateRoot.putTrash] using stored
      · have before := moving.trashed id ((List.mem_cons.mp there).resolve_left same)
        simpa [Trashed, LifecycleWorld.verify, LifecycleWorld.onRoot, StateRoot.moveOut,
          StateRoot.store, StateRoot.putTrash, same] using before
    · intro other there
      by_cases same : other.recordId = item.recordId
      · exact .inl (by simp [same])
      · rcases moving.rest other there with already | none_
        · exact .inl (List.mem_cons_of_mem _ already)
        · exact .inr (by simpa [LifecycleWorld.verify, LifecycleWorld.onRoot, StateRoot.moveOut,
            StateRoot.store, StateRoot.putTrash, same] using none_)
    · have all : Remaining preview (item :: items)
          (w.root.moveOut preview.planId item.recordId) := by
        intro other there
        refine (remaining other there).imp id fun gone => ?_
        by_cases same : other.recordId = item.recordId
        · simp [StateRoot.moveOut, StateRoot.store, same]
        · simpa [StateRoot.moveOut, StateRoot.store, StateRoot.putTrash, same] using gone
      exact all.tail (by simp [StateRoot.moveOut, StateRoot.store])
  · intro _ w _ h _
    exact h.1.1
  · intro may
    cases may

theorem candidateThere_ok {item : StateCleanupCandidate} {record trash : Option Bytes} {there : Bool}
    (h : candidateThere codec item record trash = .ok there) :
    (there = true ∧ ∃ b, record = some b ∧ codec.sha256 b = item.checksum) ∨
      (there = false ∧ record = none) := by
  unfold candidateThere at h
  split at h
  · rename_i data
    split at h
    · cases h
    · rename_i same
      cases h
      exact .inl ⟨rfl, data, rfl, not_not.mp same⟩
  · split at h
    · cases h
    · cases h
      exact .inr ⟨rfl, rfl⟩
  · cases h

theorem inspect_cleaning {item : StateCleanupCandidate} {F : StateRoot → Prop} :
    Triple (cleaning codec preview) goes p c (Held p fun s _ => F s) (inspect codec p preview item)
      (fun there => Held p fun s _ => F s ∧
        ((there = true ∧ ∃ b, s.records item.recordId = some b ∧ codec.sha256 b = item.checksum) ∨
          (there = false ∧ s.records item.recordId = none)))
      (fun _ => Held p fun s _ => F s) := by
  refine held_verify nobody_turn ?_ ?_ ?_ (fun _ _ _ h _ => h) fun _ _ _ h => h
  · intro w
    split <;> rfl
  · intro w
    split
    · exact own_verify _ _
    · exact Own.refl p w
  · intro w there _ start seen
    exact ⟨start, candidateThere_ok seen⟩

theorem moveCandidates_cleaning : ∀ (items : List StateCleanupCandidate) (moved : List Text),
    (∀ item ∈ items, item ∈ preview.candidates) →
    Triple (cleaning codec preview) goes p c
      (Held p fun s _ => Moving codec preview moved s ∧ Remaining preview items s)
      (moveCandidates codec p preview moved items)
      (fun r => Held p fun s _ => Moving codec preview r.1 s ∧
        (r.2 = none → ∀ item ∈ preview.candidates, s.records item.recordId = none))
      (fun _ => Held p fun _ _ => True)
  | [], moved, _ => held_ret fun s _ _ h =>
      ⟨h.1, fun _ item there => (h.2 item there).resolve_left List.not_mem_nil⟩
  | item :: items, moved, members => by
    have here := members item (by simp)
    have later : ∀ other ∈ items, other ∈ preview.candidates :=
      fun other there => members other (List.mem_cons_of_mem _ there)
    have one : Triple (cleaning codec preview) goes p c
        (Held p fun s _ => Moving codec preview moved s ∧ Remaining preview (item :: items) s)
        (do
          let there ← inspect codec p preview item
          if there then moveOut p preview item
          pure there)
        (fun there => Held p fun s _ =>
          Moving codec preview (if there then item.recordId :: moved else moved) s ∧
            Remaining preview items s)
        (fun _ => Held p fun s _ => Moving codec preview moved s) := by
      refine Triple.bind (held_weaken inspect_cleaning (fun _ _ _ h => h) (fun _ _ _ _ h => h)
        fun _ _ _ _ h => h.1) fun there => ?_
      cases there with
      | true =>
        refine Triple.bind (held_weaken (moveOut_cleaning here) ?_ (fun _ _ _ _ h => h)
          fun _ _ _ _ h => h) fun _ => held_ret fun _ _ _ h => h
        intro s v _ ⟨start, seen⟩
        rcases seen with ⟨_, found⟩ | ⟨absurd_, _⟩
        · exact ⟨start, found⟩
        · cases absurd_
      | false =>
        refine held_ret fun s v _ ⟨⟨moving, remaining⟩, seen⟩ => ⟨moving, remaining.tail ?_⟩
        rcases seen with ⟨absurd_, _⟩ | ⟨_, gone⟩
        · cases absurd_
        · exact gone
    refine held_attempt one (fun there => ?_) fun e => held_ret fun _ _ _ h => ⟨h, by simp⟩
    cases there with
    | true => exact moveCandidates_cleaning items (item.recordId :: moved) later
    | false => exact moveCandidates_cleaning items moved later

theorem Moving.moveBack {id : Text} {ids : List Text} (moving : Moving codec preview (id :: ids) s)
    {b : Bytes} (there : s.trash preview.planId id = some b) :
    Previewed codec preview id b ∧ Moving codec preview ids (s.moveBack preview.planId id) := by
  have sum : Previewed codec preview id b := by
    rcases moving.trashed id (by simp) with none_ | ⟨_, b', there', sum⟩
    · rw [there] at none_
      cases none_
    · rw [there] at there'
      cases there'
      exact sum
  refine ⟨sum, moving.under, ?_, ?_⟩
  · intro other member
    by_cases same : other = id
    · exact .inl (by simp [StateRoot.moveBack, StateRoot.putTrash, same])
    · have before := moving.trashed other (List.mem_cons_of_mem _ member)
      simpa [Trashed, StateRoot.moveBack, StateRoot.store, StateRoot.putTrash, same] using before
  · intro item member
    by_cases same : item.recordId = id
    · exact .inr (by simp [StateRoot.moveBack, StateRoot.putTrash, same])
    · rcases moving.rest item member with listed | none_
      · exact .inl ((List.mem_cons.mp listed).resolve_left same)
      · exact .inr (by simpa [StateRoot.moveBack, StateRoot.store, StateRoot.putTrash, same] using
          none_)

theorem moveBack_cleaning {id : Text} {ids : List Text} :
    Triple (cleaning codec preview) goes p c (Held p fun s _ => Moving codec preview (id :: ids) s)
      (moveBack p preview id) (fun _ => Held p fun s _ => Moving codec preview ids s)
      (fun _ => Held p fun _ _ => True) := by
  refine held_perform nobody_turn ?_ ?_ ?_ (fun _ _ _ _ _ => trivial) fun _ _ _ _ _ _ => trivial
  · intro w
    simp only
    split
    · exact Own.refl p w
    · exact ⟨rfl, rfl, (own_verify _ _).checks⟩
  · intro w _ inv moving
    simp only
    split
    · exact ⟨inv, (removedFirst J preview).locks p c _ _ rfl⟩
    · rename_i b there
      obtain ⟨sum, after⟩ := moving.moveBack there
      refine ⟨inv.moveBack moving.not_rolledBack there sum, not_committed_allowed ?_⟩
      change cleanupPhase preview (w.root.moveBack preview.planId id) ≠ some .committed
      rw [after.under]
      simp
  · intro w _ moving
    simp only
    split
    · rename_i none_
      refine ⟨moving.under, fun other member => moving.trashed other (List.mem_cons_of_mem _ member),
        ?_⟩
      intro item member
      rcases moving.rest item member with listed | gone
      · rcases List.mem_cons.mp listed with same | listed
        · exact .inr (same ▸ none_)
        · exact .inl listed
      · exact .inr gone
    · rename_i b there
      exact (moving.moveBack there).2

theorem putBack_cleaning : ∀ ids : List Text,
    Triple (cleaning codec preview) goes p c (Held p fun s _ => Moving codec preview ids s)
      (putBack p preview ids) (fun _ => Held p fun s _ => Moving codec preview [] s)
      (fun _ => Held p fun _ _ => True)
  | [] => held_ret fun _ _ _ h => h
  | _ :: ids => Triple.bind moveBack_cleaning fun _ => putBack_cleaning ids

theorem writeCleanupJournal_cleaning {phase : JournalPhase} {report : Option StateCleanupReport}
    {F : StateRoot → Prop}
    (empty : phase = .rolledBack → ∀ s, F s → TrashEmpty preview s)
    (gone : phase = .committed → ∀ s, F s → ∀ item ∈ preview.candidates,
      s.records item.recordId = none) :
    Triple (cleaning codec preview) goes p c (Held p fun s _ => F s)
      (writeCleanupJournal preview phase report)
      (fun _ => Held p fun s _ => cleanupPhase preview s = some phase ∧
        ∃ t, F t ∧ s = t.putCleanup preview.planId
          ⟨preview.planId, preview.planDigest, phase, report⟩)
      (fun _ => Held p fun _ _ => True) := by
  have written : ∀ s : StateRoot, cleanupPhase preview (s.putCleanup preview.planId
      ⟨preview.planId, preview.planDigest, phase, report⟩) = some phase := by
    intro s
    simp [cleanupPhase, StateRoot.putCleanup]
  refine held_write nobody_turn (fun w => own_onRoot _) ?_ ?_ (fun _ _ _ _ _ => trivial)
    fun _ _ _ _ _ => trivial
  · intro w _ inv start
    refine ⟨inv.putCleanup fun rolled => empty rolled _ start, ?_⟩
    intro _ committed
    have same : phase = .committed := by
      have := (written w.root).symm.trans committed
      exact Option.some.inj this
    exact gone same w.root start
  · intro w _ start
    exact ⟨written w.root, w.root, start, rfl⟩

theorem cleanupLocked_cleaning :
    Triple (cleaning codec preview) goes p c
      (Held p fun s _ => cleanupPhase preview s = some .committed ∨ TrashEmpty preview s)
      (cleanupLocked codec p preview) (fun _ => Held p fun _ _ => True)
      (fun _ => Held p fun _ _ => True) := by
  have looked : Triple (cleaning codec preview) goes p c
      (Held p fun s _ => cleanupPhase preview s = some .committed ∨ TrashEmpty preview s)
      (readCleanup preview false)
      (fun found => Held p fun s _ => found = none → TrashEmpty preview s)
      (fun _ => Held p fun _ _ => True) := by
    refine held_look ?_ fun _ _ _ _ => trivial
    intro w found _ start seen none_
    subst none_
    refine start.resolve_left fun committed => ?_
    unfold cleanupDone at seen
    cases journal : w.root.cleanups preview.planId with
    | none => simp [cleanupPhase, journal] at committed
    | some journal' =>
      have phase : journal'.phase = .committed := by simpa [cleanupPhase, journal] using committed
      rw [journal] at seen
      simp only [cleanupReport, phase] at seen
      split at seen
      · cases seen
      · simp only [ne_eq, not_true_eq_false, if_false] at seen
        split at seen
        · cases seen
        · cases seen
  refine Triple.bind looked fun found => ?_
  rcases found with _ | report
  · refine Triple.bind (held_weaken (writeCleanupJournal_cleaning (F := TrashEmpty preview)
      (by simp) (by simp)) (fun _ _ _ h => h rfl) (fun _ _ _ _ h => h) fun _ _ _ _ h => h) fun _ => ?_
    refine Triple.bind (held_weaken (moveCandidates_cleaning preview.candidates []
      fun _ member => member) ?_ (fun _ _ _ _ h => h) fun _ _ _ _ h => h) fun r => ?_
    · rintro s v _ ⟨under, t, empty, rfl⟩
      exact ⟨⟨under, by simp, fun item member => .inr (empty item member)⟩,
        fun item member => .inl member⟩
    · rcases r with ⟨moved, _ | e⟩
      · refine Triple.bind (held_weaken (writeCleanupJournal_cleaning (F := fun s => ∀ item ∈
          preview.candidates, s.records item.recordId = none) (by simp) fun _ _ gone => gone)
          (fun _ _ _ h => h.2 rfl) (fun _ _ _ _ h => h) fun _ _ _ _ h => h) fun _ =>
          held_ret fun _ _ _ _ => trivial
      · refine Triple.bind (held_weaken (putBack_cleaning moved) (fun _ _ _ h => h.1)
          (fun _ _ _ _ h => h) fun _ _ _ _ h => h) fun _ => ?_
        refine Triple.bind (writeCleanupJournal_cleaning ?_ (by simp)) fun _ =>
          held_raise fun _ _ _ _ => trivial
        intro _ s moving item member
        exact (moving.rest item member).resolve_left List.not_mem_nil
  · exact held_ret fun _ _ _ _ => trivial

end Locked

section Runs

variable {root : StateRoot}

/-- Attempts of one cleanup run beside calls of the repository. -/
def attempts (preview : StateCleanupPreview) : LifecyclePermit J where
  starts _ c _ := c = .cleanup preview ∨ ∃ id call, c = .repository id call
  goes _ _ _ _ := True

/-- Every attempt finds none of its candidates in the trash when it has the lock, unless the cleanup
is done. -/
def freshAttempts (preview : StateCleanupPreview) : LifecyclePermit J where
  starts _ c _ := c = .cleanup preview ∨ ∃ id call, c = .repository id call
  goes _ tag fault w := tag = .lock "cleanup".toList preview.planId → fault = .done →
    cleanupPhase preview w.root = some .committed ∨ TrashEmpty preview w.root

/-- Where the journal says `rolled_back`, what the attempts have moved is back, unless somebody else
has changed it since. -/
def MovedBack (codec : LifecycleCodec J) (preview : StateCleanupPreview) (s : StateRoot) : Prop :=
  cleanupPhase preview s = some .rolledBack → ∀ id, s.moved preview.planId id = true →
    s.author id = .cleanup preview.planId → Present codec preview s id

/-- A step that writes `committed` finds every candidate gone. -/
def CommitsRemoved (codec : LifecycleCodec J) (preview : StateCleanupPreview)
    (s : LifecycleMachine J) (l : LifecycleEvent J) : Prop :=
  cleanupPhase preview s.shared.root ≠ some .committed →
    cleanupPhase preview (s.step (kernel codec) l).shared.root = some .committed →
    ∀ item ∈ preview.candidates,
      (s.step (kernel codec) l).shared.root.records item.recordId = none

theorem CleanupInv.movedBack (inv : CleanupInv codec preview s) : MovedBack codec preview s := by
  intro rolledBack id moved author
  refine (inv.kept id moved author).resolve_left ?_
  intro ⟨_, b, there, item, member, named, _⟩
  have empty := inv.rolledBack rolledBack item member
  rw [named, there] at empty
  cases empty

theorem attempts_disciplined :
    Machine.Disciplined (kernel codec) (cleaning codec preview) (freshAttempts preview)
      fun _ _ _ => True := by
  refine ⟨?_, ?_⟩
  · intro p c w inv resting started
    have outside : Outside none p (fun _ => True) w := ⟨resting, fun _ => trivial⟩
    rcases started with rfl | ⟨id, call, rfl⟩
    · refine outside_answer (applyCleanup_of_locked nobody_turn ?_ cleanupLocked_cleaning)
        (fun _ _ _ => trivial) w inv outside
      exact fun w _ allowed => allowed rfl rfl
    · refine outside_answer (shared_change nobody_turn ?_) (fun _ _ _ => trivial) w inv outside
      intro w content fault inv _ _ _
      exact ⟨inv.change, fun pending committed => absurd committed pending⟩
  · intro p c w _ _ inv
    exact ⟨release_guarantee nobody_turn inv, release_resting⟩

/-- If every attempt starts with an empty trash, a failed cleanup has undone what all attempts have
moved. -/
theorem failed_cleanup_restores (unmoved : ∀ id, root.moved preview.planId id = false)
    (new : root.cleanups preview.planId = none) {labels : List (LifecycleEvent J)}
    (run : Runs.Along (Machine.step (kernel codec)) (Machine.Permitted (freshAttempts preview)) (idle root)
      labels) :
    Throughout (Machine.step (kernel codec)) (fun s => MovedBack codec preview s.shared.root)
        (idle root) labels ∧
      Runs.Along (Machine.step (kernel codec)) (CommitsRemoved codec preview) (idle root) labels := by
  have inv : CleanupInv codec preview root := by
    refine ⟨?_, ?_⟩
    · intro id moved
      rw [unmoved id] at moved
      cases moved
    · intro phase
      simp [cleanupPhase, new] at phase
  have kept := Machine.kept attempts_disciplined
    (idle_kept ⟨fun shared => absurd rfl shared, inv⟩ idle_resting) run
  refine ⟨fun done rest split => (kept done rest split).inv.2.movedBack, ?_⟩
  refine (kept.along.both run).imp ?_
  intro s l ⟨⟨before, _⟩, permitted⟩ pending committed
  rcases before.effect attempts_disciplined permitted with same | ⟨p, c, _, _, _, _, good⟩
  · rw [same] at committed
    exact absurd committed pending
  · exact good pending committed

end Runs

section Sample

def sampleCandidate (id : Char) : StateCleanupCandidate :=
  ⟨[id], sampleSum [UInt8.ofNat id.toNat, 1, 1], 3, [], .expired⟩

def sampleCleanup : StateCleanupPreview :=
  ⟨"clean-d".toList, ['d'], [sampleCandidate 'a', sampleCandidate 'b'], [], [], 0, 0, 0, none⟩

/-- The repository changes the second candidate; two attempts fail there and undo their move of the
first. -/
def failedAttempts : List (LifecycleEvent Unit) :=
  .start 1 (.repository ['b'] (.save [98, 1, 2] 1)) :: undisturbed 1 3 ++
    .start 0 (.cleanup sampleCleanup) :: undisturbed 0 10 ++
    .start 0 (.cleanup sampleCleanup) :: undisturbed 0 10

/-- Whether the lock is taken with an empty trash. -/
def emptyAtLock (s : LifecycleMachine Unit) : LifecycleEvent Unit → Bool
  | .start _ _ => true
  | .go p _ =>
    match s.nextTag p with
    | some (.lock _ _) => sampleCleanup.candidates.all fun item =>
        (s.shared.root.trash sampleCleanup.planId item.recordId).isNone
    | _ => true

theorem failed_cleanup_restores_twice :
    Throughout (Machine.step (kernel sampleCodec))
        (fun s => MovedBack sampleCodec sampleCleanup s.shared.root) (idle sampleRoot)
        failedAttempts ∧
      Runs.Along (Machine.step (kernel sampleCodec)) (CommitsRemoved sampleCodec sampleCleanup)
        (idle sampleRoot) failedAttempts := by
  refine failed_cleanup_restores (fun _ => rfl) rfl ?_
  have calls : Runs.Along (Machine.step (kernel sampleCodec)) (fun _ l => ∀ p c, l = .start p c →
      c = .cleanup sampleCleanup ∨ ∃ id call, c = .repository id call) (idle sampleRoot)
      failedAttempts := by
    refine along_of_forall fun l member _ p c same => ?_
    subst same
    simp [failedAttempts, undisturbed] at member
    rcases member with ⟨-, rfl⟩ | ⟨-, rfl⟩
    · exact .inr ⟨_, _, rfl⟩
    · exact .inl rfl
  have locks : Runs.Along (Machine.step (kernel sampleCodec)) (fun s l => emptyAtLock s l = true)
      (idle sampleRoot) failedAttempts := along_of_passes (fun _ _ ok => ok) (by decide +kernel)
  refine (calls.both locks).imp ?_
  intro s l h
  obtain ⟨call, ok⟩ := h
  cases l with
  | start p c => exact call p c rfl
  | go p fault =>
    refine Machine.permitted_go fun tag next lock done => .inr ?_
    subst lock done
    simpa [emptyAtLock, next, TrashEmpty] using ok

/-- The first attempt moves one record and crashes; the second fails on the other. -/
def crashedAttempt : List (LifecycleEvent Unit) :=
  .start 0 (.cleanup sampleCleanup) :: undisturbed 0 6 ++ [.go 0 .crash] ++
    .start 1 (.repository ['b'] (.save [98, 1, 2] 1)) :: undisturbed 1 3 ++
    .start 0 (.cleanup sampleCleanup) :: undisturbed 0 8

theorem crashed_moves_stay :
    (∀ id, sampleRoot.moved sampleCleanup.planId id = false) ∧
      sampleRoot.cleanups sampleCleanup.planId = none ∧
      ¬ ∀ labels : List (LifecycleEvent Unit), Runs.Along (Machine.step (kernel sampleCodec))
          (Machine.Permitted (attempts sampleCleanup)) (idle sampleRoot) labels →
        Throughout (Machine.step (kernel sampleCodec))
          (fun s => MovedBack sampleCodec sampleCleanup s.shared.root) (idle sampleRoot) labels := by
  refine ⟨fun _ => rfl, rfl, ?_⟩
  intro claim
  have run : Runs.Along (Machine.step (kernel sampleCodec)) (Machine.Permitted (attempts sampleCleanup))
      (idle sampleRoot) crashedAttempt := by
    refine along_of_forall fun l member s => ?_
    cases l with
    | go p fault => exact fun _ _ _ _ _ => trivial
    | start p c =>
      simp [crashedAttempt, undisturbed] at member
      rcases member with ⟨-, rfl⟩ | ⟨-, rfl⟩ | ⟨-, rfl⟩
      · exact .inl rfl
      · exact .inr ⟨_, _, rfl⟩
      · exact .inl rfl
  obtain ⟨b, stored, _⟩ := (claim crashedAttempt run).last (by decide +kernel) ['a']
    (by decide +kernel) (by decide +kernel)
  have gone : (Runs.run (Machine.step (kernel sampleCodec)) (idle sampleRoot)
      crashedAttempt).shared.root.records ['a'] = none := by decide +kernel
  rw [gone] at stored
  cases stored

end Sample

end Lifecycle

end RepoForge
