import RepoForge.Spec.Persistence.MigrationReads

/-!
# Writes over checked contents

No lifecycle call may replace a version that the repository has made and the call has not
checked (`checkedOnly`). Migrations and cleanups check what they replace. Recovery checks nothing:
it needs that the copies of an incomplete migration are current (`CopiesCurrent`), that is, that
the repository has not changed their records since the copies were made.
-/
namespace RepoForge

open Scripts

namespace Lifecycle

variable {J : Type} {codec : LifecycleCodec J}

/-- The calls of the lifecycle manager. -/
def Administers : LifecycleCall J → Prop
  | .repository _ _ => False
  | _ => True

/-- A record that a lifecycle call changes is no version of the repository, or one that the call
has checked. -/
def checkedOnly (J : Type) : StepRule J where
  allows p c w w' := Administers c → ∀ id, w'.root.records id ≠ w.root.records id →
    w.root.author id = .repository → w.verified p id = some (w.root.records id)
  locks _ _ s t same _ id changed := absurd (by rw [same]) changed

/-- The journal of the migration is prepared or applying. -/
def Waiting (s : StateRoot) (planId : Text) : Prop :=
  ∃ journal, s.journals.lookup planId = some journal ∧ incomplete journal = true

/-- The backup of a migration that waits for recovery lists the record. -/
def ListedBy (s : StateRoot) (planId id : Text) : Prop :=
  Waiting s planId ∧ ∃ entries, s.manifests planId = some entries ∧ ∃ e ∈ entries, e.recordId = id

structure CopiesCurrent (s : StateRoot) : Prop where
  named : ∀ planId journal, s.journals.lookup planId = some journal → incomplete journal = true →
    journal.planId = planId ∧ journal.backupId = planId
  current : ∀ planId id b, ListedBy s planId id → s.backups planId id = some b →
    s.records id = some b ∨ s.author id ≠ .repository

section Changes

variable {s : StateRoot}

/-- What a lifecycle call writes is no version of the repository. -/
theorem CopiesCurrent.store (inv : CopiesCurrent s) (id : Text) (content : Option Bytes)
    {author : Author} (by_ : author ≠ .repository) :
    CopiesCurrent (s.store id content author) := by
  refine ⟨inv.named, ?_⟩
  intro planId other b listed copy
  by_cases same : other = id
  · subst same
    exact .inr (by simpa [StateRoot.store] using by_)
  · rcases inv.current planId other b listed copy with current | foreign
    · exact .inl (by simpa [StateRoot.store, same] using current)
    · exact .inr (by simpa [StateRoot.store, same] using foreign)

/-- The repository may change a record that no waiting migration lists. -/
theorem CopiesCurrent.change {id : Text} {content : Option Bytes} (inv : CopiesCurrent s)
    (free : ∀ planId, ¬ ListedBy s planId id) :
    CopiesCurrent (s.store id content .repository) := by
  refine ⟨inv.named, ?_⟩
  intro planId other b listed copy
  by_cases same : other = id
  · subst same
    exact absurd listed (free planId)
  · rcases inv.current planId other b listed copy with current | foreign
    · exact .inl (by simpa [StateRoot.store, same] using current)
    · exact .inr (by simpa [StateRoot.store, same] using foreign)

theorem CopiesCurrent.putBackup {planId id : Text} {b : Bytes} (inv : CopiesCurrent s)
    (stored : s.records id = some b) : CopiesCurrent (s.putBackup planId id b) := by
  refine ⟨inv.named, ?_⟩
  intro planId' other b' listed copy
  by_cases here : planId' = planId ∧ other = id
  · obtain ⟨rfl, rfl⟩ := here
    have same : b = b' := by simpa [StateRoot.putBackup] using copy
    exact .inl (same ▸ stored)
  · refine inv.current planId' other b' listed ?_
    by_cases plan : planId' = planId
    · subst plan
      have different : other ≠ id := fun same => here ⟨rfl, same⟩
      simpa [StateRoot.putBackup, different] using copy
    · simpa [StateRoot.putBackup, plan] using copy

/-- The copies of the migration are of what is stored now. -/
def Saved (planId : Text) (entries : List BackupEntry) (s : StateRoot) : Prop :=
  ∀ e ∈ entries, ∀ b, s.backups planId e.recordId = some b → s.records e.recordId = some b

theorem CopiesCurrent.putManifest {planId : Text} {entries : List BackupEntry}
    (inv : CopiesCurrent s) (saved : Saved planId entries s) :
    CopiesCurrent (s.putManifest planId entries) := by
  refine ⟨inv.named, ?_⟩
  intro planId' id b ⟨waiting, entries', manifest, e, member, named⟩ copy
  by_cases plan : planId' = planId
  · subst plan
    have same : entries = entries' := by simpa [StateRoot.putManifest] using manifest
    subst same named
    exact .inl (saved e member b copy)
  · refine inv.current planId' id b ⟨waiting, entries', ?_, e, member, named⟩ copy
    simpa [StateRoot.putManifest, plan] using manifest

theorem CopiesCurrent.putJournal {planId : Text} {journal : MigrationJournal}
    (inv : CopiesCurrent s) (named : journal.planId = planId) (backup : journal.backupId = planId)
    (saved : incomplete journal = true → ∀ entries, s.manifests planId = some entries →
      Saved planId entries s) :
    CopiesCurrent (s.putJournal planId journal) := by
  have other : ∀ plan, plan ≠ planId → (s.putJournal planId journal).journals.lookup plan =
      s.journals.lookup plan := fun plan different => AList.lookup_insert_ne different
  have here : (s.putJournal planId journal).journals.lookup planId = some journal :=
    AList.lookup_insert _
  refine ⟨?_, ?_⟩
  · intro plan journal' found open_
    by_cases same : plan = planId
    · subst same
      rw [here] at found
      cases found
      exact ⟨named, backup⟩
    · rw [other plan same] at found
      exact inv.named plan journal' found open_
  · intro plan id b ⟨⟨journal', found, open_⟩, entries, manifest, e, member, id'⟩ copy
    by_cases same : plan = planId
    · subst same id'
      rw [here] at found
      cases found
      exact .inl (saved open_ entries manifest e member b copy)
    · rw [other plan same] at found
      exact inv.current plan id b ⟨⟨journal', found, open_⟩, entries, manifest, e, member, id'⟩ copy

end Changes

section Migration

variable {goes : LifecycleAction → Fault LifecycleError → LifecycleWorld → Prop} {p : Nat}
  {c : LifecycleCall J} {preview : StateMigrationPreview} {registry : StateMigrationRegistry J}

/-- The discipline of checked writes. -/
abbrev checked (J : Type) : Discipline Nat (LifecycleCall J) LifecycleWorld :=
  guarded none CopiesCurrent (checkedOnly J)

/-- The process has verified the records as they are stored. -/
def Verified (ids : List Text) (s : StateRoot) (v : Checks) : Prop :=
  ∀ id ∈ ids, v id = some (s.records id)

theorem Verified.store {ids : List Text} {w : LifecycleWorld}
    (verified : Verified ids w.root (w.verified p)) (id : Text) (content : Option Bytes)
    (author : Author) :
    Verified ids (w.store p id content author).root ((w.store p id content author).verified p) := by
  intro other member
  simp only [LifecycleWorld.store, LifecycleWorld.verify, LifecycleWorld.onRoot, StateRoot.store,
    Function.update_self]
  by_cases same : other = id
  · subst same
    simp
  · rw [Function.update_of_ne same, Function.update_of_ne same]
    exact verified other member

/-- A process may write over what it has verified. -/
theorem store_allowed {w : LifecycleWorld} (id : Text) (content : Option Bytes) (author : Author)
    (may : w.root.records id = content ∨ w.root.author id ≠ .repository ∨
      w.verified p id = some (w.root.records id)) :
    (checkedOnly J).allows p c w (w.store p id content author) := by
  intro _ other changed repository
  by_cases same : other = id
  · subst same
    rcases may with unchanged | foreign | verified
    · exact absurd (by simp [LifecycleWorld.store, LifecycleWorld.verify, LifecycleWorld.onRoot,
        StateRoot.store, unchanged]) changed
    · exact absurd repository foreign
    · exact verified
  · exact absurd (by simp [LifecycleWorld.store, LifecycleWorld.verify, LifecycleWorld.onRoot,
      StateRoot.store, same]) changed

theorem rewriteRecords_checked (tag : Text → LifecycleAction)
    (content : MaterializedMigration → Bytes) (ids : List Text) :
    ∀ ms : List MaterializedMigration, (∀ m ∈ ms, m.preview.recordId ∈ ids) →
    Triple (checked J) goes p c (Held p (Verified ids)) (rewriteRecords p preview tag content ms)
      (fun _ => Held p (Verified ids)) (fun _ => Held p (Verified ids))
  | [], _ => held_ret fun _ _ _ h => h
  | m :: ms, members => by
    have rest := rewriteRecords_checked tag content ids ms
      (fun m' there => members m' (List.mem_cons_of_mem _ there))
    unfold rewriteRecords
    split
    · refine Triple.bind ?_ fun _ => rest
      refine held_write nobody_turn (fun w => own_store _ _ _) ?_ ?_ ?_ ?_
      · intro w _ inv verified
        exact ⟨inv.store _ _ (by simp),
          store_allowed _ _ _ (.inr (.inr (verified _ (members m (by simp)))))⟩
      · intro w _ verified
        exact verified.store _ _ _
      · intro _ w _ verified _
        exact verified
      · intro _ w _ verified _
        exact verified.store _ _ _
    · exact rest

/-- The journal of a migration whose copies are current. -/
theorem writeJournal_checked {phase : JournalPhase} {report : Option StateMigrationReport}
    {F : StateRoot → Checks → Prop}
    (saved : phase = .prepared ∨ phase = .applying → ∀ s v, F s v →
      ∀ entries, s.manifests preview.planId = some entries → Saved preview.planId entries s)
    (stays : ∀ s v journal, F s v → F (s.putJournal preview.planId journal) v) :
    Triple (checked J) goes p c (Held p F) (writeJournal preview phase report)
      (fun _ => Held p F) (fun _ => Held p fun _ _ => True) := by
  refine held_write nobody_turn (fun w => own_onRoot _) ?_ ?_ (fun _ _ _ _ _ => trivial)
    fun _ _ _ _ _ => trivial
  · intro w _ inv start
    refine ⟨inv.putJournal rfl rfl fun open_ => saved ?_ _ _ start, ?_⟩
    · simpa [incomplete] using open_
    · exact fun _ id changed => absurd rfl changed
  · intro w _ start
    exact stays _ _ _ start

/-- The records are as they were read, with their copies. -/
structure SavedReads (preview : StateMigrationPreview) (ms : List MaterializedMigration)
    (s : StateRoot) (v : Checks) : Prop where
  verified : Verified (ms.map (·.preview.recordId)) s v
  saved : ∀ entries, s.manifests preview.planId = some entries → Saved preview.planId entries s

theorem writeBackup_checked {ms : List MaterializedMigration}
    (unique : ∀ m ∈ ms, ∀ m' ∈ ms, m.preview.recordId = m'.preview.recordId →
      m.source = m'.source) :
    Triple (checked J) goes p c (Held p fun s v => ∀ m ∈ ms, ReadAs codec m s v)
      (writeBackup codec preview ms) (fun _ => Held p (SavedReads preview ms))
      (fun _ => Held p fun _ _ => True) := by
  have copies : Triple (checked J) goes p c
      (Held p fun s v => (∀ m ∈ ms, ReadAs codec m s v) ∧ Copied preview.planId [] s)
      (writeBackups codec preview ms)
      (fun entries => Held p fun s v => (∀ m ∈ ms, ReadAs codec m s v) ∧
        entries = backupEntries codec ms ∧ Copied preview.planId (ms ++ []) s)
      (fun _ => Held p fun s v => ∀ m ∈ ms, ReadAs codec m s v) := by
    refine writeBackups_held nobody_turn ms unique ?_ ?_ [] ms (by simp) fun _ there => there
    · intro m there w _ inv reads
      exact ⟨inv.putBackup (reads m there).stored, fun _ id changed => absurd rfl changed⟩
    · intro m _ s v reads m' there
      exact (reads m' there).congr rfl
  have saved : ∀ s v, (∀ m ∈ ms, ReadAs codec m s v) → Copied preview.planId ms s →
      Saved preview.planId (backupEntries codec ms) s := by
    intro s v reads copied e member b copy
    obtain ⟨m, there, rfl⟩ := List.mem_map.mp member
    obtain ⟨there, changed⟩ := List.mem_filter.mp there
    rw [copied m there changed] at copy
    exact copy ▸ (reads m there).stored
  refine Triple.bind (held_weaken copies (fun s v _ reads => ⟨reads, by simp [Copied]⟩)
    (fun _ _ _ _ h => h) fun _ _ _ _ _ => trivial) fun entries => ?_
  refine held_write nobody_turn (fun w => own_onRoot _) ?_ ?_ (fun _ _ _ _ _ => trivial)
    fun _ _ _ _ _ => trivial
  · intro w _ inv h
    obtain ⟨reads, all, copied⟩ := h
    rw [List.append_nil] at copied
    subst all
    exact ⟨inv.putManifest (saved _ _ reads copied), fun _ id changed => absurd rfl changed⟩
  · intro w _ h
    obtain ⟨reads, all, copied⟩ := h
    rw [List.append_nil] at copied
    subst all
    refine ⟨?_, ?_⟩
    · intro id member
      obtain ⟨m, there, rfl⟩ := List.mem_map.mp member
      exact (reads m there).verified
    · intro entries manifest
      have same : backupEntries codec ms = entries := by
        simpa [LifecycleWorld.onRoot, StateRoot.putManifest] using manifest
      have current : Saved preview.planId (backupEntries codec ms) w.root := saved _ _ reads copied
      exact same ▸ current

theorem migrateLocked_checked :
    Triple (checked J) goes p c (Held p fun _ _ => True) (migrateLocked codec p preview registry)
      (fun _ => Held p fun _ _ => True) (fun _ => Held p fun _ _ => True) := by
  refine Triple.bind (held_look (Q := fun _ _ _ => True) (fun _ _ _ _ _ => trivial)
    fun _ _ _ _ => trivial) fun found => ?_
  rcases found with _ | report
  · have reads : Triple (checked J) goes p c (Held p fun _ _ => True)
        (materialize codec p preview registry preview.records)
        (fun ms => Held p fun s v => (∀ m ∈ ms, ∀ m' ∈ ms,
          m.preview.recordId = m'.preview.recordId → m.source = m'.source) ∧
          ∀ m ∈ ms, ReadAs codec m s v)
        (fun _ => Held p fun _ _ => True) := by
      refine held_weaken (materialize_held nobody_turn (fun _ _ _ h => h) preview.records)
        (fun _ _ _ h => h) ?_ fun _ _ _ _ _ => trivial
      intro ms s v _ ⟨_, _, reads⟩
      refine ⟨?_, reads⟩
      intro m there m' there' same
      have stored := (reads m there).stored
      rw [same, (reads m' there').stored] at stored
      exact (Option.some.inj stored).symm
    refine Triple.bind reads fun ms => held_pure fun unique => ?_
    have members : ∀ m ∈ ms, m.preview.recordId ∈ ms.map (·.preview.recordId) :=
      fun m there => List.mem_map_of_mem there
    have settle (phase : JournalPhase) (report : Option StateMigrationReport)
        (settled : ¬ (phase = .prepared ∨ phase = .applying)) :
        Triple (checked J) goes p c (Held p (Verified (ms.map (·.preview.recordId))))
          (writeJournal preview phase report) (fun _ => Held p fun _ _ => True)
          (fun _ => Held p fun _ _ => True) :=
      held_weaken (writeJournal_checked (fun open_ => absurd open_ settled) fun _ _ _ h => h)
        (fun _ _ _ h => h) (fun _ _ _ _ _ => trivial) fun _ _ _ _ _ => trivial
    have handler (e : LifecycleError) : Triple (checked J) goes p c
        (Held p (Verified (ms.map (·.preview.recordId)))) (rollBack p preview ms)
        (fun _ => Held p (Verified (ms.map (·.preview.recordId))))
        (fun _ => Held p fun _ _ => True) := by
      refine Triple.bind (Triple.handle (rewriteRecords_checked _ _ _ ms members) fun _ =>
        held_ret (Q := fun _ => Verified (ms.map (·.preview.recordId))) fun _ _ _ h => h) fun _ => ?_
      exact Triple.bind (settle _ _ (by simp)) fun _ => held_raise fun _ _ _ _ => trivial
    have journal (phase : JournalPhase) : Triple (checked J) goes p c
        (Held p (SavedReads preview ms)) (writeJournal preview phase none)
        (fun _ => Held p (SavedReads preview ms)) (fun _ => Held p fun _ _ => True) :=
      writeJournal_checked (fun _ _ _ h => h.saved) fun _ _ _ h => ⟨h.verified, h.saved⟩
    refine Triple.bind (writeBackup_checked unique) fun _ => Triple.bind (journal _) fun _ =>
      Triple.bind (journal _) fun _ => ?_
    refine Triple.bind (held_weaken (Triple.handle (rewriteRecords_checked _ _ _ ms members) handler)
      (fun _ _ _ h => h.verified) (fun _ _ _ _ h => h) fun _ _ _ _ h => h) fun _ => ?_
    exact Triple.bind (settle _ _ (by simp)) fun _ => held_ret fun _ _ _ _ => trivial
  · exact held_ret fun _ _ _ _ => trivial

end Migration

section Recovery

variable {goes : LifecycleAction → Fault LifecycleError → LifecycleWorld → Prop} {p : Nat}
  {c : LifecycleCall J}

/-- The migration waits for recovery, with this manifest. -/
def Recovering (planId : Text) (entries : List BackupEntry) (s : StateRoot) (_ : Checks) : Prop :=
  Waiting s planId ∧ s.manifests planId = some entries

theorem restoreEntries_checked (planId : Text) (all : List BackupEntry) :
    ∀ entries : List BackupEntry, (∀ e ∈ entries, e ∈ all) →
    Triple (checked J) goes p c (Held p (Recovering planId all))
      (restoreEntries codec p planId planId entries) (fun _ => Held p (Recovering planId all))
      (fun _ => Held p fun _ _ => True)
  | [], _ => held_ret fun _ _ _ h => h
  | e :: entries, members => by
    refine Triple.bind readBackup_held fun bytes => held_pure fun _ => ?_
    refine Triple.bind ?_ fun _ => restoreEntries_checked planId all entries fun e' there =>
      members e' (List.mem_cons_of_mem _ there)
    refine held_write nobody_turn (fun w => own_store _ _ _) ?_ ?_ (fun _ _ _ _ _ => trivial)
      fun _ _ _ _ _ => trivial
    · intro w _ inv ⟨copy, waiting, manifest⟩
      refine ⟨inv.store _ _ (by simp), store_allowed _ _ _ ?_⟩
      have listed : ListedBy w.root planId e.recordId :=
        ⟨waiting, all, manifest, e, members e (by simp), rfl⟩
      rcases inv.current planId e.recordId bytes listed copy with current | foreign
      · exact .inl current
      · exact .inr (.inl foreign)
    · intro w _ ⟨_, waiting⟩
      exact waiting

theorem restoreBackup_checked {planId : Text} {journal : MigrationJournal}
    (named : journal.planId = planId) (backup : journal.backupId = planId) :
    Triple (checked J) goes p c (Held p fun s _ => Waiting s planId)
      (restoreBackup codec p journal) (fun _ => Held p fun _ _ => True)
      (fun _ => Held p fun _ _ => True) := by
  have manifest : Triple (checked J) goes p c (Held p fun s _ => Waiting s planId)
      (readManifest journal.backupId)
      (fun entries => Held p (Recovering planId entries)) (fun _ => Held p fun _ _ => True) := by
    refine held_look ?_ fun _ _ _ _ => trivial
    intro w entries _ waiting seen
    refine ⟨waiting, ?_⟩
    rw [backup] at seen
    split at seen
    · cases seen
    · cases seen
      assumption
  refine Triple.bind manifest fun entries => ?_
  rw [named, backup]
  refine Triple.bind (restoreEntries_checked planId entries entries fun _ there => there) fun _ => ?_
  refine held_write nobody_turn (fun w => own_onRoot _) ?_ (fun _ _ _ => trivial)
    (fun _ _ _ _ _ => trivial) fun _ _ _ _ _ => trivial
  intro w _ inv _
  refine ⟨inv.putJournal rfl rfl fun open_ => ?_, fun _ id changed => absurd rfl changed⟩
  cases open_

/-- Recovery finds each migration that it acts on still waiting. -/
def FoundWaiting (goes : LifecycleAction → Fault LifecycleError → LifecycleWorld → Prop) : Prop :=
  ∀ planId w, goes (.lock "recover".toList planId) .done w → Waiting w.root planId

theorem recoverAll_checked (found : FoundWaiting goes) : ∀ planIds : List Text,
    Triple (checked J) goes p c (Outside none p fun _ => True) (recoverAll codec p planIds)
      (fun _ => Outside none p fun _ => True) (fun _ => Outside none p fun _ => True)
  | [] => outside_ret fun _ _ h => h
  | planId :: rest => by
    have ih := recoverAll_checked found rest
    have read : Triple (checked J) goes p c (Outside none p fun _ => True) (readJournal planId)
        (fun journal w => (incomplete journal = true → journal.planId = planId ∧
          journal.backupId = planId) ∧ Outside none p (fun _ => True) w)
        (fun _ => Outside none p fun _ => True) := by
      refine outside_look ?_
      intro w journal inv _ seen
      refine ⟨fun open_ => ?_, fun _ => trivial⟩
      cases there : w.root.journals.lookup planId with
      | none =>
        rw [there] at seen
        cases seen
      | some journal' =>
        rw [there] at seen
        cases seen
        exact inv.named planId _ there open_
    refine Triple.bind read fun journal => Triple.of_pure fun known => ?_
    split
    · rename_i open_
      obtain ⟨named, backup⟩ := known open_
      refine Triple.bind (locked nobody_turn ?_ (restoreBackup_checked named backup)) fun _ =>
        Triple.bind ih fun _ => outside_ret fun _ _ h => h
      intro w _ _ allowed
      rw [named] at allowed
      exact found planId w allowed
    · exact ih

theorem recover_checked (found : FoundWaiting goes) :
    Triple (checked J) goes p c (Outside none p fun _ => True) (recoverIncompleteMigrations codec p)
      (fun _ => Outside none p fun _ => True) (fun _ => Outside none p fun _ => True) := by
  refine Triple.bind (outside_look (B := fun _ => True) (K := fun _ _ => True)
    fun _ _ _ _ _ => ⟨trivial, fun _ => trivial⟩) fun planIds => ?_
  exact Triple.of_pure fun _ => recoverAll_checked found planIds

end Recovery

section Cleanup

variable {goes : LifecycleAction → Fault LifecycleError → LifecycleWorld → Prop} {p : Nat}
  {c : LifecycleCall J} {preview : StateCleanupPreview}

theorem writeCleanupJournal_checked {phase : JournalPhase} {report : Option StateCleanupReport}
    {ids : List Text} :
    Triple (checked J) goes p c (Held p (Verified ids)) (writeCleanupJournal preview phase report)
      (fun _ => Held p (Verified ids)) (fun _ => Held p fun _ _ => True) := by
  refine held_write nobody_turn (fun w => own_onRoot _) ?_ (fun _ _ verified => verified)
    (fun _ _ _ _ _ => trivial) fun _ _ _ _ _ => trivial
  intro w _ inv _
  exact ⟨⟨inv.named, inv.current⟩, fun _ id changed => absurd rfl changed⟩

theorem inspect_checked {item : StateCleanupCandidate} {moved : List Text} :
    Triple (checked J) goes p c (Held p (Verified moved)) (inspect codec p preview item)
      (fun there => Held p (Verified (if there then item.recordId :: moved else moved)))
      (fun _ => Held p (Verified moved)) := by
  have stays : ∀ (s : StateRoot) (v : Checks), Verified moved s v →
      Verified (item.recordId :: moved) s
        (Function.update v item.recordId (some (s.records item.recordId))) := by
    intro s v verified id member
    by_cases same : id = item.recordId
    · rw [same, Function.update_self]
    · rw [Function.update_of_ne same]
      exact verified id ((List.mem_cons.mp member).resolve_left same)
  refine held_verify nobody_turn ?_ ?_ ?_ ?_ fun _ _ _ verified => verified
  · intro w
    split <;> rfl
  · intro w
    split
    · exact own_verify _ _
    · exact Own.refl p w
  · intro w there _ verified seen
    rw [seen]
    cases there with
    | true =>
      simp only [LifecycleWorld.verify, Function.update_self]
      exact stays _ _ verified
    | false => exact verified
  · intro e w _ verified seen
    rw [seen]
    exact verified

theorem Verified.mono {ids ids' : List Text} {s : StateRoot} {v : Checks} (verified : Verified ids s v)
    (subset : ∀ id ∈ ids', id ∈ ids) : Verified ids' s v :=
  fun id member => verified id (subset id member)

theorem moveOut_checked {item : StateCleanupCandidate} {moved : List Text} :
    Triple (checked J) goes p c (Held p (Verified (item.recordId :: moved))) (moveOut p preview item)
      (fun _ => Held p (Verified (item.recordId :: moved))) (fun _ => Held p (Verified moved)) := by
  refine held_perform nobody_turn (fun w => ⟨rfl, rfl, (own_verify _ _).checks⟩) ?_ ?_ ?_ ?_
  · intro w _ inv verified
    have stored : CopiesCurrent (w.root.store item.recordId none (.cleanup preview.planId)) :=
      inv.store _ _ (by simp)
    refine ⟨⟨stored.named, stored.current⟩, ?_⟩
    exact store_allowed item.recordId none (.cleanup preview.planId)
      (.inr (.inr (verified item.recordId (by simp))))
  · intro w _ verified
    exact verified.store item.recordId none (.cleanup preview.planId)
  · intro _ w _ verified _
    exact verified.mono fun id member => List.mem_cons_of_mem _ member
  · intro may
    cases may

theorem moveBack_checked {id : Text} {moved : List Text} (member : id ∈ moved) :
    Triple (checked J) goes p c (Held p (Verified moved)) (moveBack p preview id)
      (fun _ => Held p (Verified moved)) (fun _ => Held p fun _ _ => True) := by
  refine held_perform nobody_turn ?_ ?_ ?_ (fun _ _ _ _ _ => trivial) fun _ _ _ _ _ _ => trivial
  · intro w
    simp only
    split
    · exact Own.refl p w
    · exact ⟨rfl, rfl, (own_verify _ _).checks⟩
  · intro w _ inv verified
    simp only
    split
    · exact ⟨inv, (checkedOnly J).locks p c _ _ rfl⟩
    · have stored : CopiesCurrent (w.root.store id (w.root.trash preview.planId id)
          (.cleanup preview.planId)) := inv.store _ _ (by simp)
      refine ⟨⟨stored.named, stored.current⟩, ?_⟩
      exact store_allowed id (w.root.trash preview.planId id) (.cleanup preview.planId)
        (.inr (.inr (verified id member)))
  · intro w _ verified
    simp only
    split
    · exact verified
    · rename_i data there
      have stored := verified.store id (w.root.trash preview.planId id) (.cleanup preview.planId)
      rw [there.symm]
      exact stored

theorem putBack_checked : ∀ ids moved : List Text, (∀ id ∈ ids, id ∈ moved) →
    Triple (checked J) goes p c (Held p (Verified moved)) (putBack p preview ids)
      (fun _ => Held p (Verified moved)) (fun _ => Held p fun _ _ => True)
  | [], _, _ => held_ret fun _ _ _ h => h
  | id :: ids, moved, subset =>
    Triple.bind (moveBack_checked (subset id (by simp))) fun _ =>
      putBack_checked ids moved fun id' member => subset id' (List.mem_cons_of_mem _ member)

theorem moveCandidates_checked : ∀ (items : List StateCleanupCandidate) (moved : List Text),
    Triple (checked J) goes p c (Held p (Verified moved)) (moveCandidates codec p preview moved items)
      (fun r => Held p (Verified r.1)) (fun _ => Held p fun _ _ => True)
  | [], _ => held_ret fun _ _ _ h => h
  | item :: items, moved => by
    have one : Triple (checked J) goes p c (Held p (Verified moved))
        (do
          let there ← inspect codec p preview item
          if there then moveOut p preview item
          pure there)
        (fun there => Held p (Verified (if there then item.recordId :: moved else moved)))
        (fun _ => Held p (Verified moved)) := by
      refine Triple.bind inspect_checked fun there => ?_
      cases there with
      | true => exact Triple.bind moveOut_checked fun _ => held_ret fun _ _ _ h => h
      | false => exact held_ret fun _ _ _ h => h
    refine held_attempt one (fun there => ?_) fun e => held_ret fun _ _ _ h => h
    cases there with
    | true => exact moveCandidates_checked items (item.recordId :: moved)
    | false => exact moveCandidates_checked items moved

theorem cleanupLocked_checked :
    Triple (checked J) goes p c (Held p fun _ _ => True) (cleanupLocked codec p preview)
      (fun _ => Held p fun _ _ => True) (fun _ => Held p fun _ _ => True) := by
  refine Triple.bind (held_look (Q := fun _ _ _ => True) (fun _ _ _ _ _ => trivial)
    fun _ _ _ _ => trivial) fun found => ?_
  rcases found with _ | report
  · refine Triple.bind (Q := fun _ => Held p (Verified [])) (held_weaken writeCleanupJournal_checked
      (fun _ _ _ _ => by simp [Verified]) (fun _ _ _ _ h => h) fun _ _ _ _ h => h) fun _ => ?_
    refine Triple.bind (moveCandidates_checked preview.candidates []) fun r => ?_
    rcases r with ⟨moved, _ | e⟩
    · exact Triple.bind writeCleanupJournal_checked fun _ => held_ret fun _ _ _ _ => trivial
    · refine Triple.bind (putBack_checked moved moved fun _ member => member) fun _ => ?_
      exact Triple.bind writeCleanupJournal_checked fun _ => held_raise fun _ _ _ _ => trivial
  · exact held_ret fun _ _ _ _ => trivial


end Cleanup

end Lifecycle

end RepoForge
