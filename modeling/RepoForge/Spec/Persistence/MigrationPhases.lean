import RepoForge.Spec.Persistence.MigrationReads

/-!
# The phases of a migration

The invariant of one migration (`MigrationInv`): what the phase of its journal says about the
records, and that the backup can bring back the source while the journal is incomplete. Bytes are
known by the checksums of the preview. `applyMigration_outside` and `recover_outside` say that
both calls keep it, under the lock discipline; `strict` is whether a rolled back journal is to
mean the source of every record, which takes a handler whose own writes do not fail.
-/
namespace RepoForge

open Scripts

namespace Lifecycle

variable {J : Type} (codec : LifecycleCodec J) (preview : StateMigrationPreview)

/-- The record is there, with this checksum. -/
def HasSum (s : StateRoot) (id digest : Text) : Prop :=
  ∃ b, s.records id = some b ∧ codec.sha256 b = digest

def AllSource (s : StateRoot) : Prop :=
  ∀ item ∈ preview.records, HasSum codec s item.recordId item.sourceChecksum

def AllTarget (s : StateRoot) : Prop :=
  ∀ item ∈ preview.records, HasSum codec s item.recordId item.targetChecksum

def phaseOf (s : StateRoot) : Option JournalPhase :=
  (s.journals.lookup preview.planId).map (·.phase)

/-- The phases that recovery acts on. -/
def Unsettled (phase : Option JournalPhase) : Prop :=
  phase = some .prepared ∨ phase = some .applying

/-- Entries for one record agree, and a record marked as unchanged has the same source and
target. -/
structure Coherent : Prop where
  source : ∀ a ∈ preview.records, ∀ b ∈ preview.records, a.recordId = b.recordId →
    a.sourceChecksum = b.sourceChecksum
  target : ∀ a ∈ preview.records, ∀ b ∈ preview.records, a.recordId = b.recordId →
    a.targetChecksum = b.targetChecksum
  truthful : ∀ a ∈ preview.records, a.changed = false → a.sourceChecksum = a.targetChecksum

/-- The manifest lists the changed records, each with a copy of its source. -/
structure Listed (entries : List BackupEntry) (s : StateRoot) : Prop where
  complete : ∀ item ∈ preview.records, item.changed = true →
    ∃ e ∈ entries, e.recordId = item.recordId
  sound : ∀ e ∈ entries, ∃ item ∈ preview.records, e.recordId = item.recordId ∧
    e.sourceChecksum = item.sourceChecksum
  copies : ∀ e ∈ entries, safeRecordId e.recordId = true ∧
    ∃ b, s.backups preview.planId e.recordId = some b ∧ codec.sha256 b = e.sourceChecksum

structure Between (s : StateRoot) : Prop where
  mixed : ∀ item ∈ preview.records, HasSum codec s item.recordId item.sourceChecksum ∨
    HasSum codec s item.recordId item.targetChecksum
  restorable : ∃ entries, s.manifests preview.planId = some entries ∧ Listed codec preview entries s

/-- What the phase of the journal says. -/
def Meant (strict : Bool) (phase : JournalPhase) (s : StateRoot) : Prop :=
  match phase with
  | .committed => AllTarget codec preview s
  | .rolledBack => strict = true → AllSource codec preview s
  | .prepared | .applying => Between codec preview s

structure MigrationInv (strict : Bool) (s₀ s : StateRoot) : Prop where
  others : ∀ id, (∀ item ∈ preview.records, item.recordId ≠ id) → s.records id = s₀.records id
  alone : ∀ planId journal, planId ≠ preview.planId → s.journals.lookup planId = some journal →
    incomplete journal = false
  named : ∀ journal, s.journals.lookup preview.planId = some journal → incomplete journal = true →
    journal.planId = preview.planId ∧ journal.backupId = preview.planId
  committed : phaseOf preview s = some .committed → AllTarget codec preview s
  settled : strict = true → phaseOf preview s = none ∨ phaseOf preview s = some .rolledBack →
    AllSource codec preview s
  between : Unsettled (phaseOf preview s) → Between codec preview s

variable {codec preview} {strict : Bool} {s₀ s : StateRoot}

theorem unsettled_iff {journal : MigrationJournal}
    (found : s.journals.lookup preview.planId = some journal) :
    Unsettled (phaseOf preview s) ↔ incomplete journal = true := by
  simp [Unsettled, phaseOf, found, incomplete]

theorem Listed.congr {entries : List BackupEntry} {t : StateRoot}
    (listed : Listed codec preview entries s) (same : t.backups = s.backups) :
    Listed codec preview entries t :=
  ⟨listed.complete, listed.sound, by rw [same]; exact listed.copies⟩

section Changes

variable (coherent : Coherent preview)

theorem hasSum_store {id id' digest : Text} {b : Bytes} {author : Author}
    (new : id = id' → codec.sha256 b = digest) (old : id ≠ id' → HasSum codec s id digest) :
    HasSum codec (s.store id' (some b) author) id digest := by
  by_cases same : id = id'
  · subst same
    exact ⟨b, by simp [StateRoot.store], new rfl⟩
  · obtain ⟨b', there, sum⟩ := old same
    exact ⟨b', by simp [StateRoot.store, same, there], sum⟩

include coherent in
/-- While the journal is incomplete a record may get its source or its target. -/
theorem MigrationInv.store {item : StateMigrationRecordPreview} {b : Bytes} {author : Author}
    (inv : MigrationInv codec preview strict s₀ s) (open_ : Unsettled (phaseOf preview s))
    (member : item ∈ preview.records)
    (sum : codec.sha256 b = item.sourceChecksum ∨ codec.sha256 b = item.targetChecksum) :
    MigrationInv codec preview strict s₀ (s.store item.recordId (some b) author) := by
  have between := inv.between open_
  refine ⟨?_, inv.alone, inv.named, ?_, ?_, ?_⟩
  · intro id outside
    rw [← inv.others id outside]
    simp [StateRoot.store, (outside item member).symm]
  · intro committed
    rcases open_ with phase | phase <;>
      exact absurd (committed.symm.trans phase) (by simp)
  · intro _ settled
    rcases open_ with phase | phase <;> rcases settled with other | other <;>
      exact absurd (other.symm.trans phase) (by simp)
  · intro _
    obtain ⟨entries, manifest, listed⟩ := between.restorable
    refine ⟨?_, entries, manifest, listed.congr rfl⟩
    intro other member'
    by_cases same : other.recordId = item.recordId
    · rcases sum with sum | sum
      · refine .inl (hasSum_store (fun _ => ?_) fun different => absurd same different)
        rw [sum, coherent.source item member other member' same.symm]
      · refine .inr (hasSum_store (fun _ => ?_) fun different => absurd same different)
        rw [sum, coherent.target item member other member' same.symm]
    · rcases between.mixed other member' with there | there
      · exact .inl (hasSum_store (fun same' => absurd same' same) fun _ => there)
      · exact .inr (hasSum_store (fun same' => absurd same' same) fun _ => there)

include coherent in
theorem MigrationInv.putBackup {item : StateMigrationRecordPreview} {b : Bytes}
    (inv : MigrationInv codec preview strict s₀ s) (member : item ∈ preview.records)
    (sum : codec.sha256 b = item.sourceChecksum) :
    MigrationInv codec preview strict s₀ (s.putBackup preview.planId item.recordId b) := by
  refine ⟨inv.others, inv.alone, inv.named, inv.committed, inv.settled, ?_⟩
  intro open_
  obtain ⟨mixed, entries, manifest, listed⟩ := inv.between open_
  refine ⟨mixed, entries, manifest, listed.complete, listed.sound, ?_⟩
  intro e there
  obtain ⟨safe, copy, stored, copySum⟩ := listed.copies e there
  refine ⟨safe, ?_⟩
  simp only [StateRoot.putBackup, Function.update_self]
  by_cases same : e.recordId = item.recordId
  · obtain ⟨item', member', named, sum'⟩ := listed.sound e there
    refine ⟨b, by rw [same, Function.update_self], ?_⟩
    rw [sum, sum', coherent.source item member item' member' (same.symm.trans named)]
  · exact ⟨copy, by rw [Function.update_of_ne same]; exact stored, copySum⟩

theorem MigrationInv.putManifest {entries : List BackupEntry}
    (inv : MigrationInv codec preview strict s₀ s) (listed : Listed codec preview entries s) :
    MigrationInv codec preview strict s₀ (s.putManifest preview.planId entries) := by
  refine ⟨inv.others, inv.alone, inv.named, inv.committed, inv.settled, ?_⟩
  intro open_
  exact ⟨(inv.between open_).mixed, entries, by simp [StateRoot.putManifest], listed.congr rfl⟩

theorem phaseOf_putJournal {journal : MigrationJournal} :
    phaseOf preview (s.putJournal preview.planId journal) = some journal.phase := by
  simp [phaseOf, StateRoot.putJournal]

/-- A phase may be written where what it says holds. -/
theorem MigrationInv.putJournal {journal : MigrationJournal}
    (inv : MigrationInv codec preview strict s₀ s) (planId : journal.planId = preview.planId)
    (backupId : journal.backupId = preview.planId)
    (meant : Meant codec preview strict journal.phase s) :
    MigrationInv codec preview strict s₀ (s.putJournal preview.planId journal) := by
  refine ⟨inv.others, ?_, ?_, ?_, ?_, ?_⟩
  · intro other journal' different there
    refine inv.alone other journal' different ?_
    rw [← there]
    exact (AList.lookup_insert_ne different).symm
  · intro journal' there _
    have found : (s.putJournal preview.planId journal).journals.lookup preview.planId =
        some journal := by simp [StateRoot.putJournal]
    rw [found] at there
    cases there
    exact ⟨planId, backupId⟩
  · intro phase
    rw [phaseOf_putJournal] at phase
    rw [Option.some.inj phase] at meant
    exact meant
  · intro on phase
    rw [phaseOf_putJournal] at phase
    rcases phase with phase | phase
    · cases phase
    · rw [Option.some.inj phase] at meant
      exact meant on
  · intro open_
    rw [phaseOf_putJournal] at open_
    have holds : Between codec preview s := by
      rcases open_ with phase | phase <;> rw [Option.some.inj phase] at meant <;> exact meant
    obtain ⟨entries, manifest, listed⟩ := holds.restorable
    exact ⟨holds.mixed, entries, manifest, listed.congr rfl⟩

end Changes

/-- A committed journal stays committed. -/
def keepsCommitted (J : Type) (preview : StateMigrationPreview) : StepRule J where
  allows _ _ w w' := phaseOf preview w.root = some .committed →
    phaseOf preview w'.root = some .committed
  locks _ _ s t same := by rw [same]; exact id

section Applying

variable {solo : Option Nat}
  {goes : LifecycleAction → Fault LifecycleError → LifecycleWorld → Prop} {p : Nat}
  {c : LifecycleCall J} {registry : StateMigrationRegistry J}

/-- The discipline of one migration. -/
abbrev migrating (codec : LifecycleCodec J) (preview : StateMigrationPreview) (solo : Option Nat)
    (strict : Bool) (s₀ : StateRoot) : Discipline Nat (LifecycleCall J) LifecycleWorld :=
  guarded solo (MigrationInv codec preview strict s₀) (keepsCommitted J preview)

/-- What the loops over the records need of the content they write. -/
structure Writes (codec : LifecycleCodec J) (preview : StateMigrationPreview)
    (digest : StateMigrationRecordPreview → Text) (content : MaterializedMigration → Bytes)
    (ms : List MaterializedMigration) : Prop where
  member : ∀ m ∈ ms, m.preview ∈ preview.records
  sum : ∀ m ∈ ms, codec.sha256 (content m) = digest m.preview
  either : ∀ item, digest item = item.sourceChecksum ∨ digest item = item.targetChecksum
  agrees : ∀ a ∈ preview.records, ∀ b ∈ preview.records, a.recordId = b.recordId →
    digest a = digest b
  unchanged : ∀ a ∈ preview.records, a.changed = false →
    a.sourceChecksum = digest a ∧ a.targetChecksum = digest a

theorem rewriteRecords_held (turn : Turn solo p) (coherent : Coherent preview)
    {digest : StateMigrationRecordPreview → Text} {content : MaterializedMigration → Bytes}
    {tag : Text → LifecycleAction} {B : Prop}
    (faults : ∀ id e w, goes (tag id) (.before e) w ∨ goes (tag id) (.after e) w → B) :
    ∀ ms : List MaterializedMigration, Writes codec preview digest content ms →
    Triple (migrating codec preview solo strict s₀) goes p c
      (Held p fun s _ => Unsettled (phaseOf preview s) ∧ ∀ item ∈ preview.records,
        item ∈ ms.map (·.preview) ∨ HasSum codec s item.recordId (digest item))
      (rewriteRecords p preview tag content ms)
      (fun _ => Held p fun s _ => Unsettled (phaseOf preview s) ∧
        ∀ item ∈ preview.records, HasSum codec s item.recordId (digest item))
      (fun _ => Held p fun s _ => B ∧ Unsettled (phaseOf preview s))
  | [], _ => held_ret fun s v _ h => ⟨h.1, fun item member => (h.2 item member).elim
      (fun absent => absurd absent List.not_mem_nil) id⟩
  | m :: ms, writes => by
    have member := writes.member m (by simp)
    have sum := writes.sum m (by simp)
    have later : Writes codec preview digest content ms :=
      ⟨fun m' there => writes.member m' (List.mem_cons_of_mem _ there),
        fun m' there => writes.sum m' (List.mem_cons_of_mem _ there), writes.either, writes.agrees,
        writes.unchanged⟩
    have rest := rewriteRecords_held turn coherent faults ms later
    unfold rewriteRecords
    by_cases changed : m.preview.changed = true
    · rw [if_pos changed]
      refine Triple.bind (Q := fun _ => Held p fun s _ => Unsettled (phaseOf preview s) ∧
        ∀ item ∈ preview.records, item ∈ ms.map (·.preview) ∨
          HasSum codec s item.recordId (digest item)) ?_ fun _ => rest
      refine held_write turn (fun w => own_store _ _ _) ?_ ?_ ?_ ?_
      · intro w _ inv h
        refine ⟨inv.store coherent h.1 member ?_, id⟩
        rcases writes.either m.preview with same | same
        · exact .inl (sum.trans same)
        · exact .inr (sum.trans same)
      · intro w _ h
        refine ⟨h.1, fun item there => ?_⟩
        rcases h.2 item there with waiting | done
        · rcases List.mem_cons.mp waiting with rfl | waiting
          · exact .inr (hasSum_store (fun _ => sum) fun different => absurd rfl different)
          · exact .inl waiting
        · refine .inr (hasSum_store (fun same => ?_) fun _ => done)
          rw [sum, writes.agrees m.preview member item there same.symm]
      · intro e w _ h allowed
        exact ⟨faults _ e w (.inl allowed), h.1⟩
      · intro e w _ h allowed
        exact ⟨faults _ e w (.inr allowed), h.1⟩
    · rw [if_neg changed]
      refine held_weaken rest ?_ (fun _ _ _ _ h => h) fun _ _ _ _ h => h
      intro s v inv h
      refine ⟨h.1, fun item there => ?_⟩
      rcases h.2 item there with waiting | done
      · rcases List.mem_cons.mp waiting with rfl | waiting
        · obtain ⟨source, target⟩ := writes.unchanged m.preview member (by simpa using changed)
          rcases (inv.between h.1).mixed m.preview member with same | same
          · exact .inr (source ▸ same)
          · exact .inr (target ▸ same)
        · exact .inl waiting
      · exact .inr done

theorem writeJournal_held (turn : Turn solo p) {phase : JournalPhase}
    {report : Option StateMigrationReport} {F : StateRoot → Checks → Prop}
    (ready : ∀ s v, MigrationInv codec preview strict s₀ s → F s v →
      phaseOf preview s ≠ some .committed ∧ Meant codec preview strict phase s) :
    Triple (migrating codec preview solo strict s₀) goes p c (Held p F)
      (writeJournal preview phase report)
      (fun _ => Held p fun s _ => phaseOf preview s = some phase)
      (fun _ => Held p fun _ _ => True) := by
  refine held_write turn (fun w => own_onRoot _) ?_ ?_ ?_ ?_
  · intro w _ inv h
    obtain ⟨fresh, meant⟩ := ready _ _ inv h
    exact ⟨inv.putJournal rfl rfl meant, fun committed => absurd committed fresh⟩
  · intro w _ _
    exact phaseOf_putJournal
  · intro e w _ _ _
    trivial
  · intro e w _ _ _
    trivial

theorem phase_unsettled {phase : Option JournalPhase} (open_ : Unsettled phase) :
    phase ≠ some .committed := by
  rcases open_ with rfl | rfl <;> simp

/-- The records are as they were read, and the migration is not committed. -/
def Fresh (codec : LifecycleCodec J) (preview : StateMigrationPreview)
    (ms : List MaterializedMigration) (s : StateRoot) (v : Checks) : Prop :=
  phaseOf preview s ≠ some .committed ∧ ∀ m ∈ ms, ReadAs codec m s v

theorem Fresh.allSource {ms : List MaterializedMigration} {v : Checks}
    (fresh : Fresh codec preview ms s v) (named : ms.map (·.preview) = preview.records) :
    AllSource codec preview s := by
  intro item member
  rw [← named] at member
  obtain ⟨m, there, rfl⟩ := List.mem_map.mp member
  exact ⟨m.source, (fresh.2 m there).stored, (fresh.2 m there).source⟩

theorem listed_of_copied {ms : List MaterializedMigration} {v : Checks}
    (named : ms.map (·.preview) = preview.records) (reads : ∀ m ∈ ms, ReadAs codec m s v)
    (copied : Copied preview.planId ms s) :
    Listed codec preview (backupEntries codec ms) s := by
  have entry : ∀ e ∈ backupEntries codec ms, ∃ m ∈ ms, m.preview.changed = true ∧
      e.recordId = m.preview.recordId ∧ e.sourceChecksum = codec.sha256 m.source := by
    intro e member
    obtain ⟨m, there, rfl⟩ := List.mem_map.mp member
    obtain ⟨there, changed⟩ := List.mem_filter.mp there
    exact ⟨m, there, changed, rfl, rfl⟩
  refine ⟨?_, ?_, ?_⟩
  · intro item member changed
    rw [← named] at member
    obtain ⟨m, there, rfl⟩ := List.mem_map.mp member
    exact ⟨_, List.mem_map.mpr ⟨m, List.mem_filter.mpr ⟨there, changed⟩, rfl⟩, rfl⟩
  · intro e member
    obtain ⟨m, there, _, id, sum⟩ := entry e member
    refine ⟨m.preview, named ▸ List.mem_map_of_mem there, id, ?_⟩
    rw [sum, (reads m there).source]
  · intro e member
    obtain ⟨m, there, changed, id, sum⟩ := entry e member
    rw [id, sum]
    exact ⟨(reads m there).safe, m.source, copied m there changed, rfl⟩

theorem writeBackup_held (turn : Turn solo p) (coherent : Coherent preview)
    {ms : List MaterializedMigration} (named : ms.map (·.preview) = preview.records)
    (unique : ∀ m ∈ ms, ∀ m' ∈ ms, m.preview.recordId = m'.preview.recordId → m.source = m'.source)
    (sums : ∀ m ∈ ms, codec.sha256 m.source = m.preview.sourceChecksum) :
    Triple (migrating codec preview solo strict s₀) goes p c (Held p (Fresh codec preview ms))
      (writeBackup codec preview ms)
      (fun _ => Held p fun s _ => phaseOf preview s ≠ some .committed ∧ Between codec preview s)
      (fun _ => Held p fun _ _ => True) := by
  have records : ∀ m ∈ ms, m.preview ∈ preview.records :=
    fun m there => named ▸ List.mem_map_of_mem there
  have copies : Triple (migrating codec preview solo strict s₀) goes p c
      (Held p fun s v => Fresh codec preview ms s v ∧ Copied preview.planId [] s)
      (writeBackups codec preview ms)
      (fun entries => Held p fun s v => Fresh codec preview ms s v ∧
        entries = backupEntries codec ms ∧ Copied preview.planId (ms ++ []) s)
      (fun _ => Held p (Fresh codec preview ms)) := by
    refine writeBackups_held turn ms unique ?_ ?_ [] ms (by simp) fun _ there => there
    · intro m there w _ inv _
      exact ⟨inv.putBackup coherent (records m there) (sums m there), id⟩
    · intro m _ s v fresh
      exact ⟨fresh.1, fun m' there => (fresh.2 m' there).congr rfl⟩
  refine Triple.bind (held_weaken copies ?_ (fun _ _ _ _ h => h) fun _ _ _ _ _ => trivial)
    fun entries => ?_
  · exact fun s v _ fresh => ⟨fresh, by simp [Copied]⟩
  · refine held_write turn (fun w => own_onRoot _) ?_ ?_ (fun _ _ _ _ _ => trivial)
      fun _ _ _ _ _ => trivial
    · intro w _ inv h
      obtain ⟨fresh, all, copied⟩ := h
      rw [List.append_nil] at copied
      subst all
      exact ⟨inv.putManifest (listed_of_copied named fresh.2 copied), id⟩
    · intro w _ h
      obtain ⟨fresh, all, copied⟩ := h
      rw [List.append_nil] at copied
      subst all
      refine ⟨fresh.1, fun item member => .inl (fresh.allSource named item member),
        backupEntries codec ms, ?_, (listed_of_copied named fresh.2 copied).congr rfl⟩
      simp [LifecycleWorld.onRoot, StateRoot.putManifest]

/-- The handler may fail only where a rolled back journal promises nothing. -/
def Quiet (strict : Bool) (preview : StateMigrationPreview)
    (goes : LifecycleAction → Fault LifecycleError → LifecycleWorld → Prop) : Prop :=
  ∀ id e w, goes (.restoreRecord preview.planId id) (.before e) w ∨
    goes (.restoreRecord preview.planId id) (.after e) w → strict = false

section Locked

variable (turn : Turn solo p) (coherent : Coherent preview) (quiet : Quiet strict preview goes)
  {ms : List MaterializedMigration} (named : ms.map (·.preview) = preview.records)

include turn coherent quiet named

theorem rollBack_held (sums : ∀ m ∈ ms, codec.sha256 m.source = m.preview.sourceChecksum)
    {R : Unit → StateRoot → Checks → Prop} :
    Triple (migrating codec preview solo strict s₀) goes p c
      (Held p fun s _ => Unsettled (phaseOf preview s)) (rollBack p preview ms)
      (fun a => Held p (R a)) (fun _ => Held p fun _ _ => True) := by
  have writes : Writes codec preview (·.sourceChecksum) (·.source) ms :=
    ⟨fun m there => named ▸ List.mem_map_of_mem there, sums, fun _ => .inl rfl, coherent.source,
      fun item there same => ⟨rfl, (coherent.truthful item there same).symm⟩⟩
  have restored : Triple (migrating codec preview solo strict s₀) goes p c
      (Held p fun s _ => Unsettled (phaseOf preview s))
      ((restoreMaterialized p preview ms).handle fun _ => pure ())
      (fun _ => Held p fun s _ => Unsettled (phaseOf preview s) ∧
        (strict = true → AllSource codec preview s))
      (fun _ => Held p fun _ _ => True) := by
    refine Triple.handle (held_weaken (rewriteRecords_held turn coherent quiet ms writes) ?_ ?_
      fun _ _ _ _ h => h) fun _ => ?_
    · intro s v _ open_
      exact ⟨open_, fun item there => .inl (named ▸ there)⟩
    · intro _ s v _ h
      exact ⟨h.1, fun _ => h.2⟩
    · refine held_ret fun s v _ h => ⟨h.2, fun on => ?_⟩
      rw [h.1] at on
      cases on
  refine Triple.bind restored fun _ => Triple.bind (writeJournal_held turn ?_) fun _ =>
    held_raise fun _ _ _ _ => trivial
  intro s v _ h
  exact ⟨phase_unsettled h.1, h.2⟩

theorem migrateRecords_held (sums : ∀ m ∈ ms, codec.sha256 m.source = m.preview.sourceChecksum ∧
      codec.sha256 m.targetBytes = m.preview.targetChecksum) :
    Triple (migrating codec preview solo strict s₀) goes p c
      (Held p fun s _ => Unsettled (phaseOf preview s))
      ((migrateRecords p preview ms).handle fun _ => rollBack p preview ms)
      (fun _ => Held p fun s _ => Unsettled (phaseOf preview s) ∧ AllTarget codec preview s)
      (fun _ => Held p fun _ _ => True) := by
  have writes : Writes codec preview (·.targetChecksum) (·.targetBytes) ms :=
    ⟨fun m there => named ▸ List.mem_map_of_mem there, fun m there => (sums m there).2,
      fun _ => .inr rfl, coherent.target,
      fun item there same => ⟨coherent.truthful item there same, rfl⟩⟩
  refine Triple.handle (held_weaken (rewriteRecords_held turn coherent (B := True)
    (fun _ _ _ _ => trivial) ms writes) ?_ (fun _ _ _ _ h => h) fun _ _ _ _ h => h.2)
    fun _ => rollBack_held turn coherent quiet named fun m there => (sums m there).1
  intro s v _ open_
  exact ⟨open_, fun item there => .inl (named ▸ there)⟩

end Locked

theorem readExistingReport_held :
    Triple (migrating codec preview solo strict s₀) goes p c (Held p fun _ _ => True)
      (readExistingReport preview)
      (fun found => Held p fun s _ => found = none → phaseOf preview s ≠ some .committed)
      (fun _ => Held p fun _ _ => True) := by
  refine held_look ?_ fun _ _ _ _ => trivial
  intro w found _ _ seen none_ phase
  subst none_
  unfold existingReport at seen
  cases journal : w.root.journals.lookup preview.planId with
  | none => simp [phaseOf, journal] at phase
  | some journal' =>
    have committed : journal'.phase = .committed := by simpa [phaseOf, journal] using phase
    rw [journal] at seen
    simp only [committed, ne_eq, not_true_eq_false, if_false] at seen
    split at seen
    · cases seen
    · split at seen
      · cases seen
      · cases seen

theorem migrateLocked_held (turn : Turn solo p) (coherent : Coherent preview)
    (quiet : Quiet strict preview goes) :
    Triple (migrating codec preview solo strict s₀) goes p c (Held p fun _ _ => True)
      (migrateLocked codec p preview registry) (fun _ => Held p fun _ _ => True)
      (fun _ => Held p fun _ _ => True) := by
  refine Triple.bind readExistingReport_held fun found => ?_
  rcases found with _ | report
  · have reads : Triple (migrating codec preview solo strict s₀) goes p c
        (Held p fun s _ => phaseOf preview s ≠ some .committed)
        (materialize codec p preview registry preview.records)
        (fun ms => Held p fun s v => (ms.map (·.preview) = preview.records ∧
          (∀ m ∈ ms, ∀ m' ∈ ms, m.preview.recordId = m'.preview.recordId → m.source = m'.source) ∧
          ∀ m ∈ ms, codec.sha256 m.source = m.preview.sourceChecksum ∧
            codec.sha256 m.targetBytes = m.preview.targetChecksum) ∧ Fresh codec preview ms s v)
        (fun _ => Held p fun _ _ => True) := by
      refine held_weaken (materialize_held turn (fun _ _ _ h => h) preview.records)
        (fun _ _ _ h => h) ?_ fun _ _ _ _ _ => trivial
      intro ms s v _ ⟨fresh, named, reads⟩
      refine ⟨⟨named, ?_, fun m there => ⟨(reads m there).source, (reads m there).target⟩⟩, fresh,
        reads⟩
      intro m there m' there' same
      have stored := (reads m there).stored
      rw [same, (reads m' there').stored] at stored
      exact (Option.some.inj stored).symm
    refine Triple.bind (held_weaken reads (fun _ _ _ h => h rfl) (fun _ _ _ _ h => h)
      fun _ _ _ _ h => h) fun ms => held_pure fun ⟨named, unique, sums⟩ => ?_
    refine Triple.bind (writeBackup_held turn coherent named unique fun m there => (sums m there).1)
      fun _ => ?_
    refine Triple.bind (writeJournal_held turn fun s v _ h => h) fun _ => ?_
    refine Triple.bind (writeJournal_held turn fun s v inv h => ?_) fun _ => ?_
    · have open_ : Unsettled (phaseOf preview s) := .inl h
      exact ⟨phase_unsettled open_, inv.between open_⟩
    refine Triple.bind (held_weaken (migrateRecords_held turn coherent quiet named sums)
      (fun _ _ _ h => .inr h) (fun _ _ _ _ h => h) fun _ _ _ _ h => h) fun _ => ?_
    refine Triple.bind (writeJournal_held turn fun s v _ h => ⟨phase_unsettled h.1, h.2⟩) fun _ => ?_
    exact held_ret fun _ _ _ _ => trivial
  · exact held_ret fun _ _ _ _ => trivial

theorem applyMigration_outside (turn : Turn solo p) (coherent : Coherent preview)
    (quiet : Quiet strict preview goes) :
    Triple (migrating codec preview solo strict s₀) goes p c (Outside solo p fun _ => True)
      (applyMigration codec p preview registry) (fun _ => Outside solo p fun _ => True)
      (fun _ => Outside solo p fun _ => True) :=
  applyMigration_of_locked turn (migrateLocked_held turn coherent quiet)

end Applying

section Recovering

variable {solo : Option Nat}
  {goes : LifecycleAction → Fault LifecycleError → LifecycleWorld → Prop} {p : Nat}
  {c : LifecycleCall J}

theorem restoreEntries_held (turn : Turn solo p) (coherent : Coherent preview) (planId : Text) :
    ∀ entries : List BackupEntry,
    (∀ e ∈ entries, ∃ item ∈ preview.records, e.recordId = item.recordId ∧
      e.sourceChecksum = item.sourceChecksum) →
    Triple (migrating codec preview solo strict s₀) goes p c
      (Held p fun s _ => Unsettled (phaseOf preview s) ∧ ∀ item ∈ preview.records,
        item.changed = true → (∃ e ∈ entries, e.recordId = item.recordId) ∨
          HasSum codec s item.recordId item.sourceChecksum)
      (restoreEntries codec p preview.planId planId entries)
      (fun _ => Held p fun s _ => Unsettled (phaseOf preview s) ∧ AllSource codec preview s)
      (fun _ => Held p fun _ _ => True)
  | [], _ => by
    refine held_ret fun s v inv h => ⟨h.1, fun item member => ?_⟩
    by_cases changed : item.changed = true
    · obtain ⟨e, absent, _⟩ | restored := h.2 item member changed
      · cases absent
      · exact restored
    · rcases (inv.between h.1).mixed item member with there | there
      · exact there
      · rw [coherent.truthful item member (by simpa using changed)]
        exact there
  | entry :: entries, sound => by
    obtain ⟨item, member, named, source⟩ := sound entry (by simp)
    refine Triple.bind readBackup_held fun bytes => held_pure fun sum => ?_
    refine Triple.bind ?_ fun _ => restoreEntries_held turn coherent planId entries fun e there =>
      sound e (List.mem_cons_of_mem _ there)
    rw [named]
    refine held_write turn (fun w => own_store _ _ _) ?_ ?_ (fun _ _ _ _ _ => trivial)
      fun _ _ _ _ _ => trivial
    · intro w _ inv ⟨_, h⟩
      exact ⟨inv.store coherent h.1 member (.inl (sum.trans source)), id⟩
    · intro w _ ⟨_, h⟩
      refine ⟨h.1, fun other there changed => ?_⟩
      by_cases same : other.recordId = item.recordId
      · refine .inr (hasSum_store (fun _ => ?_) fun different => absurd same different)
        rw [sum, source, coherent.source item member other there same.symm]
      · rcases h.2 other there changed with ⟨e, listed, id⟩ | restored
        · rcases List.mem_cons.mp listed with rfl | listed
          · exact absurd (id.symm.trans named) same
          · exact .inl ⟨e, listed, id⟩
        · exact .inr (hasSum_store (fun same' => absurd same' same) fun _ => restored)

theorem restoreBackup_held (turn : Turn solo p) (coherent : Coherent preview)
    {journal : MigrationJournal} (planId : journal.planId = preview.planId)
    (backupId : journal.backupId = preview.planId) :
    Triple (migrating codec preview solo strict s₀) goes p c
      (Held p fun s _ => Unsettled (phaseOf preview s)) (restoreBackup codec p journal)
      (fun _ => Held p fun s _ => phaseOf preview s = some .rolledBack)
      (fun _ => Held p fun _ _ => True) := by
  have manifest : Triple (migrating codec preview solo strict s₀) goes p c
      (Held p fun s _ => Unsettled (phaseOf preview s))
      (readManifest journal.backupId)
      (fun entries => Held p fun s _ => ((∀ e ∈ entries, ∃ item ∈ preview.records,
        e.recordId = item.recordId ∧ e.sourceChecksum = item.sourceChecksum) ∧
        ∀ item ∈ preview.records, item.changed = true → ∃ e ∈ entries,
          e.recordId = item.recordId) ∧ Unsettled (phaseOf preview s))
      (fun _ => Held p fun _ _ => True) := by
    refine held_look ?_ fun _ _ _ _ => trivial
    intro w entries inv open_ seen
    obtain ⟨entries', found, listed⟩ := (inv.between open_).restorable
    rw [backupId, found] at seen
    cases seen
    exact ⟨⟨listed.sound, listed.complete⟩, open_⟩
  refine Triple.bind manifest fun entries => held_pure fun ⟨sound, complete⟩ => ?_
  rw [planId]
  refine Triple.bind (held_weaken (restoreEntries_held turn coherent journal.backupId entries sound)
    ?_ (fun _ _ _ _ h => h) fun _ _ _ _ h => h) fun _ => ?_
  · intro s v _ open_
    exact ⟨open_, fun item member changed => .inl (complete item member changed)⟩
  · refine held_write turn (fun w => own_onRoot _) ?_ ?_ (fun _ _ _ _ _ => trivial)
      fun _ _ _ _ _ => trivial
    · intro w _ inv h
      exact ⟨inv.putJournal rfl backupId fun _ => h.2,
        fun committed => absurd committed (phase_unsettled h.1)⟩
    · intro w _ _
      exact phaseOf_putJournal

/-- Another process may settle the migration between the read of its journal and the lock. -/
def Timely (solo : Option Nat) (p : Nat) (preview : StateMigrationPreview)
    (goes : LifecycleAction → Fault LifecycleError → LifecycleWorld → Prop) : Prop :=
  solo ≠ some p → ∀ w, goes (.lock "recover".toList preview.planId) .done w →
    Unsettled (phaseOf preview w.root)

theorem readJournal_outside (planId : Text) {H : StateRoot → Prop} :
    Triple (migrating codec preview solo strict s₀) goes p c (Outside solo p H)
      (readJournal planId)
      (fun journal w => (incomplete journal = true → planId = preview.planId ∧
        journal.planId = preview.planId ∧ journal.backupId = preview.planId) ∧
        Outside solo p (fun s => H s ∧ s.journals.lookup planId = some journal) w)
      (fun _ => Outside solo p fun _ => True) := by
  refine outside_look ?_
  intro w journal inv outside seen
  have found : w.root.journals.lookup planId = some journal := by
    cases there : w.root.journals.lookup planId with
    | none =>
      rw [there] at seen
      cases seen
    | some journal' =>
      rw [there] at seen
      cases seen
      rfl
  refine ⟨?_, fun alone => ⟨outside.2 alone, found⟩⟩
  intro open_
  by_cases same : planId = preview.planId
  · rw [same] at found
    exact ⟨same, inv.named journal found open_⟩
  · rw [inv.alone planId journal same found] at open_
    cases open_

theorem recoverAll_outside (turn : Turn solo p) (coherent : Coherent preview)
    (timely : Timely solo p preview goes) : ∀ planIds : List Text,
    Triple (migrating codec preview solo strict s₀) goes p c
      (Outside solo p fun s => preview.planId ∈ planIds ∨ ¬ Unsettled (phaseOf preview s))
      (recoverAll codec p planIds)
      (fun _ => Outside solo p fun s => ¬ Unsettled (phaseOf preview s))
      (fun _ => Outside solo p fun _ => True)
  | [] => outside_ret fun _ _ h => h.resolve_left List.not_mem_nil
  | planId :: rest => by
    have ih := recoverAll_outside turn coherent timely rest
    refine Triple.bind (readJournal_outside planId) fun journal => Triple.of_pure fun known => ?_
    by_cases open_ : incomplete journal = true
    · obtain ⟨here, named, backup⟩ := known open_
      rw [if_pos open_]
      refine Triple.bind (Q := fun _ => Outside solo p fun s =>
        phaseOf preview s = some .rolledBack) ?_ fun _ => ?_
      · refine locked turn ?_ (restoreBackup_held turn coherent named backup)
        intro w inv outside allowed
        by_cases alone : solo = some p
        · have found := (outside.2 alone).2
          rw [here] at found
          exact (unsettled_iff found).mpr open_
        · rw [named] at allowed
          exact timely alone w allowed
      · refine Triple.bind (Triple.weaken ih ?_ (fun _ _ _ h => h) fun _ _ _ h => h) fun _ =>
          outside_ret fun _ _ h => h
        intro w _ outside
        refine ⟨outside.1, fun alone => .inr ?_⟩
        rw [outside.2 alone]
        simp [Unsettled]
    · rw [if_neg open_]
      refine Triple.weaken ih ?_ (fun _ _ _ h => h) fun _ _ _ h => h
      intro w _ outside
      refine ⟨outside.1, fun alone => ?_⟩
      obtain ⟨waiting, found⟩ := outside.2 alone
      rcases waiting with waiting | settled
      · rcases List.mem_cons.mp waiting with same | waiting
        · rw [← same] at found
          exact .inr fun unsettled => open_ ((unsettled_iff found).mp unsettled)
        · exact .inl waiting
      · exact .inr settled

theorem recover_outside (turn : Turn solo p) (coherent : Coherent preview)
    (timely : Timely solo p preview goes) :
    Triple (migrating codec preview solo strict s₀) goes p c (Outside solo p fun _ => True)
      (recoverIncompleteMigrations codec p)
      (fun _ => Outside solo p fun s => ¬ Unsettled (phaseOf preview s))
      (fun _ => Outside solo p fun _ => True) := by
  have listing : Triple (migrating codec preview solo strict s₀) goes p c
      (Outside solo p fun _ => True) listJournals
      (fun planIds w => True ∧ Outside solo p
        (fun s => preview.planId ∈ planIds ∨ ¬ Unsettled (phaseOf preview s)) w)
      (fun _ => Outside solo p fun _ => True) := by
    refine outside_look ?_
    intro w planIds _ _ seen
    cases seen
    refine ⟨trivial, fun _ => ?_⟩
    by_cases there : preview.planId ∈ w.root.journals
    · exact .inl ((List.mem_insertionSort _).mpr (AList.mem_keys.mpr there))
    · refine .inr ?_
      rw [phaseOf, AList.lookup_eq_none.mpr there]
      simp [Unsettled]
  exact Triple.bind listing fun planIds => Triple.of_pure fun _ =>
    recoverAll_outside turn coherent timely planIds

end Recovering

end Lifecycle

end RepoForge
