import RepoForge.Spec.Persistence.LifecycleLocks

/-!
# What the lifecycle calls read and save

`apply_migration` and `apply_cleanup` around their critical sections, and `_materialize` and
`_write_backup`, whatever invariant the lock guards: every materialised record is the stored one,
with the checksums of its preview (`ReadAs`), and afterwards each that changes has its copy in the
backup and its entry in the manifest.
-/
namespace RepoForge

open Scripts

namespace Lifecycle

variable {J : Type} (codec : LifecycleCodec J)

/-- The record was read, and passed the checks, as it is stored. -/
structure ReadAs (m : MaterializedMigration) (s : StateRoot) (v : Checks) : Prop where
  stored : s.records m.preview.recordId = some m.source
  source : codec.sha256 m.source = m.preview.sourceChecksum
  target : codec.sha256 m.targetBytes = m.preview.targetChecksum
  verified : v m.preview.recordId = some (s.records m.preview.recordId)
  safe : safeRecordId m.preview.recordId = true

variable {codec}

theorem decodeRecord_ok {id : Text} {file : Option Bytes} {record : RawStateRecord J}
    (h : decodeRecord codec id file = .ok record) :
    safeRecordId id = true ∧ file = some record.encoded ∧
      record.checksum = codec.sha256 record.encoded := by
  unfold decodeRecord checkRecordId at h
  obtain ⟨_, safe, h⟩ := bind_ok h
  have safe : safeRecordId id = true := by
    by_contra unsafe_
    rw [if_neg unsafe_] at safe
    cases safe
  refine ⟨safe, ?_⟩
  cases file with
  | none => cases h
  | some encoded =>
    simp only at h
    split at h
    · cases h
    · split at h
      · cases h
      · split at h
        · cases h
        · split at h
          · cases h
          · cases h
            exact ⟨rfl, rfl⟩

theorem materializeItem_ok {registry : StateMigrationRegistry J} {version : Nat}
    {item : StateMigrationRecordPreview} {file : Option Bytes} {m : MaterializedMigration}
    (h : materializeItem codec registry version item file = .ok m) :
    m.preview = item ∧ file = some m.source ∧ codec.sha256 m.source = item.sourceChecksum ∧
      codec.sha256 m.targetBytes = item.targetChecksum ∧ safeRecordId item.recordId = true := by
  unfold materializeItem at h
  obtain ⟨source, decoded, h⟩ := bind_ok h
  obtain ⟨safe, stored, checksum⟩ := decodeRecord_ok decoded
  split at h
  · cases h
  · rename_i unchanged
    obtain ⟨target, _, h⟩ := bind_ok h
    split at h
    · cases h
    · rename_i same
      cases h
      exact ⟨rfl, stored, checksum ▸ not_not.mp unchanged, not_not.mp same, safe⟩

variable {solo : Option Nat} {I : StateRoot → Prop} {rule : StepRule J}
  {goes : LifecycleAction → Fault LifecycleError → LifecycleWorld → Prop} {p : Nat}
  {c : LifecycleCall J} {preview : StateMigrationPreview} {registry : StateMigrationRegistry J}
  {F : StateRoot → Checks → Prop}

/-- The assertion says nothing that a further check could spoil. -/
def CheckStable (F : StateRoot → Checks → Prop) : Prop :=
  ∀ s v id, F s v → F s (Function.update v id (some (s.records id)))

theorem ReadAs.congr {m : MaterializedMigration} {s t : StateRoot} {v : Checks}
    (read : ReadAs codec m s v) (same : t.records = s.records) : ReadAs codec m t v := by
  refine ⟨?_, read.source, read.target, ?_, read.safe⟩
  · rw [same]
    exact read.stored
  · rw [same]
    exact read.verified

theorem ReadAs.check {m : MaterializedMigration} : CheckStable (ReadAs codec m) := by
  intro s v id read
  refine ⟨read.stored, read.source, read.target, ?_, read.safe⟩
  by_cases same : m.preview.recordId = id
  · rw [same, Function.update_self]
  · rw [Function.update_of_ne same]
    exact read.verified

theorem materializeRecord_held (turn : Turn solo p) (stable : CheckStable F)
    (item : StateMigrationRecordPreview) :
    Triple (guarded solo I rule) goes p c (Held p F)
      (materializeRecord codec p preview registry item)
      (fun m => Held p fun s v => F s v ∧ m.preview = item ∧ ReadAs codec m s v)
      (fun _ => Held p F) := by
  refine held_verify turn ?_ ?_ ?_ ?_ fun _ _ _ start => start
  · intro w
    split <;> rfl
  · intro w
    split
    · exact own_verify _ _
    · exact Own.refl p w
  · intro w m _ start ok
    obtain ⟨named, stored, source, target, safe⟩ := materializeItem_ok ok
    rw [ok]
    simp only [LifecycleWorld.verify, Function.update_self]
    refine ⟨stable _ _ _ start, named, ?_⟩
    subst named
    exact ⟨stored, source, target, by simp, safe⟩
  · intro e w _ start error
    rw [error]
    exact start

theorem materialize_held (turn : Turn solo p) (stable : CheckStable F)
    (items : List StateMigrationRecordPreview) :
    Triple (guarded solo I rule) goes p c (Held p F) (materialize codec p preview registry items)
      (fun ms => Held p fun s v => F s v ∧ ms.map (·.preview) = items ∧ ∀ m ∈ ms, ReadAs codec m s v)
      (fun _ => Held p F) := by
  induction items generalizing F with
  | nil => exact held_ret fun s v _ start => ⟨start, rfl, by simp⟩
  | cons item rest ih =>
    have stable' (m : MaterializedMigration) :
        CheckStable fun s v => F s v ∧ m.preview = item ∧ ReadAs codec m s v :=
      fun s v id h => ⟨stable s v id h.1, h.2.1, ReadAs.check s v id h.2.2⟩
    refine Triple.bind (materializeRecord_held turn stable item) fun first => ?_
    refine Triple.bind (held_weaken (ih (stable' first)) (fun _ _ _ h => h) (fun _ _ _ _ h => h)
      fun _ _ _ _ h => h.1) fun later => ?_
    refine held_ret fun s v _ ⟨⟨start, named, read⟩, named', reads⟩ => ⟨start, ?_, ?_⟩
    · rw [List.map_cons, named, named']
    · intro m member
      rcases List.mem_cons.mp member with rfl | member
      · exact read
      · exact reads m member

/-- `apply_migration` is its critical section, after a look at the journal. -/
theorem applyMigration_of_locked (turn : Turn solo p)
    (body : Triple (guarded solo I rule) goes p c (Held p fun _ _ => True)
      (migrateLocked codec p preview registry) (fun _ => Held p fun _ _ => True)
      (fun _ => Held p fun _ _ => True)) :
    Triple (guarded solo I rule) goes p c (Outside solo p fun _ => True)
      (applyMigration codec p preview registry) (fun _ => Outside solo p fun _ => True)
      (fun _ => Outside solo p fun _ => True) := by
  refine Triple.bind outside_check fun _ => ?_
  refine Triple.bind (outside_look (B := fun _ => True) (K := fun _ _ => True)
    fun _ _ _ _ _ => ⟨trivial, fun _ => trivial⟩) fun found => Triple.of_pure fun _ => ?_
  rcases found with _ | report
  · simp only
    split
    · exact outside_ret fun _ _ _ => trivial
    · exact locked turn (fun _ _ _ _ => trivial) body
  · exact outside_ret fun _ _ _ => trivial

/-- `apply_cleanup` is its critical section, after a look at the journal. -/
theorem applyCleanup_of_locked (turn : Turn solo p) {preview : StateCleanupPreview}
    (entered : ∀ w, I w.root → goes (.lock "cleanup".toList preview.planId) .done w →
      F w.root (w.verified p))
    (body : Triple (guarded solo I rule) goes p c (Held p F)
      (cleanupLocked codec p preview) (fun _ => Held p fun _ _ => True)
      (fun _ => Held p fun _ _ => True)) :
    Triple (guarded solo I rule) goes p c (Outside solo p fun _ => True)
      (applyCleanup codec p preview) (fun _ => Outside solo p fun _ => True)
      (fun _ => Outside solo p fun _ => True) := by
  refine Triple.bind outside_check fun _ => ?_
  refine Triple.bind (outside_look (B := fun _ => True) (K := fun _ _ => True)
    fun _ _ _ _ _ => ⟨trivial, fun _ => trivial⟩) fun found => Triple.of_pure fun _ => ?_
  rcases found with _ | report
  · exact locked turn (fun w inv _ allowed => entered w inv allowed) body
  · exact outside_ret fun _ _ _ => trivial

theorem readBackup_held {planId : Text} {entry : BackupEntry} :
    Triple (guarded solo I rule) goes p c (Held p F) (readBackup codec planId entry)
      (fun bytes => Held p fun s v => codec.sha256 bytes = entry.sourceChecksum ∧
        s.backups planId entry.recordId = some bytes ∧ F s v)
      (fun _ => Held p fun _ _ => True) := by
  refine held_look ?_ fun _ _ _ _ => trivial
  intro w bytes _ start seen
  obtain ⟨_, _, seen⟩ := bind_ok seen
  split at seen
  · cases seen
  · rename_i copy there
    split at seen
    · cases seen
    · rename_i same
      cases seen
      exact ⟨not_not.mp same, there, start⟩

/-- The manifest of a backup. -/
def backupEntries (codec : LifecycleCodec J) (ms : List MaterializedMigration) : List BackupEntry :=
  (ms.filter (·.preview.changed)).map fun m =>
    ⟨m.preview.recordId, codec.sha256 m.source, m.preview.targetChecksum, m.source.length⟩

/-- Each record that changes has its copy. -/
def Copied (planId : Text) (ms : List MaterializedMigration) (s : StateRoot) : Prop :=
  ∀ m ∈ ms, m.preview.changed = true → s.backups planId m.preview.recordId = some m.source

theorem copied_cons {planId : Text} {m : MaterializedMigration} {ms : List MaterializedMigration}
    {s : StateRoot} : Copied planId (m :: ms) s ↔
      (m.preview.changed = true → s.backups planId m.preview.recordId = some m.source) ∧
        Copied planId ms s := by
  simp [Copied]

theorem writeBackups_held (turn : Turn solo p) (all : List MaterializedMigration)
    (unique : ∀ m ∈ all, ∀ m' ∈ all, m.preview.recordId = m'.preview.recordId → m.source = m'.source)
    (kept : ∀ m ∈ all, ∀ w, w.exclusive = some p → I w.root → F w.root (w.verified p) →
      I (w.root.putBackup preview.planId m.preview.recordId m.source) ∧
        rule.allows p c w
          (w.onRoot fun s => s.putBackup preview.planId m.preview.recordId m.source))
    (stays : ∀ m ∈ all, ∀ s v, F s v →
      F (s.putBackup preview.planId m.preview.recordId m.source) v) :
    ∀ done ms : List MaterializedMigration, (∀ m ∈ done, m ∈ all) → (∀ m ∈ ms, m ∈ all) →
    Triple (guarded solo I rule) goes p c
      (Held p fun s v => F s v ∧ Copied preview.planId done s) (writeBackups codec preview ms)
      (fun entries => Held p fun s v => F s v ∧ entries = backupEntries codec ms ∧
        Copied preview.planId (ms ++ done) s)
      (fun _ => Held p F)
  | done, [], _, _ => held_ret fun s v _ h => ⟨h.1, rfl, h.2⟩
  | done, m :: ms, before, members => by
    have here : m ∈ all := members m (by simp)
    have later : ∀ m' ∈ ms, m' ∈ all := fun m' member => members m' (List.mem_cons_of_mem _ member)
    unfold writeBackups
    by_cases changed : m.preview.changed = true
    · rw [if_pos changed]
      have step : Triple (guarded solo I rule) goes p c
          (Held p fun s v => F s v ∧ Copied preview.planId done s)
          (write (.backUp preview.planId m.preview.recordId) (·.onRoot fun s =>
            s.putBackup preview.planId m.preview.recordId m.source))
          (fun _ => Held p fun s v => F s v ∧ Copied preview.planId (m :: done) s)
          (fun _ => Held p F) := by
        refine held_write turn (fun w => own_onRoot _) ?_ ?_ ?_ ?_
        · intro w holding inv h
          exact kept m here w holding inv h.1
        · intro w _ h
          refine ⟨stays m here _ _ h.1, ?_⟩
          intro m' member changed'
          simp only [LifecycleWorld.onRoot, StateRoot.putBackup, Function.update_self]
          rcases List.mem_cons.mp member with rfl | member
          · rw [Function.update_self]
          · by_cases same : m'.preview.recordId = m.preview.recordId
            · rw [same, Function.update_self, unique m here m' (before m' member) same.symm]
            · rw [Function.update_of_ne same]
              exact h.2 m' member changed'
        · intro e w _ h _
          exact h.1
        · intro e w _ h _
          exact stays m here _ _ h.1
      refine Triple.bind step fun _ => ?_
      have rest := writeBackups_held turn all unique kept stays (m :: done) ms
        (fun m' member => (List.mem_cons.mp member).elim (fun same => same ▸ here) (before m')) later
      refine Triple.bind rest fun entries => held_ret fun s v _ h => ⟨h.1, ?_, ?_⟩
      · rw [h.2.1]
        simp [backupEntries, changed]
      · intro m' member
        exact h.2.2 m' (by simp at member ⊢; tauto)
    · rw [if_neg changed]
      refine held_weaken (writeBackups_held turn all unique kept stays done ms before later)
        (fun _ _ _ h => h) (fun entries s v _ h => ⟨h.1, ?_, ?_⟩) fun _ _ _ _ h => h
      · rw [h.2.1]
        simp [backupEntries, changed]
      · rw [List.cons_append, copied_cons]
        exact ⟨fun changed' => absurd changed' changed, h.2.2⟩

end Lifecycle

end RepoForge
