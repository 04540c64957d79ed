import RepoForge.Spec.Persistence.MigrationPhases
import RepoForge.Spec.Persistence.CheckedWrites

/-!
# Migrations are all or nothing

One process runs `apply_migration` of a preview and `recover_incomplete_migrations`, any number of
times, with an exception or a crash at any operation. If no write of the handler raises, a
committed journal means the target of every record and a rolled back one the source, and a
recovery that returns leaves one of the two (`migration_all_or_nothing`). The handler swallows its
own failure and writes `rolled_back` all the same, and recovery passes such a journal over
(`failed_restore_is_final`).

With any number of processes, a committed migration stays committed with all its targets if
recovery finds each journal it acts on still incomplete once it has the lock
(`committed_migration_stays`). It reads the journal before it takes the lock, and a migration that
commits in between is undone (`late_recovery_undoes`).
-/
namespace RepoForge

open Scripts Runs

namespace Lifecycle

variable {J : Type}

abbrev LifecycleMachine (J : Type) :=
  Machine Nat (LifecycleCall J) LifecycleAction LifecycleWorld LifecycleError LifecycleAnswer

abbrev LifecycleEvent (J : Type) := Event Nat (LifecycleCall J) LifecycleError

abbrev LifecyclePermit (J : Type) :=
  Machine.Permit Nat (LifecycleCall J) LifecycleAction LifecycleWorld LifecycleError

/-- Nobody runs. -/
def idle (root : StateRoot) : LifecycleMachine J :=
  ⟨⟨root, none, [], fun _ _ => none⟩, fun _ => none⟩

section Applicable

variable (codec : LifecycleCodec J) (preview : StateMigrationPreview)
  (registry : StateMigrationRegistry J) (root : StateRoot)

/-- The collection is as the preview has it, and the migration has not been applied. -/
structure Applicable : Prop where
  reads : ∀ item ∈ preview.records, ∃ m, materializeItem codec registry preview.targetVersion item
    (root.records item.recordId) = .ok m
  pending : phaseOf preview root = none ∨ phaseOf preview root = some .rolledBack

/-- `changed` is set wherever the target differs from the source, as `preview_migration` does. -/
def TruthfulFlags : Prop :=
  ∀ item ∈ preview.records, item.changed = false → item.sourceChecksum = item.targetChecksum

/-- No other migration of the collection waits for recovery. -/
def NoneIncomplete : Prop :=
  ∀ planId journal, planId ≠ preview.planId → root.journals.lookup planId = some journal →
    incomplete journal = false

variable {codec preview registry root}

theorem materializeItem_same {version : Nat} {item item' : StateMigrationRecordPreview}
    {file : Option Bytes} {m m' : MaterializedMigration}
    (first : materializeItem codec registry version item file = .ok m)
    (second : materializeItem codec registry version item' file = .ok m')
    (same : item.recordId = item'.recordId) :
    item.sourceChecksum = item'.sourceChecksum ∧ item.targetChecksum = item'.targetChecksum := by
  unfold materializeItem at first second
  rw [same] at first
  obtain ⟨source, decoded, first⟩ := bind_ok first
  obtain ⟨source', decoded', second⟩ := bind_ok second
  rw [decoded] at decoded'
  cases decoded'
  split at first
  · cases first
  · split at second
    · cases second
    · rename_i sum sum'
      obtain ⟨target, made, first⟩ := bind_ok first
      obtain ⟨target', made', second⟩ := bind_ok second
      rw [made] at made'
      cases made'
      split at first
      · cases first
      · split at second
        · cases second
        · rename_i targetSum targetSum'
          exact ⟨(not_not.mp sum).symm.trans (not_not.mp sum'),
            (not_not.mp targetSum).symm.trans (not_not.mp targetSum')⟩

theorem Applicable.coherent (applicable : Applicable codec preview registry root)
    (truthful : TruthfulFlags preview) : Coherent preview := by
  have agree : ∀ a ∈ preview.records, ∀ b ∈ preview.records, a.recordId = b.recordId →
      a.sourceChecksum = b.sourceChecksum ∧ a.targetChecksum = b.targetChecksum := by
    intro a memberA b memberB same
    obtain ⟨m, first⟩ := applicable.reads a memberA
    obtain ⟨m', second⟩ := applicable.reads b memberB
    rw [← same] at second
    exact materializeItem_same first second same
  exact ⟨fun a ha b hb same => (agree a ha b hb same).1,
    fun a ha b hb same => (agree a ha b hb same).2, truthful⟩

theorem Applicable.inv (applicable : Applicable codec preview registry root) {strict : Bool}
    (alone : NoneIncomplete preview root) : MigrationInv codec preview strict root root := by
  have settled : phaseOf preview root ≠ some .committed ∧ ¬ Unsettled (phaseOf preview root) := by
    rcases applicable.pending with phase | phase <;> rw [phase] <;> simp [Unsettled]
  refine ⟨fun _ _ => rfl, alone, ?_, fun committed => absurd committed settled.1, ?_,
    fun open_ => absurd open_ settled.2⟩
  · intro journal found open_
    exact absurd ((unsettled_iff found).mpr open_) settled.2
  · intro _ _ item member
    obtain ⟨m, read⟩ := applicable.reads item member
    obtain ⟨_, stored, source, _, _⟩ := materializeItem_ok read
    exact ⟨m.source, stored, source⟩

end Applicable

section Machines

variable {codec : LifecycleCodec J} {preview : StateMigrationPreview}
  {registry : StateMigrationRegistry J} {root : StateRoot} {solo : Option Nat} {strict : Bool}
  {M : LifecyclePermit J}

/-- What a call leaves behind when it returns. -/
def settledBy (preview : StateMigrationPreview) (solo : Option Nat) :
    LifecycleCall J → LifecycleAnswer → LifecycleWorld → Prop
  | .recover, _, w => solo.isSome = true → ¬ Unsettled (phaseOf preview w.root)
  | _, _, _ => True

theorem migrations_disciplined (registry : StateMigrationRegistry J) (coherent : Coherent preview)
    (starts : ∀ p c w, M.starts p c w → Turn solo p ∧ (solo.isSome = true → solo = some p) ∧
      (c = .migrate preview registry ∨ c = .recover))
    (quiet : ∀ p, Quiet strict preview (M.goes p))
    (timely : ∀ p, (solo.isSome = true → solo = some p) → Timely solo p preview (M.goes p)) :
    Machine.Disciplined (kernel codec) (migrating codec preview solo strict root) M
      (settledBy preview solo) := by
  refine ⟨?_, ?_⟩
  · intro p c w inv resting started
    obtain ⟨turn, alone, call⟩ := starts p c w started
    have outside : Outside solo p (fun _ => True) w := ⟨resting, fun _ => trivial⟩
    rcases call with rfl | rfl
    · exact outside_answer (applyMigration_outside turn coherent (quiet p)) (fun _ _ _ => trivial) w
        inv outside
    · refine outside_answer (recover_outside turn coherent (timely p alone)) ?_ w inv outside
      intro _ t settled on
      exact settled.2 (alone on)
  · intro p c w ⟨_, started⟩ _ inv
    exact ⟨release_guarantee (starts p c _ started).1 inv, release_resting⟩

theorem idle_kept {D : Discipline Nat (LifecycleCall J) LifecycleWorld}
    {post : LifecycleCall J → LifecycleAnswer → LifecycleWorld → Prop}
    (inv : D.inv (idle root : LifecycleMachine J).shared)
    (rest : ∀ p, D.rest p (idle root : LifecycleMachine J).shared) :
    Machine.Kept (kernel codec) D M post (idle root) :=
  ⟨inv, fun p _ => rest p, fun _ _ _ there => by cases there⟩

theorem idle_resting (p : Nat) : Resting p (idle root : LifecycleMachine J).shared :=
  ⟨by simp [idle], by simp [idle]⟩

/-- The discipline of one migration holds in every run of the calls on it. -/
theorem migrations_kept (applicable : Applicable codec preview registry root)
    (alone : NoneIncomplete preview root)
    (rules : Machine.Disciplined (kernel codec) (migrating codec preview solo strict root) M
      (settledBy preview solo))
    {labels : List (LifecycleEvent J)}
    (run : Runs.Along (Machine.step (kernel codec)) (Machine.Permitted M) (idle root) labels) :
    Throughout (Machine.step (kernel codec)) (Machine.Kept (kernel codec)
      (migrating codec preview solo strict root) M (settledBy preview solo)) (idle root) labels :=
  Machine.kept rules (idle_kept ⟨fun shared => absurd rfl shared, applicable.inv alone⟩ idle_resting)
    run

end Machines

section OneProcess

/-- One process runs the migration and recovery, and no write of the handler raises. -/
def handlerSucceeds (preview : StateMigrationPreview) (registry : StateMigrationRegistry J) :
    LifecyclePermit J where
  starts p c _ := p = 0 ∧ (c = .migrate preview registry ∨ c = .recover)
  goes _ tag fault _ := ∀ id e, tag = .restoreRecord preview.planId id →
    fault ≠ .before e ∧ fault ≠ .after e

/-- One process runs the migration and recovery, with any faults. -/
def oneProcess (preview : StateMigrationPreview) (registry : StateMigrationRegistry J) :
    LifecyclePermit J where
  starts p c _ := p = 0 ∧ (c = .migrate preview registry ∨ c = .recover)
  goes _ _ _ _ := True

/-- What the journal says is so, and recovery settles the migration. -/
structure AllOrNothing (codec : LifecycleCodec J) (preview : StateMigrationPreview)
    (root : StateRoot) (s : LifecycleMachine J) : Prop where
  committed : phaseOf preview s.shared.root = some .committed → AllTarget codec preview s.shared.root
  rolledBack : phaseOf preview s.shared.root = none ∨
    phaseOf preview s.shared.root = some .rolledBack → AllSource codec preview s.shared.root
  others : ∀ id, (∀ item ∈ preview.records, item.recordId ≠ id) →
    s.shared.root.records id = root.records id
  recovered : ∀ answer, s.process 0 = some ⟨.recover, .ret answer⟩ →
    (phaseOf preview s.shared.root = some .committed ∧ AllTarget codec preview s.shared.root) ∨
      ((phaseOf preview s.shared.root = none ∨ phaseOf preview s.shared.root = some .rolledBack) ∧
        AllSource codec preview s.shared.root)

variable {codec : LifecycleCodec J} {preview : StateMigrationPreview}
  {registry : StateMigrationRegistry J} {root : StateRoot}

theorem settled_cases {phase : Option JournalPhase} (settled : ¬ Unsettled phase) :
    phase = some .committed ∨ phase = none ∨ phase = some .rolledBack := by
  rcases phase with _ | _ | _ | _ | _ <;> simp [Unsettled] at settled ⊢

/-- A migration whose handler does not itself fail is all or nothing, however often it is
interrupted. -/
theorem migration_all_or_nothing (applicable : Applicable codec preview registry root)
    (truthful : TruthfulFlags preview) (alone : NoneIncomplete preview root)
    {labels : List (LifecycleEvent J)}
    (run : Runs.Along (Machine.step (kernel codec)) (Machine.Permitted (handlerSucceeds preview registry))
      (idle root) labels) :
    Throughout (Machine.step (kernel codec)) (AllOrNothing codec preview root) (idle root) labels := by
  have rules : Machine.Disciplined (kernel codec) (migrating codec preview (some 0) true root)
      (handlerSucceeds preview registry) (settledBy preview (some 0)) := by
    refine migrations_disciplined registry (applicable.coherent truthful) ?_ ?_ ?_
    · intro p c w ⟨zero, call⟩
      subst zero
      exact ⟨fun q same => (Option.some.inj same).symm, fun _ => rfl, call⟩
    · intro p id e w allowed
      rcases allowed with allowed | allowed
      · exact absurd rfl (allowed id e rfl).1
      · exact absurd rfl (allowed id e rfl).2
    · intro p alone different
      exact absurd (alone rfl) different
  intro done rest split
  have kept := migrations_kept applicable alone rules run done rest split
  have inv := kept.inv.2
  refine ⟨inv.committed, inv.settled rfl, inv.others, ?_⟩
  intro answer returned
  have settled := ((kept.present 0 _ _ returned).2 _ kept.inv (Discipline.rely_refl _ 0 _)).2 rfl
  rcases settled_cases settled with phase | phase
  · exact .inl ⟨phase, inv.committed phase⟩
  · exact .inr ⟨phase, inv.settled rfl phase⟩

end OneProcess

section ManyProcesses

/-- Any number of processes run the migration and recovery, and recovery finds the journal it has
read still incomplete once it has the lock. -/
def stillIncomplete (preview : StateMigrationPreview) (registry : StateMigrationRegistry J) :
    LifecyclePermit J where
  starts _ c _ := c = .migrate preview registry ∨ c = .recover
  goes _ tag fault w := tag = .lock "recover".toList preview.planId → fault = .done →
    Unsettled (phaseOf preview w.root)

variable {codec : LifecycleCodec J} {preview : StateMigrationPreview}
  {registry : StateMigrationRegistry J} {root : StateRoot}

/-- Any number of processes run the migration and recovery. -/
def anyProcesses (preview : StateMigrationPreview) (registry : StateMigrationRegistry J) :
    LifecyclePermit J where
  starts _ c _ := c = .migrate preview registry ∨ c = .recover
  goes _ _ _ _ := True

/-- The targets of a committed migration are there, and it stays committed. -/
structure CommittedStays (codec : LifecycleCodec J) (preview : StateMigrationPreview)
    (s s' : LifecycleMachine J) : Prop where
  target : phaseOf preview s.shared.root = some .committed → AllTarget codec preview s.shared.root
  stays : phaseOf preview s.shared.root = some .committed →
    phaseOf preview s'.shared.root = some .committed ∧ AllTarget codec preview s'.shared.root

theorem committed_migration_stays (applicable : Applicable codec preview registry root)
    (truthful : TruthfulFlags preview) (alone : NoneIncomplete preview root)
    {labels : List (LifecycleEvent J)}
    (run : Runs.Along (Machine.step (kernel codec)) (Machine.Permitted (stillIncomplete preview registry))
      (idle root) labels) :
    Runs.Along (Machine.step (kernel codec)) (fun s l => CommittedStays codec preview s
      (s.step (kernel codec) l)) (idle root) labels := by
  have rules : Machine.Disciplined (kernel codec) (migrating codec preview none false root)
      (stillIncomplete preview registry) (settledBy preview none) := by
    refine migrations_disciplined registry (applicable.coherent truthful) ?_ ?_ ?_
    · intro p c w call
      refine ⟨?_, ?_, call⟩
      · intro q same
        cases same
      · intro on
        cases on
    · intro p id e w _
      rfl
    · intro p _ _ w allowed
      exact allowed rfl rfl
  have kept := migrations_kept applicable alone rules run
  refine (kept.along.both run).imp ?_
  intro s l ⟨⟨before, after⟩, permitted⟩
  refine ⟨before.inv.2.committed, ?_⟩
  intro committed
  have still : phaseOf preview (s.step (kernel codec) l).shared.root = some .committed := by
    rcases before.effect rules permitted with same | ⟨p, c, fault, script, _, _, good⟩
    · rw [same]
      exact committed
    · exact good committed
  exact ⟨still, after.inv.2.committed still⟩

end ManyProcesses

section Sample

/-- Digests of the samples: the bytes as characters. -/
def sampleSum (b : Bytes) : Text := b.map fun x => Char.ofNat x.toNat

/-- A record file of three bytes: its identifier, its version and its revision. -/
def sampleCodec : LifecycleCodec Unit where
  sha256 := sampleSum
  loads
    | [id, version, revision] => some ⟨[Char.ofNat id.toNat], version.toNat, revision.toNat, ()⟩
    | _ => none
  pretty raw := .ok (raw.recordId.map (fun c => UInt8.ofNat c.toNat) ++
    [UInt8.ofNat raw.schemaVersion.toNat, UInt8.ofNat raw.revision.toNat])
  maxRecordBytes := 64
  canonical _ := .ok ()
  previewDigest _ _ _ := ['d']
  cleanupDigest _ := ['d']
  revision _ b := .ok (b.getD 2 0).toNat

def sampleItem (id : Char) : StateMigrationRecordPreview :=
  ⟨[id], 1, 2, 1, sampleSum [UInt8.ofNat id.toNat, 1, 1], sampleSum [UInt8.ofNat id.toNat, 2, 2],
    false, true, 3, 3⟩

def samplePreview : StateMigrationPreview :=
  ⟨"mig-d".toList, ['d'], 2, [sampleItem 'a', sampleItem 'b'], 2, 0, false⟩

def sampleRegistry : StateMigrationRegistry Unit := [⟨1, fun _ => .ok (), none⟩]

def sampleRoot : StateRoot where
  records id := if id = ['a'] then some [97, 1, 1] else if id = ['b'] then some [98, 1, 1] else none
  journals := ∅
  manifests _ := none
  backups _ _ := none
  cleanups _ := none
  trash _ _ := none
  author _ := .repository
  moved _ _ := false

theorem sample_applicable : Applicable sampleCodec samplePreview sampleRegistry sampleRoot := by
  refine ⟨?_, .inl rfl⟩
  intro item member
  simp only [samplePreview, List.mem_cons, List.not_mem_nil, or_false] at member
  rcases member with rfl | rfl
  · exact ⟨⟨sampleItem 'a', [97, 1, 1], [97, 2, 2]⟩, by decide +kernel⟩
  · exact ⟨⟨sampleItem 'b', [98, 1, 1], [98, 2, 2]⟩, by decide +kernel⟩

theorem sample_truthful : TruthfulFlags samplePreview := by
  intro item member unchanged
  simp only [samplePreview, List.mem_cons, List.not_mem_nil, or_false] at member
  rcases member with rfl | rfl <;> simp [sampleItem] at unchanged

theorem sample_alone : NoneIncomplete samplePreview sampleRoot := by
  intro planId journal _ found
  simp [sampleRoot] at found

/-- A process that meets no fault. -/
def undisturbed (p n : Nat) : List (LifecycleEvent Unit) := List.replicate n (.go p .done)

/-- The migration crashes after its first record, and recovery brings the source back. -/
def crashedRun : List (LifecycleEvent Unit) :=
  .start 0 (.migrate samplePreview sampleRegistry) :: undisturbed 0 11 ++ [.go 0 .crash] ++
    .start 0 .recover :: undisturbed 0 10

theorem migration_all_or_nothing_crashed :
    Throughout (Machine.step (kernel sampleCodec)) (AllOrNothing sampleCodec samplePreview sampleRoot)
      (idle sampleRoot) crashedRun := by
  refine migration_all_or_nothing sample_applicable sample_truthful sample_alone
    (along_of_forall fun l member s => ?_)
  cases l with
  | go p fault =>
    have calm : fault = .done ∨ fault = .crash := by
      simp [crashedRun, undisturbed] at member
      tauto
    rcases calm with rfl | rfl <;> exact fun _ _ _ _ _ _ _ _ => by simp
  | start p c =>
    simp [crashedRun, undisturbed] at member
    rcases member with ⟨rfl, rfl⟩ | ⟨rfl, rfl⟩
    · exact ⟨rfl, .inl rfl⟩
    · exact ⟨rfl, .inr rfl⟩

/-- The second record cannot be written, nor the first restored; recovery runs afterwards. -/
def failedRestore : List (LifecycleEvent Unit) :=
  .start 0 (.migrate samplePreview sampleRegistry) :: undisturbed 0 11 ++
    [.go 0 (.before .other), .go 0 (.before .other)] ++ undisturbed 0 2 ++
    .start 0 .recover :: undisturbed 0 2

theorem failed_restore_is_final :
    Applicable sampleCodec samplePreview sampleRegistry sampleRoot ∧
      TruthfulFlags samplePreview ∧ NoneIncomplete samplePreview sampleRoot ∧
      ¬ ∀ labels : List (LifecycleEvent Unit), Runs.Along (Machine.step (kernel sampleCodec))
          (Machine.Permitted (oneProcess samplePreview sampleRegistry)) (idle sampleRoot) labels →
        Throughout (Machine.step (kernel sampleCodec))
          (AllOrNothing sampleCodec samplePreview sampleRoot) (idle sampleRoot) labels := by
  refine ⟨sample_applicable, sample_truthful, sample_alone, ?_⟩
  intro claim
  have run : Runs.Along (Machine.step (kernel sampleCodec))
      (Machine.Permitted (oneProcess samplePreview sampleRegistry)) (idle sampleRoot)
      failedRestore := by
    refine along_of_forall fun l member s => ?_
    cases l with
    | go p fault => exact fun _ _ _ _ _ => trivial
    | start p c =>
      simp [failedRestore, undisturbed] at member
      rcases member with ⟨rfl, rfl⟩ | ⟨rfl, rfl⟩
      · exact ⟨rfl, .inl rfl⟩
      · exact ⟨rfl, .inr rfl⟩
  have holds := (claim failedRestore run).last
  have phase : phaseOf samplePreview (Runs.run (Machine.step (kernel sampleCodec)) (idle sampleRoot)
      failedRestore).shared.root = some .rolledBack := by decide +kernel
  obtain ⟨b, stored, sum⟩ := holds.rolledBack (.inr phase) (sampleItem 'a') (by simp [samplePreview])
  have left : (Runs.run (Machine.step (kernel sampleCodec)) (idle sampleRoot)
      failedRestore).shared.root.records ['a'] = some [97, 2, 2] := by decide +kernel
  rw [show (sampleItem 'a').recordId = ['a'] from rfl, left] at stored
  cases stored
  revert sum
  decide +kernel

/-- One process crashes in the migration, another recovers, and the migration is applied again. -/
def recoveredRun : List (LifecycleEvent Unit) :=
  .start 0 (.migrate samplePreview sampleRegistry) :: undisturbed 0 11 ++ [.go 0 .crash] ++
    .start 1 .recover :: undisturbed 1 10 ++
    .start 0 (.migrate samplePreview sampleRegistry) :: undisturbed 0 14 ++
    .start 1 .recover :: undisturbed 1 2

/-- Whether recovery takes the lock for a migration that is still incomplete. -/
def lockIncomplete (s : LifecycleMachine Unit) : LifecycleEvent Unit → Bool
  | .start _ _ => true
  | .go p fault =>
    !(s.nextTag p = some (.lock "recover".toList samplePreview.planId) && fault = .done) ||
      (phaseOf samplePreview s.shared.root = some .prepared ||
        phaseOf samplePreview s.shared.root = some .applying)

theorem committed_migration_stays_recovered :
    Runs.Along (Machine.step (kernel sampleCodec)) (fun s l => CommittedStays sampleCodec samplePreview s
      (s.step (kernel sampleCodec) l)) (idle sampleRoot) recoveredRun := by
  refine committed_migration_stays sample_applicable sample_truthful sample_alone ?_
  have calls : Runs.Along (Machine.step (kernel sampleCodec)) (fun _ l => ∀ p c, l = .start p c →
      c = .migrate samplePreview sampleRegistry ∨ c = .recover) (idle sampleRoot) recoveredRun := by
    refine along_of_forall fun l member _ p c same => ?_
    subst same
    simp [recoveredRun, undisturbed] at member
    rcases member with ⟨-, rfl⟩ | ⟨-, rfl⟩ | ⟨-, rfl⟩ | ⟨-, rfl⟩ <;> simp
  have locks : Runs.Along (Machine.step (kernel sampleCodec)) (fun s l => lockIncomplete s l = true)
      (idle sampleRoot) recoveredRun := along_of_passes (fun _ _ ok => ok) (by decide +kernel)
  refine (calls.both locks).imp ?_
  intro s l h
  obtain ⟨call, ok⟩ := h
  cases l with
  | start p c => exact call p c rfl
  | go p fault =>
    refine Machine.permitted_go fun tag next lock done => ?_
    subst lock done
    simpa [lockIncomplete, next, Unsettled] using ok

/-- Recovery reads the journal while the migration is applying, takes the lock when it has
committed, and comes to its own journal. -/
def lateRecovery : List (LifecycleEvent Unit) :=
  .start 0 (.migrate samplePreview sampleRegistry) :: undisturbed 0 10 ++
    .start 1 .recover :: undisturbed 1 2 ++ undisturbed 0 4 ++ undisturbed 1 6

theorem late_recovery_undoes :
    Applicable sampleCodec samplePreview sampleRegistry sampleRoot ∧
      TruthfulFlags samplePreview ∧ NoneIncomplete samplePreview sampleRoot ∧
      ¬ ∀ labels : List (LifecycleEvent Unit), Runs.Along (Machine.step (kernel sampleCodec))
          (Machine.Permitted (anyProcesses samplePreview sampleRegistry)) (idle sampleRoot) labels →
        Runs.Along (Machine.step (kernel sampleCodec)) (fun s l => CommittedStays sampleCodec samplePreview
          s (s.step (kernel sampleCodec) l)) (idle sampleRoot) labels := by
  refine ⟨sample_applicable, sample_truthful, sample_alone, ?_⟩
  intro claim
  have run : Runs.Along (Machine.step (kernel sampleCodec))
      (Machine.Permitted (anyProcesses samplePreview sampleRegistry)) (idle sampleRoot)
      (lateRecovery ++ [.go 1 .done]) := by
    refine along_of_forall fun l member s => ?_
    cases l with
    | go p fault => exact fun _ _ _ _ _ => trivial
    | start p c =>
      simp [lateRecovery, undisturbed] at member
      rcases member with ⟨-, rfl⟩ | ⟨-, rfl⟩
      · exact .inl rfl
      · exact .inr rfl
  have last := claim _ run lateRecovery (.go 1 .done) [] rfl
  have committed : phaseOf samplePreview (Runs.run (Machine.step (kernel sampleCodec))
      (idle sampleRoot) lateRecovery).shared.root = some .committed := by decide +kernel
  obtain ⟨stays, _⟩ := last.stays committed
  revert stays
  decide +kernel

end Sample

end Lifecycle

end RepoForge

/-!
## Lifecycle calls lose no write of the repository

Any number of processes run migrations, recovery and cleanups of a collection together with the
calls of its repository, each step with any fault. A lifecycle call replaces a version that the
repository made only if it has checked that version (`lifecycle_loses_no_write`), provided that
recovery finds the migrations it acts on still incomplete, and that no call of the repository
changes a record of a migration that waits for recovery. A crash gives the lock back, so such calls
go through, and recovery then writes its copies over them unchecked (`recovery_overwrites_save`).
-/
namespace RepoForge

open Scripts Runs

namespace Lifecycle

variable {J : Type}

/-- A step of a lifecycle call replaces no unchecked version of the repository. -/
def LosesNothing (codec : LifecycleCodec J) (s : LifecycleMachine J) (l : LifecycleEvent J) : Prop :=
  ∀ p c script fault id, l = .go p fault → s.process p = some ⟨c, script⟩ → Administers c →
    (s.step (kernel codec) l).shared.root.records id ≠ s.shared.root.records id →
    s.shared.root.author id = .repository →
    s.shared.verified p id = some (s.shared.root.records id)

/-- Recovery finds its migrations still incomplete, and the repository leaves the records of a
migration that waits for recovery alone. -/
def repositoryWaits (codec : LifecycleCodec J) : LifecyclePermit J where
  starts _ _ _ := True
  goes _ tag fault w :=
    (∀ planId, tag = .lock "recover".toList planId → fault = .done → Waiting w.root planId) ∧
    ∀ id call content, tag = .change id call → (fault = .done ∨ ∃ e, fault = .after e) →
      recordOutcome codec id call (w.root.records id) = .ok content →
      ∀ planId, ¬ ListedBy w.root planId id

variable {codec : LifecycleCodec J} {root : StateRoot}

theorem waits_disciplined :
    Machine.Disciplined (kernel codec) (checked J) (repositoryWaits codec) fun _ _ _ => True := by
  refine ⟨?_, ?_⟩
  · intro p c w inv resting _
    have outside : Outside none p (fun _ => True) w := ⟨resting, fun _ => trivial⟩
    cases c with
    | migrate preview registry =>
      exact outside_answer (applyMigration_of_locked nobody_turn migrateLocked_checked)
        (fun _ _ _ => trivial) w inv outside
    | recover =>
      refine outside_answer (recover_checked ?_) (fun _ _ _ => trivial) w inv outside
      exact fun planId w allowed => allowed.1 planId rfl rfl
    | cleanup preview =>
      exact outside_answer (applyCleanup_of_locked nobody_turn (fun _ _ _ => trivial)
        cleanupLocked_checked) (fun _ _ _ => trivial) w inv outside
    | repository id call =>
      refine outside_answer (shared_change nobody_turn ?_) (fun _ _ _ => trivial) w inv outside
      intro w content fault inv outcome happens allowed
      exact ⟨inv.change (allowed.2 id call content rfl happens outcome), fun administers =>
        administers.elim⟩
  · intro p c w _ _ inv
    exact ⟨release_guarantee nobody_turn inv, release_resting⟩

theorem lifecycle_loses_no_write (settled : ∀ planId, ¬ Waiting root planId)
    {labels : List (LifecycleEvent J)}
    (run : Runs.Along (Machine.step (kernel codec)) (Machine.Permitted (repositoryWaits codec)) (idle root)
      labels) :
    Runs.Along (Machine.step (kernel codec)) (LosesNothing codec) (idle root) labels := by
  have current : CopiesCurrent root :=
    ⟨fun planId journal found open_ => absurd ⟨journal, found, open_⟩ (settled planId),
      fun planId _ _ listed => absurd listed.1 (settled planId)⟩
  have kept := Machine.kept waits_disciplined
    (idle_kept ⟨fun shared => absurd rfl shared, current⟩ idle_resting) run
  refine (kept.along.both run).imp ?_
  intro s l ⟨⟨before, _⟩, permitted⟩ p c script fault id same there administers changed repository
  rcases before.effect waits_disciplined permitted with unchanged | ⟨q, c', _, _, same', there', good⟩
  · rw [unchanged] at changed
    exact absurd rfl changed
  · rw [same] at same'
    cases same'
    rw [there] at there'
    cases there'
    exact good administers id changed repository

section Sample

/-- The repository saves the second record. -/
def sampleSave : LifecycleCall Unit := .repository ['b'] (.save [98, 1, 2] 1)

/-- The migration crashes, recovery runs, and then the repository saves. -/
def savedAfterRecovery : List (LifecycleEvent Unit) :=
  .start 0 (.migrate samplePreview sampleRegistry) :: undisturbed 0 11 ++ [.go 0 .crash] ++
    .start 0 .recover :: undisturbed 0 10 ++ .start 1 sampleSave :: undisturbed 1 3

/-- Whether nothing waits when a record changes, and recovery finds its migration waiting. -/
def noneWaiting (s : LifecycleMachine Unit) : LifecycleEvent Unit → Bool
  | .start _ _ => true
  | .go p _ =>
    match s.nextTag p with
    | some (.lock operation planId) => operation ≠ "recover".toList ||
        (s.shared.root.journals.lookup planId).any incomplete
    | some (.change _ _) => s.shared.root.journals.entries.all fun entry => !incomplete entry.2
    | _ => true

theorem noneWaiting_permits {s : LifecycleMachine Unit} {l : LifecycleEvent Unit}
    (ok : noneWaiting s l = true) : Machine.Permitted (repositoryWaits sampleCodec) s l := by
  cases l with
  | start p c => trivial
  | go p fault =>
    refine Machine.permitted_go fun tag next => ⟨?_, ?_⟩
    · intro planId lock _
      subst lock
      have found : (s.shared.root.journals.lookup planId).any incomplete = true := by
        simpa [noneWaiting, next] using ok
      cases there : s.shared.root.journals.lookup planId with
      | none =>
        rw [there] at found
        cases found
      | some journal =>
        rw [there] at found
        exact ⟨journal, there, found⟩
    · intro id call _ change _ _ planId ⟨⟨journal, found, open_⟩, _⟩
      subst change
      have settled : ∀ entry ∈ s.shared.root.journals.entries, incomplete entry.2 = false := by
        simpa [noneWaiting, next] using ok
      have member := AList.mem_lookup_iff.mp found
      rw [settled _ member] at open_
      cases open_

theorem lifecycle_loses_no_write_saved :
    Runs.Along (Machine.step (kernel sampleCodec)) (LosesNothing sampleCodec) (idle sampleRoot)
      savedAfterRecovery := by
  refine lifecycle_loses_no_write ?_
    (along_of_passes (fun _ _ => noneWaiting_permits) (by decide +kernel))
  intro planId ⟨journal, found, _⟩
  simp [sampleRoot] at found

/-- Whether the process is in a recovery. -/
def inRecovery (s : LifecycleMachine Unit) (p : Nat) : Bool :=
  match s.process p with
  | some ⟨.recover, _⟩ => true
  | _ => false

theorem inRecovery_process {s : LifecycleMachine Unit} {p : Nat} (recovering : inRecovery s p = true) :
    ∃ script, s.process p = some ⟨.recover, script⟩ := by
  unfold inRecovery at recovering
  split at recovering
  · rename_i script there
    exact ⟨script, there⟩
  · cases recovering

/-- The repository saves between the crash and recovery. -/
def savedBeforeRecovery : List (LifecycleEvent Unit) :=
  .start 0 (.migrate samplePreview sampleRegistry) :: undisturbed 0 11 ++ [.go 0 .crash] ++
    .start 1 sampleSave :: undisturbed 1 3 ++ .start 0 .recover :: undisturbed 0 7

theorem recovery_overwrites_save :
    (∀ planId, ¬ Waiting sampleRoot planId) ∧
      ¬ ∀ labels : List (LifecycleEvent Unit), Runs.Along (Machine.step (kernel sampleCodec))
        (LosesNothing sampleCodec) (idle sampleRoot) labels := by
  refine ⟨?_, ?_⟩
  · intro planId ⟨journal, found, _⟩
    simp [sampleRoot] at found
  · intro claim
    have last := claim (savedBeforeRecovery ++ [.go 0 .done]) savedBeforeRecovery (.go 0 .done) [] rfl
    obtain ⟨script, there⟩ := inRecovery_process (s := Runs.run (Machine.step (kernel sampleCodec))
      (idle sampleRoot) savedBeforeRecovery) (p := 0) (by decide +kernel)
    have checked_ := last 0 .recover script .done ['b'] rfl there trivial (by decide +kernel)
      (by decide +kernel)
    revert checked_
    decide +kernel

end Sample

end Lifecycle

end RepoForge
