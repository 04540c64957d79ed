import Mathlib.Algebra.GroupWithZero.Nat
import RepoForge.Library.Scripts
import RepoForge.Source.Persistence.StateRepository

/-!
# State lifecycle

Source: `adapters/persistence/json_state_lifecycle.py`, from `domain/state_lifecycle.py` the
migration registry and the previews, and from `json_state_file_store.py` the locks of a record
call.

The state is that of one collection and of the control directories beside it; other collections
have files and locks of their own. Every file operation is one operation of a script, and may
raise: `_atomic_write` also once the file is replaced (its `chmod` comes last), a rename or a
read only before. `json`, `sha256` and the transforms of the registry are parameters. The calls
of the repository hold the record lock from their read to their write, so that is one operation.
-/
namespace RepoForge

open Scripts

inductive LifecycleError where
  | invalid | stale | corrupt | tooLarge | schemaUnsupported | persistenceFailed | alreadyExists
  | notFound
  /-- Any other exception, such as an `OSError`. -/
  | other
  deriving DecidableEq, Repr

def LifecycleError.code : LifecycleError → String
  | invalid => "STATE_INVALID"
  | stale => "STATE_STALE"
  | corrupt => "STATE_CORRUPT"
  | tooLarge => "STATE_TOO_LARGE"
  | schemaUnsupported => "STATE_SCHEMA_UNSUPPORTED"
  | persistenceFailed => "STATE_PERSISTENCE_FAILED"
  | alreadyExists => "ALREADY_EXISTS"
  | notFound => "STATE_NOT_FOUND"
  | other => "INTERNAL_ERROR"

/-- `^[A-Za-z0-9][A-Za-z0-9._:-]{0,127}$` -/
def safeRecordId : Text → Bool
  | [] => false
  | c :: rest => c.isAlphanum && rest.length ≤ 127 &&
      rest.all fun c => c.isAlphanum || c = '.' || c = '_' || c = ':' || c = '-'

def checkRecordId (id : Text) : Except LifecycleError Unit :=
  if safeRecordId id then .ok () else .error .invalid

/-- The shared envelope of a record file. -/
structure RawEnvelope (J : Type) where
  recordId : Text
  schemaVersion : Int
  revision : Int
  payload : J
  deriving DecidableEq, Repr

structure StateMigrationRecordPreview where
  recordId : Text
  sourceVersion : Nat
  targetVersion : Nat
  sourceRevision : Nat
  sourceChecksum : Text
  targetChecksum : Text
  reverse : Bool
  changed : Bool
  sourceSizeBytes : Nat
  targetSizeBytes : Nat
  deriving DecidableEq, Repr

structure StateMigrationPreview where
  planId : Text
  planDigest : Text
  targetVersion : Nat
  records : List StateMigrationRecordPreview
  migratedRecords : Nat
  unchangedRecords : Nat
  scanTruncated : Bool
  deriving DecidableEq, Repr

inductive CleanupDisposition where
  | expired | countQuota | byteQuota
  deriving DecidableEq, Repr

structure StateCleanupCandidate where
  recordId : Text
  checksum : Text
  sizeBytes : Nat
  createdAt : Text
  disposition : CleanupDisposition
  deriving DecidableEq, Repr

structure StateCleanupPreview where
  planId : Text
  planDigest : Text
  candidates : List StateCleanupCandidate
  protectedRecordIds : List Text
  orphanReferences : List (Text × Text × Text)
  retainedRecords : Nat
  retainedBytes : Nat
  remainingCandidateCount : Nat
  nextCursor : Option Text
  deriving DecidableEq, Repr

/-- JSON, digests and the size bound of a manager. -/
structure LifecycleCodec (J : Type) where
  sha256 : Bytes → Text
  /-- `json.loads`: an object with exactly the fields of the envelope, whose version and revision
  are integers and whose payload is an object. -/
  loads : Bytes → Option (RawEnvelope J)
  /-- `_pretty_bytes`. -/
  pretty : RawEnvelope J → Except LifecycleError Bytes
  maxRecordBytes : Nat
  /-- `_canonical_bytes` of a payload: JSON of at most a million bytes. -/
  canonical : J → Except LifecycleError Unit
  /-- `_sha256` of `_preview_payload`. -/
  previewDigest : Nat → List StateMigrationRecordPreview → Bool → Text
  /-- `_sha256` of `_cleanup_payload`. -/
  cleanupDigest : StateCleanupPreview → Text
  /-- The revision that the codec of the repository reads. -/
  revision : Text → Bytes → Except LifecycleError Nat

structure RawStateRecord (J : Type) where
  recordId : Text
  schemaVersion : Nat
  revision : Nat
  payload : J
  encoded : Bytes
  checksum : Text

section Migrating

variable {J : Type} (codec : LifecycleCodec J)

/-- `_decode_record` of what is at the path. -/
def decodeRecord (id : Text) (file : Option Bytes) : Except LifecycleError (RawStateRecord J) := do
  checkRecordId id
  match file with
  | none => .error .persistenceFailed
  | some encoded =>
    if codec.maxRecordBytes < encoded.length then .error .tooLarge
    else match codec.loads encoded with
      | none => .error .corrupt
      | some raw =>
        if raw.recordId ≠ id then .error .corrupt
        else if raw.schemaVersion ≤ 0 ∨ raw.revision ≤ 0 then .error .corrupt
        else .ok ⟨id, raw.schemaVersion.toNat, raw.revision.toNat, raw.payload, encoded,
          codec.sha256 encoded⟩

abbrev MigrationTransform (J : Type) := J → Except LifecycleError J

/-- `to_version` is the next version. -/
structure StateMigrationStep (J : Type) where
  fromVersion : Nat
  forward : MigrationTransform J
  reverse : Option (MigrationTransform J)

abbrev StateMigrationRegistry (J : Type) := List (StateMigrationStep J)

namespace StateMigrationRegistry

variable (registry : StateMigrationRegistry J)

def latestVersion : Option Nat := (registry.map (·.fromVersion + 1)).max?

def edge (version : Nat) : Except LifecycleError (StateMigrationStep J) :=
  match registry.find? (·.fromVersion = version) with
  | some step => .ok step
  | none => .error .invalid

/-- The transforms of `plan`, in the order `migrate_payload` applies them. -/
def plan (current target : Nat) : Except LifecycleError (List (MigrationTransform J)) :=
  if current = target then .ok []
  else match registry.latestVersion with
    | none => .error .invalid
    | some latest =>
      if latest < current then .error .schemaUnsupported
      else if target < current then
        (List.range (current - target)).mapM fun i => do
          let step ← registry.edge (current - 1 - i)
          match step.reverse with
          | some transform => .ok transform
          | none => .error .invalid
      else (List.range (target - current)).mapM fun i => do
          let step ← registry.edge (current + i)
          .ok step.forward

end StateMigrationRegistry

/-- A transform is a function here, so running it twice shows nothing. -/
def migratePayload (transforms : List (MigrationTransform J)) (payload : J) :
    Except LifecycleError J := do
  codec.canonical payload
  transforms.foldlM (fun current transform => do
    let next ← transform current
    codec.canonical next
    .ok next) payload

/-- The bytes that `_materialize` computes for a record. -/
def targetBytes (registry : StateMigrationRegistry J) (targetVersion : Nat)
    (source : RawStateRecord J) : Except LifecycleError Bytes := do
  let transforms ← registry.plan source.schemaVersion targetVersion
  if source.schemaVersion = targetVersion then .ok source.encoded
  else do
    let payload ← migratePayload codec transforms source.payload
    codec.pretty ⟨source.recordId, targetVersion, source.revision + 1, payload⟩

structure MaterializedMigration where
  preview : StateMigrationRecordPreview
  source : Bytes
  targetBytes : Bytes
  deriving DecidableEq, Repr

/-- One round of `_materialize`. -/
def materializeItem (registry : StateMigrationRegistry J) (targetVersion : Nat)
    (item : StateMigrationRecordPreview) (file : Option Bytes) :
    Except LifecycleError MaterializedMigration := do
  let source ← decodeRecord codec item.recordId file
  if source.checksum ≠ item.sourceChecksum then .error .stale
  else do
    let target ← targetBytes codec registry targetVersion source
    if codec.sha256 target ≠ item.targetChecksum then .error .invalid
    else .ok ⟨item, source.encoded, target⟩

def validatePreview (preview : StateMigrationPreview) : Except LifecycleError Unit :=
  let digest := codec.previewDigest preview.targetVersion preview.records preview.scanTruncated
  if preview.planDigest ≠ digest ∨ preview.planId ≠ "mig-".toList ++ digest.take 24 then
    .error .invalid
  else if preview.scanTruncated then .error .invalid
  else .ok ()

end Migrating

structure StateMigrationReport where
  planId : Text
  processed : Nat
  migrated : Nat
  unchanged : Nat
  rolledBack : Bool
  backupId : Option Text
  deriving DecidableEq, Repr

inductive JournalPhase where
  | prepared | applying | committed | rolledBack
  deriving DecidableEq, Repr

structure MigrationJournal where
  planId : Text
  planDigest : Text
  phase : JournalPhase
  backupId : Text
  report : Option StateMigrationReport
  deriving DecidableEq, Repr

/-- An entry of a backup manifest; the manifest's own digests are never read. -/
structure BackupEntry where
  recordId : Text
  sourceChecksum : Text
  targetChecksum : Text
  sizeBytes : Nat
  deriving DecidableEq, Repr

structure StateCleanupReport where
  planId : Text
  processed : Nat
  deleted : Nat
  protected_ : Nat
  retained : Nat
  reclaimedBytes : Nat
  nextCursor : Option Text
  deriving DecidableEq, Repr

structure CleanupJournal where
  planId : Text
  planDigest : Text
  phase : JournalPhase
  report : Option StateCleanupReport
  deriving DecidableEq, Repr

/-- Who made the version of a record that is there. -/
inductive Author where
  | repository
  | migration (planId : Text)
  | recovery (planId : Text)
  | cleanup (planId : Text)
  deriving DecidableEq, Repr

/-- The files. `author` and `moved` are history: no operation reads them. -/
structure StateRoot where
  records : Text → Option Bytes
  journals : AList fun _ : Text => MigrationJournal
  manifests : Text → Option (List BackupEntry)
  backups : Text → Text → Option Bytes
  cleanups : Text → Option CleanupJournal
  trash : Text → Text → Option Bytes
  author : Text → Author
  /-- The records that the attempts of a cleanup have moved. -/
  moved : Text → Text → Bool

/-- The lifecycle lock has one holder, or any number of shared ones. `verified` is history: the
content of a record that a process has compared with the checksum it expects, or has itself
written, since it took the lock. -/
structure LifecycleWorld where
  root : StateRoot
  exclusive : Option Nat
  sharing : List Nat
  verified : Nat → Text → Option (Option Bytes)

namespace StateRoot

def store (s : StateRoot) (id : Text) (content : Option Bytes) (author : Author) : StateRoot :=
  { s with
    records := Function.update s.records id content
    author := Function.update s.author id author }

def putJournal (s : StateRoot) (planId : Text) (journal : MigrationJournal) : StateRoot :=
  { s with journals := s.journals.insert planId journal }

def putManifest (s : StateRoot) (planId : Text) (entries : List BackupEntry) : StateRoot :=
  { s with manifests := Function.update s.manifests planId (some entries) }

def putBackup (s : StateRoot) (planId id : Text) (content : Bytes) : StateRoot :=
  { s with
    backups := Function.update s.backups planId
      (Function.update (s.backups planId) id (some content)) }

def putCleanup (s : StateRoot) (planId : Text) (journal : CleanupJournal) : StateRoot :=
  { s with cleanups := Function.update s.cleanups planId (some journal) }

def putTrash (s : StateRoot) (planId id : Text) (content : Option Bytes) : StateRoot :=
  { s with trash := Function.update s.trash planId (Function.update (s.trash planId) id content) }

/-- `os.replace(source, trash)`. -/
def moveOut (s : StateRoot) (planId id : Text) : StateRoot :=
  { (s.putTrash planId id (s.records id)).store id none (.cleanup planId) with
    moved := Function.update s.moved planId (Function.update (s.moved planId) id true) }

/-- `os.replace(trash, source)`. -/
def moveBack (s : StateRoot) (planId id : Text) : StateRoot :=
  (s.store id (s.trash planId id) (.cleanup planId)).putTrash planId id none

end StateRoot

/-- The calls of `JsonStateRepository` that change a record, with the bytes they write. -/
inductive RecordCall where
  | create (data : Bytes)
  | save (data : Bytes) (expectedRevision : Nat)
  | delete
  deriving DecidableEq, Repr

inductive LifecycleAction where
  | readJournal (planId : Text)
  | listJournals
  | lock (operation : Text) (planId : Text)
  | unlock
  | materialize (id : Text)
  | backUp (planId id : Text)
  | putManifest (planId : Text)
  | putJournal (planId : Text) (phase : JournalPhase)
  | migrateRecord (planId id : Text)
  | restoreRecord (planId id : Text)
  | readManifest (planId : Text)
  | readBackup (planId id : Text)
  | recoverRecord (planId id : Text)
  | readCleanup (planId : Text)
  | putCleanup (planId : Text) (phase : JournalPhase)
  | inspect (planId id : Text)
  | moveOut (planId id : Text)
  | moveBack (planId id : Text)
  | share
  | unshare
  | change (id : Text) (call : RecordCall)
  deriving DecidableEq, Repr

abbrev LifecycleScript := Script LifecycleAction LifecycleWorld LifecycleError

namespace LifecycleWorld

def onRoot (w : LifecycleWorld) (change : StateRoot → StateRoot) : LifecycleWorld :=
  { w with root := change w.root }

def verify (w : LifecycleWorld) (p : Nat) (id : Text) (content : Option Bytes) : LifecycleWorld :=
  { w with
    verified := Function.update w.verified p
      (Function.update (w.verified p) id (some content)) }

/-- The write of a lifecycle process. -/
def store (w : LifecycleWorld) (p : Nat) (id : Text) (content : Option Bytes) (author : Author) :
    LifecycleWorld :=
  (w.onRoot fun s => s.store id content author).verify p id content

/-- What the end of a process gives back. -/
def release (p : Nat) (w : LifecycleWorld) : LifecycleWorld :=
  { w with
    exclusive := if w.exclusive = some p then none else w.exclusive
    sharing := w.sharing.filter (· ≠ p)
    verified := Function.update w.verified p fun _ => none }

end LifecycleWorld

namespace Lifecycle

/-- `_atomic_write` and the JSON writes over it. -/
def write (tag : LifecycleAction) (change : LifecycleWorld → LifecycleWorld) :
    LifecycleScript Unit :=
  Script.perform ⟨tag, fun _ => true, change, .either⟩

section Locks

variable (p : Nat)

/-- `lock("state-lifecycle-…")`. -/
def lock (operation planId : Text) : Op LifecycleAction LifecycleWorld :=
  ⟨.lock operation planId, fun w => w.exclusive.isNone && w.sharing.isEmpty,
    fun w => { w with exclusive := some p }, .before⟩

def unlock : Op LifecycleAction LifecycleWorld :=
  ⟨.unlock, fun _ => true, LifecycleWorld.release p, .never⟩

/-- `shared_lock("state-lifecycle-…")`. -/
def share : Op LifecycleAction LifecycleWorld :=
  ⟨.share, fun w => w.exclusive.isNone, fun w => { w with sharing := p :: w.sharing }, .before⟩

def unshare : Op LifecycleAction LifecycleWorld :=
  ⟨.unshare, fun _ => true, LifecycleWorld.release p, .never⟩

end Locks

section Migration

variable {J : Type} (codec : LifecycleCodec J) (p : Nat) (preview : StateMigrationPreview)
  (registry : StateMigrationRegistry J)

/-- `_read_existing_report` of what is at the path. -/
def existingReport (journal : Option MigrationJournal) :
    Except LifecycleError (Option StateMigrationReport) :=
  match journal with
  | none => .ok none
  | some journal =>
    if journal.planDigest ≠ preview.planDigest then .error .invalid
    else if journal.phase ≠ .committed then .ok none
    else match journal.report with
      | none => .error .corrupt
      | some report => .ok (some report)

def readExistingReport : LifecycleScript (Option StateMigrationReport) :=
  Script.look (.readJournal preview.planId) fun w =>
    existingReport preview (w.root.journals.lookup preview.planId)

/-- The read and the checks of one record of `_materialize`. -/
def materializeRecord (item : StateMigrationRecordPreview) :
    LifecycleScript MaterializedMigration :=
  .act ⟨.materialize item.recordId, fun _ => true,
      fun w => match materializeItem codec registry preview.targetVersion item
          (w.root.records item.recordId) with
        | .ok _ => w.verify p item.recordId (w.root.records item.recordId)
        | .error _ => w, .before⟩
    (fun w => .ofExcept (materializeItem codec registry preview.targetVersion item
      (w.root.records item.recordId))) .raise

def materialize : List StateMigrationRecordPreview →
    LifecycleScript (List MaterializedMigration)
  | [] => pure []
  | item :: rest => do
    let first ← materializeRecord codec p preview registry item
    let later ← materialize rest
    pure (first :: later)

def writeBackups : List MaterializedMigration → LifecycleScript (List BackupEntry)
  | [] => pure []
  | item :: rest =>
    if item.preview.changed then do
      write (.backUp preview.planId item.preview.recordId)
        (·.onRoot fun s => s.putBackup preview.planId item.preview.recordId item.source)
      let later ← writeBackups rest
      pure (⟨item.preview.recordId, codec.sha256 item.source, item.preview.targetChecksum,
        item.source.length⟩ :: later)
    else writeBackups rest

def writeBackup (materialized : List MaterializedMigration) : LifecycleScript Unit := do
  let entries ← writeBackups codec preview materialized
  write (.putManifest preview.planId) (·.onRoot fun s => s.putManifest preview.planId entries)

def writeJournal (phase : JournalPhase) (report : Option StateMigrationReport) :
    LifecycleScript Unit :=
  write (.putJournal preview.planId phase) (·.onRoot fun s => s.putJournal preview.planId
    ⟨preview.planId, preview.planDigest, phase, preview.planId, report⟩)

/-- The loops over the changed records of `apply_migration` and of `_restore_materialized`. -/
def rewriteRecords (tag : Text → LifecycleAction) (content : MaterializedMigration → Bytes) :
    List MaterializedMigration → LifecycleScript Unit
  | [] => pure ()
  | item :: rest =>
    if item.preview.changed then do
      write (tag item.preview.recordId)
        (·.store p item.preview.recordId (some (content item)) (.migration preview.planId))
      rewriteRecords tag content rest
    else rewriteRecords tag content rest

def migrateRecords (materialized : List MaterializedMigration) : LifecycleScript Unit :=
  rewriteRecords p preview (.migrateRecord preview.planId) (·.targetBytes) materialized

def restoreMaterialized (materialized : List MaterializedMigration) : LifecycleScript Unit :=
  rewriteRecords p preview (.restoreRecord preview.planId) (·.source) materialized

/-- The handler of a failed write: it keeps quiet about its own failure. -/
def rollBack (materialized : List MaterializedMigration) : LifecycleScript Unit := do
  (restoreMaterialized p preview materialized).handle fun _ => pure ()
  writeJournal preview .rolledBack (some ⟨preview.planId, preview.records.length, 0,
    preview.unchangedRecords, true, some preview.planId⟩)
  .raise .persistenceFailed

def migrateLocked : LifecycleScript StateMigrationReport := do
  match ← readExistingReport preview with
  | some report => pure report
  | none => do
    let materialized ← materialize codec p preview registry preview.records
    writeBackup codec preview materialized
    writeJournal preview .prepared none
    writeJournal preview .applying none
    (migrateRecords p preview materialized).handle fun _ => rollBack p preview materialized
    let report := ⟨preview.planId, preview.records.length, preview.migratedRecords,
      preview.unchangedRecords, false, some preview.planId⟩
    writeJournal preview .committed (some report)
    pure report

def applyMigration : LifecycleScript StateMigrationReport := do
  Script.ofExcept (validatePreview codec preview)
  match ← readExistingReport preview with
  | some report => pure report
  | none =>
    if preview.migratedRecords = 0 then
      pure ⟨preview.planId, preview.records.length, 0, preview.unchangedRecords, false, none⟩
    else
      Script.within (lock p "migrate".toList preview.planId) (unlock p)
        (migrateLocked codec p preview registry)

end Migration

section Recovery

variable {J : Type} (codec : LifecycleCodec J) (p : Nat)

/-- The read and the checksum of one backup file. -/
def readBackup (backupId : Text) (entry : BackupEntry) : LifecycleScript Bytes :=
  Script.look (.readBackup backupId entry.recordId) fun w => do
    checkRecordId entry.recordId
    match w.root.backups backupId entry.recordId with
    | none => .error .other
    | some bytes =>
      if codec.sha256 bytes ≠ entry.sourceChecksum then .error .corrupt else .ok bytes

def restoreEntries (planId backupId : Text) : List BackupEntry → LifecycleScript Unit
  | [] => pure ()
  | entry :: rest => do
    let bytes ← readBackup codec backupId entry
    write (.recoverRecord planId entry.recordId)
      (·.store p entry.recordId (some bytes) (.recovery planId))
    restoreEntries planId backupId rest

def readManifest (backupId : Text) : LifecycleScript (List BackupEntry) :=
  Script.look (.readManifest backupId) fun w =>
    match w.root.manifests backupId with
    | none => .error .corrupt
    | some entries => .ok entries

def restoreBackup (journal : MigrationJournal) : LifecycleScript Unit := do
  let entries ← readManifest journal.backupId
  restoreEntries codec p journal.planId journal.backupId entries
  write (.putJournal journal.planId .rolledBack) (·.onRoot fun s => s.putJournal journal.planId
    { journal with
      phase := .rolledBack
      report := some ⟨journal.planId, entries.length, 0, 0, true, some journal.backupId⟩ })

/-- `phase in {"prepared", "applying"}` -/
def incomplete (journal : MigrationJournal) : Bool :=
  journal.phase = .prepared || journal.phase = .applying

def readJournal (planId : Text) : LifecycleScript MigrationJournal :=
  Script.look (.readJournal planId) fun w =>
    match w.root.journals.lookup planId with
    | none => .error .corrupt
    | some journal => .ok journal

def recoverAll : List Text → LifecycleScript (List Text)
  | [] => pure []
  | planId :: rest => do
    let journal ← readJournal planId
    if incomplete journal then do
      Script.within (lock p "recover".toList journal.planId) (unlock p)
        (restoreBackup codec p journal)
      let later ← recoverAll rest
      pure (journal.planId :: later)
    else recoverAll rest

/-- `sorted(journals_root.glob("mig-*.json"))` -/
def listJournals : LifecycleScript (List Text) :=
  Script.look .listJournals fun w => .ok (w.root.journals.keys.insertionSort (· ≤ ·))

def recoverIncompleteMigrations : LifecycleScript (List Text) := do
  let planIds ← listJournals
  recoverAll codec p planIds

end Recovery

section Cleanup

variable {J : Type} (codec : LifecycleCodec J) (p : Nat) (preview : StateCleanupPreview)

def validateCleanupPreview : Except LifecycleError Unit :=
  if preview.planDigest ≠ codec.cleanupDigest preview ∨
      preview.planId ≠ "clean-".toList ++ (codec.cleanupDigest preview).take 24 then
    .error .invalid
  else .ok ()

/-- `_cleanup_report` of the journal. -/
def cleanupReport (journal : CleanupJournal) : Except LifecycleError (Option StateCleanupReport) :=
  if journal.phase ≠ .committed then .ok none
  else match journal.report with
    | none => .error .corrupt
    | some report => .ok (some report)

/-- The look before the lock also compares the digests. -/
def cleanupDone (compare : Bool) (journal : Option CleanupJournal) :
    Except LifecycleError (Option StateCleanupReport) :=
  match journal with
  | none => .ok none
  | some journal =>
    if compare ∧ journal.planDigest ≠ preview.planDigest then .error .invalid
    else cleanupReport journal

def readCleanup (compare : Bool) : LifecycleScript (Option StateCleanupReport) :=
  Script.look (.readCleanup preview.planId) fun w =>
    cleanupDone preview compare (w.root.cleanups preview.planId)

def writeCleanupJournal (phase : JournalPhase) (report : Option StateCleanupReport) :
    LifecycleScript Unit :=
  write (.putCleanup preview.planId phase) (·.onRoot fun s => s.putCleanup preview.planId
    ⟨preview.planId, preview.planDigest, phase, report⟩)

/-- Whether a candidate is to be moved: it is where it was and has not changed, or it lies in the
trash. -/
def candidateThere (item : StateCleanupCandidate) (record trash : Option Bytes) :
    Except LifecycleError Bool :=
  match record, trash with
  | some data, _ => if codec.sha256 data ≠ item.checksum then .error .stale else .ok true
  | none, some data => if codec.sha256 data ≠ item.checksum then .error .corrupt else .ok false
  | none, none => .error .stale

def inspect (item : StateCleanupCandidate) : LifecycleScript Bool :=
  .act ⟨.inspect preview.planId item.recordId, fun _ => true,
      fun w => match candidateThere codec item (w.root.records item.recordId)
          (w.root.trash preview.planId item.recordId) with
        | .ok true => w.verify p item.recordId (w.root.records item.recordId)
        | _ => w, .before⟩
    (fun w => .ofExcept (candidateThere codec item (w.root.records item.recordId)
      (w.root.trash preview.planId item.recordId))) .raise

/-- A rename raises only where it has not happened; the syncs after it swallow their errors. -/
def moveOut (item : StateCleanupCandidate) : LifecycleScript Unit :=
  Script.perform ⟨.moveOut preview.planId item.recordId, fun _ => true,
    fun w => (w.onRoot fun s => s.moveOut preview.planId item.recordId).verify p item.recordId none,
    .before⟩

/-- `if trash.is_file(): os.replace(trash, source)` -/
def moveBack (id : Text) : LifecycleScript Unit :=
  Script.perform ⟨.moveBack preview.planId id, fun _ => true,
    fun w => match w.root.trash preview.planId id with
      | none => w
      | some data =>
        (w.onRoot fun s => s.moveBack preview.planId id).verify p id (some data), .before⟩

def putBack : List Text → LifecycleScript Unit
  | [] => pure ()
  | id :: rest => do
    moveBack p preview id
    putBack rest

/-- The loop, with the records it has moved, the last first, and the exception that ended it. -/
def moveCandidates : List Text → List StateCleanupCandidate →
    LifecycleScript (List Text × Option LifecycleError)
  | moved, [] => pure (moved, none)
  | moved, item :: rest => do
    let outcome ← Script.attempt do
      let there ← inspect codec p preview item
      if there then moveOut p preview item
      pure there
    match outcome with
    | .error e => pure (moved, some e)
    | .ok true => moveCandidates (item.recordId :: moved) rest
    | .ok false => moveCandidates moved rest

def cleanupLocked : LifecycleScript StateCleanupReport := do
  match ← readCleanup preview false with
  | some report => pure report
  | none => do
    writeCleanupJournal preview .applying none
    let outcome ← moveCandidates codec p preview [] preview.candidates
    match outcome.2 with
    | some e => do
      putBack p preview outcome.1
      writeCleanupJournal preview .rolledBack none
      .raise (if e = .other then .invalid else e)
    | none => do
      let report := ⟨preview.planId, preview.candidates.length, preview.candidates.length,
        preview.protectedRecordIds.length, preview.retainedRecords,
        (preview.candidates.map (·.sizeBytes)).sum, preview.nextCursor⟩
      writeCleanupJournal preview .committed (some report)
      pure report

def applyCleanup : LifecycleScript StateCleanupReport := do
  Script.ofExcept (validateCleanupPreview codec preview)
  match ← readCleanup preview true with
  | some report => pure report
  | none =>
    Script.within (lock p "cleanup".toList preview.planId) (unlock p)
      (cleanupLocked codec p preview)

end Cleanup

end Lifecycle

inductive LifecycleCall (J : Type) where
  | migrate (preview : StateMigrationPreview) (registry : StateMigrationRegistry J)
  | recover
  | cleanup (preview : StateCleanupPreview)
  | repository (id : Text) (call : RecordCall)

inductive LifecycleAnswer where
  | migrated (report : StateMigrationReport)
  | recovered (planIds : List Text)
  | cleaned (report : StateCleanupReport)
  | changed
  deriving DecidableEq, Repr

namespace Lifecycle

variable {J : Type} (codec : LifecycleCodec J) (p : Nat)

def recordOutcome (id : Text) (call : RecordCall) (file : Option Bytes) :
    Except LifecycleError (Option Bytes) := do
  checkRecordId id
  match call, file with
  | .create _, some _ => .error .alreadyExists
  | .create data, none => .ok (some data)
  | .save _ _, none => .error .notFound
  | .save data expectedRevision, some current => do
    let revision ← codec.revision id current
    if revision ≠ expectedRevision then .error .stale else .ok (some data)
  | .delete, _ => .ok none

/-- A call that raises changes nothing. -/
def recordChange (id : Text) (call : RecordCall) (w : LifecycleWorld) : LifecycleWorld :=
  match recordOutcome codec id call (w.root.records id) with
  | .ok content => w.onRoot fun s => s.store id content .repository
  | .error _ => w

def changeRecord (id : Text) (call : RecordCall) : LifecycleScript Unit :=
  .act ⟨.change id call, fun _ => true, recordChange codec id call, .either⟩
    (fun w => .ofExcept ((recordOutcome codec id call (w.root.records id)).map fun _ => ())) .raise

/-- `locked`. -/
def repositoryCall (id : Text) (call : RecordCall) : LifecycleScript Unit :=
  Script.within (share p) (unshare p) (changeRecord codec id call)

def program (p : Nat) : LifecycleCall J → LifecycleScript LifecycleAnswer
  | .migrate preview registry => do
    let report ← applyMigration codec p preview registry
    pure (.migrated report)
  | .recover => do
    let planIds ← recoverIncompleteMigrations codec p
    pure (.recovered planIds)
  | .cleanup preview => do
    let report ← applyCleanup codec p preview
    pure (.cleaned report)
  | .repository id call => do
    repositoryCall codec p id call
    pure .changed

def kernel : Kernel Nat (LifecycleCall J) LifecycleAction LifecycleWorld LifecycleError
    LifecycleAnswer :=
  ⟨program codec, LifecycleWorld.release⟩

end Lifecycle

end RepoForge
