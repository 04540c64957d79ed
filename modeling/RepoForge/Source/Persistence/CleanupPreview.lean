import Mathlib.Algebra.Ring.Int.Defs
import RepoForge.Library.PyDict
import RepoForge.Library.SortedListing
import RepoForge.Source.Persistence.StateLifecycle

/-!
# Preview of a cleanup

Source: `preview_cleanup` of `adapters/persistence/json_state_lifecycle.py`, with the retention
types of `domain/state_lifecycle.py`.

`datetime.fromisoformat` is a parameter. Its result has a wall time and perhaps an offset, and
datetimes with offsets are compared by the instant they stand for.
-/
namespace RepoForge

abbrev RecordFiles := AList fun _ : Text => Bytes

structure StateRecordReference where
  sourceRecordId : Text
  targetRecordId : Text
  relation : Text
  deriving DecidableEq, Repr

/-- `^[A-Za-z0-9][A-Za-z0-9._-]{0,max-1}$` -/
def safeName (max : Nat) : Text → Bool
  | [] => false
  | c :: rest => c.isAlphanum && rest.length < max &&
      rest.all fun c => c.isAlphanum || c = '.' || c = '_' || c = '-'

namespace Backups

def maxRecords : Nat := 2000

def check (ok : Bool) (e : LifecycleError) : Except LifecycleError Unit :=
  if ok then .ok () else .error e

theorem check_eq_ok {ok : Bool} {e : LifecycleError} {u : Unit} :
    check ok e = .ok u ↔ ok = true := by
  unfold check
  split <;> simp [*]

def validateStateCollection (collection : Text) : Except LifecycleError Unit :=
  check (safeName 64 collection) .invalid

end Backups

namespace CleanupPreview
open Backups (check maxRecords validateStateCollection)

structure Datetime where
  /-- Microseconds since the first of January of year 1. -/
  wall : Nat
  /-- Microseconds east of UTC. -/
  offset : Option Int
  deriving DecidableEq, Repr

def Datetime.instant (d : Datetime) : Int := d.wall - d.offset.getD 0

/-- `d - timedelta(seconds=seconds)`, which raises before year 1. -/
def Datetime.before (d : Datetime) (seconds : Nat) : Except LifecycleError Datetime :=
  if seconds * 1000000 ≤ d.wall then .ok { d with wall := d.wall - seconds * 1000000 }
  else .error .other

theorem instant_before {d d' : Datetime} {seconds : Nat} (h : d.before seconds = .ok d') :
    d'.instant = d.instant - seconds * 1000000 := by
  unfold Datetime.before at h
  split_ifs at h with enough
  cases h
  simp only [Datetime.instant]
  omega

structure StateRetentionPolicy where
  now : Text
  retentionSeconds : Nat
  maxRecords : Nat
  maxTotalBytes : Nat
  batchSize : Nat
  retentionSeconds_le : retentionSeconds ≤ 10 * 365 * 24 * 60 * 60
  maxRecords_bounds : 1 ≤ maxRecords ∧ maxRecords ≤ 2000000
  maxTotalBytes_bounds : 1 ≤ maxTotalBytes ∧ maxTotalBytes ≤ 2 ^ 50
  batchSize_bounds : 1 ≤ batchSize ∧ batchSize ≤ 2000

structure StateProtection where
  recordId : Text
  reason : Text
  recordId_valid : safeRecordId recordId = true
  reason_valid : safeRecordId reason = true

/-- `value.replace("Z", "+00:00")` -/
def utc (value : Text) : Text := value.flatMap fun c => if c = 'Z' then "+00:00".toList else [c]

/-- The proof that every membership of ids below is decided with. -/
theorem lawfulText : LawfulBEq Text := inferInstance

attribute [local instance] lawfulText

section Selection

variable {J : Type} (ordered : List (RawStateRecord J)) (protectedIds : List Text)

abbrev Dispositions := List (Text × CleanupDisposition)

def remaining (dispositions : Dispositions) : List (RawStateRecord J) :=
  ordered.filter fun item => (PyDict.get dispositions item.recordId).isNone

def nextUnprotected (dispositions : Dispositions) : Option (RawStateRecord J) :=
  (remaining ordered dispositions).find? fun item => decide (item.recordId ∉ protectedIds)

def totalBytes (records : List (RawStateRecord J)) : Nat := (records.map (·.encoded.length)).sum

theorem remaining_assign_lt {dispositions : Dispositions} {disposition : CleanupDisposition}
    {candidate : RawStateRecord J}
    (found : nextUnprotected ordered protectedIds dispositions = some candidate) :
    (remaining ordered (PyDict.assign dispositions candidate.recordId disposition)).length <
      (remaining ordered dispositions).length := by
  have here := List.mem_of_find?_eq_some found
  have fewer : remaining ordered (PyDict.assign dispositions candidate.recordId disposition) =
      (remaining ordered dispositions).filter fun item =>
        decide (item.recordId ≠ candidate.recordId) := by
    rw [remaining, remaining, List.filter_filter]
    apply List.filter_congr
    intro item _
    rw [PyDict.get_assign]
    split_ifs with same <;> simp [same]
  rw [fewer]
  apply List.length_filter_lt_length_iff_exists.mpr
  exact ⟨candidate, here, by simp⟩

/-- The loops of the two quotas: as long as too much remains, the first record that nothing
protects goes. -/
def evict (exceeds : List (RawStateRecord J) → Bool) (disposition : CleanupDisposition)
    (dispositions : Dispositions) : Dispositions :=
  if exceeds (remaining ordered dispositions) then
    match _found : nextUnprotected ordered protectedIds dispositions with
    | none => dispositions
    | some candidate =>
      evict exceeds disposition (PyDict.assign dispositions candidate.recordId disposition)
  else dispositions
termination_by (remaining ordered dispositions).length
decreasing_by exact remaining_assign_lt ordered protectedIds _found

/-- The records that are older than the cutoff, unless they are protected. -/
def expire (expired : RawStateRecord J → Bool) : Dispositions :=
  ordered.foldl (fun dispositions record =>
    if record.recordId ∉ protectedIds ∧ expired record then
      PyDict.assign dispositions record.recordId .expired
    else dispositions) []

end Selection

section Preview

variable {J : Type} (codec : LifecycleCodec J) (fromisoformat : Text → Option Datetime)

def retentionTime (value : Text) : Except LifecycleError Datetime :=
  match fromisoformat (utc value) with
  | none => .error .invalid
  | some parsed => if parsed.offset.isNone then .error .invalid else .ok parsed

/-- `protected`: the protections and the targets of references whose two records are present. -/
def protectedRecords (ids : List Text) (protections : List StateProtection)
    (references : List StateRecordReference) : List Text :=
  (protections.map (·.recordId)).filter (fun id => decide (id ∈ ids)) ++
    (references.filter fun reference => decide (reference.sourceRecordId ∈ ids) &&
      decide (reference.targetRecordId ∈ ids)).map (·.targetRecordId)

def orphanReferences (ids : List Text) (references : List StateRecordReference) :
    List (Text × Text × Text) :=
  (references.filter fun reference => decide (reference.sourceRecordId ∈ ids) &&
    decide (reference.targetRecordId ∉ ids)).map fun reference =>
      (reference.sourceRecordId, reference.targetRecordId, reference.relation)

/-- The variables of `preview_cleanup` once its input is checked. -/
structure CleanupScan (J : Type) where
  records : List (RawStateRecord J)
  timestamps : List (Text × Datetime)
  protectedIds : List Text
  orphans : List (Text × Text × Text)
  cutoff : Datetime

def scanCleanup (collection : Text) (files : RecordFiles) (policy : StateRetentionPolicy)
    (recordTimestamps : List (Text × Text)) (protections : List StateProtection)
    (references : List StateRecordReference) : Except LifecycleError (CleanupScan J) := do
  validateStateCollection collection
  let paths := files.keys.insertionSort fun a b => a ++ ".json".toList ≤ b ++ ".json".toList
  check (paths.length ≤ maxRecords) .tooLarge
  let records ← paths.mapM fun id => decodeRecord codec id (files.lookup id)
  let ids : List Text := records.map (·.recordId)
  let covered : List Text := recordTimestamps.map (·.1)
  check (covered.all (fun id => decide (id ∈ ids)) && ids.all fun id => decide (id ∈ covered)) .invalid
  let timestamps ← recordTimestamps.mapM fun item =>
    (retentionTime fromisoformat item.2).map fun parsed => (item.1, parsed)
  let now ← retentionTime fromisoformat policy.now
  let cutoff ← now.before policy.retentionSeconds
  .ok ⟨records, timestamps, protectedRecords ids protections references,
    orphanReferences ids references, cutoff⟩

namespace CleanupScan

variable (scan : CleanupScan J) (policy : StateRetentionPolicy)

/-- `timestamps[record_id]`; every record has one. -/
def timestamp (record : RawStateRecord J) : Int :=
  ((PyDict.get scan.timestamps record.recordId).map Datetime.instant).getD 0

def age (record : RawStateRecord J) : Int ×ₗ Text := toLex (scan.timestamp record, record.recordId)

def ordered : List (RawStateRecord J) := sortBy scan.age scan.records

def expired (record : RawStateRecord J) : Bool := scan.timestamp record < scan.cutoff.instant

def dispositions : Dispositions :=
  let expired := expire scan.ordered scan.protectedIds scan.expired
  let counted := evict scan.ordered scan.protectedIds
    (fun remaining => decide (policy.maxRecords < remaining.length)) .countQuota expired
  evict scan.ordered scan.protectedIds
    (fun remaining => decide (policy.maxTotalBytes < totalBytes remaining)) .byteQuota counted

def allCandidates (recordTimestamps : List (Text × Text)) : List StateCleanupCandidate :=
  scan.ordered.filterMap fun record =>
    (PyDict.get (scan.dispositions policy) record.recordId).map fun disposition =>
      { recordId := record.recordId
        checksum := record.checksum
        sizeBytes := record.encoded.length
        createdAt := (PyDict.get recordTimestamps record.recordId).getD []
        disposition }

def retained : List (RawStateRecord J) := remaining scan.ordered (scan.dispositions policy)

end CleanupScan

/-- `sorted` of a set of ids -/
def sortedIds (ids : List Text) : List Text := ids.dedup.insertionSort (· ≤ ·)

def previewOf (scan : CleanupScan J) (policy : StateRetentionPolicy)
    (recordTimestamps : List (Text × Text)) : StateCleanupPreview :=
  let allCandidates := scan.allCandidates policy recordTimestamps
  let candidates := allCandidates.take policy.batchSize
  let remainingCandidateCount := allCandidates.length - candidates.length
  let payload : StateCleanupPreview :=
    { planId := []
      planDigest := []
      candidates
      protectedRecordIds := sortedIds scan.protectedIds
      orphanReferences := sortBy (fun r => toLex (r.1, toLex (r.2.1, r.2.2))) scan.orphans
      retainedRecords := (scan.retained policy).length
      retainedBytes := totalBytes (scan.retained policy)
      remainingCandidateCount
      nextCursor := if remainingCandidateCount = 0 then none
        else candidates.getLast?.map (·.recordId) }
  let digest := codec.cleanupDigest payload
  { payload with
    planId := "clean-".toList ++ digest.take 24
    planDigest := digest }

def previewCleanup (collection : Text) (files : RecordFiles) (policy : StateRetentionPolicy)
    (recordTimestamps : List (Text × Text)) (protections : List StateProtection)
    (references : List StateRecordReference) : Except LifecycleError StateCleanupPreview := do
  let scan ← scanCleanup codec fromisoformat collection files policy recordTimestamps protections
    references
  .ok (previewOf codec scan policy recordTimestamps)

end Preview

end CleanupPreview
end RepoForge

/-!
## Pruning of the evidence store

`prune` of `adapters/persistence/json_evidence_store.py`, with `_retention_time`,
`_remaining_items`, `_garbage_collect_artifacts` and `_total_bytes`, under its lock and with a disk
that does what it is asked. Every `ev-*.json` is readable, so an item file is the item that `read`
returns of it and its size. `datetime.fromisoformat` is a parameter.
-/
namespace RepoForge.EvidenceStore
open CleanupPreview (Datetime utc)

structure EvidenceItem where
  evidenceId : Text
  createdAt : Text
  /-- The digest of `provenance.artifact`. -/
  artifact : Option Text
  /-- `st_size` of its file -/
  size : Nat
  deriving DecidableEq, Repr

/-- The two directories, each in the order of its names. -/
structure Store where
  items : List EvidenceItem
  /-- The bytes of the other `*.json` files. -/
  otherBytes : Nat
  /-- The stems and sizes of the `*.blob` files. -/
  artifacts : List (Text × Nat)
  items_sorted : (items.map (·.evidenceId)).Pairwise (· < ·)
  artifacts_sorted : (artifacts.map (·.1)).Pairwise (· < ·)

inductive EvidenceError where
  | invalid (message : String)
  | overflow
  deriving DecidableEq, Repr

structure EvidenceRetentionReport where
  deletedForAge : Nat
  deletedForCount : Nat
  deletedForBytes : Nat
  deletedArtifacts : Nat
  protectedItems : Nat
  remainingItems : Nat
  totalBytes : Nat
  deriving DecidableEq, Repr

structure PruneRequest where
  now : Text
  retentionSeconds : Int
  maxItems : Int
  maxTotalBytes : Int
  protectedEvidenceIds : List Text

/-- `^ev-[a-f0-9]{24}$` -/
def isEvidenceId (t : Text) : Bool :=
  "ev-".toList.isPrefixOf t && decide (t.length = 27) && (t.drop 3).all lowerHex

def validateEvidenceId (value : Text) : Except EvidenceError Text :=
  if isEvidenceId value then .ok value else .error (.invalid "evidence_id has an invalid format")

namespace Store

def unlinkItem (s : Store) (id : Text) : Store where
  items := s.items.filter fun item => decide (item.evidenceId ≠ id)
  otherBytes := s.otherBytes
  artifacts := s.artifacts
  items_sorted := s.items_sorted.sublist (List.filter_sublist.map _)
  artifacts_sorted := s.artifacts_sorted

def unlinkArtifacts (s : Store) (kept : Text × Nat → Bool) : Store where
  items := s.items
  otherBytes := s.otherBytes
  artifacts := s.artifacts.filter kept
  items_sorted := s.items_sorted
  artifacts_sorted := s.artifacts_sorted.sublist (List.filter_sublist.map _)

/-- `_total_bytes` -/
def totalBytes (s : Store) : Nat :=
  (s.items.map (·.size)).sum + s.otherBytes + (s.artifacts.map (·.2)).sum

/-- `_remaining_items` -/
def remainingItems (s : Store) : List EvidenceItem := s.items

end Store

/-- `referenced` -/
def referenced (items : List EvidenceItem) : List Text := items.filterMap (·.artifact)

/-- `_garbage_collect_artifacts` -/
def garbageCollectArtifacts (s : Store) (items : List EvidenceItem) : Store × Nat :=
  (s.unlinkArtifacts fun artifact => decide (artifact.1 ∈ referenced items),
    (s.artifacts.filter fun artifact => decide (artifact.1 ∉ referenced items)).length)

/-- The key of the sorting, two strings. -/
def age (item : EvidenceItem) : Text ×ₗ Text := toLex (item.createdAt, item.evidenceId)

/-- `candidate`: the first in the order of age that is not protected. -/
def candidate (protectedExisting : List Text) (items : List EvidenceItem) : Option EvidenceItem :=
  (sortBy age items).find? fun item => decide (item.evidenceId ∉ protectedExisting)

def without (items : List EvidenceItem) (gone : EvidenceItem) : List EvidenceItem :=
  items.filter fun item => decide (item.evidenceId ≠ gone.evidenceId)

theorem without_lt {protectedExisting : List Text} {items : List EvidenceItem} {gone : EvidenceItem}
    (found : candidate protectedExisting items = some gone) :
    (without items gone).length < items.length := by
  have here : gone ∈ items := mem_sortBy.mp (List.mem_of_find?_eq_some found)
  exact List.length_filter_lt_length_iff_exists.mpr ⟨gone, here, by simp⟩

section Loops
variable (protectedExisting : List Text)

/-- The loop of `max_items`: the store, its items and how many went. -/
def pruneForCount (maxItems : Int) (s : Store) (items : List EvidenceItem) (deleted : Nat) :
    Store × List EvidenceItem × Nat :=
  if maxItems < items.length then
    match _found : candidate protectedExisting items with
    | none => (s, items, deleted)
    | some gone =>
      pruneForCount maxItems (s.unlinkItem gone.evidenceId) (without items gone) (deleted + 1)
  else (s, items, deleted)
termination_by items.length
decreasing_by exact without_lt _found

structure ByteLoop where
  store : Store
  items : List EvidenceItem
  deletedBytes : Nat
  deletedArtifacts : Nat
  totalBytes : Nat

/-- The loop of `max_total_bytes`. -/
def pruneForBytes (maxTotalBytes : Int) (loop : ByteLoop) : ByteLoop :=
  if maxTotalBytes < loop.totalBytes then
    match _found : candidate protectedExisting loop.items with
    | none => loop
    | some gone =>
      let items := without loop.items gone
      let (store, collected) :=
        garbageCollectArtifacts (loop.store.unlinkItem gone.evidenceId) items
      pruneForBytes maxTotalBytes
        { store
          items
          deletedBytes := loop.deletedBytes + 1
          deletedArtifacts := loop.deletedArtifacts + collected
          totalBytes := store.totalBytes }
  else loop
termination_by loop.items.length
decreasing_by exact without_lt _found

end Loops

section Prune
variable (fromisoformat : Text → Option Datetime)

/-- `_retention_time` -/
def retentionTime (value : Text) (field : String) : Except EvidenceError Datetime :=
  match fromisoformat (utc value) with
  | none => .error (.invalid (field ++ " must be an ISO-8601 timestamp"))
  | some parsed =>
    if parsed.offset.isNone then .error (.invalid (field ++ " must include a timezone offset"))
    else .ok parsed

/-- `now - timedelta(seconds=retention_seconds)` -/
def cutoffOf (now : Datetime) (retentionSeconds : Nat) : Except EvidenceError Datetime :=
  (now.before retentionSeconds).mapError fun _ => .overflow

/-- The loop over the items in the order of age. -/
def pruneForAge (protectedExisting : List Text) (cutoff : Datetime) :
    List EvidenceItem → Store → Nat → Except EvidenceError (Store × Nat)
  | [], s, deleted => .ok (s, deleted)
  | item :: rest, s, deleted =>
    if item.evidenceId ∈ protectedExisting then pruneForAge protectedExisting cutoff rest s deleted
    else do
      let created ← retentionTime fromisoformat item.createdAt "created_at"
      if created.instant < cutoff.instant then
        pruneForAge protectedExisting cutoff rest (s.unlinkItem item.evidenceId) (deleted + 1)
      else pruneForAge protectedExisting cutoff rest s deleted

def prune (s : Store) (request : PruneRequest) :
    Except EvidenceError (EvidenceRetentionReport × Store) := do
  if request.retentionSeconds < 0 ∨ request.maxItems < 1 ∨ request.maxTotalBytes < 1 then
    .error (.invalid "evidence retention bounds are invalid")
  let ids ← request.protectedEvidenceIds.mapM validateEvidenceId
  let now ← retentionTime fromisoformat request.now "retention now"
  let cutoff ← cutoffOf now request.retentionSeconds.toNat
  let items := s.remainingItems
  let protectedExisting := ids.dedup.filter fun id => decide (id ∈ items.map (·.evidenceId))
  let (s, deletedAge) ←
    pruneForAge fromisoformat protectedExisting cutoff (sortBy age items) s 0
  let (s, items, deletedCount) :=
    pruneForCount protectedExisting request.maxItems s s.remainingItems 0
  let (s, deletedArtifacts) := garbageCollectArtifacts s items
  let loop := pruneForBytes protectedExisting request.maxTotalBytes
    { store := s
      items
      deletedBytes := 0
      deletedArtifacts
      totalBytes := s.totalBytes }
  .ok ({ deletedForAge := deletedAge
         deletedForCount := deletedCount
         deletedForBytes := loop.deletedBytes
         deletedArtifacts := loop.deletedArtifacts
         protectedItems := protectedExisting.length
         remainingItems := loop.items.length
         totalBytes := loop.totalBytes }, loop.store)

end Prune

end RepoForge.EvidenceStore
