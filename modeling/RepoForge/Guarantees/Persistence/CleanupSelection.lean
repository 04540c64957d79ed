import RepoForge.Guarantees.Persistence.MigrationAtomic
import RepoForge.Library.SortedListing
import RepoForge.Source.Persistence.CleanupPreview

/-!
# What a cleanup selects

After each of the three passes the dispositions are those of the first `n` unprotected records in
the order of age, for some `n` (`Goes`). The pass over the expired finds such an `n` because the
records are in that order; each loop of a quota only raises it, and no further than it must
(`evict_goes`).
-/
namespace RepoForge.CleanupPreview
open OldestFirst Backups
open Lifecycle (sampleCodec)

attribute [local instance] lawfulText

variable {J : Type} {ordered : List (RawStateRecord J)} {protectedIds : List Text}

/-- Nothing protects the record. -/
def unprotected (protectedIds : List Text) (record : RawStateRecord J) : Bool :=
  decide (record.recordId ∉ protectedIds)

/-- The first `n` unprotected records have dispositions, no others. -/
def Goes (ordered : List (RawStateRecord J)) (protectedIds : List Text) (d : Dispositions) (n : Nat) :
    Prop :=
  ∀ id, (PyDict.get d id).isSome = true ↔
    id ∈ (front (unprotected protectedIds) ordered n).map (·.recordId)

/-- What the passes leave when the first `n` unprotected records go. -/
abbrev left (ordered : List (RawStateRecord J)) (protectedIds : List Text) (n : Nat) :
    List (RawStateRecord J) :=
  leave (·.recordId) (unprotected protectedIds) ordered n

theorem left_eq (n : Nat) : ordered.filter (fun record => decide (record.recordId ∉
    (front (unprotected protectedIds) ordered n).map (·.recordId))) = left ordered protectedIds n := by
  apply List.filter_congr
  intro record _
  simp

theorem Goes.remaining_eq {d : Dispositions} {n : Nat} (h : Goes ordered protectedIds d n) :
    remaining ordered d = left ordered protectedIds n := by
  rw [remaining, left, leave]
  apply List.filter_congr
  intro item _
  rw [Bool.eq_iff_iff, Option.isNone_iff_eq_none, ← Option.not_isSome_iff_eq_none, h]
  simp

theorem Goes.nextUnprotected_eq {d : Dispositions} {n : Nat} (h : Goes ordered protectedIds d n)
    (distinct : (ordered.map (·.recordId)).Nodup) :
    nextUnprotected ordered protectedIds d = (ordered.filter (unprotected protectedIds))[n]? := by
  rw [nextUnprotected, h.remaining_eq]
  exact find_leave distinct n

theorem Goes.next {d : Dispositions} {n : Nat} {disposition : CleanupDisposition}
    {candidate : RawStateRecord J} (h : Goes ordered protectedIds d n)
    (next : (ordered.filter (unprotected protectedIds))[n]? = some candidate) :
    Goes ordered protectedIds (PyDict.assign d candidate.recordId disposition) (n + 1) := by
  intro id
  rw [front_succ next, PyDict.get_assign, List.map_append, List.mem_append]
  split_ifs with same
  · simp [same]
  · rw [h]
    simp [same]

/-- A loop lets go as many more as it must, or all. -/
theorem evict_goes (distinct : (ordered.map (·.recordId)).Nodup)
    (exceeds : List (RawStateRecord J) → Bool) (disposition : CleanupDisposition) {d : Dispositions}
    {n : Nat} (h : Goes ordered protectedIds d n) :
    ∃ m, n ≤ m ∧ Goes ordered protectedIds (evict ordered protectedIds exceeds disposition d) m ∧
      (exceeds (left ordered protectedIds m) = false ∨
        (ordered.filter (unprotected protectedIds)).length ≤ m) ∧
      (exceeds (left ordered protectedIds n) = false → m = n) := by
  fun_induction evict ordered protectedIds exceeds disposition d generalizing n with
  | case1 d tooMuch none =>
    rw [h.nextUnprotected_eq distinct, List.getElem?_eq_none_iff] at none
    exact ⟨n, le_rfl, h, .inr none, fun _ => rfl⟩
  | case2 d tooMuch candidate found ih =>
    rw [h.nextUnprotected_eq distinct] at found
    obtain ⟨m, le, goes, ends, -⟩ := ih (h.next found)
    refine ⟨m, by omega, goes, ends, ?_⟩
    intro fits
    rw [h.remaining_eq, fits] at tooMuch
    cases tooMuch
  | case3 d fits =>
    rw [h.remaining_eq, Bool.not_eq_true] at fits
    exact ⟨n, le_rfl, h, .inl fits, fun _ => rfl⟩

/-- A test that no record passes after one that fails it. -/
theorem filter_eq_take {α : Type} {p : α → Bool} {items : List α}
    (sorted : items.Pairwise fun a b => p b = true → p a = true) :
    items.filter p = items.take (items.filter p).length := by
  induction items with
  | nil => rfl
  | cons x rest ih =>
    rw [List.pairwise_cons] at sorted
    by_cases first : p x = true
    · rw [List.filter_cons_of_pos first, List.length_cons, List.take_succ_cons, ← ih sorted.2]
    · have others : rest.filter p = [] := by
        rw [List.filter_eq_nil_iff]
        exact fun y here passes => first (sorted.1 y here passes)
      rw [List.filter_cons_of_neg first, others]
      rfl

theorem get_expire (expired : RawStateRecord J → Bool) (d : Dispositions) (id : Text) :
    (PyDict.get (ordered.foldl (fun dispositions record =>
      if record.recordId ∉ protectedIds ∧ expired record then
        PyDict.assign dispositions record.recordId .expired
      else dispositions) d) id).isSome = true ↔
      (PyDict.get d id).isSome = true ∨
        id ∈ ((ordered.filter (unprotected protectedIds)).filter expired).map (·.recordId) := by
  induction ordered generalizing d with
  | nil => simp
  | cons record rest ih =>
    rw [List.foldl_cons, ih]
    by_cases free : unprotected protectedIds record = true
    · have open_ : record.recordId ∉ protectedIds := of_decide_eq_true free
      by_cases old : expired record = true
      · rw [if_pos ⟨open_, old⟩, PyDict.get_assign, List.filter_cons_of_pos free,
          List.filter_cons_of_pos old, List.map_cons, List.mem_cons]
        split_ifs with same
        · simp [same]
        · simp [same]
      · rw [if_neg (fun both => old both.2), List.filter_cons_of_pos free,
          List.filter_cons_of_neg old]
    · have held : ¬ record.recordId ∉ protectedIds := fun open_ => free (decide_eq_true open_)
      rw [if_neg (fun both => held both.1), List.filter_cons_of_neg free]

/-- The records in the order of age, the expired first. -/
theorem expire_goes {expired : RawStateRecord J → Bool}
    (sorted : ordered.Pairwise fun a b => expired b = true → expired a = true) :
    Goes ordered protectedIds (expire ordered protectedIds expired)
      ((ordered.filter (unprotected protectedIds)).filter expired).length := by
  intro id
  rw [expire, get_expire, front, ← filter_eq_take (sorted.sublist List.filter_sublist)]
  simp [PyDict.get_nil]

section Accepted

variable {codec : LifecycleCodec J} {fromisoformat : Text → Option Datetime} {collection : Text}
  {files : RecordFiles} {policy : StateRetentionPolicy} {recordTimestamps : List (Text × Text)}
  {protections : List StateProtection} {references : List StateRecordReference}
  {scan : CleanupScan J}

/-- A protection names the record, or a reference of a present record does. -/
def held (files : RecordFiles) (protections : List StateProtection)
    (references : List StateRecordReference) (id : Text) : Bool :=
  protections.any (fun protection => decide (protection.recordId = id)) ||
    references.any fun reference =>
      decide (reference.sourceRecordId ∈ files.keys) && decide (reference.targetRecordId = id)

theorem recordId_of_decode {id : Text} {file : Option Bytes} {record : RawStateRecord J}
    (h : decodeRecord codec id file = .ok record) : record.recordId = id := by
  unfold decodeRecord at h
  obtain ⟨_, -, h⟩ := bind_ok h
  cases file with
  | none => cases h
  | some encoded =>
    simp only at h
    split at h
    · cases h
    · split at h
      · cases h
      · split_ifs at h
        cases h
        rfl

theorem mem_protectedRecords {ids : List Text} {id : Text} (present : id ∈ ids) :
    id ∈ protectedRecords ids protections references ↔
      (∃ protection ∈ protections, protection.recordId = id) ∨
        ∃ reference ∈ references, reference.sourceRecordId ∈ ids ∧ reference.targetRecordId = id := by
  simp only [protectedRecords, List.mem_append, List.mem_filter, List.mem_map, decide_eq_true_eq,
    Bool.and_eq_true]
  constructor
  · rintro (⟨⟨protection, here, rfl⟩, -⟩ | ⟨reference, ⟨here, source, -⟩, rfl⟩)
    · exact .inl ⟨protection, here, rfl⟩
    · exact .inr ⟨reference, here, source, rfl⟩
  · rintro (⟨protection, here, rfl⟩ | ⟨reference, here, source, rfl⟩)
    · exact .inl ⟨⟨protection, here, rfl⟩, present⟩
    · exact .inr ⟨reference, ⟨here, source, present⟩, rfl⟩

/-- The scanned records are those of the collection, each with the instant of its timestamp, in the
order of instants and ids; the cutoff lies the retention before now. -/
structure Scans (fromisoformat : Text → Option Datetime) (files : RecordFiles)
    (policy : StateRetentionPolicy) (recordTimestamps : List (Text × Text))
    (scan : CleanupScan J) : Prop where
  records : (scan.ordered.map (·.recordId)).Perm files.keys
  sorted : scan.ordered.Pairwise fun a b =>
    toLex (scan.timestamp a, a.recordId) ≤ toLex (scan.timestamp b, b.recordId)
  timestamp : ∀ record ∈ scan.ordered, ∃ value parsed,
    PyDict.get recordTimestamps record.recordId = some value ∧
      retentionTime fromisoformat value = .ok parsed ∧ scan.timestamp record = parsed.instant
  cutoff : ∃ now, retentionTime fromisoformat policy.now = .ok now ∧
    scan.cutoff.instant = now.instant - policy.retentionSeconds * 1000000

theorem get_timestamps {timestamps : List (Text × Datetime)}
    (read : List.Forall₂ (fun item parsed => (retentionTime fromisoformat item.2).map (fun d =>
      (item.1, d)) = .ok parsed) recordTimestamps timestamps) {id : Text}
    (listed : id ∈ recordTimestamps.map (·.1)) :
    ∃ value parsed, PyDict.get recordTimestamps id = some value ∧
      retentionTime fromisoformat value = .ok parsed ∧ PyDict.get timestamps id = some parsed := by
  induction read with
  | nil => cases listed
  | @cons item entry items entries first _ ih =>
    cases parses : retentionTime fromisoformat item.2 with
    | error e =>
      rw [parses] at first
      cases first
    | ok parsed =>
      rw [parses] at first
      cases first
      by_cases same : item.1 = id
      · exact ⟨item.2, parsed, by rw [PyDict.get_cons, if_pos same], parses,
          by rw [PyDict.get_cons, if_pos same]⟩
      · have later : id ∈ items.map (·.1) := by
          rcases List.mem_cons.mp listed with here | there
          · exact absurd here.symm same
          · exact there
        obtain ⟨value, d, got, reads, got'⟩ := ih later
        exact ⟨value, d, by rw [PyDict.get_cons, if_neg same, got], reads,
          by rw [PyDict.get_cons, if_neg same, got']⟩

/-- What is known of a scan that was not refused. -/
theorem scanCleanup_ok (h : scanCleanup codec fromisoformat collection files policy recordTimestamps
      protections references = .ok scan) :
    Scans fromisoformat files policy recordTimestamps scan ∧
      ∀ record ∈ scan.ordered, unprotected scan.protectedIds record =
        !held files protections references record.recordId := by
  unfold scanCleanup at h
  obtain ⟨_, -, h⟩ := bind_ok h
  obtain ⟨_, -, h⟩ := bind_ok h
  obtain ⟨records, read, h⟩ := bind_ok h
  obtain ⟨_, covers, h⟩ := bind_ok h
  obtain ⟨timestamps, parsed, h⟩ := bind_ok h
  obtain ⟨now, current, h⟩ := bind_ok h
  obtain ⟨cutoff, earlier, h⟩ := bind_ok h
  cases h
  have covers := check_eq_ok.mp covers
  simp only [Bool.and_eq_true, List.all_eq_true, decide_eq_true_eq] at covers
  have aligned := (mapM_ok read).imp fun _ _ one => (recordId_of_decode one).symm
  have ids : records.map (·.recordId) =
      files.keys.insertionSort fun a b => a ++ ".json".toList ≤ b ++ ".json".toList :=
    (List.forall₂_eq_eq_eq ▸ (List.forall₂_map_right_iff.mpr aligned)).symm
  have perm : (records.map (·.recordId)).Perm files.keys := by
    rw [ids]
    exact List.perm_insertionSort _ _
  refine ⟨⟨(perm_sortBy.map _).trans perm, sortBy_sorted, ?_, ⟨now, current, instant_before earlier⟩⟩,
    ?_⟩
  · intro record here
    have present : record.recordId ∈ records.map (·.recordId) :=
      List.mem_map_of_mem (mem_sortBy.mp here)
    obtain ⟨value, d, got, reads, got'⟩ := get_timestamps (mapM_ok parsed)
      (covers.2 _ present)
    exact ⟨value, d, got, reads, by rw [CleanupScan.timestamp, got']; rfl⟩
  · intro record here
    have present : record.recordId ∈ records.map (·.recordId) :=
      List.mem_map_of_mem (mem_sortBy.mp here)
    rw [unprotected, Bool.eq_iff_iff, decide_eq_true_eq, mem_protectedRecords present]
    simp only [held, perm.mem_iff, Bool.not_eq_true', Bool.or_eq_false_iff, List.any_eq_false,
      Bool.and_eq_true, decide_eq_true_eq]
    grind

theorem expired_sorted (scan : CleanupScan J) :
    scan.ordered.Pairwise fun a b => scan.expired b = true → scan.expired a = true := by
  have sorted : scan.ordered.Pairwise fun a b => scan.age a ≤ scan.age b := sortBy_sorted
  apply sorted.imp
  intro a b le old
  have earlier : scan.timestamp a ≤ scan.timestamp b := by
    rcases Prod.Lex.le_iff.mp le with less | ⟨same, -⟩
    · exact less.le
    · exact same.le
  simp only [CleanupScan.expired, decide_eq_true_eq] at old ⊢
  omega

theorem removed_eq (recordTimestamps : List (Text × Text)) (n : Nat) {policy : StateRetentionPolicy}
    (distinct : (scan.ordered.map (·.recordId)).Nodup)
    (goes : Goes scan.ordered scan.protectedIds (scan.dispositions policy) n) :
    (scan.allCandidates policy recordTimestamps).map (·.recordId) =
      (front (unprotected scan.protectedIds) scan.ordered n).map (·.recordId) := by
  rw [← filter_front distinct, CleanupScan.allCandidates, List.map_filterMap, ← List.filterMap_eq_map,
    ← List.filterMap_eq_filter, List.filterMap_filterMap]
  apply List.filterMap_congr
  intro record _
  have listed := goes record.recordId
  cases disposition : PyDict.get (scan.dispositions policy) record.recordId with
  | none =>
    rw [disposition] at listed
    simp only [Option.isSome_none, Bool.false_eq_true, false_iff] at listed
    simp [Option.guard, listed]
  | some d =>
    rw [disposition] at listed
    simp only [Option.isSome_some, true_iff] at listed
    simp [Option.guard, listed]

/-- The dispositions are those of the first unprotected records, of at least all that are expired,
and of no more where the others fit. -/
theorem dispositions_goes (policy : StateRetentionPolicy)
    (distinct : (scan.ordered.map (·.recordId)).Nodup) :
    let expired := ((scan.ordered.filter (unprotected scan.protectedIds)).filter scan.expired).length
    ∃ n, expired ≤ n ∧ Goes scan.ordered scan.protectedIds (scan.dispositions policy) n ∧
      ((left scan.ordered scan.protectedIds n).length ≤ policy.maxRecords ∧
          totalBytes (left scan.ordered scan.protectedIds n) ≤ policy.maxTotalBytes ∨
        (scan.ordered.filter (unprotected scan.protectedIds)).length ≤ n) ∧
      ((left scan.ordered scan.protectedIds expired).length ≤ policy.maxRecords →
        totalBytes (left scan.ordered scan.protectedIds expired) ≤ policy.maxTotalBytes →
        n = expired) := by
  intro expired
  have first : Goes scan.ordered scan.protectedIds
      (expire scan.ordered scan.protectedIds scan.expired) expired := expire_goes (expired_sorted scan)
  obtain ⟨m, more, counted, countEnds, countKeeps⟩ := evict_goes distinct
    (fun remaining => decide (policy.maxRecords < remaining.length)) .countQuota first
  obtain ⟨n, still, goes, byteEnds, byteKeeps⟩ := evict_goes distinct
    (fun remaining => decide (policy.maxTotalBytes < totalBytes remaining)) .byteQuota counted
  simp only [decide_eq_false_iff_not, Nat.not_lt] at countEnds countKeeps byteEnds byteKeeps
  refine ⟨n, more.trans still, goes, ?_, ?_⟩
  · rcases countEnds with few | all
    · rcases byteEnds with small | all
      · exact .inl ⟨((leave_sublist still).length_le).trans few, small⟩
      · exact .inr all
    · exact .inr (all.trans still)
  · intro few small
    have same := countKeeps few
    subst same
    exact byteKeeps small

/-- What a preview that is not refused would remove, over all its batches: the oldest of the
unprotected records and every expired one, none that is protected or referenced; the rest is within
both quotas or protected, and where the expired are enough they are all. -/
theorem cleanup_selection {preview : StateCleanupPreview}
    (accepted : previewCleanup codec fromisoformat collection files policy recordTimestamps protections
      references = .ok preview) :
    ∃ scan, scanCleanup codec fromisoformat collection files policy recordTimestamps protections
        references = .ok scan ∧ Scans fromisoformat files policy recordTimestamps scan ∧
      ∃ removed, removed = (scan.allCandidates policy recordTimestamps).map (·.recordId) ∧
      preview.candidates = (scan.allCandidates policy recordTimestamps).take policy.batchSize ∧
      preview.remainingCandidateCount = removed.length - preview.candidates.length ∧
      removed <+: (scan.ordered.filter fun record =>
        !held files protections references record.recordId).map (·.recordId) ∧
      (∀ record ∈ scan.ordered, held files protections references record.recordId = false →
        scan.timestamp record < scan.cutoff.instant → record.recordId ∈ removed) ∧
      (∀ id ∈ removed, held files protections references id = false) ∧
      (∀ rest, rest = scan.ordered.filter (fun record => decide (record.recordId ∉ removed)) →
        rest.length ≤ policy.maxRecords ∧ totalBytes rest ≤ policy.maxTotalBytes ∨
          ∀ record ∈ rest, held files protections references record.recordId = true) ∧
      ∀ old, old = (scan.ordered.filter fun record =>
          !held files protections references record.recordId && scan.expired record).map
            (·.recordId) →
        ∀ rest, rest = scan.ordered.filter (fun record => decide (record.recordId ∉ old)) →
          rest.length ≤ policy.maxRecords → totalBytes rest ≤ policy.maxTotalBytes → removed = old := by
  unfold previewCleanup at accepted
  obtain ⟨scan, scanned, made⟩ := bind_ok accepted
  cases made
  obtain ⟨scans, holds⟩ := scanCleanup_ok scanned
  have distinct : (scan.ordered.map (·.recordId)).Nodup := scans.records.nodup_iff.mpr files.keys_nodup
  obtain ⟨n, more, goes, ends, keeps⟩ := dispositions_goes policy distinct
  have removed := removed_eq recordTimestamps n distinct goes
  have free : scan.ordered.filter (fun record => !held files protections references record.recordId) =
      scan.ordered.filter (unprotected scan.protectedIds) :=
    List.filter_congr fun record here => (holds record here).symm
  have first : (scan.ordered.filter (unprotected scan.protectedIds)).filter scan.expired =
      front (unprotected scan.protectedIds) scan.ordered
        ((scan.ordered.filter (unprotected scan.protectedIds)).filter scan.expired).length :=
    filter_eq_take ((expired_sorted scan).sublist List.filter_sublist)
  refine ⟨scan, scanned, scans, _, rfl, rfl, by rw [List.length_map]; rfl, ?_, ?_, ?_, ?_, ?_⟩
  · rw [removed, free]
    exact (List.take_prefix ..).map _
  · intro record here open_ old
    have listed : record ∈ (scan.ordered.filter (unprotected scan.protectedIds)).filter
        scan.expired := by
      simp [here, holds record here, open_, CleanupScan.expired, old]
    rw [first] at listed
    rw [removed]
    exact List.mem_map_of_mem (((List.take_prefix_take_left more).subset) listed)
  · intro id here
    rw [removed] at here
    obtain ⟨record, listed, rfl⟩ := List.mem_map.mp here
    obtain ⟨there, open_⟩ := List.mem_filter.mp (List.mem_of_mem_take listed)
    rw [holds record there] at open_
    simpa using open_
  · rintro rest rfl
    rw [removed, left_eq]
    rcases ends with within | all
    · exact .inl within
    · apply Or.inr
      intro record here
      have closed := leave_all all here
      rw [holds record (List.mem_of_mem_filter here)] at closed
      simpa using closed
  · rintro old rfl rest rfl few small
    have same : scan.ordered.filter (fun record =>
        !held files protections references record.recordId && scan.expired record) =
        front (unprotected scan.protectedIds) scan.ordered
          ((scan.ordered.filter (unprotected scan.protectedIds)).filter scan.expired).length := by
      rw [← first, ← free, List.filter_filter]
      simp only [Bool.and_comm]
    rw [same] at few small ⊢
    rw [left_eq] at few small
    rw [removed, keeps few small]

end Accepted

section Sample

/-- Three days of January 2024, as `fromisoformat` reads them. -/
def sampleDays (value : Text) : Option Datetime :=
  if value = "2024-01-01T00:00:00+00:00".toList then some ⟨738885 * 86400000000, some 0⟩
  else if value = "2024-01-02T00:00:00+00:00".toList then some ⟨738886 * 86400000000, some 0⟩
  else if value = "2024-01-03T00:00:00+00:00".toList then some ⟨738887 * 86400000000, some 0⟩
  else none

def sampleFiles : RecordFiles :=
  ((∅ : RecordFiles).insert ['a'] [97, 1, 1]).insert ['b'] [98, 1, 1]

def samplePolicy : StateRetentionPolicy where
  now := "2024-01-03T00:00:00Z".toList
  retentionSeconds := 86400
  maxRecords := 1
  maxTotalBytes := 100
  batchSize := 1
  retentionSeconds_le := by decide
  maxRecords_bounds := by decide
  maxTotalBytes_bounds := by decide
  batchSize_bounds := by decide

def sampleTimestamps : List (Text × Text) :=
  [(['a'], "2024-01-01T00:00:00Z".toList), (['b'], "2024-01-02T00:00:00Z".toList)]

def sampleReferences : List StateRecordReference := [⟨['b'], ['a'], "parent".toList⟩]

theorem sample_accepted : (previewCleanup sampleCodec sampleDays "notes".toList sampleFiles samplePolicy
    sampleTimestamps [] sampleReferences).isOk = true := by
  decide +kernel

theorem cleanup_selection_sample : ∃ preview, previewCleanup sampleCodec sampleDays "notes".toList
    sampleFiles samplePolicy sampleTimestamps [] sampleReferences = .ok preview ∧
      ∃ scan, scanCleanup sampleCodec sampleDays "notes".toList sampleFiles samplePolicy
        sampleTimestamps [] sampleReferences = .ok scan ∧
        preview.candidates = (scan.allCandidates samplePolicy sampleTimestamps).take 1 := by
  cases accepted : previewCleanup sampleCodec sampleDays "notes".toList sampleFiles samplePolicy
      sampleTimestamps [] sampleReferences with
  | error e =>
    have ok := sample_accepted
    rw [accepted] at ok
    cases ok
  | ok preview =>
    obtain ⟨scan, scanned, -, removed, -, candidates, -⟩ := cleanup_selection accepted
    exact ⟨preview, rfl, scan, scanned, candidates⟩

end Sample

end RepoForge.CleanupPreview
