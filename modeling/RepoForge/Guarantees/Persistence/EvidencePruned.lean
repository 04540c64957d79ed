import Mathlib.Algebra.Order.BigOperators.Group.List
import Mathlib.Algebra.Order.Ring.Nat
import Mathlib.Data.List.Dedup
import Mathlib.Tactic.NormNum
import RepoForge.Spec.Persistence.EvidenceLoops

/-!
# What evidence pruning leaves

An accepted `prune` whose cutoff is a date leaves the protected items, takes the expired ones, keeps
exactly the artifacts that what stays refers to, stops at its bounds and counts what it did
(`Outcome`). Its quotas take the items by the text of `created_at`, which is another order than that
of the instants where the offsets differ (`prunes_right_iff`).
-/
namespace RepoForge.EvidenceStore
open CleanupPreview (Datetime utc)

attribute [local instance] CleanupPreview.lawfulText

section Age
variable (fromisoformat : Text → Option Datetime) (ids : List Text) (cutoff : Int)

/-- The instant of `created_at`. -/
def instantOf (item : EvidenceItem) : Int :=
  ((fromisoformat (utc item.createdAt)).map Datetime.instant).getD 0

def Readable (items : List EvidenceItem) : Prop :=
  ∀ item ∈ items, ∃ created, fromisoformat (utc item.createdAt) = some created ∧
    created.offset.isSome = true

def expired (item : EvidenceItem) : Bool :=
  unprotected ids item && decide (instantOf fromisoformat item < cutoff)

/-- What the pass by age leaves. -/
def survivors (items : List EvidenceItem) : List EvidenceItem :=
  items.filter fun item => !expired fromisoformat ids cutoff item

variable {fromisoformat ids cutoff}

theorem pruneForAge_runs {bound : Datetime} (rest : List EvidenceItem)
    (readable : Readable fromisoformat rest) (s : Store) (deleted : Nat) :
    ∃ s', pruneForAge fromisoformat ids bound rest s deleted =
        .ok (s', deleted + (rest.filter (expired fromisoformat ids bound.instant)).length) ∧
      (s'.items = s.items.filter fun item => decide (item.evidenceId ∉
        (rest.filter (expired fromisoformat ids bound.instant)).map (·.evidenceId))) ∧
      s'.otherBytes = s.otherBytes ∧ s'.artifacts = s.artifacts := by
  induction rest generalizing s deleted with
  | nil => exact ⟨s, rfl, by simp, rfl, rfl⟩
  | cons item rest ih =>
    have later : Readable fromisoformat rest := fun other here => readable other (by simp [here])
    rw [pruneForAge]
    by_cases held : item.evidenceId ∈ ids
    · have stays : expired fromisoformat ids bound.instant item = false := by
        simp [expired, unprotected, held]
      rw [if_pos held, List.filter_cons_of_neg (by simp [stays])]
      exact ih later s deleted
    · obtain ⟨created, read, aware⟩ := readable item (by simp)
      have time : retentionTime fromisoformat item.createdAt "created_at" = .ok created := by
        simp [retentionTime, read, Option.isSome_iff_ne_none.mp aware]
      have instant : instantOf fromisoformat item = created.instant := by simp [instantOf, read]
      rw [if_neg held, time, ok_bind]
      by_cases old : created.instant < bound.instant
      · have goes : expired fromisoformat ids bound.instant item = true := by
          simp [expired, unprotected, held, instant, old]
        obtain ⟨s', returns, items, other, artifacts⟩ :=
          ih later (s.unlinkItem item.evidenceId) (deleted + 1)
        rw [if_pos old, List.filter_cons_of_pos goes]
        refine ⟨s', ?_, ?_, other, artifacts⟩
        · rw [returns, List.length_cons, Nat.add_assoc, Nat.add_comm 1]
        · rw [items, Store.unlinkItem, List.filter_filter]
          apply List.filter_congr
          intro other' _
          rw [Bool.eq_iff_iff]
          simp only [Bool.and_eq_true, decide_eq_true_eq, List.map_cons, List.mem_cons, not_or]
          exact and_comm
      · have stays : expired fromisoformat ids bound.instant item = false := by
          simp [expired, instant, old]
        rw [if_neg old, List.filter_cons_of_neg (by simp [stays])]
        exact ih later s deleted

/-- The pass over all items. -/
theorem pruneForAge_all {bound : Datetime} {s : Store} (readable : Readable fromisoformat s.items)
    (distinct : (s.items.map (·.evidenceId)).Nodup) :
    ∃ s', pruneForAge fromisoformat ids bound (sortBy age s.items) s 0 =
        .ok (s', (s.items.filter (expired fromisoformat ids bound.instant)).length) ∧
      s'.items = survivors fromisoformat ids bound.instant s.items ∧
      s'.otherBytes = s.otherBytes ∧ s'.artifacts = s.artifacts := by
  obtain ⟨s', returns, items, other, artifacts⟩ :=
    @pruneForAge_runs fromisoformat ids bound (sortBy age s.items)
      (fun item here => readable item (mem_sortBy.mp here)) s 0
  refine ⟨s', ?_, ?_, other, artifacts⟩
  · have perm := (perm_sortBy : (sortBy age s.items).Perm s.items).filter
      (expired fromisoformat ids bound.instant)
    rw [returns, perm.length_eq, Nat.zero_add]
  · rw [items, survivors]
    apply List.filter_congr
    intro item here
    rw [Bool.eq_iff_iff, decide_eq_true_iff, Bool.not_eq_true', ← Bool.not_eq_true]
    apply not_congr
    constructor
    · intro there
      obtain ⟨other', old, same⟩ := List.mem_map.mp there
      obtain ⟨listed, goes⟩ := List.mem_filter.mp old
      obtain rfl := List.inj_on_of_nodup_map distinct (mem_sortBy.mp listed) here same
      exact goes
    · intro goes
      exact List.mem_map_of_mem (List.mem_filter.mpr ⟨mem_sortBy.mpr here, goes⟩)

end Age

section Outcome
variable (fromisoformat : Text → Option Datetime)

/-- The protected ids of which there are items. -/
def existing (ids : List Text) (s : Store) : List Text :=
  ids.dedup.filter fun id => decide (id ∈ s.items.map (·.evidenceId))

/-- What a run came to: of the unprotected survivors the first `k` went for the count, `m` in all. -/
structure Outcome (s : Store) (request : PruneRequest) (ids : List Text) (rest : List EvidenceItem)
    (report : EvidenceRetentionReport) (after : Store) (k m : Nat) : Prop where
  items : after.items = left ids rest m
  otherBytes : after.otherBytes = s.otherBytes
  artifacts : after.artifacts = collected s.artifacts after.items
  forAge : report.deletedForAge + rest.length = s.items.length
  forCount : report.deletedForCount = k
  forBytes : report.deletedForBytes = m - k
  deletedArtifacts : report.deletedArtifacts + after.artifacts.length = s.artifacts.length
  protectedItems : report.protectedItems = ids.length
  remainingItems : report.remainingItems = after.items.length
  totalBytes : report.totalBytes = after.totalBytes
  le : k ≤ m
  most : m ≤ (waiting ids rest).length
  countStops : ((left ids rest k).length : Int) ≤ request.maxItems ∨ k = (waiting ids rest).length
  countGoes : ∀ q < k, request.maxItems < (left ids rest q).length
  bytesStop : (bytesWith s (left ids rest m) : Int) ≤ request.maxTotalBytes ∨
    m = (waiting ids rest).length
  bytesGo : ∀ q, k ≤ q → q < m → request.maxTotalBytes < bytesWith s (left ids rest q)

/-- What `prune` accepts. -/
structure Accepted (request : PruneRequest) (now : Datetime) : Prop where
  retention : 0 ≤ request.retentionSeconds
  maxItems : 1 ≤ request.maxItems
  maxTotalBytes : 1 ≤ request.maxTotalBytes
  protectedIds : ∀ id ∈ request.protectedEvidenceIds, isEvidenceId id = true
  read : fromisoformat (utc request.now) = some now
  aware : now.offset.isSome = true

variable {fromisoformat} {s : Store} {request : PruneRequest} {now : Datetime}

theorem Store.distinct (s : Store) : (s.items.map (·.evidenceId)).Nodup :=
  s.items_sorted.imp fun less => ne_of_lt less

theorem survivors_sublist {ids : List Text} {cutoff : Int} :
    (survivors fromisoformat ids cutoff s.items).Sublist s.items := List.filter_sublist

theorem survivors_length {ids : List Text} {cutoff : Int} :
    (s.items.filter (expired fromisoformat ids cutoff)).length +
      (survivors fromisoformat ids cutoff s.items).length = s.items.length :=
  (List.length_eq_length_filter_add _).symm

theorem Accepted.starts (accepted : Accepted fromisoformat request now) :
    prune fromisoformat s request = (do
      let cutoff ← cutoffOf now request.retentionSeconds.toNat
      let ids := existing request.protectedEvidenceIds s
      let (s, deletedAge) ← pruneForAge fromisoformat ids cutoff (sortBy age s.items) s 0
      let (s, items, deletedCount) := pruneForCount ids request.maxItems s s.remainingItems 0
      let (s, deletedArtifacts) := garbageCollectArtifacts s items
      let loop := pruneForBytes ids request.maxTotalBytes
        { store := s
          items
          deletedBytes := 0
          deletedArtifacts
          totalBytes := s.totalBytes }
      .ok ({ deletedForAge := deletedAge
             deletedForCount := deletedCount
             deletedForBytes := loop.deletedBytes
             deletedArtifacts := loop.deletedArtifacts
             protectedItems := ids.length
             remainingItems := loop.items.length
             totalBytes := loop.totalBytes }, loop.store)) := by
  have bounds : ¬ (request.retentionSeconds < 0 ∨ request.maxItems < 1 ∨ request.maxTotalBytes < 1) := by
    have := accepted.retention
    have := accepted.maxItems
    have := accepted.maxTotalBytes
    omega
  have ids : request.protectedEvidenceIds.mapM validateEvidenceId =
      .ok request.protectedEvidenceIds := by
    have each : request.protectedEvidenceIds.mapM validateEvidenceId =
        .ok (request.protectedEvidenceIds.map id) := by
      apply mapM_of_ok
      intro evidenceId here
      rw [validateEvidenceId, if_pos (accepted.protectedIds evidenceId here)]
      rfl
    rwa [List.map_id] at each
  have time : retentionTime fromisoformat request.now "retention now" = .ok now := by
    simp [retentionTime, accepted.read, Option.isSome_iff_ne_none.mp accepted.aware]
  rw [prune, if_neg bounds, ids, ok_bind, time, ok_bind]
  rfl

/-- A run whose cutoff is a date. -/
theorem prune_returns (accepted : Accepted fromisoformat request now)
    (readable : Readable fromisoformat s.items) {cutoff : Datetime}
    (dated : now.before request.retentionSeconds.toNat = .ok cutoff) :
    ∃ report after k m, prune fromisoformat s request = .ok (report, after) ∧
      Outcome s request (existing request.protectedEvidenceIds s)
        (survivors fromisoformat (existing request.protectedEvidenceIds s) cutoff.instant s.items)
        report after k m := by
  have cut : cutoffOf now request.retentionSeconds.toNat = .ok cutoff := by
    rw [cutoffOf, dated]
    rfl
  rw [accepted.starts, cut, ok_bind]
  generalize ids_eq : existing request.protectedEvidenceIds s = ids
  obtain ⟨aged, byAge, items, other, artifacts⟩ :=
    @pruneForAge_all _ ids cutoff _ readable s.distinct
  generalize rest_eq : survivors fromisoformat ids cutoff.instant s.items = rest at items ⊢
  have distinct : (rest.map (·.evidenceId)).Nodup := by
    rw [← rest_eq]
    exact s.distinct.sublist (survivors_sublist.map _)
  have started : aged.remainingItems = left ids rest 0 := by
    rw [left_zero]
    exact items
  obtain ⟨k, counted, -, kMost, byCount, counted_items, counted_other, counted_artifacts, countStops,
    countGoes⟩ := @pruneForCount_runs _ _ _ distinct request.maxItems aged _ 0 started
      rfl (Nat.zero_le _)
  obtain ⟨blobs, count⟩ := garbageCollect_counts counted (left ids rest k)
  rw [counted_artifacts, artifacts] at blobs count
  have begun : ByteLoop.At ids rest s
      { store := (garbageCollectArtifacts counted (left ids rest k)).1
        items := left ids rest k
        deletedBytes := 0
        deletedArtifacts := (garbageCollectArtifacts counted (left ids rest k)).2
        totalBytes := (garbageCollectArtifacts counted (left ids rest k)).1.totalBytes } k := by
    constructor
    · rfl
    · exact counted_items
    · exact counted_other.trans other
    · exact blobs
    · rfl
    · exact count
  obtain ⟨m, le, most, ends, deletedBytes, bytesStop, bytesGo⟩ :=
    @pruneForBytes_runs _ _ _ distinct request.maxTotalBytes _ _ begun kMost
  generalize loop_eq : pruneForBytes ids request.maxTotalBytes _ = loop at ends deletedBytes
  refine ⟨{
      deletedForAge := (s.items.filter (expired fromisoformat ids cutoff.instant)).length
      deletedForCount := k
      deletedForBytes := loop.deletedBytes
      deletedArtifacts := loop.deletedArtifacts
      protectedItems := ids.length
      remainingItems := loop.items.length
      totalBytes := loop.totalBytes }, loop.store, k, m, ?_, ?_⟩
  · simp only [byAge, ok_bind, byCount, Nat.zero_add, Nat.sub_zero, loop_eq]
  · have shown : left ids rest m = loop.store.items := ends.disk_eq.symm
    constructor
    · exact ends.disk_eq
    · exact ends.other_eq
    · rw [ends.artifacts_eq, shown]
    · rw [← rest_eq]
      exact survivors_length
    · rfl
    · rw [deletedBytes, Nat.zero_add]
    · rw [ends.artifacts_eq]
      exact ends.deletedArtifacts_eq
    · rfl
    · rw [ends.items_eq, shown]
    · exact ends.bytes_eq
    · exact le
    · exact most
    · exact countStops
    · exact fun q below => countGoes q (Nat.zero_le _) below
    · exact bytesStop
    · exact bytesGo

end Outcome

section Right
variable (fromisoformat : Text → Option Datetime) (s : Store) (request : PruneRequest) (cutoff : Int)

/-- What `prune` is for. -/
structure PrunedRight (report : EvidenceRetentionReport) (after : Store) : Prop where
  nothingNew : after.items.Sublist s.items ∧ after.artifacts.Sublist s.artifacts ∧
    after.otherBytes = s.otherBytes
  protectedStay : ∀ item ∈ s.items, item.evidenceId ∈ request.protectedEvidenceIds →
    item ∈ after.items
  expiredGo : ∀ item ∈ after.items, item.evidenceId ∉ request.protectedEvidenceIds →
    cutoff ≤ instantOf fromisoformat item
  /-- What went for the count or for the bytes was the oldest that could go. -/
  oldestGo : ∀ gone ∈ s.items, gone ∉ after.items → cutoff ≤ instantOf fromisoformat gone →
    ∀ item ∈ after.items, item.evidenceId ∉ request.protectedEvidenceIds →
      instantOf fromisoformat gone ≤ instantOf fromisoformat item
  referencedStay : ∀ artifact ∈ s.artifacts, artifact.1 ∈ referenced after.items →
    artifact ∈ after.artifacts
  unreferencedGo : ∀ artifact ∈ after.artifacts, artifact.1 ∈ referenced after.items
  bounded : ((after.items.length : Int) ≤ request.maxItems ∧
      (after.totalBytes : Int) ≤ request.maxTotalBytes) ∨
    ∀ item ∈ after.items, item.evidenceId ∈ request.protectedEvidenceIds
  deletedForAge : report.deletedForAge = (s.items.filter fun item =>
    decide (item.evidenceId ∉ request.protectedEvidenceIds) &&
      decide (instantOf fromisoformat item < cutoff)).length
  deletedItems : report.deletedForAge + report.deletedForCount + report.deletedForBytes +
    after.items.length = s.items.length
  /-- For the count as many went as had to. -/
  deletedForCount : (∀ n < report.deletedForCount,
      request.maxItems < s.items.length - report.deletedForAge - n) ∧
    (s.items.length - report.deletedForAge - report.deletedForCount ≤ request.maxItems ∨
      ∀ item ∈ after.items, item.evidenceId ∈ request.protectedEvidenceIds)
  deletedArtifacts : report.deletedArtifacts + after.artifacts.length = s.artifacts.length
  protectedItems : report.protectedItems =
    (s.items.filter fun item => decide (item.evidenceId ∈ request.protectedEvidenceIds)).length
  remainingItems : report.remainingItems = after.items.length
  totalBytes : report.totalBytes = after.totalBytes

/-- The survivors without the unprotected ones that the sorting has before an item. -/
def since (item : EvidenceItem) : List EvidenceItem :=
  s.items.filter fun other =>
    decide (other.evidenceId ∈ request.protectedEvidenceIds) ||
      (decide (cutoff ≤ instantOf fromisoformat other) && decide (age item ≤ age other))

/-- Both bounds are met by a store of these items and their artifacts. -/
def Fits (items : List EvidenceItem) : Prop :=
  (items.length : Int) ≤ request.maxItems ∧ (bytesWith s items : Int) ≤ request.maxTotalBytes

/-- An older item that sorts after a newer one, where the bounds are first met between the two. -/
def Inverted : Prop :=
  ∃ newer ∈ s.items, ∃ older ∈ s.items,
    newer.evidenceId ∉ request.protectedEvidenceIds ∧
    older.evidenceId ∉ request.protectedEvidenceIds ∧
    cutoff ≤ instantOf fromisoformat older ∧
    instantOf fromisoformat older < instantOf fromisoformat newer ∧ age newer < age older ∧
    ¬ Fits s request (since fromisoformat s request cutoff newer) ∧
    Fits s request (since fromisoformat s request cutoff older)

variable {fromisoformat s request cutoff} {report : EvidenceRetentionReport} {after : Store}
  {k m : Nat}

theorem mem_existing {item : EvidenceItem} (here : item ∈ s.items) :
    item.evidenceId ∈ existing request.protectedEvidenceIds s ↔
      item.evidenceId ∈ request.protectedEvidenceIds := by
  have listed : item.evidenceId ∈ s.items.map (·.evidenceId) := List.mem_map_of_mem here
  rw [existing, List.mem_filter, List.mem_dedup, decide_eq_true_iff]
  exact and_iff_left listed

theorem existing_length : (existing request.protectedEvidenceIds s).length =
    (s.items.filter fun item => decide (item.evidenceId ∈ request.protectedEvidenceIds)).length := by
  rw [← List.length_map EvidenceItem.evidenceId]
  apply List.Perm.length_eq
  unfold existing
  rw [List.perm_ext_iff_of_nodup ((List.nodup_dedup _).filter _)
    (s.distinct.sublist (List.filter_sublist.map _))]
  intro id
  rw [List.mem_filter, List.mem_dedup, decide_eq_true_iff]
  simp only [List.mem_map, List.mem_filter, decide_eq_true_eq]
  constructor
  · rintro ⟨held, item, here, rfl⟩
    exact ⟨item, ⟨here, held⟩, rfl⟩
  · rintro ⟨item, ⟨here, held⟩, rfl⟩
    exact ⟨held, item, here, rfl⟩

theorem expired_eq {item : EvidenceItem} (here : item ∈ s.items) :
    expired fromisoformat (existing request.protectedEvidenceIds s) cutoff item =
      (decide (item.evidenceId ∉ request.protectedEvidenceIds) &&
        decide (instantOf fromisoformat item < cutoff)) := by
  simp [expired, unprotected, mem_existing here]

/-- The survivors of the pass by age. -/
abbrev rest (fromisoformat : Text → Option Datetime) (s : Store) (request : PruneRequest)
    (cutoff : Int) : List EvidenceItem :=
  survivors fromisoformat (existing request.protectedEvidenceIds s) cutoff s.items

theorem mem_rest {item : EvidenceItem} : item ∈ rest fromisoformat s request cutoff ↔
    item ∈ s.items ∧
      (item.evidenceId ∉ request.protectedEvidenceIds → cutoff ≤ instantOf fromisoformat item) := by
  rw [rest, survivors, List.mem_filter]
  apply and_congr_right
  intro here
  simp [expired_eq here, or_iff_not_imp_left]

theorem rest_distinct : ((rest fromisoformat s request cutoff).map (·.evidenceId)).Nodup :=
  s.distinct.sublist (survivors_sublist.map _)

theorem since_eq {item : EvidenceItem} {i : Nat}
    (at' : (waiting (existing request.protectedEvidenceIds s)
      (rest fromisoformat s request cutoff))[i]? = some item) :
    since fromisoformat s request cutoff item =
      left (existing request.protectedEvidenceIds s) (rest fromisoformat s request cutoff) i := by
  have passes : left (existing request.protectedEvidenceIds s)
      (rest fromisoformat s request cutoff) i =
      (s.items.filter fun item =>
        !expired fromisoformat (existing request.protectedEvidenceIds s) cutoff item).filter
        fun item => decide (item.evidenceId ∉ goneIds (existing request.protectedEvidenceIds s)
          (rest fromisoformat s request cutoff) i) := rfl
  rw [passes, List.filter_filter, since]
  apply List.filter_congr
  intro other here
  have goes (listed : other ∈ rest fromisoformat s request cutoff) :=
    mem_goneIds rest_distinct at' listed
  rw [mem_existing here] at goes
  rw [Bool.eq_iff_iff, expired_eq here]
  by_cases held : other.evidenceId ∈ request.protectedEvidenceIds
  · have listed : other ∈ rest fromisoformat s request cutoff :=
      mem_rest.mpr ⟨here, fun free => absurd held free⟩
    simp [held, goes listed]
  · by_cases old : instantOf fromisoformat other < cutoff
    · simp [held, old]
    · have listed : other ∈ rest fromisoformat s request cutoff :=
        mem_rest.mpr ⟨here, fun _ => not_lt.mp old⟩
      simp [held, goes listed, not_lt.mp old]

theorem Fits.mono {part whole : List EvidenceItem} (fits : Fits s request whole)
    (sub : part.Sublist whole) : Fits s request part := by
  have shorter := sub.length_le
  have items := (sub.map (·.size)).sum_le_sum fun _ _ => Nat.zero_le _
  have blobs : (collected s.artifacts part).Sublist (collected s.artifacts whole) := by
    apply List.monotone_filter_right
    intro artifact here
    rw [decide_eq_true_iff] at here ⊢
    exact referenced_subset sub here
  have sizes := (blobs.map (·.2)).sum_le_sum fun _ _ => Nat.zero_le _
  obtain ⟨count, bytes⟩ := fits
  rw [bytesWith] at bytes
  constructor
  · omega
  · rw [bytesWith]
    omega

variable {ids : List Text} {items : List EvidenceItem}

/-- The bounds are met by what stays, unless nothing more could go. -/
theorem Outcome.fits (o : Outcome s request ids items report after k m) {j : Nat} (le : m ≤ j)
    (more : j < (waiting ids items).length) : Fits s request (left ids items j) := by
  have count := o.countStops.resolve_right (by have := o.le; omega)
  have bytes := o.bytesStop.resolve_right (by omega)
  have shorter := (@left_sublist ids items _ _ o.le).length_le
  exact @Fits.mono _ _ _ (left ids items m) ⟨by omega, bytes⟩ (left_sublist le)

theorem Outcome.not_fits (o : Outcome s request ids items report after k m) {j : Nat} (less : j < m) :
    ¬ Fits s request (left ids items j) := by
  intro ⟨count, bytes⟩
  rcases Nat.lt_or_ge j k with early | late
  · have := o.countGoes j early
    omega
  · have := o.bytesGo j late less
    omega

theorem Outcome.bytes (o : Outcome s request ids items report after k m) :
    after.totalBytes = bytesWith s after.items := by
  rw [Store.totalBytes, bytesWith, o.otherBytes, o.artifacts]

/-- What stays when the bounds cannot be met any further. -/
theorem Outcome.protected_of_all (o : Outcome s request ids items report after k m)
    (all : (waiting ids items).length ≤ m) : ∀ item ∈ after.items, item.evidenceId ∈ ids := by
  intro item here
  rw [o.items] at here
  exact left_all all here

/-- All but the order in which the quotas take the items. -/
theorem Outcome.right (o : Outcome s request (existing request.protectedEvidenceIds s)
      (rest fromisoformat s request cutoff) report after k m)
    (oldest : ∀ gone ∈ s.items, gone ∉ after.items → cutoff ≤ instantOf fromisoformat gone →
      ∀ item ∈ after.items, item.evidenceId ∉ request.protectedEvidenceIds →
        instantOf fromisoformat gone ≤ instantOf fromisoformat item) :
    PrunedRight fromisoformat s request cutoff report after := by
  have sub : after.items.Sublist (rest fromisoformat s request cutoff) := by
    rw [o.items]
    exact List.filter_sublist
  have listed {item : EvidenceItem} (here : item ∈ after.items) :
      item ∈ rest fromisoformat s request cutoff := sub.subset here
  have size := @left_length (existing request.protectedEvidenceIds s)
    (rest fromisoformat s request cutoff) _ rest_distinct o.most
  have safe (all : (waiting (existing request.protectedEvidenceIds s)
      (rest fromisoformat s request cutoff)).length ≤ m) :
      ∀ item ∈ after.items, item.evidenceId ∈ request.protectedEvidenceIds := by
    intro item here
    exact (mem_existing (mem_rest.mp (listed here)).1).mp (o.protected_of_all all item here)
  constructor
  · refine ⟨sub.trans survivors_sublist, ?_, o.otherBytes⟩
    rw [o.artifacts]
    exact List.filter_sublist
  · intro item here held
    rw [o.items]
    apply protected_left
    · exact mem_rest.mpr ⟨here, fun free => absurd held free⟩
    · exact (mem_existing here).mpr held
  · exact fun item here free => (mem_rest.mp (listed here)).2 free
  · exact oldest
  · intro artifact here refers
    rw [o.artifacts]
    exact List.mem_filter.mpr ⟨here, decide_eq_true refers⟩
  · intro artifact here
    rw [o.artifacts] at here
    exact of_decide_eq_true (List.mem_filter.mp here).2
  · rcases Nat.lt_or_ge m (waiting (existing request.protectedEvidenceIds s)
      (rest fromisoformat s request cutoff)).length with more | all
    · left
      rw [o.bytes, o.items]
      exact o.fits le_rfl more
    · exact .inr (safe all)
  · have count := o.forAge
    have whole : (s.items.filter (expired fromisoformat (existing request.protectedEvidenceIds s)
        cutoff)).length + (rest fromisoformat s request cutoff).length = s.items.length :=
      survivors_length
    have same : (s.items.filter fun item =>
        decide (item.evidenceId ∉ request.protectedEvidenceIds) &&
          decide (instantOf fromisoformat item < cutoff)) =
        s.items.filter (expired fromisoformat (existing request.protectedEvidenceIds s) cutoff) :=
      List.filter_congr fun item here => (expired_eq here).symm
    rw [same]
    omega
  · have age := o.forAge
    have count := o.forCount
    have bytes := o.forBytes
    have le := o.le
    rw [o.items]
    omega
  · have age := o.forAge
    have count := o.forCount
    constructor
    · intro n less
      have goes := o.countGoes n (by omega)
      have size' := @left_length (existing request.protectedEvidenceIds s)
        (rest fromisoformat s request cutoff) n rest_distinct
        (by have := o.most; have := o.le; omega)
      omega
    · rcases o.countStops with stops | all
      · left
        have size' := @left_length (existing request.protectedEvidenceIds s)
          (rest fromisoformat s request cutoff) k rest_distinct
          (by have := o.most; have := o.le; omega)
        omega
      · exact .inr (safe (by have := o.le; omega))
  · exact o.deletedArtifacts
  · rw [o.protectedItems, existing_length]
  · exact o.remainingItems
  · exact o.totalBytes

theorem index_of {item : EvidenceItem} (here : item ∈ rest fromisoformat s request cutoff)
    (free : item.evidenceId ∉ request.protectedEvidenceIds) :
    ∃ i : Nat, (waiting (existing request.protectedEvidenceIds s)
      (rest fromisoformat s request cutoff))[i]? = some item := by
  have open' : item.evidenceId ∉ existing request.protectedEvidenceIds s := by
    rwa [mem_existing (mem_rest.mp here).1]
  have listed : item ∈ waiting (existing request.protectedEvidenceIds s)
      (rest fromisoformat s request cutoff) :=
    List.mem_filter.mpr ⟨mem_sortBy.mpr here, by simpa [unprotected] using open'⟩
  exact List.mem_iff_getElem?.mp listed

/-- The sorting has the quotas take a newer item before an older one only where it inverts them. -/
theorem Outcome.oldest_iff (o : Outcome s request (existing request.protectedEvidenceIds s)
      (rest fromisoformat s request cutoff) report after k m) :
    (∀ gone ∈ s.items, gone ∉ after.items → cutoff ≤ instantOf fromisoformat gone →
      ∀ item ∈ after.items, item.evidenceId ∉ request.protectedEvidenceIds →
        instantOf fromisoformat gone ≤ instantOf fromisoformat item) ↔
      ¬ Inverted fromisoformat s request cutoff := by
  have strict := @waiting_strict (existing request.protectedEvidenceIds s)
    (rest fromisoformat s request cutoff) rest_distinct
  have place {item : EvidenceItem} {i : Nat}
      (at' : (waiting (existing request.protectedEvidenceIds s)
        (rest fromisoformat s request cutoff))[i]? = some item)
      (here : item ∈ rest fromisoformat s request cutoff) : item ∈ after.items ↔ m ≤ i := by
    rw [o.items, mem_left, mem_goneIds_index rest_distinct at', not_lt]
    exact and_iff_right here
  constructor
  · intro oldest ⟨newer, here, older, there, free, free', late, less, sorts, unmet, met⟩
    have listed : newer ∈ rest fromisoformat s request cutoff :=
      mem_rest.mpr ⟨here, fun _ => le_of_lt (lt_of_le_of_lt late less)⟩
    have listed' : older ∈ rest fromisoformat s request cutoff := mem_rest.mpr ⟨there, fun _ => late⟩
    obtain ⟨i, at'⟩ := index_of listed free
    obtain ⟨j, at''⟩ := index_of listed' free'
    rw [since_eq at'] at unmet
    rw [since_eq at''] at met
    obtain ⟨short, -⟩ := List.getElem?_eq_some_iff.mp at'
    have goes : newer ∉ after.items := by
      rw [place at' listed]
      exact fun stays => unmet (o.fits stays short)
    have stays : older ∈ after.items := by
      rw [place at'' listed']
      by_contra gone
      exact o.not_fits (by omega) met
    have le := oldest newer here goes (le_of_lt (lt_of_le_of_lt late less)) older stays free'
    omega
  · intro straight gone here goes late item stays free
    by_contra more
    apply straight
    have free' : gone.evidenceId ∉ request.protectedEvidenceIds := by
      intro held
      apply goes
      rw [o.items]
      exact protected_left (mem_rest.mpr ⟨here, fun _ => late⟩) ((mem_existing here).mpr held)
    have listed : gone ∈ rest fromisoformat s request cutoff := mem_rest.mpr ⟨here, fun _ => late⟩
    have listed' : item ∈ rest fromisoformat s request cutoff := by
      rw [o.items] at stays
      exact (mem_left.mp stays).1
    obtain ⟨i, at'⟩ := index_of listed free'
    obtain ⟨j, at''⟩ := index_of listed' free
    rw [place at' listed, not_le] at goes
    rw [place at'' listed'] at stays
    obtain ⟨short, first⟩ := List.getElem?_eq_some_iff.mp at'
    obtain ⟨short', second⟩ := List.getElem?_eq_some_iff.mp at''
    have sorts : age gone < age item := by
      rw [List.pairwise_iff_getElem] at strict
      rw [← first, ← second]
      exact strict i j short short' (by omega)
    refine ⟨gone, here, item, (mem_rest.mp listed').1, free', free, ?_, not_le.mp more, sorts, ?_, ?_⟩
    · exact (mem_rest.mp listed').2 free
    · rw [since_eq at']
      exact o.not_fits goes
    · rw [since_eq at'']
      exact o.fits stays short'

/-- `now - retention_seconds`, as an instant. -/
def cutoffInstant (now : Datetime) (request : PruneRequest) : Int :=
  now.instant - request.retentionSeconds * 1000000

theorem prunes_right_iff {now : Datetime} (accepted : Accepted fromisoformat request now)
    (readable : Readable fromisoformat s.items) :
    (∃ report after, prune fromisoformat s request = .ok (report, after) ∧
      PrunedRight fromisoformat s request (cutoffInstant now request) report after) ↔
      request.retentionSeconds * 1000000 ≤ now.wall ∧
        ¬ Inverted fromisoformat s request (cutoffInstant now request) := by
  have natural : (request.retentionSeconds.toNat : Int) = request.retentionSeconds :=
    Int.toNat_of_nonneg accepted.retention
  cases dated : now.before request.retentionSeconds.toNat with
  | error e =>
    have early : ¬ request.retentionSeconds.toNat * 1000000 ≤ now.wall := by
      intro enough
      rw [Datetime.before, if_pos enough] at dated
      cases dated
    have raises : prune fromisoformat s request = .error .overflow := by
      rw [accepted.starts, cutoffOf, dated]
      rfl
    constructor
    · intro ⟨report, after, returns, _⟩
      rw [raises] at returns
      cases returns
    · intro ⟨enough, _⟩
      exact absurd (by omega) early
  | ok cutoff =>
    have enough : request.retentionSeconds.toNat * 1000000 ≤ now.wall := by
      by_contra early
      rw [Datetime.before, if_neg early] at dated
      cases dated
    have instant : cutoff.instant = cutoffInstant now request := by
      rw [CleanupPreview.instant_before dated, cutoffInstant, natural]
    obtain ⟨report, after, k, m, returns, outcome⟩ := prune_returns accepted readable dated
    rw [instant] at outcome
    have straight := Outcome.oldest_iff outcome
    constructor
    · intro ⟨report', after', returns', right⟩
      rw [returns] at returns'
      cases returns'
      exact ⟨by omega, straight.mp right.oldestGo⟩
    · intro ⟨_, order⟩
      exact ⟨report, after, returns, outcome.right (straight.mpr order)⟩

def sampleDates (text : Text) : Option Datetime :=
  if text = "2026-01-01T10:00:00+09:00".toList then some ⟨63902858400000000, some 32400000000⟩
  else if text = "2026-01-01T05:00:00+00:00".toList then some ⟨63902840400000000, some 0⟩
  else if text = "2026-01-02T00:00:00+00:00".toList then some ⟨63902908800000000, some 0⟩
  else none

/-- At one o'clock UTC. -/
def sampleOlder : EvidenceItem :=
  ⟨"ev-000000000000000000000001".toList, "2026-01-01T10:00:00+09:00".toList, none, 900⟩

/-- At five. -/
def sampleNewer : EvidenceItem :=
  ⟨"ev-000000000000000000000002".toList, "2026-01-01T05:00:00+00:00".toList, none, 900⟩

def sampleStore : Store := ⟨[sampleOlder, sampleNewer], 0, [], by decide, by decide⟩

def sampleRequest (maxItems : Int) : PruneRequest :=
  ⟨"2026-01-02T00:00:00+00:00".toList, 86400, maxItems, 1000000, []⟩

theorem sample_accepted {maxItems : Int} (some' : 1 ≤ maxItems) :
    Accepted sampleDates (sampleRequest maxItems) ⟨63902908800000000, some 0⟩ where
  retention := show (0 : Int) ≤ 86400 by decide
  maxItems := some'
  maxTotalBytes := show (1 : Int) ≤ 1000000 by decide
  protectedIds _ here := absurd here List.not_mem_nil
  read := show sampleDates (utc "2026-01-02T00:00:00+00:00".toList) = _ by decide
  aware := rfl

theorem sampleOlder_read : sampleDates (utc sampleOlder.createdAt) =
    some ⟨63902858400000000, some 32400000000⟩ := by decide

theorem sampleNewer_read : sampleDates (utc sampleNewer.createdAt) =
    some ⟨63902840400000000, some 0⟩ := by decide

theorem sample_readable : Readable sampleDates sampleStore.items := by
  intro item here
  simp only [sampleStore, List.mem_cons, List.not_mem_nil, or_false] at here
  rcases here with rfl | rfl
  · exact ⟨_, sampleOlder_read, rfl⟩
  · exact ⟨_, sampleNewer_read, rfl⟩

theorem prunes_right_two : sampleStore.items.length = 2 ∧
    ∃ report after, prune sampleDates sampleStore (sampleRequest 2) = .ok (report, after) ∧
      PrunedRight sampleDates sampleStore (sampleRequest 2)
        (cutoffInstant ⟨63902908800000000, some 0⟩ (sampleRequest 2)) report after := by
  refine ⟨rfl, (prunes_right_iff (sample_accepted (by decide)) sample_readable).mpr ⟨by decide, ?_⟩⟩
  intro ⟨newer, _, older, _, _, _, _, _, _, unmet, _⟩
  have whole : Fits sampleStore (sampleRequest 2) sampleStore.items := ⟨by decide, by decide⟩
  exact unmet (whole.mono List.filter_sublist)

/-- Of two items the newer goes, since its local time of day comes first. -/
theorem newer_goes_first : ¬ ∃ report after,
    prune sampleDates sampleStore (sampleRequest 1) = .ok (report, after) ∧
      PrunedRight sampleDates sampleStore (sampleRequest 1)
        (cutoffInstant ⟨63902908800000000, some 0⟩ (sampleRequest 1)) report after := by
  intro ⟨report, after, returns, right⟩
  have seconds : (sampleRequest 1).retentionSeconds.toNat = 86400 := rfl
  have dated : Datetime.before ⟨63902908800000000, some 0⟩ 86400 =
      .ok ⟨63902822400000000, some 0⟩ := by
    rw [Datetime.before, if_pos (by decide : 86400 * 1000000 ≤ 63902908800000000)]
    norm_num
  rw [← seconds] at dated
  obtain ⟨report', after', k, m, returns', outcome⟩ :=
    prune_returns (sample_accepted (by decide)) sample_readable dated
  rw [returns] at returns'
  cases returns'
  apply outcome.oldest_iff.mp right.oldestGo
  have older : instantOf sampleDates sampleOlder = 63902826000000000 := by
    rw [instantOf, sampleOlder_read]
    rfl
  have newer : instantOf sampleDates sampleNewer = 63902840400000000 := by
    rw [instantOf, sampleNewer_read]
    rfl
  refine ⟨sampleNewer, List.mem_cons_of_mem _ List.mem_cons_self, sampleOlder, List.mem_cons_self,
    List.not_mem_nil, List.not_mem_nil, ?_, ?_, by decide, ?_, ?_⟩
  · rw [older]
    decide
  · rw [older, newer]
    decide
  · exact fun fits => absurd fits.1 (by decide)
  · exact ⟨by decide, by decide⟩

end Right
end RepoForge.EvidenceStore
