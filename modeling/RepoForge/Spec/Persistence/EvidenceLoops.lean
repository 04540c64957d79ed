import RepoForge.Library.SortedListing
import RepoForge.Source.Persistence.CleanupPreview

/-!
# The loops of evidence pruning

After the pass by age, the loops of the two quotas remove the first unprotected items in the order
of the sorting: `left n` is what stays when the first `n` are gone. Each loop stops at the first `n`
where its quota is met, or where no unprotected item is left.
-/
namespace RepoForge.EvidenceStore
open OldestFirst
open CleanupPreview (Datetime utc)

attribute [local instance] CleanupPreview.lawfulText

/-- The protected ids do not have the item. -/
def unprotected (ids : List Text) (item : EvidenceItem) : Bool := decide (item.evidenceId ∉ ids)

/-- In the order of a key, the items before a place are those with a smaller key. -/
theorem mem_take_iff {α β : Type} [LinearOrder β] {key : α → β} {l : List α}
    (sorted : l.Pairwise fun a b => key a < key b) {n : Nat} {x y : α}
    (at' : l[n]? = some x) (here : y ∈ l) :
    y ∈ l.take n ↔ key y < key x := by
  rw [List.pairwise_iff_getElem] at sorted
  obtain ⟨bound, rfl⟩ := List.getElem?_eq_some_iff.mp at'
  constructor
  · intro taken
    obtain ⟨i, short, rfl⟩ := List.mem_take_iff_getElem.mp taken
    exact sorted i n (by omega) bound (by omega)
  · intro below
    obtain ⟨i, short, rfl⟩ := List.getElem_of_mem here
    rcases Nat.lt_or_ge i n with less | more
    · exact List.mem_take_iff_getElem.mpr ⟨i, by omega, rfl⟩
    · rcases Nat.eq_or_lt_of_le more with rfl | more
      · exact absurd below (lt_irrefl _)
      · exact absurd below (lt_asymm (sorted n i bound short more))

section Left
variable (ids : List Text) (items : List EvidenceItem)

/-- The unprotected items in the order of the sorting. -/
def waiting : List EvidenceItem := (sortBy age items).filter (unprotected ids)

/-- The ids of the first `n` of them. -/
def goneIds (n : Nat) : List Text := ((waiting ids items).take n).map (·.evidenceId)

def left (n : Nat) : List EvidenceItem :=
  items.filter fun item => decide (item.evidenceId ∉ goneIds ids items n)

variable {ids items} {gone : EvidenceItem} {m n : Nat}

theorem goneIds_subset (le : m ≤ n) : goneIds ids items m ⊆ goneIds ids items n :=
  ((List.take_sublist_take_left le).map _).subset

theorem left_zero : left ids items 0 = items := by
  simp [left, goneIds]

theorem left_sublist (le : m ≤ n) : (left ids items n).Sublist (left ids items m) := by
  apply List.monotone_filter_right
  intro item stays
  simp only [decide_eq_true_eq] at stays ⊢
  exact fun here => stays (goneIds_subset le here)

theorem goneIds_succ (next : (waiting ids items)[n]? = some gone) :
    goneIds ids items (n + 1) = goneIds ids items n ++ [gone.evidenceId] := by
  rw [goneIds, goneIds, List.take_add_one, next]
  simp

theorem without_left (next : (waiting ids items)[n]? = some gone) :
    without (left ids items n) gone = left ids items (n + 1) := by
  rw [without, left, left, List.filter_filter, goneIds_succ next]
  apply List.filter_congr
  intro item _
  simp [and_comm]

theorem mem_left {item : EvidenceItem} :
    item ∈ left ids items n ↔ item ∈ items ∧ item.evidenceId ∉ goneIds ids items n := by
  simp [left]

/-- Where all the waiting are gone, the others are protected. -/
theorem left_all (all : (waiting ids items).length ≤ n) {item : EvidenceItem}
    (here : item ∈ left ids items n) : item.evidenceId ∈ ids := by
  obtain ⟨there, stays⟩ := mem_left.mp here
  by_contra free
  apply stays
  rw [goneIds, List.take_of_length_le all]
  apply List.mem_map_of_mem
  exact List.mem_filter.mpr ⟨mem_sortBy.mpr there, by simpa [unprotected] using free⟩

theorem protected_left {item : EvidenceItem} (here : item ∈ items) (there : item.evidenceId ∈ ids) :
    item ∈ left ids items n := by
  refine mem_left.mpr ⟨here, fun goes => ?_⟩
  obtain ⟨other, taken, same⟩ := List.mem_map.mp goes
  have free := (List.mem_filter.mp (List.mem_of_mem_take taken)).2
  rw [unprotected, same] at free
  exact absurd there (of_decide_eq_true free)

theorem leave_sorted : leave (·.evidenceId) (unprotected ids) (sortBy age items) n =
    (sortBy age items).filter fun item => decide (item.evidenceId ∉ goneIds ids items n) := by
  apply List.filter_congr
  intro item _
  simp [goneIds, waiting, front]

variable (distinct : (items.map (·.evidenceId)).Nodup)
include distinct

theorem age_unique : (items.map age).Nodup := by
  rw [List.nodup_map_iff_inj_on (List.Nodup.of_map _ distinct)]
  intro a here b there same
  have ids : a.evidenceId = b.evidenceId := congrArg (fun key => (ofLex key).2) same
  exact List.inj_on_of_nodup_map distinct here there ids

theorem sorted_distinct : ((sortBy age items).map (·.evidenceId)).Nodup :=
  (perm_sortBy.map _).nodup_iff.mpr distinct

theorem sortBy_filter (p : EvidenceItem → Bool) :
    sortBy age (items.filter p) = (sortBy age items).filter p := by
  have part : ((items.filter p).map age).Nodup :=
    (age_unique distinct).sublist (List.filter_sublist.map age)
  rw [sortBy_perm part ((perm_sortBy : (sortBy age items).Perm items).symm.filter p)]
  exact sortBy_of_sorted (sortBy_sorted.filter p)

theorem candidate_left : candidate ids (left ids items n) = (waiting ids items)[n]? := by
  rw [candidate, left, sortBy_filter distinct, ← leave_sorted]
  exact find_leave (sorted_distinct distinct) n

theorem left_length (most : n ≤ (waiting ids items).length) :
    (left ids items n).length + n = items.length := by
  have taken : (items.filter fun item => decide (item.evidenceId ∈ goneIds ids items n)).length = n := by
    have counted := congrArg List.length (@filter_front _ _ _ _ (unprotected ids) _
      (sorted_distinct distinct) n)
    have perm := (perm_sortBy : (sortBy age items).Perm items).filter
      fun item => decide (item.evidenceId ∈ goneIds ids items n)
    have size : (front (unprotected ids) (sortBy age items) n).length = n :=
      List.length_take_of_le most
    rw [← perm.length_eq]
    refine Eq.trans ?_ (counted.trans size)
    congr 1
    apply List.filter_congr
    intro item _
    simp [goneIds, waiting, front]
  have parts := List.length_eq_length_filter_add (l := items)
    fun item => decide (item.evidenceId ∈ goneIds ids items n)
  rw [taken] at parts
  have same : (left ids items n).length =
      (items.filter fun item => !decide (item.evidenceId ∈ goneIds ids items n)).length := by
    simp [left]
  omega

theorem waiting_strict : (waiting ids items).Pairwise fun a b => age a < age b := by
  have whole : (sortBy age items).Pairwise fun a b => age a ≤ age b := sortBy_sorted
  have sorted := whole.filter (unprotected ids)
  have apart : ((waiting ids items).map age).Nodup :=
    ((perm_sortBy.map age).nodup_iff.mpr (age_unique distinct)).sublist
      (List.filter_sublist.map age)
  rw [List.Nodup, List.pairwise_map] at apart
  exact sorted.imp₂ (fun a b le ne => lt_of_le_of_ne le ne) apart

theorem mem_goneIds_index {item : EvidenceItem} (at' : (waiting ids items)[m]? = some item) :
    item.evidenceId ∈ goneIds ids items n ↔ m < n := by
  have apart : ((waiting ids items).map (·.evidenceId)).Nodup :=
    (sorted_distinct distinct).sublist (List.filter_sublist.map _)
  obtain ⟨bound, rfl⟩ := List.getElem?_eq_some_iff.mp at'
  constructor
  · intro goes
    obtain ⟨other, taken, same⟩ := List.mem_map.mp goes
    obtain ⟨i, short, rfl⟩ := List.mem_take_iff_getElem.mp taken
    have place : i = m := by
      rw [List.nodup_iff_injective_get] at apart
      have := @apart ⟨i, by simp; omega⟩ ⟨m, by simpa using bound⟩ (by simpa using same)
      simpa using this
    omega
  · intro less
    exact List.mem_map_of_mem (List.mem_take_iff_getElem.mpr ⟨m, by omega, rfl⟩)

/-- The items that go before a waiting one are the unprotected ones below it. -/
theorem mem_goneIds {item other : EvidenceItem} (next : (waiting ids items)[n]? = some item)
    (here : other ∈ items) : other.evidenceId ∈ goneIds ids items n ↔
      other.evidenceId ∉ ids ∧ age other < age item := by
  have strict := @waiting_strict ids _ distinct
  have listed : other.evidenceId ∉ ids → other ∈ waiting ids items := fun free =>
    List.mem_filter.mpr ⟨mem_sortBy.mpr here, by simpa [unprotected] using free⟩
  constructor
  · intro goes
    obtain ⟨same, taken, ids'⟩ := List.mem_map.mp goes
    have there := List.mem_filter.mp (List.mem_of_mem_take taken)
    obtain rfl := List.inj_on_of_nodup_map distinct (mem_sortBy.mp there.1) here ids'
    exact ⟨of_decide_eq_true there.2,
      (mem_take_iff strict next (List.mem_of_mem_take taken)).mp taken⟩
  · intro ⟨free, below⟩
    exact List.mem_map_of_mem ((mem_take_iff strict next (listed free)).mpr below)

end Left

section Loops
variable {ids : List Text} {items : List EvidenceItem} {n : Nat}

/-- The loop of the count: how many it lets go. -/
theorem pruneForCount_runs (distinct : (items.map (·.evidenceId)).Nodup) {maxItems : Int} {s : Store}
    {held : List EvidenceItem} {deleted : Nat} (same : held = left ids items n)
    (disk : s.items = held) (most : n ≤ (waiting ids items).length) :
    ∃ m s', n ≤ m ∧ m ≤ (waiting ids items).length ∧
      pruneForCount ids maxItems s held deleted = (s', left ids items m, deleted + (m - n)) ∧
      s'.items = left ids items m ∧ s'.otherBytes = s.otherBytes ∧ s'.artifacts = s.artifacts ∧
      (((left ids items m).length : Int) ≤ maxItems ∨ m = (waiting ids items).length) ∧
      ∀ q, n ≤ q → q < m → maxItems < (left ids items q).length := by
  fun_induction pruneForCount ids maxItems s held deleted generalizing n with
  | case1 s held deleted tooMany none =>
    rw [same, candidate_left distinct, List.getElem?_eq_none_iff] at none
    refine ⟨n, s, le_rfl, most, ?_, disk.trans same, rfl, rfl, .inr (by omega), ?_⟩
    · simp [same]
    · intro q low high
      omega
  | case2 s held deleted tooMany gone found ih =>
    rw [same, candidate_left distinct] at found
    obtain ⟨bound, -⟩ := List.getElem?_eq_some_iff.mp found
    have next : without held gone = left ids items (n + 1) := by rw [same, without_left found]
    have disk' : (s.unlinkItem gone.evidenceId).items = without held gone := by
      rw [← disk]
      rfl
    obtain ⟨m, s', le, le', returns, kept, other, artifacts, stops, before⟩ :=
      ih next disk' bound
    refine ⟨m, s', by omega, le', ?_, kept, other, artifacts, stops, ?_⟩
    · rw [returns, Nat.add_assoc, Nat.add_comm 1, show m - (n + 1) + 1 = m - n by omega]
    · intro q low high
      rcases Nat.eq_or_lt_of_le low with rfl | low
      · rwa [← same]
      · exact before q low high
  | case3 s held deleted fits =>
    refine ⟨n, s, le_rfl, most, ?_, disk.trans same, rfl, rfl, .inl ?_, ?_⟩
    · simp [same]
    · rw [← same]
      omega
    · intro q low high
      omega

/-- The artifacts that stay with the items. -/
def collected (artifacts : List (Text × Nat)) (items : List EvidenceItem) : List (Text × Nat) :=
  artifacts.filter fun artifact => decide (artifact.1 ∈ referenced items)

/-- The bytes of the store with these items. -/
def bytesWith (origin : Store) (items : List EvidenceItem) : Nat :=
  (items.map (·.size)).sum + origin.otherBytes + ((collected origin.artifacts items).map (·.2)).sum

theorem referenced_subset {part whole : List EvidenceItem} (sub : part.Sublist whole) :
    referenced part ⊆ referenced whole := (sub.filterMap _).subset

theorem collected_collected {artifacts : List (Text × Nat)} {part whole : List EvidenceItem}
    (sub : part.Sublist whole) : collected (collected artifacts whole) part = collected artifacts part := by
  rw [collected, collected, collected, List.filter_filter]
  apply List.filter_congr
  intro artifact _
  rw [Bool.eq_iff_iff, Bool.and_eq_true, decide_eq_true_iff, decide_eq_true_iff]
  exact and_iff_left_of_imp fun here => referenced_subset sub here

theorem garbageCollect_counts (s : Store) (items : List EvidenceItem) :
    (garbageCollectArtifacts s items).1.artifacts = collected s.artifacts items ∧
      (garbageCollectArtifacts s items).2 + (collected s.artifacts items).length =
        s.artifacts.length := by
  refine ⟨rfl, ?_⟩
  have parts := List.length_eq_length_filter_add (l := s.artifacts)
    fun artifact => decide (artifact.1 ∈ referenced items)
  simp only [garbageCollectArtifacts, collected, decide_not]
  omega

/-- The loop of the bytes when the first `n` are gone. -/
structure ByteLoop.At (ids : List Text) (items : List EvidenceItem) (origin : Store) (loop : ByteLoop)
    (n : Nat) : Prop where
  items_eq : loop.items = left ids items n
  disk_eq : loop.store.items = left ids items n
  other_eq : loop.store.otherBytes = origin.otherBytes
  artifacts_eq : loop.store.artifacts = collected origin.artifacts (left ids items n)
  bytes_eq : loop.totalBytes = loop.store.totalBytes
  deletedArtifacts_eq : loop.deletedArtifacts +
    (collected origin.artifacts (left ids items n)).length = origin.artifacts.length

theorem ByteLoop.At.bytes {origin : Store} {loop : ByteLoop} (at' : loop.At ids items origin n) :
    loop.totalBytes = bytesWith origin (left ids items n) := by
  rw [at'.bytes_eq, Store.totalBytes, at'.disk_eq, at'.other_eq, at'.artifacts_eq, bytesWith]

/-- One item more, and the artifacts that nothing refers to any longer. -/
theorem ByteLoop.At.next {origin : Store} {loop : ByteLoop} {gone : EvidenceItem} {store : Store}
    {swept : Nat} {deletedBytes : Nat} (at' : loop.At ids items origin n)
    (found : (waiting ids items)[n]? = some gone)
    (collects : garbageCollectArtifacts (loop.store.unlinkItem gone.evidenceId)
      (without loop.items gone) = (store, swept)) :
    ByteLoop.At ids items origin
      { store
        items := without loop.items gone
        deletedBytes
        deletedArtifacts := loop.deletedArtifacts + swept
        totalBytes := store.totalBytes } (n + 1) := by
  have rest : without loop.items gone = left ids items (n + 1) := by
    rw [at'.items_eq, without_left found]
  have sub : (left ids items (n + 1)).Sublist (left ids items n) := left_sublist (by omega)
  have disk : (loop.store.unlinkItem gone.evidenceId).items = left ids items (n + 1) := by
    rw [← without_left found, ← at'.disk_eq]
    rfl
  have kept : (loop.store.unlinkItem gone.evidenceId).artifacts =
      collected origin.artifacts (left ids items n) := at'.artifacts_eq
  obtain ⟨blobs, count⟩ := garbageCollect_counts (loop.store.unlinkItem gone.evidenceId)
    (without loop.items gone)
  have items_eq : store.items = (loop.store.unlinkItem gone.evidenceId).items :=
    congrArg (fun result => result.1.items) collects.symm
  have other_eq : store.otherBytes = loop.store.otherBytes :=
    congrArg (fun result => result.1.otherBytes) collects.symm
  rw [collects, rest, kept, collected_collected sub] at blobs count
  have before := at'.deletedArtifacts_eq
  constructor
  · exact rest
  · exact items_eq.trans disk
  · exact other_eq.trans at'.other_eq
  · exact blobs
  · rfl
  · simp only at count ⊢
    omega

theorem pruneForBytes_runs (distinct : (items.map (·.evidenceId)).Nodup) {maxTotalBytes : Int}
    {origin : Store} {loop : ByteLoop} (at' : loop.At ids items origin n)
    (most : n ≤ (waiting ids items).length) :
    ∃ m, n ≤ m ∧ m ≤ (waiting ids items).length ∧
      (pruneForBytes ids maxTotalBytes loop).At ids items origin m ∧
      (pruneForBytes ids maxTotalBytes loop).deletedBytes = loop.deletedBytes + (m - n) ∧
      ((bytesWith origin (left ids items m) : Int) ≤ maxTotalBytes ∨
        m = (waiting ids items).length) ∧
      ∀ q, n ≤ q → q < m → maxTotalBytes < bytesWith origin (left ids items q) := by
  fun_induction pruneForBytes ids maxTotalBytes loop generalizing n with
  | case1 loop tooMuch none =>
    rw [at'.items_eq, candidate_left distinct, List.getElem?_eq_none_iff] at none
    refine ⟨n, le_rfl, most, at', by omega, .inr (by omega), ?_⟩
    intro q low high
    omega
  | case2 loop tooMuch gone found rest store swept collects =>
    rename_i ih
    rw [at'.items_eq, candidate_left distinct] at found
    obtain ⟨bound, -⟩ := List.getElem?_eq_some_iff.mp found
    obtain ⟨m, le, le', later, count, stops, before⟩ := ih (at'.next found collects) bound
    have total : loop.deletedBytes + 1 + (m - (n + 1)) = loop.deletedBytes + (m - n) := by omega
    refine ⟨m, by omega, le', later, count.trans total, stops, ?_⟩
    intro q low high
    rcases Nat.eq_or_lt_of_le low with rfl | low
    · rwa [← at'.bytes]
    · exact before q low high
  | case3 loop fits =>
    rw [at'.bytes] at fits
    refine ⟨n, le_rfl, most, at', by omega, .inl (by omega), ?_⟩
    intro q low high
    omega

end Loops

end RepoForge.EvidenceStore
