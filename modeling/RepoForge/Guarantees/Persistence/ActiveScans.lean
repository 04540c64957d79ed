import RepoForge.Library.SortedListing
import RepoForge.Guarantees.Persistence.LeaseArchival

/-!
# Scans of the active leases

A scan reads the directory in pages by position. `Covers` is its invariant for one lease that
stays active: the scan has the lease, or will still come to it in the page it holds, or the
lease stands at or after the position where the next page begins. Creations and saves keep
it, since they can only push a lease back; a removal keeps it where the removed file stands
at or after that position (`RemovesBehind`), and `complete_scan_misses_none` is about the
runs in which every removal does. `complete_scan_misses_active` is the run in which a file
of the first page is archived before the second page is read: the first lease of the second
page moves up into the first, and the scan that misses it reports completion.
-/
namespace RepoForge

open Repository SortedListing

variable {codec : StateCodec ProcessLease} {id : Text} {role : Option ProcessLeaseRole} {p : Nat}

section Positions

variable {c c' : Collection ProcessLease} {y : Text} {n : Nat}

theorem fileName_injective : Function.Injective fileName :=
  fun _ _ same => List.append_cancel_right same

/-- Where a file stands in the sorted directory. -/
def rank (id : Text) (c : Collection ProcessLease) : Nat := position fileName id c.keys

theorem rank_lt (there : id ∈ c) : rank id c < (sortedIds c).length := by
  rw [sortedIds, List.length_insertionSort]
  exact position_lt there

theorem mem_listIds {size offset : Nat} (there : id ∈ c) :
    id ∈ (listIds size offset c).1 ↔ offset ≤ rank id c ∧ rank id c < offset + size :=
  mem_page fileName_injective c.keys_nodup there

/-- A call on another record leaves a file at or after `n`, if a file that it removes was
there too. -/
theorem rank_effect (effect : Effect y c c') (low : n ≤ rank id c)
    (behind : y ∈ c → y ∉ c' → n ≤ rank y c) : n ≤ rank id c' := by
  have inserted : ∀ stored, n ≤ rank id (c.insert y stored) := by
    intro stored
    by_cases there : y ∈ c
    · rw [rank, position_perm (keys_insert_old there)]
      exact low
    · rw [rank, position_perm (keys_insert_new there)]
      exact low.trans position_cons_le
  cases effect with
  | kept same => rw [same]; exact low
  | created value absent same => rw [same]; exact inserted _
  | saved revision old value found same => rw [same]; exact inserted _
  | removed same =>
    subst same
    have gone : y ∉ c.erase y := fun still => (AList.mem_erase.mp still).1 rfl
    by_cases there : y ∈ c
    · exact le_position_removed (keys_erase_old there) low (behind there gone)
    · have perm : c.keys.Perm (c.erase y).keys := by
        rw [List.perm_ext_iff_of_nodup c.keys_nodup (c.erase y).keys_nodup]
        intro a
        refine ⟨fun h => AList.mem_erase.mpr ⟨fun same => there (same ▸ h), h⟩, fun h => ?_⟩
        exact (AList.mem_erase.mp h).2
      rw [rank, ← position_perm perm]
      exact low

end Positions

section Steps

variable {s : LeaseSystem} {l : LeaseLabel}

/-- Every step is a call on one record of the active collection, or none. -/
theorem step_active (codec : StateCodec ProcessLease) (s : LeaseSystem) (l : LeaseLabel) :
    ∃ y, Effect y s.stores.active (s.step codec l).stores.active := by
  cases l with
  | create lease =>
    refine ⟨lease.leaseId, ?_⟩
    simp only [LeaseSystem.step, LeaseSystem.withActive]
    split
    · rename_i made
      obtain ⟨-, absent, rfl⟩ := create_ok made
      exact .created lease absent rfl
    · exact .kept rfl
  | save lease expected =>
    refine ⟨lease.leaseId, ?_⟩
    simp only [LeaseSystem.step, LeaseSystem.withActive]
    split
    · rename_i made
      obtain ⟨-, ⟨old, found⟩, rfl⟩ := save_ok made
      exact .saved expected old lease found rfl
    · exact .kept rfl
  | startCollect q maxRecords => exact ⟨[], .kept rfl⟩
  | startArchive q leaseId expected => exact ⟨[], .kept rfl⟩
  | startScan q role maxRecords =>
    refine ⟨[], .kept ?_⟩
    simp only [LeaseSystem.step]
    split <;> rfl
  | crash q => exact ⟨[], .kept rfl⟩
  | advance q =>
    change ∃ y, Effect y s.stores.active (next codec s.stores (s.processes q)).2.active
    cases (next_spec codec s.stores (s.processes q)).effect with
    | same same => exact ⟨[], .kept (by rw [same])⟩
    | copied e held absent same => exact ⟨[], .kept (by rw [same])⟩
    | removed e copied found same => exact ⟨e.recordId, .removed (by rw [same])⟩

/-- Where the next page of a scan begins. -/
def LeaseProcess.scanPosition : LeaseProcess → Option Nat
  | .listing scan => some scan.offset
  | .reading scan count _ _ | .scanOpening scan count _ _ _ => some (scan.offset + count)
  | _ => none

/-- A file that this step removes stands at or after the position of the scan of `p`. -/
def RemovesBehind (codec : StateCodec ProcessLease) (p : Nat) (s : LeaseSystem) (l : LeaseLabel) :
    Prop :=
  ∀ y n, y ∈ s.stores.active → y ∉ (s.step codec l).stores.active →
    (s.processes p).scanPosition = some n → n ≤ rank y s.stores.active

/-- The lease is read as an active one of this role. -/
def ActiveAt (codec : StateCodec ProcessLease) (id : Text) (role : Option ProcessLeaseRole)
    (s : LeaseSystem) : Prop :=
  ∃ e, read codec id s.stores.active = .ok (some e) ∧ e.value.leaseId = id ∧
    e.value.status ∈ activeLeaseStatuses ∧ (role = none ∨ role = some e.value.role)

/-- The process begins nothing else. -/
def Continues (p : Nat) : LeaseLabel → Prop
  | .startCollect q _ | .startArchive q _ _ | .startScan q _ _ => q ≠ p
  | _ => True

/-- The scan has the lease. -/
def ActiveScan.Has (scan : ActiveScan) (id : Text) : Prop := ∃ lease ∈ scan.records, lease.leaseId = id

/-- The scan of a process has the lease or will come to it, or the process has crashed. -/
def Covers (role : Option ProcessLeaseRole) (id : Text) (c : Collection ProcessLease) :
    LeaseProcess → Prop
  | .listing scan => scan.role = role ∧ (scan.Has id ∨ scan.offset ≤ rank id c)
  | .reading scan count truncated rest => scan.role = role ∧
      (scan.Has id ∨ id ∈ rest ∨ truncated = true ∧ scan.offset + count ≤ rank id c)
  | .scanOpening scan count truncated x rest => scan.role = role ∧
      (scan.Has id ∨ id ∈ x :: rest ∨ truncated = true ∧ scan.offset + count ≤ rank id c)
  | .scanned page => page.scanComplete = true → ∃ lease ∈ page.records, lease.leaseId = id
  | .idle => True
  | _ => False

theorem ActiveAt.present (h : ActiveAt codec id role s) :
    codec.recordId id = true ∧ ∃ e : StateEnvelope ProcessLease, e.value.leaseId = id ∧
      s.stores.active.lookup id = some (.readable e.revision e.value) ∧
      ∀ scan : ActiveScan, scan.role = role → scan.wants e.value = true := by
  obtain ⟨e, found, named, active, wanted⟩ := h
  have valid : codec.recordId id = true := by
    obtain ⟨_, checked, -⟩ := bind_ok found
    unfold checkId at checked
    split at checked
    · assumption
    · cases checked
  refine ⟨valid, e, named, (read_eq_some found).2, ?_⟩
  intro scan same
  simp [ActiveScan.wants, active, same, wanted]

theorem ActiveScan.has_page {scan : ActiveScan} {exhausted : Bool} (has : scan.Has id)
    (complete : (scan.page exhausted).scanComplete = true) :
    ∃ lease ∈ (scan.page exhausted).records, lease.leaseId = id := by
  obtain ⟨lease, member, named⟩ := has
  have short : scan.records.length ≤ scan.maxRecords := by
    simp only [page, Bool.and_eq_true, decide_eq_true_eq] at complete
    exact complete.2
  refine ⟨lease, ?_, named⟩
  have all : (scan.page exhausted).records =
      scan.records.insertionSort fun a b => a.leaseId ≤ b.leaseId := by
    apply List.take_of_length_le
    rw [List.length_insertionSort]
    exact short
  rw [all]
  exact (List.perm_insertionSort _ _).mem_iff.mpr member

/-- The collection changes and the process stands still. -/
theorem Covers.change {phase : LeaseProcess} {c c' : Collection ProcessLease} {y : Text}
    (covers : Covers role id c phase) (effect : Effect y c c')
    (behind : ∀ n, y ∈ c → y ∉ c' → phase.scanPosition = some n → n ≤ rank y c) :
    Covers role id c' phase := by
  have moved : ∀ n, phase.scanPosition = some n → n ≤ rank id c → n ≤ rank id c' :=
    fun n at_n low => rank_effect effect low fun there gone => behind n there gone at_n
  cases phase with
  | listing scan =>
    obtain ⟨same, has | low⟩ := covers
    · exact ⟨same, .inl has⟩
    · exact ⟨same, .inr (moved _ rfl low)⟩
  | reading scan count truncated rest =>
    obtain ⟨same, has | later | ⟨more, low⟩⟩ := covers
    · exact ⟨same, .inl has⟩
    · exact ⟨same, .inr (.inl later)⟩
    · exact ⟨same, .inr (.inr ⟨more, moved _ rfl low⟩)⟩
  | scanOpening scan count truncated x rest =>
    obtain ⟨same, has | later | ⟨more, low⟩⟩ := covers
    · exact ⟨same, .inl has⟩
    · exact ⟨same, .inr (.inl later)⟩
    · exact ⟨same, .inr (.inr ⟨more, moved _ rfl low⟩)⟩
  | scanned page => exact covers
  | idle => trivial
  | _ => exact covers.elim

section Advance

variable {scan : ActiveScan} {count : Nat} {truncated : Bool} {x : Text} {rest : List Text}

/-- Listing a page: the lease is in it, or behind it and the listing says that there is more. -/
theorem covers_listing (there : id ∈ s.stores.active)
    (covers : Covers role id s.stores.active (.listing scan)) :
    Covers role id s.stores.active (next codec s.stores (.listing scan)).1 := by
  obtain ⟨same, covers⟩ := covers
  have bound := rank_lt there
  have inside : scan.offset ≤ rank id s.stores.active →
      rank id s.stores.active < scan.offset + scanPageSize →
      id ∈ (listIds scanPageSize scan.offset s.stores.active).1 :=
    fun low high => (mem_listIds there).mpr ⟨low, high⟩
  have length : (listIds scanPageSize scan.offset s.stores.active).1.length ≤ scanPageSize := by
    simp only [listIds, List.length_take]
    omega
  have more : scan.offset + scanPageSize ≤ rank id s.stores.active →
      (listIds scanPageSize scan.offset s.stores.active).2 = true := by
    intro behind
    simp only [listIds, decide_eq_true_eq]
    omega
  simp only [next]
  split
  · rename_i none
    intro complete
    rcases covers with has | low
    · exact scan.has_page has complete
    · by_cases high : rank id s.stores.active < scan.offset + scanPageSize
      · rw [none] at inside
        exact absurd (inside low high) List.not_mem_nil
      · rw [more (by omega)] at complete
        simp [ActiveScan.page] at complete
  · refine ⟨same, ?_⟩
    rcases covers with has | low
    · exact .inl has
    · by_cases high : rank id s.stores.active < scan.offset + scanPageSize
      · exact .inr (.inl (inside low high))
      · exact .inr (.inr ⟨more (by omega), by omega⟩)

theorem covers_reading (active : ActiveAt codec id role s)
    (covers : Covers role id s.stores.active (.reading scan count truncated rest)) :
    Covers role id s.stores.active (next codec s.stores (.reading scan count truncated rest)).1 := by
  obtain ⟨valid, e, -, found, -⟩ := active.present
  obtain ⟨same, covers⟩ := covers
  cases rest with
  | nil =>
    simp only [next]
    split
    · rename_i more
      refine ⟨same, ?_⟩
      rcases covers with has | later | ⟨-, low⟩
      · exact .inl has
      · cases later
      · exact .inr low
    · rename_i last
      intro complete
      rcases covers with has | later | ⟨more, -⟩
      · exact ActiveScan.has_page has complete
      · cases later
      · exact absurd more last
  | cons x rest =>
    -- neither a bad name nor a missing file is the lease
    have skip : (¬ codec.recordId x ∨ x ∉ s.stores.active) → id ∈ x :: rest → id ∈ rest := by
      intro other later
      rcases List.mem_cons.mp later with rfl | later
      · rcases other with bad | gone
        · exact absurd valid bad
        · rw [AList.lookup_eq_none.mpr gone] at found
          cases found
      · exact later
    simp only [next]
    split
    · rename_i bad
      refine ⟨same, ?_⟩
      rcases covers with has | later | behind
      · exact .inl has
      · exact .inr (.inl (skip (.inl bad) later))
      · exact .inr (.inr behind)
    · split
      · exact ⟨same, covers⟩
      · rename_i gone
        refine ⟨same, ?_⟩
        rcases covers with has | later | behind
        · exact .inl has
        · exact .inr (.inl (skip (.inr gone) later))
        · exact .inr (.inr behind)

theorem covers_opening (active : ActiveAt codec id role s)
    (covers : Covers role id s.stores.active (.scanOpening scan count truncated x rest)) :
    Covers role id s.stores.active (scan.opened count truncated x rest s.stores.active) := by
  obtain ⟨-, e, named, found, wanted⟩ := active.present
  obtain ⟨same, covers⟩ := covers
  have wanted := wanted scan same
  have extend : ∀ lease, scan.Has id →
      { scan with records := scan.records ++ [lease] }.Has id := by
    rintro lease ⟨other, member, named⟩
    exact ⟨other, List.mem_append_left _ member, named⟩
  unfold ActiveScan.opened
  split
  · rename_i unread
    refine ⟨same, ?_⟩
    rcases covers with has | later | behind
    · exact .inl has
    · rcases List.mem_cons.mp later with rfl | later
      · rw [openRecord, found] at unread
        cases unread
      · exact .inr (.inl later)
    · exact .inr (.inr behind)
  · rename_i envelope opened
    have own : id = x → envelope.value = e.value := by
      rintro rfl
      rw [openRecord, found] at opened
      cases opened
      rfl
    split
    · simp only
      split
      · intro complete
        simp [ActiveScan.page] at complete
      · refine ⟨same, ?_⟩
        rcases covers with has | later | behind
        · exact .inl (extend _ has)
        · rcases List.mem_cons.mp later with equal | later
          · refine .inl ⟨envelope.value, List.mem_append_right _ (List.mem_singleton.mpr rfl), ?_⟩
            rw [own equal]
            exact named
          · exact .inr (.inl later)
        · exact .inr (.inr behind)
    · rename_i unwanted
      refine ⟨same, ?_⟩
      rcases covers with has | later | behind
      · exact .inl has
      · rcases List.mem_cons.mp later with equal | later
        · rw [own equal] at unwanted
          exact absurd wanted unwanted
        · exact .inr (.inl later)
      · exact .inr (.inr behind)

/-- A step of the scan itself. -/
theorem covers_next {phase : LeaseProcess} (active : ActiveAt codec id role s)
    (covers : Covers role id s.stores.active phase) :
    Covers role id s.stores.active (next codec s.stores phase).1 := by
  obtain ⟨-, e, -, found, -⟩ := active.present
  have there : id ∈ s.stores.active := AList.lookup_isSome.mp (by rw [found]; rfl)
  cases phase with
  | listing scan => exact covers_listing there covers
  | reading scan count truncated rest => exact covers_reading active covers
  | scanOpening scan count truncated x rest => exact covers_opening active covers
  | scanned page => exact covers
  | idle => trivial
  | _ => exact covers.elim

/-- A scan changes nothing. -/
theorem next_stores {c : Collection ProcessLease} {phase : LeaseProcess}
    (covers : Covers role id c phase) : (next codec s.stores phase).2 = s.stores := by
  cases phase with
  | listing scan =>
    simp only [next]
    split <;> rfl
  | reading scan count truncated rest =>
    cases rest with
    | nil =>
      simp only [next]
      split <;> rfl
    | cons x rest =>
      simp only [next]
      split
      · rfl
      · split <;> rfl
  | scanOpening scan count truncated x rest => rfl
  | scanned page => rfl
  | idle => rfl
  | _ => exact covers.elim

end Advance

/-- One step of the system. -/
theorem Covers.step (active : ActiveAt codec id role s) (behind : RemovesBehind codec p s l)
    (continues : Continues p l) (covers : Covers role id s.stores.active (s.processes p)) :
    Covers role id (s.step codec l).stores.active ((s.step codec l).processes p) := by
  obtain ⟨y, effect⟩ := step_active codec s l
  -- where the process itself does not move
  have still : (s.step codec l).processes p = s.processes p →
      Covers role id (s.step codec l).stores.active ((s.step codec l).processes p) := by
    intro same
    rw [same]
    exact covers.change effect fun n there gone at_n => behind y n there gone at_n
  cases l with
  | create lease =>
    apply still
    simp only [LeaseSystem.step, LeaseSystem.withActive]
    split <;> rfl
  | save lease expected =>
    apply still
    simp only [LeaseSystem.step, LeaseSystem.withActive]
    split <;> rfl
  | startCollect q maxRecords => exact still (Function.update_of_ne (Ne.symm continues) _ _)
  | startArchive q leaseId expected => exact still (Function.update_of_ne (Ne.symm continues) _ _)
  | startScan q role' maxRecords =>
    apply still
    simp only [LeaseSystem.step]
    split
    · exact Function.update_of_ne (Ne.symm continues) _ _
    · rfl
  | crash q =>
    by_cases same : p = q
    · subst same
      simp only [LeaseSystem.step, LeaseSystem.enter, Function.update_self]
      trivial
    · exact still (Function.update_of_ne same _ _)
  | advance q =>
    by_cases same : p = q
    · subst same
      have stores : (s.step codec (.advance p)).stores = s.stores := next_stores covers
      simp only [LeaseSystem.step, Function.update_self] at stores ⊢
      rw [stores]
      exact covers_next active covers
    · exact still (Function.update_of_ne same _ _)

end Steps

/-- A scan that reports completion returns every lease that was active from its start to its
end, in every run in which each file removed meanwhile stood at or after the position where
the scan's next page begins. -/
theorem complete_scan_misses_none (codec : StateCodec ProcessLease) (s : LeaseSystem) (p : Nat)
    (role : Option ProcessLeaseRole) (maxRecords : Nat) (labels : List LeaseLabel) (id : Text)
    (page : ProcessLeasePage) (start : s.processes p = .listing ⟨role, maxRecords, [], [], 0⟩)
    (active : Runs.Throughout (LeaseSystem.step codec) (ActiveAt codec id role) s labels)
    (continues : ∀ l ∈ labels, Continues p l)
    (behind : Runs.Along (LeaseSystem.step codec) (RemovesBehind codec p) s labels)
    (ended : (s.run codec labels).processes p = .scanned page) (complete : page.scanComplete = true) :
    ∃ lease ∈ page.records, lease.leaseId = id := by
  have goes : Runs.Along (LeaseSystem.step codec) (fun _ l => Continues p l) s labels := by
    intro done l rest split
    exact continues l (by rw [split]; simp)
  have first : Covers role id s.stores.active (s.processes p) := by
    rw [start]
    exact ⟨rfl, .inr (Nat.zero_le _)⟩
  have covers := (((active.along.both behind).both goes).invariant
    (Q := fun s => Covers role id s.stores.active (s.processes p))
    (fun s l covers h => covers.step h.1.1.1 h.1.2 h.2) first).last
  change Covers role id _ ((s.run codec labels).processes p) at covers
  rw [ended] at covers
  exact covers complete

namespace Sample

def hexDigits (n : Nat) : Text :=
  [Nat.digitChar (n / 256), Nat.digitChar (n / 16 % 16), Nat.digitChar (n % 16)]

def crowdedId (n : Nat) : Text := "worker-000".toList ++ hexDigits n

def lastLease : Text := "worker-ffffff".toList

/-- `n` terminated leases, and a running one behind them. -/
def crowd : Nat → Collection ProcessLease
  | 0 => (∅ : Collection ProcessLease).insert lastLease (.readable 1 (lease lastLease .running))
  | n + 1 => (crowd n).insert (crowdedId n) (.readable 1 (lease (crowdedId n) .terminated))

/-- One process scans, another archives. -/
def seats (scanner archiver : LeaseProcess) : Nat → LeaseProcess
  | 0 => scanner
  | 1 => archiver
  | _ => .idle

def scanning (c : Collection ProcessLease) : LeaseSystem where
  stores := ⟨c, ∅⟩
  processes := seats (.listing ⟨none, 10, [], [], 0⟩) .idle

/-- The first page is read; the first file of it is archived; the second page is read. -/
def interleaving : List LeaseLabel :=
  List.replicate 4002 (.advance 0) ++
    [.startArchive 1 (crowdedId 0) 1, .advance 1, .advance 1, .advance 1, .advance 1, .advance 0]

theorem update_scanner (a b phase : LeaseProcess) :
    Function.update (seats a b) 0 phase = seats phase b := by
  funext p
  rcases p with - | - | p <;> rfl

theorem update_archiver (a b phase : LeaseProcess) :
    Function.update (seats a b) 1 phase = seats a phase := by
  funext p
  rcases p with - | - | p <;> rfl

theorem digitChar_injective : ∀ a < 16, ∀ b < 16, Nat.digitChar a = Nat.digitChar b → a = b := by
  decide

theorem digitChar_lowerHex : ∀ a < 16, lowerHex (Nat.digitChar a) = true := by
  decide

theorem crowdedId_injective {m n : Nat} (hm : m < 4096) (hn : n < 4096)
    (same : crowdedId m = crowdedId n) : m = n := by
  have digits := List.append_cancel_left same
  simp only [hexDigits, List.cons.injEq, and_true] at digits
  have high := digitChar_injective _ (by omega) _ (by omega) digits.1
  have middle := digitChar_injective _ (by omega) _ (by omega) digits.2.1
  have low := digitChar_injective _ (by omega) _ (by omega) digits.2.2
  omega

theorem crowdedId_lt (n : Nat) : fileName (crowdedId n) < fileName lastLease := by
  change "worker-".toList ++ ("000".toList ++ hexDigits n ++ ".json".toList) <
    "worker-".toList ++ "ffffff.json".toList
  apply List.append_left_lt
  exact .rel (by decide)

theorem crowdedId_ne (n : Nat) : crowdedId n ≠ lastLease :=
  fun same => absurd (crowdedId_lt n) (by rw [same]; exact lt_irrefl _)

theorem recordId_crowded {n : Nat} (h : n < 4096) : leaseCodec.recordId (crowdedId n) = true := by
  have high := digitChar_lowerHex (n / 256) (by omega)
  have middle := digitChar_lowerHex (n / 16 % 16) (by omega)
  have low := digitChar_lowerHex (n % 16) (by omega)
  have kind : (crowdedId n).takeWhile (· ≠ '-') = "worker".toList := rfl
  have hex : (crowdedId n).dropWhile (· ≠ '-') = '-' :: ("000".toList ++ hexDigits n) := rfl
  simp only [leaseCodec, RepoForge.leaseCodec, validLeaseId, kind, hex]
  simp only [hexDigits, String.reduceToList, List.cons_append, List.nil_append, List.all_cons,
    List.all_nil, high, middle, low]
  rfl

theorem mem_crowd {n : Nat} {id : Text} :
    id ∈ crowd n ↔ id = lastLease ∨ ∃ k < n, id = crowdedId k := by
  induction n with
  | zero =>
    rw [crowd, AList.mem_insert]
    simp
  | succ n ih =>
    rw [crowd, AList.mem_insert, ih]
    constructor
    · rintro (rfl | rfl | ⟨k, small, rfl⟩)
      · exact .inr ⟨n, by omega, rfl⟩
      · exact .inl rfl
      · exact .inr ⟨k, by omega, rfl⟩
    · rintro (rfl | ⟨k, small, rfl⟩)
      · exact .inr (.inl rfl)
      · by_cases last : k = n
        · exact .inl (by rw [last])
        · exact .inr (.inr ⟨k, by omega, rfl⟩)

theorem crowdedId_absent {n : Nat} (h : n < 4096) : crowdedId n ∉ crowd n := by
  intro there
  rcases mem_crowd.mp there with same | ⟨k, small, same⟩
  · exact crowdedId_ne n same
  · have := crowdedId_injective h (by omega) same
    omega

theorem lookup_crowded {k n : Nat} (small : k < n) (bound : n ≤ 4096) :
    (crowd n).lookup (crowdedId k) = some (.readable 1 (lease (crowdedId k) .terminated)) := by
  induction n with
  | zero => omega
  | succ n ih =>
    by_cases last : k = n
    · rw [last]
      exact AList.lookup_insert _
    · have other : crowdedId k ≠ crowdedId n :=
        fun same => last (crowdedId_injective (by omega) (by omega) same)
      rw [crowd, AList.lookup_insert_ne other]
      exact ih (by omega) (by omega)

theorem lookup_last (n : Nat) :
    (crowd n).lookup lastLease = some (.readable 1 (lease lastLease .running)) := by
  induction n with
  | zero => exact AList.lookup_insert _
  | succ n ih =>
    rw [crowd, AList.lookup_insert_ne (crowdedId_ne n).symm]
    exact ih

theorem length_crowd {n : Nat} (bound : n ≤ 4096) : (crowd n).keys.length = n + 1 := by
  induction n with
  | zero => rfl
  | succ n ih =>
    rw [crowd, (keys_insert_new (crowdedId_absent bound)).length_eq, List.length_cons,
      ih (by omega)]

theorem rank_last {n : Nat} (bound : n ≤ 4096) : rank lastLease (crowd n) = n := by
  induction n with
  | zero => rfl
  | succ n ih =>
    have before := ih (by omega)
    rw [rank, position] at before
    rw [crowd, rank, position_perm (keys_insert_new (crowdedId_absent bound)), position,
      List.countP_cons, before]
    simp [crowdedId_lt]

section Interleaved

variable {c : Collection ProcessLease} {stores : LeaseStores} {scan : ActiveScan} {count : Nat}
  {truncated : Bool} {page : List Text}

/-- The scan passes over the ended leases of a page, two steps for each. -/
theorem reads_page (ended : ∀ x ∈ page, leaseCodec.recordId x = true ∧
      stores.active.lookup x = some (.readable 1 (lease x .terminated))) :
    Runs.run (LeaseSystem.step leaseCodec)
        ⟨stores, seats (.reading scan count truncated page) .idle⟩
        (List.replicate (2 * page.length) (.advance 0)) =
      ⟨stores, seats (.reading scan count truncated []) .idle⟩ := by
  induction page with
  | nil => rfl
  | cons x page ih =>
    obtain ⟨valid, found⟩ := ended x List.mem_cons_self
    have there : x ∈ stores.active := AList.lookup_isSome.mp (by rw [found]; rfl)
    have looked : LeaseSystem.step leaseCodec
        ⟨stores, seats (.reading scan count truncated (x :: page)) .idle⟩ (.advance 0) =
        ⟨stores, seats (.scanOpening scan count truncated x page) .idle⟩ := by
      simp only [LeaseSystem.step, seats, next, valid, there, not_true, if_true, if_false,
        update_scanner]
    have opened : LeaseSystem.step leaseCodec
        ⟨stores, seats (.scanOpening scan count truncated x page) .idle⟩ (.advance 0) =
        ⟨stores, seats (.reading scan count truncated page) .idle⟩ := by
      have unwanted : scan.wants (lease x .terminated) = false := by
        simp [ActiveScan.wants, lease, activeLeaseStatuses]
      simp only [LeaseSystem.step, seats, next, ActiveScan.opened, openRecord, found, unwanted,
        Bool.false_eq_true, if_false, update_scanner]
    have steps : List.replicate (2 * (x :: page).length) (LeaseLabel.advance 0) =
        .advance 0 :: .advance 0 :: List.replicate (2 * page.length) (.advance 0) := by
      rw [List.length_cons, Nat.mul_succ, List.replicate_succ, List.replicate_succ]
    rw [steps, Runs.run_cons, looked, Runs.run_cons, opened]
    exact ih fun y member => ended y (List.mem_cons_of_mem _ member)

/-- The first page of the crowd is full, and has none but ended leases. -/
theorem reads_first (size : (sortedIds c).length = 2001) (behind : rank lastLease c = 2000)
    (there : lastLease ∈ c) (ended : ∀ x ∈ c, x ≠ lastLease → leaseCodec.recordId x = true ∧
      c.lookup x = some (.readable 1 (lease x .terminated))) :
    Runs.run (LeaseSystem.step leaseCodec) (scanning c) (List.replicate 4002 (.advance 0)) =
      ⟨⟨c, ∅⟩, seats (.listing ⟨none, 10, [], [], 2000⟩) .idle⟩ := by
  have full : (listIds scanPageSize 0 c).1.length = 2000 := by
    simp [listIds, size, scanPageSize]
  have more : (listIds scanPageSize 0 c).2 = true := by
    simp [listIds, size, scanPageSize]
  have some_ids : (listIds scanPageSize 0 c).1 ≠ [] := by
    intro empty
    rw [empty] at full
    cases full
  have listed : LeaseSystem.step leaseCodec (scanning c) (.advance 0) =
      ⟨⟨c, ∅⟩, seats (.reading ⟨none, 10, [], [], 0⟩ 2000 true (listIds scanPageSize 0 c).1)
        .idle⟩ := by
    simp only [LeaseSystem.step, scanning, seats, next, full, more, some_ids, if_false,
      update_scanner]
  have terminated : ∀ x ∈ (listIds scanPageSize 0 c).1, leaseCodec.recordId x = true ∧
      c.lookup x = some (.readable 1 (lease x .terminated)) := by
    intro x member
    have inside : x ∈ c := by
      have sorted := List.mem_of_mem_drop (List.mem_of_mem_take member)
      exact (List.perm_insertionSort _ _).mem_iff.mp sorted
    apply ended x inside
    rintro rfl
    have := (mem_listIds there).mp member
    simp only [scanPageSize] at this
    omega
  have steps : List.replicate 4002 (LeaseLabel.advance 0) = .advance 0 ::
      (List.replicate (2 * (listIds scanPageSize 0 c).1.length) (.advance 0) ++ [.advance 0]) := by
    rw [full, ← List.replicate_succ', ← List.replicate_succ]
  rw [steps, Runs.run_cons, listed, Runs.run_append, reads_page terminated]
  simp only [Runs.run_cons, Runs.run_nil, LeaseSystem.step, seats, next, if_true, update_scanner]

theorem activeAt_last {s : LeaseSystem} (found : s.stores.active.lookup lastLease =
    some (.readable 1 (lease lastLease .running))) : ActiveAt leaseCodec lastLease none s := by
  refine ⟨⟨lastLease, 1, lease lastLease .running⟩, ?_, rfl, by decide, .inl rfl⟩
  have valid : checkId leaseCodec lastLease = .ok () := by decide
  simp only [Repository.read, valid, found]
  rfl

/-- A scanner that runs alone changes nothing. -/
theorem stays_active (last : c.lookup lastLease = some (.readable 1 (lease lastLease .running)))
    {n : Nat} : Runs.Throughout (LeaseSystem.step leaseCodec) (ActiveAt leaseCodec lastLease none)
      (scanning c) (List.replicate n (.advance 0)) := by
  have along : Runs.Along (LeaseSystem.step leaseCodec) (fun _ l => l = .advance 0)
      (scanning c) (List.replicate n (.advance 0)) := by
    intro done l rest split
    exact List.eq_of_mem_replicate (by rw [split]; simp)
  have scans : Runs.Throughout (LeaseSystem.step leaseCodec)
      (fun s => s.stores.active = c ∧ Covers none lastLease c (s.processes 0))
      (scanning c) (List.replicate n (.advance 0)) := by
    refine along.invariant ?_ ⟨rfl, rfl, .inr (Nat.zero_le _)⟩
    rintro s _ ⟨same, covers⟩ rfl
    have active : ActiveAt leaseCodec lastLease none s := activeAt_last (by rw [same]; exact last)
    rw [← same] at covers
    have stores : (s.step leaseCodec (.advance 0)).stores = s.stores := next_stores covers
    rw [stores, ← same]
    exact ⟨rfl, by simpa [LeaseSystem.step] using covers_next active covers⟩
  intro done rest split
  apply activeAt_last
  rw [(scans done rest split).1]
  exact last

/-- The states of the archival, one for each label. -/
theorem archives (victim : Text) (valid : leaseCodec.recordId victim = true)
    (found : c.lookup victim = some (.readable 1 (lease victim .terminated)))
    (scanner : LeaseProcess) :
    let e : StateEnvelope ProcessLease := ⟨victim, 1, lease victim .terminated⟩
    let history := (∅ : Collection ProcessLease).insert victim (.readable 1 e.value)
    LeaseSystem.step leaseCodec ⟨⟨c, ∅⟩, seats scanner .idle⟩ (.startArchive 1 victim 1) =
      ⟨⟨c, ∅⟩, seats scanner (.archiving victim 1)⟩ ∧
    LeaseSystem.step leaseCodec ⟨⟨c, ∅⟩, seats scanner (.archiving victim 1)⟩ (.advance 1) =
      ⟨⟨c, ∅⟩, seats scanner (.archiveOpening victim 1)⟩ ∧
    LeaseSystem.step leaseCodec ⟨⟨c, ∅⟩, seats scanner (.archiveOpening victim 1)⟩ (.advance 1) =
      ⟨⟨c, ∅⟩, seats scanner (.archiveCopying e)⟩ ∧
    LeaseSystem.step leaseCodec ⟨⟨c, ∅⟩, seats scanner (.archiveCopying e)⟩ (.advance 1) =
      ⟨⟨c, history⟩, seats scanner (.archiveDeleting e)⟩ ∧
    LeaseSystem.step leaseCodec ⟨⟨c, history⟩, seats scanner (.archiveDeleting e)⟩ (.advance 1) =
      ⟨⟨c.erase victim, history⟩, seats scanner (.archived (.ok true))⟩ := by
  have there : victim ∈ c := AList.lookup_isSome.mp (by rw [found]; rfl)
  have checked : checkId leaseCodec victim = .ok () := by
    simp only [checkId, valid, if_true]
  have old : read leaseCodec victim c = .ok (some ⟨victim, 1, lease victim .terminated⟩) := by
    simp only [Repository.read, checked, found]
    rfl
  have new : read leaseCodec victim ∅ = .ok none := by
    simp only [Repository.read, checked]
    rfl
  have ended : (lease victim .terminated).status ∈ terminalStatuses := by
    simp [lease, terminalStatuses]
  have copied : createOrReadEqual leaseCodec victim (lease victim .terminated) ∅ =
      .ok (⟨victim, 1, lease victim .terminated⟩,
        (∅ : Collection ProcessLease).insert victim (.readable 1 (lease victim .terminated))) := by
    simp only [createOrReadEqual, checked, new]
    rfl
  have deleted : deleteIfRevision leaseCodec victim 1 c = .ok (true, c.erase victim) := by
    simp only [deleteIfRevision, old]
    rfl
  refine ⟨?_, ?_, ?_, ?_, ?_⟩
  · simp only [LeaseSystem.step, LeaseSystem.enter, update_archiver]
  · simp only [LeaseSystem.step, seats, next, valid, there, not_true, if_true, if_false,
      update_archiver]
  · simp only [LeaseSystem.step, seats, next, openRecord, found, ended, ne_eq, not_true, if_true,
      if_false, update_archiver]
  · simp only [LeaseSystem.step, seats, next, copied, update_archiver]
  · simp only [LeaseSystem.step, seats, next, deleted, update_archiver]

/-- The second page begins behind the last file. -/
theorem lists_nothing (size : (sortedIds c).length = 2000) (history : Collection ProcessLease)
    (archiver : LeaseProcess) :
    LeaseSystem.step leaseCodec ⟨⟨c, history⟩, seats (.listing ⟨none, 10, [], [], 2000⟩) archiver⟩
      (.advance 0) = ⟨⟨c, history⟩, seats (.scanned ⟨[], true, []⟩) archiver⟩ := by
  have none_left : (listIds scanPageSize 2000 c).1 = [] := by
    simp [listIds, size]
  have last : (listIds scanPageSize 2000 c).2 = false := by
    simp [listIds, size]
  simp only [LeaseSystem.step, seats, next, none_left, last, if_true, update_scanner]
  rfl

/-- The whole interleaving. -/
theorem interleaved (size : (sortedIds c).length = 2001) (behind : rank lastLease c = 2000)
    (last : c.lookup lastLease = some (.readable 1 (lease lastLease .running)))
    (first : c.lookup (crowdedId 0) = some (.readable 1 (lease (crowdedId 0) .terminated)))
    (ended : ∀ x ∈ c, x ≠ lastLease → leaseCodec.recordId x = true ∧
      c.lookup x = some (.readable 1 (lease x .terminated))) :
    Runs.Throughout (LeaseSystem.step leaseCodec) (ActiveAt leaseCodec lastLease none) (scanning c)
      interleaving ∧
    ((scanning c).run leaseCodec interleaving).processes 0 = .scanned ⟨[], true, []⟩ := by
  have there : crowdedId 0 ∈ c := AList.lookup_isSome.mp (by rw [first]; rfl)
  have present : lastLease ∈ c := AList.lookup_isSome.mp (by rw [last]; rfl)
  have page := reads_first size behind present ended
  obtain ⟨started, looked, opened, copied, deleted⟩ := archives (crowdedId 0)
    (recordId_crowded (by omega)) first (.listing ⟨none, 10, [], [], 2000⟩)
  have smaller : (sortedIds (c.erase (crowdedId 0))).length = 2000 := by
    have one := (keys_erase_old there).length_eq
    rw [sortedIds, List.length_insertionSort] at size ⊢
    simp only [List.length_cons] at one
    omega
  have kept : (c.erase (crowdedId 0)).lookup lastLease =
      some (.readable 1 (lease lastLease .running)) := by
    rw [AList.lookup_erase_ne (crowdedId_ne 0).symm]
    exact last
  constructor
  · apply Runs.throughout_append (stays_active last)
    rw [page]
    refine Runs.throughout_cons.mpr ⟨activeAt_last last, ?_⟩
    rw [started]
    refine Runs.throughout_cons.mpr ⟨activeAt_last last, ?_⟩
    rw [looked]
    refine Runs.throughout_cons.mpr ⟨activeAt_last last, ?_⟩
    rw [opened]
    refine Runs.throughout_cons.mpr ⟨activeAt_last last, ?_⟩
    rw [copied]
    refine Runs.throughout_cons.mpr ⟨activeAt_last last, ?_⟩
    rw [deleted]
    refine Runs.throughout_cons.mpr ⟨activeAt_last kept, ?_⟩
    rw [lists_nothing smaller]
    exact Runs.throughout_nil (activeAt_last kept)
  · rw [LeaseSystem.run, interleaving, Runs.run_append, page]
    simp only [Runs.run_cons, Runs.run_nil, started, looked, opened, copied, deleted,
      lists_nothing smaller, seats]

end Interleaved

/-- One running lease, and a scan at its start. -/
def quiet : LeaseSystem := scanning (crowd 0)

end Sample

/-- A scan that nothing disturbs. -/
theorem complete_scan_misses_none_quiet :
    ∃ lease ∈ [Sample.lease Sample.lastLease .running], lease.leaseId = Sample.lastLease := by
  have active : Runs.Throughout (LeaseSystem.step Sample.leaseCodec)
      (ActiveAt Sample.leaseCodec Sample.lastLease none) Sample.quiet
      [.advance 0, .advance 0, .advance 0, .advance 0] :=
    Sample.stays_active (n := 4) (Sample.lookup_last 0)
  refine complete_scan_misses_none Sample.leaseCodec Sample.quiet 0 none 10
    [.advance 0, .advance 0, .advance 0, .advance 0] Sample.lastLease
    ⟨[Sample.lease Sample.lastLease .running], true, []⟩ rfl active ?_ ?_ rfl rfl
  · intro l member
    simp only [List.mem_cons, List.not_mem_nil, or_false, or_self] at member
    subst member
    trivial
  · iterate 4 refine Runs.along_cons.mpr ⟨fun y n there gone => absurd there gone, ?_⟩
    exact Runs.along_nil

/-- The lease is active in every state of the scan, which reports completion without it. -/
theorem complete_scan_misses_active :
    (Sample.scanning (Sample.crowd 2000)).processes 0 = .listing ⟨none, 10, [], [], 0⟩ ∧
    (∀ l ∈ Sample.interleaving, Continues 0 l) ∧
    Runs.Throughout (LeaseSystem.step Sample.leaseCodec)
      (ActiveAt Sample.leaseCodec Sample.lastLease none) (Sample.scanning (Sample.crowd 2000))
      Sample.interleaving ∧
    ((Sample.scanning (Sample.crowd 2000)).run Sample.leaseCodec Sample.interleaving).processes 0 =
      .scanned ⟨[], true, []⟩ := by
  refine ⟨rfl, ?_, ?_⟩
  · intro l member
    rcases List.mem_append.mp member with member | member
    · rw [List.eq_of_mem_replicate member]
      trivial
    · simp only [List.mem_cons, List.not_mem_nil, or_false] at member
      rcases member with rfl | rfl | rfl | rfl | rfl | rfl
      · exact Nat.one_ne_zero
      all_goals trivial
  · apply Sample.interleaved
    · rw [sortedIds, List.length_insertionSort, Sample.length_crowd (by omega)]
    · exact Sample.rank_last (by omega)
    · exact Sample.lookup_last 2000
    · exact Sample.lookup_crowded (by omega) (by omega)
    · intro x member other
      obtain ⟨k, small, rfl⟩ := (Sample.mem_crowd.mp member).resolve_left other
      exact ⟨Sample.recordId_crowded (by omega), Sample.lookup_crowded small (by omega)⟩

end RepoForge
