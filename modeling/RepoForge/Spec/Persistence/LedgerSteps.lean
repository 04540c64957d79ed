import Mathlib.Algebra.Order.Group.Int
import Mathlib.Algebra.Order.Ring.Rat
import RepoForge.Library.SlidingWindow
import RepoForge.Source.Persistence.MutationLedger

/-!
# What one reservation does to the ledger

A readable file holds valid entries (`readFile_valid`), and what is written can be read again
(`readFile_payload`). `Reserved` lists what a call can do: nothing, where it raises; prune, where
it repeats a marker of the window; or add one entry, where the window has room for it.
-/
namespace RepoForge.Persistence.MutationLedger
open PyStr (lit)
open SlidingWindow (total since)

structure LedgerEntry.Valid (entry : LedgerEntry) : Prop where
  marker : validMarker entry.marker = true
  positive : 0 < entry.count

theorem readEntry_valid {raw : Value} {entry : LedgerEntry} (h : readEntry raw = .ok entry) :
    entry.Valid := by
  unfold readEntry at h
  split at h
  · split at h
    · rename_i marker count reserved _ _ _
      split_ifs at h with bad
      simp only [validateMarker] at h
      split_ifs at h with good
      · cases h
        constructor
        · exact good
        · simpa using bad
      · cases h
    · cases h
  · cases h

theorem readEntries_valid {raws : List Value} {entries : List LedgerEntry}
    (h : raws.mapM readEntry = .ok entries) : ∀ entry ∈ entries, entry.Valid := by
  induction raws generalizing entries with
  | nil =>
    cases h
    simp
  | cons raw raws ih =>
    rw [List.mapM_cons] at h
    cases first : readEntry raw with
    | error e =>
      rw [first] at h
      cases h
    | ok entry =>
      cases rest : raws.mapM readEntry with
      | error e =>
        rw [first, rest] at h
        cases h
      | ok others =>
        rw [first, rest] at h
        cases h
        simp only [List.mem_cons, forall_eq_or_imp]
        exact ⟨readEntry_valid first, ih rest⟩

/-- What a file that can be read for a repository looks like. -/
theorem readFile_ok {repoId : PyStr} {file : StoredFile} {entries : List LedgerEntry}
    (h : readFile repoId file = .ok entries) :
    ∃ fields, file = .json (.dict fields) ∧ PyDict.get fields (lit "repo_id") = some (.str repoId) ∧
      (∀ entry ∈ entries, entry.Valid) ∧ entries.length ≤ maxRecords := by
  unfold readFile at h
  split at h
  · cases h
  · rename_i fields
    split at h
    · rename_i version owner raws _ owned _
      split_ifs at h with matched
      cases parsed : raws.mapM readEntry with
      | error e =>
        rw [parsed] at h
        cases h
      | ok found =>
        simp only [parsed, Except.bind] at h
        split_ifs at h with many
        cases h
        rw [matched.2] at owned
        exact ⟨fields, rfl, owned, readEntries_valid parsed, by omega⟩
    · cases h
  · cases h

/-- One file cannot be read for two repositories. -/
theorem readFile_owner {one other : PyStr} {file : StoredFile} {entries others : List LedgerEntry}
    (h : readFile one file = .ok entries) (h' : readFile other file = .ok others) : one = other := by
  obtain ⟨fields, rfl, owned, -, -⟩ := readFile_ok h
  obtain ⟨_, same, owned', -, -⟩ := readFile_ok h'
  cases same
  rw [owned] at owned'
  cases owned'
  rfl

theorem readEntry_payload {entry : LedgerEntry} (valid : entry.Valid) :
    readEntry entry.payload = .ok entry := by
  have marker_count : lit "marker" ≠ lit "count" := by decide
  have marker_reserved : lit "marker" ≠ lit "reserved_at_epoch" := by decide
  have count_reserved : lit "count" ≠ lit "reserved_at_epoch" := by decide
  have positive : ¬ entry.count ≤ 0 := by
    have := valid.positive
    omega
  simp only [LedgerEntry.payload, readEntry, PyDict.get_cons, marker_count, marker_reserved,
    count_reserved, if_true, if_false, Option.bind_some, Value.number, if_neg positive, validateMarker,
    valid.marker, Except.map]

theorem readEntries_payload {entries : List LedgerEntry} (valid : ∀ entry ∈ entries, entry.Valid) :
    (entries.map LedgerEntry.payload).mapM readEntry = .ok entries := by
  induction entries with
  | nil => rfl
  | cons entry entries ih =>
    simp only [List.mem_cons, forall_eq_or_imp] at valid
    rw [List.map_cons, List.mapM_cons, readEntry_payload valid.1, ih valid.2]
    rfl

/-- What is written is read again. -/
theorem readFile_payload {repoId : PyStr} {entries : List LedgerEntry}
    (valid : ∀ entry ∈ entries, entry.Valid) (few : entries.length ≤ maxRecords) :
    readFile repoId (.json (payload repoId entries)) = .ok entries := by
  have version_owner : lit "schema_version" ≠ lit "repo_id" := by decide
  have version_entries : lit "schema_version" ≠ lit "entries" := by decide
  have owner_entries : lit "repo_id" ≠ lit "entries" := by decide
  have room : ¬ maxRecords < entries.length := by omega
  simp only [payload, readFile, PyDict.get_cons, version_owner, version_entries, owner_entries, if_true,
    if_false, Value.isSchemaVersion, decide_true, and_self, readEntries_payload valid, Except.bind,
    if_neg room]

/-- The entries that a call of a repository would read, none where it could not. -/
def stored (ledger : Ledger) (repoId : PyStr) : List LedgerEntry :=
  match read ledger repoId with
  | .ok entries => entries
  | .error _ => []

/-- The entries of its repository that are still in the window of a call. -/
def inWindow (call : Reservation) (ledger : Ledger) : List LedgerEntry :=
  since LedgerEntry.reservedAtEpoch call.cutoff (stored ledger call.repoId)

/-- The marker of the call is still in its window. -/
def repeats (call : Reservation) (ledger : Ledger) : Bool :=
  (inWindow call ledger).any fun item => decide (item.marker = call.marker)

def Reservation.entry (call : Reservation) : LedgerEntry := ⟨call.marker, call.count, call.nowEpoch⟩

theorem read_valid {ledger : Ledger} {repoId : PyStr} {entries : List LedgerEntry}
    (h : read ledger repoId = .ok entries) :
    (∀ entry ∈ entries, entry.Valid) ∧ entries.length ≤ maxRecords := by
  unfold read at h
  split at h
  · cases h
    simp
  · obtain ⟨_, -, -, valid, few⟩ := readFile_ok h
    exact ⟨valid, few⟩

theorem stored_of_read {ledger : Ledger} {repoId : PyStr} {entries : List LedgerEntry}
    (h : read ledger repoId = .ok entries) : stored ledger repoId = entries := by
  rw [stored, h]

/-- A ledger after some entries were written for a repository. -/
def Ledger.holding (ledger : Ledger) (repoId : PyStr) (entries : List LedgerEntry) : Ledger :=
  Function.update ledger (identity repoId) (some (.json (payload repoId entries)))

theorem read_holding {ledger : Ledger} {repoId : PyStr} {entries : List LedgerEntry}
    (valid : ∀ entry ∈ entries, entry.Valid) (few : entries.length ≤ maxRecords) :
    read (ledger.holding repoId entries) repoId = .ok entries := by
  simp only [read, Ledger.holding, Function.update_self, readFile_payload valid few]

theorem checkArguments_ok {call : Reservation} (h : checkArguments call = .ok ()) :
    call.entry.Valid ∧ 0 < call.maxInWindow := by
  simp only [checkArguments, validateRepoId, validateMarker] at h
  split_ifs at h with repo marker bounds
  · exact ⟨⟨marker, by simp only [Reservation.entry]; omega⟩, by omega⟩
  all_goals cases h

/-- What a call can do to a ledger, with what it returns or raises. -/
inductive Reserved (call : Reservation) (ledger : Ledger) : Except Raised Int → Ledger → Prop where
  | rejected (e : Raised) : Reserved call ledger (.error e) ledger
  | repeated (again : repeats call ledger = true)
      (whole : inWindow call ledger = stored ledger call.repoId) :
      Reserved call ledger (.ok (total LedgerEntry.count (inWindow call ledger))) ledger
  | pruned (again : repeats call ledger = true) {entries : List LedgerEntry}
      (readable : read ledger call.repoId = .ok entries) :
      Reserved call ledger (.ok (total LedgerEntry.count (inWindow call ledger)))
        (ledger.holding call.repoId (inWindow call ledger))
  | admitted (new : repeats call ledger = false) {entries : List LedgerEntry}
      (readable : read ledger call.repoId = .ok entries) (valid : call.entry.Valid)
      (room : total LedgerEntry.count (inWindow call ledger) + call.count ≤ call.maxInWindow)
      (positive : 0 < call.maxInWindow)
      (few : (inWindow call ledger ++ [call.entry]).length ≤ maxRecords) :
      Reserved call ledger (.ok (total LedgerEntry.count (inWindow call ledger) + call.count))
        (ledger.holding call.repoId (inWindow call ledger ++ [call.entry]))

theorem reserve_reserved (call : Reservation) (ledger : Ledger) :
    Reserved call ledger (reserve call ledger).1 (reserve call ledger).2 := by
  unfold reserve
  split
  · exact .rejected _
  · rename_i accepted
    obtain ⟨valid, positive⟩ := checkArguments_ok accepted
    split
    · exact .rejected _
    · rename_i entries readable
      have window : entries.filter (fun item => decide (call.cutoff ≤ item.reservedAtEpoch)) =
          inWindow call ledger := by
        rw [inWindow, stored_of_read readable, since]
      have current : ((inWindow call ledger).map (·.count)).sum =
          total LedgerEntry.count (inWindow call ledger) := rfl
      have marked : (inWindow call ledger).any (fun item => decide (item.marker = call.marker)) =
          repeats call ledger := rfl
      simp only [window, current, marked]
      by_cases again : repeats call ledger = true
      · rw [if_pos again]
        split_ifs with pruned
        · unfold write
          split_ifs
          · exact .pruned again readable
          · exact .rejected _
        · have whole : inWindow call ledger = stored ledger call.repoId := by
            have length := not_not.mp pruned
            rw [← stored_of_read readable] at length
            exact List.filter_sublist.eq_of_length length
          exact .repeated again whole
      · have again : repeats call ledger = false := by simpa using again
        rw [if_neg (by simp [again])]
        split_ifs with tooMany many
        · exact .rejected _
        · exact .rejected _
        · unfold write
          split_ifs
          · apply Reserved.admitted again readable valid _ positive
            · simpa [Reservation.entry] using many
            · simpa using tooMany
          · exact .rejected _

end RepoForge.Persistence.MutationLedger
