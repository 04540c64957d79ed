import RepoForge.Spec.Persistence.LeaseSteps

/-!
# Lease archival

A process that archives a lease holds the envelope it has read. `Custody` says what that is
worth at any later moment: the lease is in one of the collections, and if the active one
still has it at the revision of the envelope it is the very lease that was read; once it is
copied the history has it. So a deletion takes a lease that the history has.

`archival_loses_nothing` says this of every run in which lease ids are drawn fresh, and that
`collect_terminal` raises exactly where it opens a record that does not decode or that
another process has just deleted: its read stands outside the `try` that was to keep one
record from failing the pass. `collect_raises_on_unreadable` is such a run.
-/
namespace RepoForge

open Repository

variable {codec : StateCodec ProcessLease} {s : LeaseStores} {phase : LeaseProcess}
  {e : StateEnvelope ProcessLease}

section Runs

/-- The lease is in one of the collections. -/
def Present (id : Text) (s : LeaseStores) : Prop := id ∈ s.active ∨ id ∈ s.history

/-- What an envelope read earlier is worth now. -/
structure Seen (s : LeaseStores) (e : StateEnvelope ProcessLease) : Prop where
  terminal : e.value.status ∈ terminalStatuses
  present : Present e.recordId s
  current : ∀ stored, s.active.lookup e.recordId = some stored → ∃ r v, stored = .readable r v ∧
    (e.revision < r ∨ e.revision = r ∧ v = e.value)

def Archived (s : LeaseStores) (e : StateEnvelope ProcessLease) : Prop :=
  ∃ r, s.history.lookup e.recordId = some (.readable r e.value)

structure Custody (s : LeaseSystem) : Prop where
  seen : ∀ p e, (s.processes p).held = some e → Seen s.stores e
  archived : ∀ p e, (s.processes p).copied = some e → Archived s.stores e

/-- The ids of new leases are drawn fresh. -/
def FreshId (s : LeaseSystem) (l : LeaseLabel) : Prop :=
  ∀ lease, l = .create lease → lease.leaseId ∉ s.stores.history

theorem ReadNow.seen (h : ReadNow s e) : Seen s e where
  terminal := h.1
  present := .inl (AList.lookup_isSome.mp (by rw [h.2]; rfl))
  current stored found := by
    rw [h.2] at found
    cases found
    exact ⟨_, _, rfl, .inr ⟨rfl, rfl⟩⟩

/-- How the collections change in a custody system with fresh ids. -/
inductive StoresChange (s s' : LeaseStores) : Prop
  | same : s' = s → StoresChange s s'
  | created (id : Text) (lease : ProcessLease) : ¬ Present id s →
      s' = { s with active := s.active.insert id (.readable 1 lease) } → StoresChange s s'
  | saved (id : Text) (revision : Nat) (old lease : ProcessLease) :
      s.active.lookup id = some (.readable revision old) →
      s' = { s with active := s.active.insert id (.readable (revision + 1) lease) } →
      StoresChange s s'
  | copied (e : StateEnvelope ProcessLease) : s.history.lookup e.recordId = none →
      s' = { s with history := s.history.insert e.recordId (.readable 1 e.value) } →
      StoresChange s s'
  | removed (e : StateEnvelope ProcessLease) : Seen s e → Archived s e →
      s.active.lookup e.recordId = some (.readable e.revision e.value) →
      s' = { s with active := s.active.erase e.recordId } → StoresChange s s'

variable {s' : LeaseStores} {id : Text}

theorem Present.change (h : Present id s) (change : StoresChange s s') : Present id s' := by
  cases change with
  | same same => exact same ▸ h
  | created id' lease absent same =>
    rw [same]
    exact h.imp_left fun there => (AList.mem_insert _).mpr (.inr there)
  | saved id' revision old lease found same =>
    rw [same]
    exact h.imp_left fun there => (AList.mem_insert _).mpr (.inr there)
  | copied e' absent same =>
    rw [same]
    exact h.imp_right fun there => (AList.mem_insert _).mpr (.inr there)
  | removed e' seen archived found same =>
    rw [same]
    obtain ⟨r, archived⟩ := archived
    by_cases equal : id = e'.recordId
    · subst equal
      exact .inr (AList.lookup_isSome.mp (by rw [archived]; rfl))
    · exact h.imp_left fun there => AList.mem_erase.mpr ⟨equal, there⟩

theorem Archived.change (h : Archived s e) (change : StoresChange s s') : Archived s' e := by
  obtain ⟨r, stored⟩ := h
  cases change with
  | same same => exact ⟨r, same ▸ stored⟩
  | created id' lease absent same => exact ⟨r, same ▸ stored⟩
  | saved id' revision old lease found same => exact ⟨r, same ▸ stored⟩
  | removed e' seen archived found same => exact ⟨r, same ▸ stored⟩
  | copied e' absent same =>
    refine ⟨r, ?_⟩
    rw [same, AList.lookup_insert_ne]
    · exact stored
    · intro equal
      rw [equal, absent] at stored
      cases stored

theorem Seen.change (h : Seen s e) (change : StoresChange s s') : Seen s' e := by
  refine ⟨h.terminal, h.present.change change, ?_⟩
  intro stored found
  cases change with
  | same same =>
    rw [same] at found
    exact h.current stored found
  | copied e' absent same =>
    rw [same] at found
    exact h.current stored found
  | created id' lease absent same =>
    -- the lease is present, so the new one has another id
    rw [same, AList.lookup_insert_ne] at found
    · exact h.current stored found
    · intro equal
      exact absent (equal ▸ h.present)
  | saved id' revision old lease before same =>
    by_cases equal : e.recordId = id'
    · subst equal
      rw [same, AList.lookup_insert] at found
      cases found
      obtain ⟨r, v, stored, later | ⟨rfl, -⟩⟩ := h.current _ before
      · cases stored
        exact ⟨_, _, rfl, .inl (by omega)⟩
      · cases stored
        exact ⟨_, _, rfl, .inl (by omega)⟩
    · rw [same, AList.lookup_insert_ne equal] at found
      exact h.current stored found
  | removed e' seen archived before same =>
    rw [same] at found
    by_cases equal : e.recordId = e'.recordId
    · rw [equal, AList.lookup_erase] at found
      cases found
    · rw [AList.lookup_erase_ne equal] at found
      exact h.current stored found

namespace Custody

variable {s : LeaseSystem} {l : LeaseLabel}

theorem step_change (custody : Custody s) (fresh : FreshId s l) :
    StoresChange s.stores (s.step codec l).stores := by
  cases l with
  | create lease =>
    simp only [LeaseSystem.step, LeaseSystem.withActive]
    split
    · rename_i made
      obtain ⟨-, absent, rfl⟩ := create_ok made
      refine .created lease.leaseId lease ?_ rfl
      exact not_or.mpr ⟨AList.lookup_eq_none.mp absent, fresh lease rfl⟩
    · exact .same rfl
  | save lease expected =>
    simp only [LeaseSystem.step, LeaseSystem.withActive]
    split
    · rename_i made
      obtain ⟨-, ⟨old, found⟩, rfl⟩ := save_ok made
      exact .saved lease.leaseId expected old lease found rfl
    · exact .same rfl
  | startCollect p maxRecords => exact .same rfl
  | startArchive p leaseId expected => exact .same rfl
  | startScan p role maxRecords =>
    simp only [LeaseSystem.step]
    split <;> exact .same rfl
  | crash p => exact .same rfl
  | advance p =>
    change StoresChange s.stores (next codec s.stores (s.processes p)).2
    cases (next_spec codec s.stores (s.processes p)).effect with
    | same same => exact .same same
    | copied e held absent same => exact .copied e absent same
    | removed e copied found same =>
      have seen := custody.seen p e (LeaseProcess.held_of_copied copied)
      obtain ⟨v, found⟩ := found
      obtain ⟨r, v', stored, later | ⟨-, rfl⟩⟩ := seen.current _ found
      · cases stored
        omega
      · cases stored
        exact .removed e seen (custody.archived p e copied) found same

/-- A label that gives a process a phase in which it holds nothing. -/
theorem enter (custody : Custody s) (p : Nat) {phase : LeaseProcess} (none : phase.held = .none) :
    Custody (s.enter p phase) := by
  constructor
  · intro q e held
    by_cases same : q = p
    · simp only [LeaseSystem.enter, same, Function.update_self, none] at held
      cases held
    · simp only [LeaseSystem.enter, Function.update_of_ne same] at held
      exact custody.seen q e held
  · intro q e copied
    by_cases same : q = p
    · simp only [LeaseSystem.enter, same, Function.update_self] at copied
      rw [LeaseProcess.held_of_copied copied] at none
      cases none
    · simp only [LeaseSystem.enter, Function.update_of_ne same] at copied
      exact custody.archived q e copied

theorem change (custody : Custody s) {stores : LeaseStores} (change : StoresChange s.stores stores) :
    Custody ⟨stores, s.processes⟩ :=
  ⟨fun p e held => (custody.seen p e held).change change,
    fun p e copied => (custody.archived p e copied).change change⟩

theorem step (custody : Custody s) (fresh : FreshId s l) : Custody (s.step codec l) := by
  have change : StoresChange s.stores (s.step codec l).stores := custody.step_change fresh
  cases l with
  | create lease =>
    have processes : (s.step codec (.create lease)).processes = s.processes := by
      simp only [LeaseSystem.step, LeaseSystem.withActive]
      split <;> rfl
    have kept := custody.change change
    rwa [← processes] at kept
  | save lease expected =>
    have processes : (s.step codec (.save lease expected)).processes = s.processes := by
      simp only [LeaseSystem.step, LeaseSystem.withActive]
      split <;> rfl
    have kept := custody.change change
    rwa [← processes] at kept
  | startCollect p maxRecords => exact custody.enter p rfl
  | startArchive p leaseId expected => exact custody.enter p rfl
  | startScan p role maxRecords =>
    simp only [LeaseSystem.step]
    split
    · exact custody.enter p rfl
    · exact custody
  | crash p => exact custody.enter p rfl
  | advance p =>
    have spec := next_spec codec s.stores (s.processes p)
    have kept := custody.change change
    constructor
    · intro q e held
      by_cases same : q = p
      · simp only [LeaseSystem.step, same, Function.update_self] at held
        rcases spec.held e held with before | read
        · exact kept.seen p e before
        · exact read.seen.change change
      · simp only [LeaseSystem.step, Function.update_of_ne same] at held
        exact kept.seen q e held
    · intro q e copied
      by_cases same : q = p
      · simp only [LeaseSystem.step, same, Function.update_self] at copied
        exact (spec.copied e copied).2
      · simp only [LeaseSystem.step, Function.update_of_ne same] at copied
        exact kept.archived q e copied

end Custody

section Raising

variable {s : LeaseSystem} {l : LeaseLabel}

/-- In this step a `collect_terminal` ends with an error. -/
def CollectRaises (codec : StateCodec ProcessLease) (s : LeaseSystem) (l : LeaseLabel) : Prop :=
  ∃ p error, s.processes p ≠ .collected (.error error) ∧
    (s.step codec l).processes p = .collected (.error error)

/-- In this step a `collect_terminal` opens a record that is gone or does not decode, or comes
to a file whose name is no lease id. -/
def BadRead (codec : StateCodec ProcessLease) (s : LeaseSystem) (l : LeaseLabel) : Prop :=
  ∃ p, l = .advance p ∧
    ((∃ moved id rest, s.processes p = .opening moved id rest ∧
        ∀ revision value, s.stores.active.lookup id ≠ some (.readable revision value)) ∨
      ∃ moved id rest, s.processes p = .collecting moved (id :: rest) ∧ codec.recordId id = false)

theorem next_raises {stores : LeaseStores} {phase : LeaseProcess} {error : StateError}
    (before : phase ≠ .collected (.error error))
    (after : (next codec stores phase).1 = .collected (.error error)) :
    (∃ moved id rest, phase = .opening moved id rest ∧
        ∀ revision value, stores.active.lookup id ≠ some (.readable revision value)) ∨
      ∃ moved id rest, phase = .collecting moved (id :: rest) ∧ codec.recordId id = false := by
  cases phase with
  | collecting moved rest =>
    cases rest with
    | nil => cases after
    | cons id rest =>
      simp only [next] at after
      split at after
      · rename_i invalid
        exact .inr ⟨moved, id, rest, rfl, by simpa using invalid⟩
      · split at after <;> cases after
  | opening moved id rest =>
    simp only [next] at after
    split at after
    · rename_i opened
      refine .inl ⟨moved, id, rest, rfl, ?_⟩
      intro revision value found
      rw [openRecord, found] at opened
      cases opened
    · split at after <;> cases after
  | copying moved e rest =>
    simp only [next] at after
    split at after <;> cases after
  | deleting moved e rest =>
    simp only [next] at after
    split at after <;> cases after
  | archiving id expected =>
    simp only [next] at after
    split at after
    · cases after
    · split at after <;> cases after
  | archiveOpening id expected =>
    simp only [next] at after
    split at after
    · cases after
    · split at after
      · cases after
      · split at after <;> cases after
  | archiveCopying e =>
    simp only [next] at after
    split at after <;> cases after
  | archiveDeleting e =>
    simp only [next] at after
    split at after <;> cases after
  | listing scan =>
    simp only [next] at after
    split at after <;> cases after
  | reading scan count truncated rest =>
    cases rest with
    | nil =>
      simp only [next] at after
      split at after <;> cases after
    | cons id rest =>
      simp only [next] at after
      split at after
      · cases after
      · split at after <;> cases after
  | scanOpening scan count truncated id rest =>
    simp only [next, ActiveScan.opened] at after
    split at after
    · cases after
    · split at after
      · split at after <;> cases after
      · cases after
  | idle => cases after
  | collected outcome => exact absurd after before
  | archived outcome => cases after
  | scanned page => cases after

theorem collectRaises_iff (codec : StateCodec ProcessLease) (s : LeaseSystem) (l : LeaseLabel) :
    CollectRaises codec s l ↔ BadRead codec s l := by
  constructor
  · rintro ⟨p, error, before, after⟩
    have entered : ∀ q phase, (∀ e, phase ≠ .collected (.error e)) →
        (s.enter q phase).processes p ≠ .collected (.error error) := by
      intro q phase other after
      by_cases same : p = q
      · simp only [LeaseSystem.enter, same, Function.update_self] at after
        exact other error after
      · simp only [LeaseSystem.enter, Function.update_of_ne same] at after
        exact before after
    cases l with
    | create lease =>
      refine absurd ?_ before
      simp only [LeaseSystem.step, LeaseSystem.withActive] at after
      split at after <;> exact after
    | save lease expected =>
      refine absurd ?_ before
      simp only [LeaseSystem.step, LeaseSystem.withActive] at after
      split at after <;> exact after
    | startCollect q maxRecords => exact absurd after (entered q _ fun e h => by cases h)
    | startArchive q leaseId expected => exact absurd after (entered q _ fun e h => by cases h)
    | startScan q role maxRecords =>
      simp only [LeaseSystem.step] at after
      split at after
      · exact absurd after (entered q _ fun e h => by cases h)
      · exact absurd after before
    | crash q => exact absurd after (entered q _ fun e h => by cases h)
    | advance q =>
      by_cases same : p = q
      · subst same
        simp only [LeaseSystem.step, Function.update_self] at after
        exact ⟨p, rfl, next_raises before after⟩
      · simp only [LeaseSystem.step, Function.update_of_ne same] at after
        exact absurd after before
  · rintro ⟨p, rfl, ⟨moved, id, rest, phase, unreadable⟩ | ⟨moved, id, rest, phase, invalid⟩⟩
    · obtain ⟨error, opened⟩ : ∃ error, openRecord id s.stores.active = .error error := by
        cases opened : openRecord id s.stores.active with
        | error error => exact ⟨error, rfl⟩
        | ok e => exact absurd (openRecord_ok opened).2 (unreadable _ _)
      refine ⟨p, error, by rw [phase]; simp, ?_⟩
      simp [LeaseSystem.step, phase, next, opened]
    · refine ⟨p, .invalid, by rw [phase]; simp, ?_⟩
      simp [LeaseSystem.step, phase, next, invalid]

end Raising

/-- In every run in which lease ids are drawn fresh, every lease stays in the active store or
the history and leaves the active store only in a terminal revision that the history has. No
`collect_terminal` raises, if and only if none opens a record that is gone or does not
decode. -/
theorem archival_loses_nothing (codec : StateCodec ProcessLease) (s : LeaseSystem)
    (labels : List LeaseLabel) (idle : ∀ p, s.processes p = .idle)
    (fresh : Runs.Along (LeaseSystem.step codec) FreshId s labels) :
    Runs.Along (LeaseSystem.step codec) (fun s l =>
      (∀ id, Present id s.stores → Present id (s.step codec l).stores) ∧
      (∀ id stored, s.stores.active.lookup id = some stored →
        (s.step codec l).stores.active.lookup id = none →
        ∃ revision lease revision', stored = .readable revision lease ∧
          lease.status ∈ terminalStatuses ∧
          s.stores.history.lookup id = some (.readable revision' lease)) ∧
      ¬ CollectRaises codec s l) s labels ↔
    Runs.Along (LeaseSystem.step codec) (fun s l => ¬ BadRead codec s l) s labels := by
  have start : Custody s := by
    constructor
    · intro p e held
      rw [idle p] at held
      cases held
    · intro p e copied
      rw [idle p] at copied
      cases copied
  have custody : Runs.Along (LeaseSystem.step codec) (fun s l => Custody s ∧ FreshId s l) s labels :=
    ((fresh.invariant (fun s l custody fresh => custody.step fresh) start).along.both fresh).imp
      fun s l h => ⟨h.1.1, h.2⟩
  constructor
  · intro all
    exact all.imp fun s l h => (collectRaises_iff codec s l).not.mp h.2.2
  · intro good
    refine (custody.both good).imp ?_
    rintro s l ⟨⟨custody, fresh⟩, good⟩
    have change : StoresChange s.stores (s.step codec l).stores := custody.step_change fresh
    refine ⟨fun id there => there.change change, ?_, (collectRaises_iff codec s l).not.mpr good⟩
    intro id stored before after
    cases change with
    | same same =>
      rw [same, before] at after
      cases after
    | copied e absent same =>
      rw [same, before] at after
      cases after
    | created id' lease absent same =>
      rw [same] at after
      by_cases equal : id = id'
      · rw [equal, AList.lookup_insert] at after
        cases after
      · rw [AList.lookup_insert_ne equal, before] at after
        cases after
    | saved id' revision old lease found same =>
      rw [same] at after
      by_cases equal : id = id'
      · rw [equal, AList.lookup_insert] at after
        cases after
      · rw [AList.lookup_insert_ne equal, before] at after
        cases after
    | removed e seen archived found same =>
      rw [same] at after
      by_cases equal : id = e.recordId
      · subst equal
        rw [before] at found
        cases found
        obtain ⟨r, archived⟩ := archived
        exact ⟨_, _, r, rfl, seen.terminal, archived⟩
      · rw [AList.lookup_erase_ne equal, before] at after
        cases after

end Runs

namespace Sample

def leaseCodec : StateCodec ProcessLease := RepoForge.leaseCodec fun _ _ => .ok ()

def lease (leaseId : Text) (status : ProcessLeaseStatus) : ProcessLease where
  leaseId := leaseId
  status := status
  processIdentity := none
  pid := none
  startedAt := none
  heartbeatAt := none
  correlationId := "c".toList
  createdAt := "t".toList
  updatedAt := "t".toList

def firstLease : Text := "worker-000001".toList
def secondLease : Text := "worker-000002".toList

/-- A terminal lease beside a file that does not decode. -/
def leases : LeaseSystem where
  stores := ⟨((∅ : Collection ProcessLease).insert secondLease
    (.readable 3 (lease secondLease .terminated))).insert firstLease (.unreadable .corrupt), ∅⟩
  processes _ := .idle

def archiving : List LeaseLabel :=
  [.startArchive 0 secondLease 3, .advance 0, .advance 0, .advance 0, .advance 0]

def collecting : List LeaseLabel := [.startCollect 0 5000, .advance 0, .advance 0]

/-- The process is in the loop of `collect_terminal`. -/
def collects : LeaseProcess → Bool
  | .collecting _ _ | .opening _ _ _ => true
  | _ => false

theorem no_badRead {s : LeaseSystem} {p : Nat} (h : collects (s.processes p) = false) :
    ¬ BadRead leaseCodec s (.advance p) := by
  rintro ⟨q, same, ⟨moved, id, rest, phase, -⟩ | ⟨moved, id, rest, phase, -⟩⟩
  · cases same
    rw [phase] at h
    cases h
  · cases same
    rw [phase] at h
    cases h

theorem fresh_of_no_create {labels : List LeaseLabel}
    (none : ∀ lease, LeaseLabel.create lease ∉ labels) :
    Runs.Along (LeaseSystem.step leaseCodec) FreshId leases labels := by
  intro done l rest split lease created
  subst created
  exact absurd (by rw [split]; simp) (none lease)

end Sample

/-- An archival next to an unreadable file: the lease is still there. -/
theorem archival_loses_nothing_archived :
    Present Sample.secondLease (Sample.leases.run Sample.leaseCodec Sample.archiving).stores := by
  have started : ¬ BadRead Sample.leaseCodec Sample.leases (.startArchive 0 Sample.secondLease 3) := by
    rintro ⟨p, same, -⟩
    cases same
  have along := (archival_loses_nothing Sample.leaseCodec Sample.leases Sample.archiving
    (fun _ => rfl) (Sample.fresh_of_no_create (by simp [Sample.archiving]))).mpr
      (Runs.along_cons.mpr ⟨started, Runs.along_cons.mpr ⟨Sample.no_badRead (by decide),
        Runs.along_cons.mpr ⟨Sample.no_badRead (by decide), Runs.along_cons.mpr
          ⟨Sample.no_badRead (by decide), Runs.along_cons.mpr
            ⟨Sample.no_badRead (by decide), Runs.along_nil⟩⟩⟩⟩⟩)
  have kept : Runs.Throughout (LeaseSystem.step Sample.leaseCodec)
      (fun s => Present Sample.secondLease s.stores) Sample.leases Sample.archiving :=
    along.invariant (fun s l there h => h.1 _ there) (.inl (by decide))
  exact kept.last

/-- One file that does not decode makes `collect_terminal` raise. -/
theorem collect_raises_on_unreadable :
    Runs.Along (LeaseSystem.step Sample.leaseCodec) FreshId Sample.leases Sample.collecting ∧
    (Sample.leases.run Sample.leaseCodec Sample.collecting).processes 0 =
      .collected (.error .corrupt) :=
  ⟨Sample.fresh_of_no_create (by simp [Sample.collecting]), rfl⟩

end RepoForge
