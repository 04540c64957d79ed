import RepoForge.Source.Persistence.ProcessLeases
import RepoForge.Spec.Persistence.Repository

/-!
# The steps of the lease processes

`next_spec` says what the next step of a process does to the collections and what the process
holds after it: an envelope that it has just read from the active collection, or one that it
held before and that the history has by then.
-/
namespace RepoForge

open Repository

variable {codec : StateCodec ProcessLease} {s : LeaseStores} {phase : LeaseProcess}
  {e : StateEnvelope ProcessLease}

/-- The envelope that a process is about to copy or to delete. -/
def LeaseProcess.held : LeaseProcess → Option (StateEnvelope ProcessLease)
  | .copying _ e _ | .deleting _ e _ | .archiveCopying e | .archiveDeleting e => some e
  | _ => none

/-- The envelope that a process has copied. -/
def LeaseProcess.copied : LeaseProcess → Option (StateEnvelope ProcessLease)
  | .deleting _ e _ | .archiveDeleting e => some e
  | _ => none

theorem LeaseProcess.held_of_copied (h : phase.copied = some e) : phase.held = some e := by
  cases phase <;> first | exact h | cases h

theorem openRecord_ok {id : Text} {c : Collection ProcessLease} (h : openRecord id c = .ok e) :
    e.recordId = id ∧ c.lookup id = some (.readable e.revision e.value) := by
  unfold openRecord at h
  split at h
  · cases h
  · cases h
  · rename_i found
    cases h
    exact ⟨rfl, found⟩

/-- What the next step of a process does to the collections. -/
inductive LeaseEffect (s : LeaseStores) (phase : LeaseProcess) (s' : LeaseStores) : Prop
  | same : s' = s → LeaseEffect s phase s'
  | copied (e : StateEnvelope ProcessLease) : phase.held = some e →
      s.history.lookup e.recordId = none →
      s' = { s with history := s.history.insert e.recordId (.readable 1 e.value) } →
      LeaseEffect s phase s'
  | removed (e : StateEnvelope ProcessLease) : phase.copied = some e →
      (∃ v, s.active.lookup e.recordId = some (.readable e.revision v)) →
      s' = { s with active := s.active.erase e.recordId } → LeaseEffect s phase s'

/-- The envelope was read now from the active collection, in a terminal status. -/
def ReadNow (s : LeaseStores) (e : StateEnvelope ProcessLease) : Prop :=
  e.value.status ∈ terminalStatuses ∧ s.active.lookup e.recordId = some (.readable e.revision e.value)

/-- What a step does, and what the process holds after it: what it held before or has read
now, and as copied only what the history has. -/
structure NextSpec (s : LeaseStores) (phase phase' : LeaseProcess) (s' : LeaseStores) : Prop where
  effect : LeaseEffect s phase s'
  held : ∀ e, phase'.held = some e → phase.held = some e ∨ ReadNow s e
  copied : ∀ e, phase'.copied = some e →
    phase.held = some e ∧ ∃ r, s'.history.lookup e.recordId = some (.readable r e.value)

variable {phase' : LeaseProcess}

/-- A step that leaves the collections alone and holds nothing. -/
theorem NextSpec.quiet (none : phase'.held = .none) : NextSpec s phase phase' s where
  effect := .same rfl
  held e h := by
    rw [none] at h
    cases h
  copied e h := by
    rw [LeaseProcess.held_of_copied h] at none
    cases none

theorem NextSpec.opened (read : ReadNow s e) (holds : phase'.held = some e)
    (none : phase'.copied = .none) : NextSpec s phase phase' s where
  effect := .same rfl
  held e' h := by
    rw [holds] at h
    cases h
    exact .inr read
  copied e' h := by
    rw [none] at h
    cases h

theorem NextSpec.copy {made : StateEnvelope ProcessLease} {history : Collection ProcessLease}
    (before : phase.held = some e) (after : phase'.copied = some e)
    (copied : createOrReadEqual codec e.recordId e.value s.history = .ok (made, history)) :
    NextSpec s phase phase' { s with history } := by
  obtain ⟨-, there⟩ := createOrReadEqual_ok copied
  refine ⟨?_, ?_, ?_⟩
  · rcases there with ⟨-, rfl⟩ | ⟨absent, -, rfl⟩
    · exact .same rfl
    · exact .copied e before absent rfl
  · intro e' h
    rw [LeaseProcess.held_of_copied after] at h
    cases h
    exact .inl before
  · intro e' h
    rw [after] at h
    cases h
    refine ⟨before, ?_⟩
    rcases there with ⟨stored, rfl⟩ | ⟨-, -, rfl⟩
    · exact ⟨_, stored⟩
    · exact ⟨1, AList.lookup_insert _⟩

theorem NextSpec.delete {removed : Bool} {active : Collection ProcessLease}
    (before : phase.copied = some e) (none : phase'.held = .none)
    (deleted : deleteIfRevision codec e.recordId e.revision s.active = .ok (removed, active)) :
    NextSpec s phase phase' { s with active } := by
  have rest : NextSpec s phase phase' s := .quiet none
  refine ⟨?_, rest.held, ?_⟩
  · obtain ⟨-, rfl⟩ | ⟨-, found, rfl⟩ := deleteIfRevision_ok deleted
    · exact .same rfl
    · exact .removed e before found rfl
  · intro e' h
    rw [LeaseProcess.held_of_copied h] at none
    cases none

theorem opened_held (scan : ActiveScan) (count : Nat) (truncated : Bool) (id : Text)
    (rest : List Text) (c : Collection ProcessLease) :
    (scan.opened count truncated id rest c).held = none := by
  unfold ActiveScan.opened
  split
  · rfl
  · split
    · simp only
      split <;> rfl
    · rfl

theorem next_spec (codec : StateCodec ProcessLease) (s : LeaseStores) (phase : LeaseProcess) :
    NextSpec s phase (next codec s phase).1 (next codec s phase).2 := by
  cases phase with
  | collecting moved rest =>
    cases rest with
    | nil => exact .quiet rfl
    | cons id rest =>
      simp only [next]
      split
      · exact .quiet rfl
      · split <;> exact .quiet rfl
  | opening moved id rest =>
    simp only [next]
    split
    · exact .quiet rfl
    · rename_i opened
      split
      · rename_i terminal
        obtain ⟨rfl, found⟩ := openRecord_ok opened
        exact .opened ⟨terminal, found⟩ rfl rfl
      · exact .quiet rfl
  | copying moved e rest =>
    simp only [next]
    split
    · exact .quiet rfl
    · rename_i copied
      exact .copy rfl rfl copied
  | deleting moved e rest =>
    simp only [next]
    split
    · exact .quiet rfl
    · rename_i deleted
      exact .delete rfl rfl deleted
  | archiving id expected =>
    simp only [next]
    split
    · exact .quiet rfl
    · split <;> exact .quiet rfl
  | archiveOpening id expected =>
    simp only [next]
    split
    · exact .quiet rfl
    · rename_i opened
      split
      · exact .quiet rfl
      · split
        · rename_i terminal
          obtain ⟨rfl, found⟩ := openRecord_ok opened
          exact .opened ⟨terminal, found⟩ rfl rfl
        · exact .quiet rfl
  | archiveCopying e =>
    simp only [next]
    split
    · exact .quiet rfl
    · rename_i copied
      exact .copy rfl rfl copied
  | archiveDeleting e =>
    simp only [next]
    split
    · exact .quiet rfl
    · rename_i deleted
      exact .delete rfl rfl deleted
  | listing scan =>
    simp only [next]
    split <;> exact .quiet rfl
  | reading scan count truncated rest =>
    cases rest with
    | nil =>
      simp only [next]
      split <;> exact .quiet rfl
    | cons id rest =>
      simp only [next]
      split
      · exact .quiet rfl
      · split <;> exact .quiet rfl
  | scanOpening scan count truncated id rest => exact .quiet (opened_held ..)
  | idle => exact .quiet rfl
  | collected outcome => exact .quiet rfl
  | archived outcome => exact .quiet rfl
  | scanned page => exact .quiet rfl

end RepoForge
