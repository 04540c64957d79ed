import RepoForge.Spec.Persistence.Repository

/-!
# Updates of a state record

Between two deletions every write of a record raises its revision. `save_replaces_read` is
the result: for a save, or a deletion under a revision, that takes effect, nothing was
written since the read of that revision exactly if the record was not deleted since.
Revisions start at 1 again after a deletion, and `save_replaces_recreated` is a save that
then replaces a record that its caller has never read; `compare_and_delete` compares the
value too.
-/
namespace RepoForge.Repository

variable {V : Type} [DecidableEq V] {codec : StateCodec V} {c : Collection V} {id : Text}
  {revision : Nat} {x : ClientCall V}

/-- The call changes what is stored under this id. -/
def Writes (codec : StateCodec V) (id : Text) (c : Collection V) (x : ClientCall V) : Prop :=
  (step codec c x).lookup id ≠ c.lookup id

/-- The call deletes the record with this id. -/
def Removes (codec : StateCodec V) (id : Text) (c : Collection V) (x : ClientCall V) : Prop :=
  c.lookup id ≠ none ∧ (step codec c x).lookup id = none

/-- The caller is given this envelope, by a read or as the reply to a write of its own. -/
def Observes (codec : StateCodec V) (c : Collection V) (x : ClientCall V)
    (found : StateEnvelope V) : Prop :=
  ∃ c', perform codec x c = .ok (.envelope found, c')

/-- A save or a deletion that names this revision takes effect. -/
def TakesEffect (codec : StateCodec V) (c : Collection V) (x : ClientCall V) (revision : Nat) :
    Prop :=
  (∃ value found, x.request = .save value revision ∧ Observes codec c x found) ∨
    (x.request = .deleteIfRevision revision ∧ ∃ c', perform codec x c = .ok (.deleted true, c'))

/-- No call of these does this, each on the collection that the ones before it leave. -/
def NoneOf (P : Collection V → ClientCall V → Prop) (codec : StateCodec V) (c : Collection V)
    (calls : List (ClientCall V)) : Prop :=
  Runs.Along (step codec) (fun c x => ¬ P c x) c calls

theorem Removes.writes (h : Removes codec id c x) : Writes codec id c x := by
  intro same
  exact h.1 (same.symm.trans h.2)

/-- The envelope that a caller is given is what is stored after its call. -/
theorem observes_lookup {found : StateEnvelope V} (h : Observes codec c x found) :
    (step codec c x).lookup x.recordId = some (.readable found.revision found.value) := by
  obtain ⟨c', performed⟩ := h
  have after : step codec c x = c' := by
    unfold step
    rw [performed]
  rw [after]
  unfold perform at performed
  cases request : x.request with
  | create value =>
    rw [request] at performed
    obtain ⟨⟨made, d⟩, created, performed⟩ := bind_ok performed
    cases performed
    obtain ⟨rfl, -, rfl⟩ := create_ok created
    exact AList.lookup_insert _
  | createOrReadEqual value =>
    rw [request] at performed
    obtain ⟨⟨made, d⟩, created, performed⟩ := bind_ok performed
    cases performed
    obtain ⟨equal, ⟨stored, rfl⟩ | ⟨-, rfl, rfl⟩⟩ := createOrReadEqual_ok created
    · rw [equal]
      exact stored
    · exact AList.lookup_insert _
  | read =>
    rw [request] at performed
    obtain ⟨envelope, read, performed⟩ := bind_ok performed
    cases envelope with
    | none => cases performed
    | some envelope =>
      cases performed
      exact (read_eq_some read).2
  | save value expected =>
    rw [request] at performed
    obtain ⟨⟨made, d⟩, saved, performed⟩ := bind_ok performed
    cases performed
    obtain ⟨rfl, -, rfl⟩ := save_ok saved
    exact AList.lookup_insert _
  | delete =>
    rw [request] at performed
    obtain ⟨d, -, performed⟩ := bind_ok performed
    cases performed
  | deleteIfRevision expected =>
    rw [request] at performed
    obtain ⟨⟨removed, d⟩, -, performed⟩ := bind_ok performed
    cases performed
  | compareAndDelete expected value =>
    rw [request] at performed
    obtain ⟨⟨removed, d⟩, -, performed⟩ := bind_ok performed
    cases performed

theorem takesEffect_lookup (h : TakesEffect codec c x revision) :
    ∃ old, c.lookup x.recordId = some (.readable revision old) := by
  rcases h with ⟨value, found, request, c', performed⟩ | ⟨request, c', performed⟩
  · unfold perform at performed
    rw [request] at performed
    obtain ⟨⟨made, d⟩, saved, -⟩ := bind_ok performed
    exact (save_ok saved).2.1
  · unfold perform at performed
    rw [request] at performed
    obtain ⟨⟨removed, d⟩, deleted, performed⟩ := bind_ok performed
    cases performed
    obtain ⟨removed, -⟩ | ⟨-, stored, -⟩ := deleteIfRevision_ok deleted
    · cases removed
    · exact stored

/-- A call that does not delete a record leaves it as it is or raises its revision. -/
theorem step_revision {value : V} (stored : c.lookup id = some (.readable revision value))
    (kept : ¬ Removes codec id c x) :
    (step codec c x).lookup id = some (.readable revision value) ∨
      ∃ later next, revision < later ∧ (step codec c x).lookup id = some (.readable later next) := by
  by_cases other : id = x.recordId
  · subst other
    cases step_effect codec c x with
    | kept same =>
      rw [same]
      exact .inl stored
    | created value absent same =>
      rw [stored] at absent
      cases absent
    | saved r old value found same =>
      rw [stored] at found
      cases found
      rw [same]
      exact .inr ⟨revision + 1, value, by omega, AList.lookup_insert _⟩
    | removed same =>
      refine absurd ⟨by rw [stored]; simp, ?_⟩ kept
      rw [same]
      exact AList.lookup_erase _ _
  · left
    cases step_effect codec c x with
    | kept same => rw [same]; exact stored
    | created value absent same => rw [same, AList.lookup_insert_ne other]; exact stored
    | saved r old value found same => rw [same, AList.lookup_insert_ne other]; exact stored
    | removed same => rw [same, AList.lookup_erase_ne other]; exact stored

/-- While a record is not deleted it is the same, or at a later revision for good. -/
theorem run_revision {calls : List (ClientCall V)} {value : V}
    (stored : c.lookup id = some (.readable revision value))
    (kept : NoneOf (Removes codec id) codec c calls) :
    NoneOf (Writes codec id) codec c calls ∧
        (run codec c calls).lookup id = some (.readable revision value) ∨
      ∃ later next, revision < later ∧
        (run codec c calls).lookup id = some (.readable later next) := by
  induction calls generalizing c revision value with
  | nil => exact .inl ⟨Runs.along_nil, stored⟩
  | cons x calls ih =>
    obtain ⟨first, rest⟩ := Runs.along_cons.mp kept
    rcases step_revision stored first with same | ⟨later, next, lt, raised⟩
    · rcases ih same rest with ⟨quiet, last⟩ | raised
      · refine .inl ⟨Runs.along_cons.mpr ⟨?_, quiet⟩, last⟩
        intro writes
        exact writes (same.trans stored.symm)
      · exact .inr raised
    · rcases ih raised rest with ⟨-, last⟩ | ⟨later', next', lt', last⟩
      · exact .inr ⟨later, next, lt, last⟩
      · exact .inr ⟨later', next', by omega, last⟩

/-- A client is given an envelope, other calls run, and a save or a deletion that names its
revision takes effect: it acts on exactly the record the client was given, with no write of
that record in between, if and only if none of those calls has deleted the record. -/
theorem save_replaces_read (codec : StateCodec V) (c : Collection V) (reader writer : ClientCall V)
    (between : List (ClientCall V)) (found : StateEnvelope V)
    (observed : Observes codec c reader found) (same : writer.recordId = reader.recordId)
    (effect : TakesEffect codec (run codec (step codec c reader) between) writer found.revision) :
    (NoneOf (Writes codec reader.recordId) codec (step codec c reader) between ∧
      (run codec (step codec c reader) between).lookup writer.recordId =
        some (.readable found.revision found.value)) ↔
      NoneOf (Removes codec reader.recordId) codec (step codec c reader) between := by
  constructor
  · rintro ⟨quiet, -⟩
    exact quiet.imp fun c x still removes => still removes.writes
  · intro kept
    obtain ⟨old, stored⟩ := takesEffect_lookup effect
    rw [same] at stored
    rcases run_revision (observes_lookup observed) kept with ⟨quiet, last⟩ | raised
    · rw [same]
      exact ⟨quiet, last⟩
    · obtain ⟨later, next, lt, last⟩ := raised
      rw [stored] at last
      cases last
      omega

namespace Sample

def plain : StateCodec Nat := ⟨fun _ => true, fun _ _ => .ok ()⟩

def key : Text := ['k']

/-- A record at revision 1. -/
def stored : Collection Nat := (∅ : Collection Nat).insert key (.readable 1 10)

def reader : ClientCall Nat := ⟨1, key, .read⟩
def deleter : ClientCall Nat := ⟨2, key, .delete⟩
def creator : ClientCall Nat := ⟨2, key, .create 20⟩
def saver : ClientCall Nat := ⟨1, key, .save 30 1⟩

end Sample

/-- A save after a read, with nothing in between. -/
theorem save_replaces_read_direct :
    (run Sample.plain (step Sample.plain Sample.stored Sample.reader) []).lookup Sample.key =
      some (.readable 1 10) :=
  ((save_replaces_read Sample.plain Sample.stored Sample.reader Sample.saver [] ⟨Sample.key, 1, 10⟩
    ⟨Sample.stored, rfl⟩ rfl (.inl ⟨30, ⟨Sample.key, 2, 30⟩, rfl, _, rfl⟩)).mpr
      Runs.along_nil).2

/-- The record is deleted and created again between the read and the save: the save under the
revision that was read replaces the new record, which the saver has not read. -/
theorem save_replaces_recreated :
    Observes Sample.plain Sample.stored Sample.reader ⟨Sample.key, 1, 10⟩ ∧
    (run Sample.plain (step Sample.plain Sample.stored Sample.reader)
      [Sample.deleter, Sample.creator]).lookup Sample.key = some (.readable 1 20) ∧
    TakesEffect Sample.plain (run Sample.plain (step Sample.plain Sample.stored Sample.reader)
      [Sample.deleter, Sample.creator]) Sample.saver 1 ∧
    ¬ NoneOf (Writes Sample.plain Sample.key) Sample.plain
      (step Sample.plain Sample.stored Sample.reader) [Sample.deleter, Sample.creator] := by
  refine ⟨⟨Sample.stored, rfl⟩, by decide, .inl ⟨30, ⟨Sample.key, 2, 30⟩, rfl, _, rfl⟩, ?_⟩
  intro quiet
  exact (Runs.along_cons.mp quiet).1 (by unfold Writes; decide)

end RepoForge.Repository
