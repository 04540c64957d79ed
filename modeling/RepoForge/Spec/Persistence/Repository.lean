import RepoForge.Source.Persistence.StateRepository

/-!
# What the calls of a state repository do

One lemma for each call: when it returns, what it has found and what it leaves. `step_effect`
collects them: whatever a call is, the collection is unchanged, or its record is created at
revision 1, replaced at the next revision, or gone.
-/
namespace RepoForge.Repository

variable {V : Type} {codec : StateCodec V} {c c' : Collection V} {id : Text}

theorem read_eq_some {found : StateEnvelope V} (h : read codec id c = .ok (some found)) :
    found.recordId = id ∧ c.lookup id = some (.readable found.revision found.value) := by
  obtain ⟨_, -, h⟩ := bind_ok h
  split at h
  · cases h
  · cases h
  · rename_i stored
    cases h
    exact ⟨rfl, stored⟩

theorem read_eq_none (h : read codec id c = .ok none) : c.lookup id = none := by
  obtain ⟨_, -, h⟩ := bind_ok h
  split at h
  · assumption
  · cases h
  · cases h

theorem create_ok {value : V} {made : StateEnvelope V} (h : create codec id value c = .ok (made, c')) :
    made = ⟨id, 1, value⟩ ∧ c.lookup id = none ∧ c' = c.insert id (.readable 1 value) := by
  obtain ⟨_, -, h⟩ := bind_ok h
  obtain ⟨_, -, h⟩ := bind_ok h
  split at h
  · cases h
  · rename_i absent
    cases h
    exact ⟨rfl, AList.lookup_eq_none.mpr absent, rfl⟩

theorem createOrReadEqual_ok [DecidableEq V] {value : V} {made : StateEnvelope V}
    (h : createOrReadEqual codec id value c = .ok (made, c')) :
    made.value = value ∧
      (c.lookup id = some (.readable made.revision value) ∧ c' = c ∨
        c.lookup id = none ∧ made = ⟨id, 1, value⟩ ∧ c' = c.insert id (.readable 1 value)) := by
  obtain ⟨_, -, h⟩ := bind_ok h
  obtain ⟨_, -, h⟩ := bind_ok h
  obtain ⟨current, found, h⟩ := bind_ok h
  cases current with
  | none =>
    cases h
    exact ⟨rfl, .inr ⟨read_eq_none found, rfl, rfl⟩⟩
  | some current =>
    simp only at h
    split at h
    · rename_i equal
      cases h
      subst equal
      exact ⟨rfl, .inl ⟨(read_eq_some found).2, rfl⟩⟩
    · cases h

theorem save_ok {value : V} {expected : Nat} {made : StateEnvelope V}
    (h : save codec id value expected c = .ok (made, c')) :
    made = ⟨id, expected + 1, value⟩ ∧ (∃ old, c.lookup id = some (.readable expected old)) ∧
      c' = c.insert id (.readable (expected + 1) value) := by
  obtain ⟨current, found, h⟩ := bind_ok h
  cases current with
  | none => cases h
  | some current =>
    simp only at h
    split at h
    · cases h
    · rename_i same
      have same : current.revision = expected := not_not.mp same
      obtain ⟨_, -, h⟩ := bind_ok h
      cases h
      subst same
      exact ⟨rfl, ⟨current.value, (read_eq_some found).2⟩, rfl⟩

theorem delete_ok (h : delete codec id c = .ok c') : c' = c.erase id := by
  obtain ⟨_, -, h⟩ := bind_ok h
  cases h
  rfl

theorem deleteIfRevision_ok {expected : Nat} {removed : Bool}
    (h : deleteIfRevision codec id expected c = .ok (removed, c')) :
    removed = false ∧ c' = c ∨
      removed = true ∧ (∃ old, c.lookup id = some (.readable expected old)) ∧ c' = c.erase id := by
  obtain ⟨current, found, h⟩ := bind_ok h
  cases current with
  | none =>
    cases h
    exact .inl ⟨rfl, rfl⟩
  | some current =>
    simp only at h
    split at h
    · cases h
      exact .inl ⟨rfl, rfl⟩
    · rename_i same
      have same : current.revision = expected := not_not.mp same
      cases h
      subst same
      exact .inr ⟨rfl, ⟨current.value, (read_eq_some found).2⟩, rfl⟩

theorem compareAndDelete_ok [DecidableEq V] {expected : Nat} {value : V} {removed : Bool}
    (h : compareAndDelete codec id expected value c = .ok (removed, c')) :
    removed = false ∧ c' = c ∨
      removed = true ∧ c.lookup id = some (.readable expected value) ∧ c' = c.erase id := by
  obtain ⟨current, found, h⟩ := bind_ok h
  cases current with
  | none =>
    cases h
    exact .inl ⟨rfl, rfl⟩
  | some current =>
    simp only at h
    split at h
    · cases h
      exact .inl ⟨rfl, rfl⟩
    · rename_i same
      obtain ⟨revision, equal⟩ := not_or.mp same
      have revision : current.revision = expected := not_not.mp revision
      have equal : current.value = value := not_not.mp equal
      cases h
      subst revision equal
      exact .inr ⟨rfl, (read_eq_some found).2, rfl⟩

/-- What a call on a record does to the collection. -/
inductive Effect (id : Text) (c c' : Collection V) : Prop
  | kept : c' = c → Effect id c c'
  | created (value : V) : c.lookup id = none → c' = c.insert id (.readable 1 value) → Effect id c c'
  | saved (revision : Nat) (old value : V) : c.lookup id = some (.readable revision old) →
      c' = c.insert id (.readable (revision + 1) value) → Effect id c c'
  | removed : c' = c.erase id → Effect id c c'

section Calls

variable [DecidableEq V] {x : ClientCall V}

theorem perform_effect {reply : RepositoryReply V} (h : perform codec x c = .ok (reply, c')) :
    Effect x.recordId c c' := by
  unfold perform at h
  cases request : x.request with
  | create value =>
    rw [request] at h
    obtain ⟨⟨made, d⟩, created, h⟩ := bind_ok h
    cases h
    obtain ⟨-, absent, rfl⟩ := create_ok created
    exact .created value absent rfl
  | createOrReadEqual value =>
    rw [request] at h
    obtain ⟨⟨made, d⟩, created, h⟩ := bind_ok h
    cases h
    obtain ⟨-, ⟨-, rfl⟩ | ⟨absent, -, rfl⟩⟩ := createOrReadEqual_ok created
    · exact .kept rfl
    · exact .created value absent rfl
  | read =>
    rw [request] at h
    obtain ⟨found, -, h⟩ := bind_ok h
    cases found <;> cases h <;> exact .kept rfl
  | save value expected =>
    rw [request] at h
    obtain ⟨⟨made, d⟩, saved, h⟩ := bind_ok h
    cases h
    obtain ⟨-, ⟨old, stored⟩, rfl⟩ := save_ok saved
    exact .saved expected old value stored rfl
  | delete =>
    rw [request] at h
    obtain ⟨d, deleted, h⟩ := bind_ok h
    cases h
    exact .removed (delete_ok deleted)
  | deleteIfRevision expected =>
    rw [request] at h
    obtain ⟨⟨removed, d⟩, deleted, h⟩ := bind_ok h
    cases h
    obtain ⟨-, rfl⟩ | ⟨-, -, rfl⟩ := deleteIfRevision_ok deleted
    · exact .kept rfl
    · exact .removed rfl
  | compareAndDelete expected value =>
    rw [request] at h
    obtain ⟨⟨removed, d⟩, deleted, h⟩ := bind_ok h
    cases h
    obtain ⟨-, rfl⟩ | ⟨-, -, rfl⟩ := compareAndDelete_ok deleted
    · exact .kept rfl
    · exact .removed rfl

theorem step_effect (codec : StateCodec V) (c : Collection V) (x : ClientCall V) :
    Effect x.recordId c (step codec c x) := by
  unfold step
  split
  · rename_i performed
    exact perform_effect performed
  · exact .kept rfl

end Calls

/-! ### The files of a collection -/

section Keys

variable {y : Text} {stored : Stored V}

theorem keys_insert_new (absent : y ∉ c) : (c.insert y stored).keys.Perm (y :: c.keys) := by
  rw [List.perm_ext_iff_of_nodup (AList.keys_nodup _)
    (List.nodup_cons.mpr ⟨absent, c.keys_nodup⟩)]
  intro a
  exact (AList.mem_insert c).trans List.mem_cons.symm

theorem keys_insert_old (there : y ∈ c) : (c.insert y stored).keys.Perm c.keys := by
  rw [List.perm_ext_iff_of_nodup (AList.keys_nodup _) c.keys_nodup]
  intro a
  exact (AList.mem_insert c).trans ⟨fun h => h.elim (· ▸ there) fun h => h, .inr⟩

theorem keys_erase_old (there : y ∈ c) : c.keys.Perm (y :: (c.erase y).keys) := by
  have gone : y ∉ c.erase y := fun still => (AList.mem_erase.mp still).1 rfl
  rw [List.perm_ext_iff_of_nodup c.keys_nodup
    (List.nodup_cons.mpr ⟨gone, (c.erase y).keys_nodup⟩)]
  intro a
  by_cases same : a = y
  · subst same
    exact ⟨fun _ => List.mem_cons_self, fun _ => there⟩
  · constructor
    · intro h
      exact List.mem_cons_of_mem _ (AList.mem_erase.mpr ⟨same, h⟩)
    · intro h
      exact (AList.mem_erase.mp ((List.mem_cons.mp h).resolve_left same)).2

/-- A directory that fits in one page is listed whole. -/
theorem mem_listIds_whole {size : Nat} (fits : c.keys.length ≤ size) :
    id ∈ (listIds size 0 c).1 ↔ id ∈ c := by
  have short : (sortedIds c).length ≤ size := by
    rw [sortedIds, List.length_insertionSort]
    exact fits
  change id ∈ ((sortedIds c).drop 0).take size ↔ id ∈ c
  rw [List.drop_zero, List.take_of_length_le short, sortedIds, List.mem_insertionSort,
    AList.mem_keys]

end Keys

end RepoForge.Repository
