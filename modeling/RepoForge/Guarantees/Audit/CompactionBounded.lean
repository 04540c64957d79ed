import RepoForge.Guarantees.Audit.CompactionCounts

/-!
# The audit sink stays bounded

The table of the compaction stays small in every run, however many keys there are, and each summary
stands for as many calls as it takes to write one. The numbers of a sink's own events rise, and no
line is longer than it may be, unless its details are already left out.
-/
namespace RepoForge.AuditSink

open PyStr (lit)

structure CompactionTable.Bounded (table : CompactionTable) : Prop where
  unique : (table.map (·.1)).Nodup
  few : table.length ≤ maxCompactionKeys
  held : ∀ item ∈ table, item.2.suppressedCount < repoListCompactionThreshold

theorem bounded_assign {table : CompactionTable} {key : Text} {state : Compaction}
    (bounded : CompactionTable.Bounded table)
    (room : PyDict.get table key = none → table.length < maxCompactionKeys)
    (small : state.suppressedCount < repoListCompactionThreshold) :
    CompactionTable.Bounded (PyDict.assign table key state) := by
  have unique : ((PyDict.assign table key state).map (·.1)).Nodup :=
    PyDict.assign_nodup bounded.unique
  refine ⟨unique, ?_, fun item here => ?_⟩
  · rw [← @List.length_map _ _ (PyDict.assign table key state) (·.1), PyDict.keys_assign]
    split_ifs with present
    · rw [List.length_map]
      exact bounded.few
    · have absent : PyDict.get table key = none := by
        rw [← PyDict.get_isSome] at present
        simpa using present
      rw [List.length_append, List.length_map]
      exact room absent
  · have found : PyDict.get (PyDict.assign table key state) item.1 = some item.2 :=
      PyDict.get_of_mem unique here
    rw [PyDict.get_assign] at found
    split_ifs at found with same
    · cases found
      exact small
    · exact bounded.held _ (PyDict.mem_of_get found)

/-- What a payload of a call holds. -/
def Payload.Counts (call : Call) : Payload → Prop
  | .own _ => True
  | .summary s =>
    s.suppressedCount = repoListCompactionThreshold ∧ s.compactedAction = call.action ∧
      s.lastTimestamp = call.timestamp
  | .truncated _ _ => False

variable {redactData : Value → Value} {pid maxEventBytes : Nat} {sink sink' : Sink} {call : Call}

theorem compact_bounded {table table' : CompactionTable} {payload : Option Payload}
    (bounded : CompactionTable.Bounded table)
    (decided : compact redactData table call = .ok (table', payload)) :
    CompactionTable.Bounded table' ∧ ∀ p ∈ payload, p.Counts call := by
  have start : 0 < repoListCompactionThreshold := by decide
  obtain ⟨answer, -, decided⟩ := bind_ok decided
  cases answer with
  | false =>
    cases decided
    exact ⟨bounded, by rintro _ ⟨⟩; trivial⟩
  | true =>
    rw [if_pos rfl] at decided
    obtain ⟨key, -, decided⟩ := bind_ok decided
    cases found : PyDict.get table key with
    | none =>
      rw [found] at decided
      cases decided
      refine ⟨?_, by rintro _ ⟨⟩; trivial⟩
      split_ifs with full
      · exact bounded_assign ⟨List.nodup_nil, by decide, by simp⟩ (fun _ => by decide) start
      · exact bounded_assign bounded (fun _ => by omega) start
    | some state =>
      have room : PyDict.get table key = none → table.length < maxCompactionKeys := by
        rw [found]
        intro absent
        cases absent
      have small : state.suppressedCount < repoListCompactionThreshold :=
        bounded.held _ (PyDict.mem_of_get found)
      rw [found] at decided
      simp only at decided
      split at decided
      · rename_i few
        cases decided
        exact ⟨bounded_assign bounded room few, by rintro _ ⟨⟩⟩
      · rename_i many
        cases decided
        refine ⟨bounded_assign bounded room start, ?_⟩
        rintro _ ⟨⟩
        exact ⟨by change state.suppressedCount + 1 = _; omega, rfl, rfl⟩

/-- What was written of an event, for its size. -/
def Event.Fits (maxEventBytes : Nat) (event : Event) : Prop :=
  ∃ line, event.encoded = .ok line ∧ (line.length ≤ max 1024 maxEventBytes ∨
    ∃ details whole, { event with details := details }.encoded = .ok whole ∧
      max 1024 maxEventBytes < whole.length ∧
      event.details = .truncated (Sha256.hexdigest whole) whole.length)

/-- What was written for a call. -/
structure Event.Records (maxEventBytes : Nat) (call : Call) (event : Event) : Prop where
  action : event.action = call.action
  success : event.success = call.success
  timestamp : event.timestamp = call.timestamp
  newer : call.lastSeq < event.seq
  counts : ∀ s, event.details = .summary s → (Payload.summary s).Counts call
  fits : event.Fits maxEventBytes

theorem record_keeps (bounded : CompactionTable.Bounded sink.compaction) {event : Option Event}
    (recorded : record redactData pid maxEventBytes sink call = .ok (sink', event)) :
    CompactionTable.Bounded sink'.compaction ∧ sink'.seq = (event.map Event.seq).getD sink.seq ∧
      ∀ e ∈ event, sink.seq < e.seq ∧ e.Records maxEventBytes call := by
  obtain ⟨⟨table, payload⟩, decided, written⟩ := bind_ok recorded
  obtain ⟨kept, counts⟩ := compact_bounded bounded decided
  cases payload with
  | none =>
    cases written
    exact ⟨kept, rfl, by rintro _ ⟨⟩⟩
  | some payload =>
    obtain ⟨event', appended, done⟩ := bind_ok written
    cases done
    refine ⟨kept, rfl, ?_⟩
    rintro _ ⟨⟩
    have own := counts payload rfl
    obtain ⟨whole, this, rest⟩ := bind_ok appended
    split at rest
    · rename_i long
      obtain ⟨line, short, done⟩ := bind_ok rest
      cases done
      refine ⟨by simp only [Sink.event]; omega, rfl, rfl, rfl, by simp only [Sink.event]; omega,
        ?_, line, short, .inr ⟨payload, whole, this, long, rfl⟩⟩
      intro s same
      cases same
    · rename_i short
      cases rest
      refine ⟨by simp only [Sink.event]; omega, rfl, rfl, rfl, by simp only [Sink.event]; omega,
        ?_, whole, this, .inl (Nat.le_of_not_lt short)⟩
      intro s same
      cases same
      exact own

/-- What a run leaves, and what it writes. -/
structure KeptBounds (maxEventBytes : Nat) (sink sink' : Sink) (calls : List Call)
    (events : List Event) : Prop where
  bounded : CompactionTable.Bounded sink'.compaction
  rising : (sink.seq :: events.map Event.seq).Pairwise (· < ·)
  last : sink'.seq = ((events.map Event.seq).getLast?).getD sink.seq
  /-- The events are those of some of the calls, in their order. -/
  records : ∃ made, made.Sublist calls ∧ List.Forall₂ (Event.Records maxEventBytes) made events

theorem recordAll_bounded {calls : List Call} {events : List Event}
    (bounded : CompactionTable.Bounded sink.compaction)
    (run : recordAll redactData pid maxEventBytes sink calls = .ok (sink', events)) :
    KeptBounds maxEventBytes sink sink' calls events := by
  induction calls generalizing sink events with
  | nil =>
    cases run
    exact ⟨bounded, List.pairwise_singleton _ _, rfl, [], List.Sublist.refl [], .nil⟩
  | cons call rest ih =>
    obtain ⟨⟨next, event⟩, recorded, later⟩ := bind_ok run
    obtain ⟨⟨last, events'⟩, run', done⟩ := bind_ok later
    cases done
    obtain ⟨kept, seq, written⟩ := record_keeps bounded recorded
    obtain ⟨bounded', rising, ends, made, part, records⟩ := ih kept run'
    cases event with
    | none =>
      rw [seq] at rising ends
      exact ⟨bounded', rising, ends, made, part.cons call, records⟩
    | some e =>
      obtain ⟨newer, own⟩ := written e rfl
      have same : next.seq = e.seq := seq
      rw [same] at rising ends
      refine ⟨bounded', List.pairwise_cons.mpr ⟨?_, rising⟩, ?_, call :: made, part.cons_cons call,
        .cons own records⟩
      · intro n here
        rcases List.mem_cons.mp here with rfl | after
        · exact newer
        · exact newer.trans ((List.pairwise_cons.mp rising).1 n after)
      · rw [ends]
        cases here : events'.map Event.seq with
        | nil => simp [here]
        | cons n ns => simp [here, List.getLast?_cons]

theorem recordAll_bounded_twice :
    ∃ sink events, recordAll id 7 65536 ⟨0, []⟩
        [listed "4f8c1a".toList 0, listed "4f8c1a".toList 0] = .ok (sink, events) ∧
      KeptBounds 65536 ⟨0, []⟩ sink [listed "4f8c1a".toList 0, listed "4f8c1a".toList 0] events := by
  obtain ⟨key, named⟩ : ∃ key, (listed "4f8c1a".toList 0).key id = .ok key :=
    ok_of_isSome (by decide +kernel)
  obtain ⟨encoded, this, length⟩ := ok_of_map (f := List.length) (b := 178)
    (x := (listedEvent "4f8c1a".toList).encoded) (by decide +kernel)
  have run : recordAll id 7 65536 ⟨0, []⟩ [listed "4f8c1a".toList 0, listed "4f8c1a".toList 0] =
      .ok (holding 1 key 1, [listedEvent "4f8c1a".toList]) := by
    rw [recordAll, record_listed_first named this (by omega)]
    change (recordAll id 7 65536 (holding 1 key 0) _ >>= _) = _
    rw [recordAll, record_listed_held named (by decide)]
    rfl
  exact ⟨_, _, run, recordAll_bounded ⟨List.nodup_nil, by decide, by simp⟩ run⟩

end RepoForge.AuditSink
