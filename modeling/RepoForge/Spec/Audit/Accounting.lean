import Mathlib.Algebra.GroupWithZero.Nat
import RepoForge.Source.Audit.Compaction

/-!
# What the audit log accounts for

Each call that may be compacted should be found once: as an event of its own, in the count of a
summary, or in a count that is still held. A step never finds one twice, and misses one exactly
where a count is thrown away with the table or with the details of an event that is too long.
-/
namespace RepoForge.AuditSink

open PyStr (lit)

/-- The counts that are held. -/
def heldIn (table : CompactionTable) : Nat :=
  (table.map fun item => item.2.suppressedCount).sum

/-- The answer is `True`. -/
def affirmed : Except RecordError Bool → Bool
  | .ok answer => answer
  | .error _ => false

theorem eq_ok_of_affirmed {answer : Except RecordError Bool} (h : affirmed answer = true) :
    answer = .ok true := by
  cases answer with
  | ok value => exact congrArg Except.ok h
  | error e => cases h

/-- The event of a call that may be compacted, with the details of that call. -/
def Event.inFull (event : Event) : Bool :=
  match event.details with
  | .own details => affirmed (isCompactable event.action event.success details)
  | _ => false

/-- The `suppressed_count` of a summary. -/
def Event.suppressedCount (event : Event) : Nat :=
  match event.details with
  | .summary s => s.suppressedCount
  | _ => 0

/-- How many calls an event accounts for. -/
def Event.accounts (event : Event) : Nat :=
  (if event.inFull then 1 else 0) + event.suppressedCount

theorem sum_accounts (events : List Event) : (events.map Event.accounts).sum =
    events.countP Event.inFull + (events.map Event.suppressedCount).sum := by
  induction events with
  | nil => rfl
  | cons event events ih =>
    simp only [List.map_cons, List.sum_cons, List.countP_cons, ih, Event.accounts]
    omega

section Table

variable {table : CompactionTable} {key : Text} {before after : Compaction}

theorem held_assign_new (absent : PyDict.get table key = none) :
    heldIn (PyDict.assign table key after) = heldIn table + after.suppressedCount := by
  induction table with
  | nil => simp [PyDict.assign, heldIn]
  | cons item rest ih =>
    rw [PyDict.get_cons] at absent
    by_cases here : item.1 = key
    · simp [here] at absent
    · rw [if_neg here] at absent
      have later := ih absent
      simp only [heldIn] at later
      simp only [PyDict.assign, if_neg here, heldIn, List.map_cons, List.sum_cons,
        later]
      omega

theorem held_assign_again (present : PyDict.get table key = some before) :
    heldIn (PyDict.assign table key after) + before.suppressedCount =
      heldIn table + after.suppressedCount := by
  induction table with
  | nil => cases present
  | cons item rest ih =>
    rw [PyDict.get_cons] at present
    by_cases here : item.1 = key
    · rw [if_pos here] at present
      cases present
      simp only [PyDict.assign, if_pos here, heldIn, List.map_cons, List.sum_cons]
      omega
    · rw [if_neg here] at present
      have later := ih present
      simp only [heldIn] at later
      simp only [PyDict.assign, if_neg here, heldIn, List.map_cons, List.sum_cons]
      omega

theorem held_eq_zero : heldIn table = 0 ↔ ∀ item ∈ table, item.2.suppressedCount = 0 := by
  induction table with
  | nil => simp [heldIn]
  | cons item rest ih =>
    have later : heldIn (item :: rest) = item.2.suppressedCount + heldIn rest := by
      simp [heldIn]
    rw [later, List.forall_mem_cons, ← ih]
    omega

end Table

section Steps

variable (redactData : Value → Value) (pid maxEventBytes : Nat)

def Call.compactable (call : Call) : Bool := affirmed (call.isCompactable redactData)

/-- Nothing held is thrown away to make room. -/
def MakesRoom (sink : Sink) (call : Call) : Prop :=
  ∀ key, call.key redactData = .ok key → PyDict.get sink.compaction key = none →
    maxCompactionKeys ≤ sink.compaction.length →
      ∀ item ∈ sink.compaction, item.2.suppressedCount = 0

/-- What is written, if anything, is short enough to be written as it is. -/
def WritesWhole (sink : Sink) (call : Call) : Prop :=
  ∀ table payload encoded, compact redactData sink.compaction call = .ok (table, some payload) →
    (sink.event pid call payload).encoded = .ok encoded → encoded.length ≤ max 1024 maxEventBytes

/-- The call may be compacted only where no count is lost over it. -/
def KeepsCount (sink : Sink) (call : Call) : Prop :=
  call.compactable redactData = true →
    MakesRoom redactData sink call ∧ WritesWhole redactData pid maxEventBytes sink call

/-- No call of the run loses a count. -/
def KeepsCounts : Sink → List Call → Prop
  | _, [] => True
  | sink, call :: rest => KeepsCount redactData pid maxEventBytes sink call ∧
      ∀ sink' event, record redactData pid maxEventBytes sink call = .ok (sink', event) →
        KeepsCounts sink' rest

/-- What `record` decides for one call, with what it accounts for. -/
inductive Decision (sink : Sink) (call : Call) : CompactionTable → Option Payload → Prop
  | plain (other : call.compactable redactData = false) :
      Decision sink call sink.compaction (some (.own (call.safeDetails redactData)))
  | first (may : call.compactable redactData = true) (key : Text)
      (named : call.key redactData = .ok key)
      (absent : PyDict.get sink.compaction key = none) :
      Decision sink call
        (PyDict.assign (if maxCompactionKeys ≤ sink.compaction.length then [] else sink.compaction)
          key ⟨call.timestamp, call.timestamp, 0⟩)
        (some (.own (call.safeDetails redactData)))
  | held (may : call.compactable redactData = true) (key : Text) (state : Compaction)
      (named : call.key redactData = .ok key)
      (present : PyDict.get sink.compaction key = some state) :
      Decision sink call
        (PyDict.assign sink.compaction key
          ⟨state.firstTimestamp, call.timestamp, state.suppressedCount + 1⟩) none
  | summed (may : call.compactable redactData = true) (key : Text) (state : Compaction)
      (named : call.key redactData = .ok key)
      (present : PyDict.get sink.compaction key = some state) :
      Decision sink call
        (PyDict.assign sink.compaction key ⟨call.timestamp, call.timestamp, 0⟩)
        (some (.summary (call.summary redactData state.firstTimestamp (state.suppressedCount + 1))))

theorem compact_decision {sink : Sink} {call : Call} {table : CompactionTable}
    {payload : Option Payload}
    (decided : compact redactData sink.compaction call = .ok (table, payload)) :
    Decision redactData sink call table payload := by
  obtain ⟨answer, asked, decided⟩ := bind_ok decided
  cases answer with
  | false =>
    cases decided
    exact .plain (by rw [Call.compactable, asked]; rfl)
  | true =>
    have may : call.compactable redactData = true := by rw [Call.compactable, asked]; rfl
    rw [if_pos rfl] at decided
    obtain ⟨key, named, decided⟩ := bind_ok decided
    cases found : PyDict.get sink.compaction key with
    | none =>
      rw [found] at decided
      cases decided
      exact .first may key named found
    | some state =>
      rw [found] at decided
      simp only at decided
      split at decided
      · cases decided
        exact .held may key state named found
      · cases decided
        exact .summed may key state named found

/-- An event is written as it is where it is short enough, and else without its details. -/
theorem appendEvent_accounts {event written : Event}
    (appended : appendEvent maxEventBytes event = .ok written) :
    ∃ encoded, event.encoded = .ok encoded ∧
      (encoded.length ≤ max 1024 maxEventBytes ∧ written = event ∨
        max 1024 maxEventBytes < encoded.length ∧ written.accounts = 0) := by
  obtain ⟨encoded, this, rest⟩ := bind_ok appended
  refine ⟨encoded, this, ?_⟩
  split at rest
  · rename_i long
    obtain ⟨_, _, done⟩ := bind_ok rest
    cases done
    exact .inr ⟨long, rfl⟩
  · rename_i short
    cases rest
    exact .inl ⟨Nat.le_of_not_lt short, rfl⟩

variable {redactData}

theorem makesRoom_of_present {sink : Sink} {call : Call} {key : Text} {state : Compaction}
    (named : call.key redactData = .ok key)
    (present : PyDict.get sink.compaction key = some state) : MakesRoom redactData sink call := by
  intro key' named' absent
  rw [named] at named'
  cases named'
  rw [present] at absent
  cases absent

theorem makesRoom_iff {sink : Sink} {call : Call} {key : Text}
    (named : call.key redactData = .ok key) (absent : PyDict.get sink.compaction key = none) :
    MakesRoom redactData sink call ↔
      (maxCompactionKeys ≤ sink.compaction.length → heldIn sink.compaction = 0) := by
  rw [held_eq_zero]
  constructor
  · intro room
    exact room key named absent
  · intro room key' _ _
    exact room

theorem writesWhole_iff {sink : Sink} {call : Call} {table : CompactionTable} {payload : Payload}
    {encoded : Bytes} (decided : compact redactData sink.compaction call = .ok (table, some payload))
    (this : (sink.event pid call payload).encoded = .ok encoded) :
    WritesWhole redactData pid maxEventBytes sink call ↔
      encoded.length ≤ max 1024 maxEventBytes := by
  constructor
  · intro whole
    exact whole table payload encoded decided this
  · intro short table' payload' encoded' decided' this'
    rw [decided] at decided'
    cases decided'
    rw [this] at this'
    cases this'
    exact short

/-- One call is found at most once, and exactly once where it keeps the count. -/
theorem record_accounts {sink sink' : Sink} {call : Call} {event : Option Event}
    (recorded : record redactData pid maxEventBytes sink call = .ok (sink', event)) :
    let made := (if call.compactable redactData then 1 else 0) + heldIn sink.compaction
    let found := (event.toList.map Event.accounts).sum + heldIn sink'.compaction
    found ≤ made ∧ (found = made ↔ KeepsCount redactData pid maxEventBytes sink call) := by
  obtain ⟨⟨table, payload⟩, decided, written⟩ := bind_ok recorded
  cases compact_decision redactData decided with
  | plain other =>
    obtain ⟨event', appended, done⟩ := bind_ok written
    cases done
    have none : event'.accounts = 0 := by
      obtain ⟨encoded, -, ⟨_, rfl⟩ | ⟨_, zero⟩⟩ := appendEvent_accounts maxEventBytes appended
      · have unaccounted : affirmed (isCompactable call.action call.success
            (call.safeDetails redactData)) = false := other
        simp [Event.accounts, Event.inFull, Event.suppressedCount, Sink.event, unaccounted]
      · exact zero
    have vacuous : KeepsCount redactData pid maxEventBytes sink call := by
      intro may
      rw [other] at may
      cases may
    simp [other, none, vacuous]
  | first may key named absent =>
    obtain ⟨event', appended, done⟩ := bind_ok written
    cases done
    obtain ⟨encoded, this, size⟩ := appendEvent_accounts maxEventBytes appended
    have own : (sink.event pid call (.own (call.safeDetails redactData))).accounts = 1 := by
      have accounted : affirmed (isCompactable call.action call.success
          (call.safeDetails redactData)) = true := may
      simp [Event.accounts, Event.inFull, Event.suppressedCount, Sink.event, accounted]
    have kept : KeepsCount redactData pid maxEventBytes sink call ↔
        (maxCompactionKeys ≤ sink.compaction.length → heldIn sink.compaction = 0) ∧
          encoded.length ≤ max 1024 maxEventBytes := by
      rw [KeepsCount, may, makesRoom_iff named absent, writesWhole_iff pid maxEventBytes decided this]
      simp
    have emptied : heldIn (PyDict.assign
        (if maxCompactionKeys ≤ sink.compaction.length then [] else sink.compaction) key
          ⟨call.timestamp, call.timestamp, 0⟩) =
        if maxCompactionKeys ≤ sink.compaction.length then 0 else heldIn sink.compaction := by
      split
      · rfl
      · exact held_assign_new absent
    rw [kept]
    simp only [may, if_true, Option.toList_some, List.map_cons, List.map_nil, List.sum_cons,
      List.sum_nil, emptied]
    rcases size with ⟨short, rfl⟩ | ⟨long, zero⟩
    · rw [own]
      split <;> omega
    · rw [zero]
      split <;> omega
  | held may key state named present =>
    cases written
    have again : heldIn (PyDict.assign sink.compaction key
        ⟨state.firstTimestamp, call.timestamp, state.suppressedCount + 1⟩) + state.suppressedCount =
        heldIn sink.compaction + (state.suppressedCount + 1) := held_assign_again present
    have kept : KeepsCount redactData pid maxEventBytes sink call := by
      intro _
      refine ⟨makesRoom_of_present named present, ?_⟩
      intro table payload encoded decided'
      rw [decided] at decided'
      cases decided'
    simp only [may, if_true, Option.toList_none, List.map_nil, List.sum_nil, kept, iff_true]
    omega
  | summed may key state named present =>
    obtain ⟨event', appended, done⟩ := bind_ok written
    cases done
    obtain ⟨encoded, this, size⟩ := appendEvent_accounts maxEventBytes appended
    have again : heldIn (PyDict.assign sink.compaction key ⟨call.timestamp, call.timestamp, 0⟩) +
        state.suppressedCount = heldIn sink.compaction + 0 := held_assign_again present
    have kept : KeepsCount redactData pid maxEventBytes sink call ↔
        encoded.length ≤ max 1024 maxEventBytes := by
      rw [KeepsCount, may, writesWhole_iff pid maxEventBytes decided this]
      simp [makesRoom_of_present named present]
    rw [kept]
    simp only [may, if_true, Option.toList_some, List.map_cons, List.map_nil, List.sum_cons,
      List.sum_nil]
    rcases size with ⟨short, rfl⟩ | ⟨long, zero⟩
    · have counted : (sink.event pid call (.summary (call.summary redactData state.firstTimestamp
          (state.suppressedCount + 1)))).accounts = state.suppressedCount + 1 := by
        simp [Event.accounts, Event.inFull, Event.suppressedCount, Sink.event, Call.summary]
      omega
    · omega

section Written

theorem writes_dict {style : JsonStyle} {fields : List (PyStr × Value)}
    {parts : List (PyStr × PyStr)} (written : writeFields style fields = some parts)
    (comma : style.comma.encodable = true) (colon : style.colon.encodable = true)
    (clean : ∀ part ∈ parts, part.1.encodable = true ∧ part.2.encodable = true) :
    ∃ text, (Value.dict fields).write style = some text ∧ text.encodable = true := by
  rw [Value.write, written]
  refine ⟨_, rfl, ?_⟩
  simp only [Json.encodable_append, Json.encodable_lit, Json.encodable_join comma, Bool.true_and,
    Bool.and_true, List.all_eq_true, List.mem_map, forall_exists_index, and_imp,
    forall_apply_eq_imp_iff₂, List.mem_insertionSort]
  intro part here
  obtain ⟨name, value⟩ := clean part here
  simp only [Json.encodable_quote, name, colon, value, Bool.and_self]

/-- An event that lost its details can be written where its other texts can. -/
theorem encoded_truncated {event : Event} {sha256 : Text} {originalBytes : Nat}
    (named : event.action.encodable = true) (timed : event.timestamp.encodable = true) :
    ∃ encoded, { event with details := .truncated sha256 originalBytes }.encoded = .ok encoded := by
  obtain ⟨details, written, plain⟩ := @writes_dict .line [(lit "event_truncated", .bool true),
      (lit "event_sha256", .str (PyStr.ofText sha256)), (lit "original_bytes", .int originalBytes)] _
    rfl (Json.encodable_lit _) (Json.encodable_lit _) (by
      simp [Json.encodable_lit, Json.encodable_quote, PyStr.ofText_encodable, Json.ofInt,
        Json.encodable_ofNat])
  have fields : writeFields .line [
      (lit "timestamp", .str event.timestamp),
      (lit "pid", .int event.pid),
      (lit "seq", .int event.seq),
      (lit "action", .str event.action),
      (lit "success", .bool event.success),
      (lit "details", (Payload.truncated sha256 originalBytes).value)] = some [
      (lit "timestamp", Json.quote event.timestamp),
      (lit "pid", Json.ofInt event.pid),
      (lit "seq", Json.ofInt event.seq),
      (lit "action", Json.quote event.action),
      (lit "success", if event.success then lit "true" else lit "false"),
      (lit "details", details)] := by
    simp [writeFields, Value.write, Payload.value, written]
  obtain ⟨text, whole, clean⟩ := writes_dict fields (Json.encodable_lit _) (Json.encodable_lit _)
    (by
      cases event.success <;>
        simp [Json.encodable_lit, Json.encodable_quote, named, timed, Json.ofInt,
          Json.encodable_ofNat, plain])
  refine ⟨PyStr.utf8 (text ++ lit "\n").replaced, ?_⟩
  have ended : (text ++ lit "\n").encodable = true := by
    rw [Json.encodable_append, clean, Json.encodable_lit, Bool.and_self]
  rw [Event.encoded, dumps, whole]
  change encode (text ++ lit "\n") = _
  rw [encode, if_pos ended]

variable {event : Event} {encoded : Bytes}

theorem appendEvent_short (this : event.encoded = .ok encoded)
    (short : encoded.length ≤ max 1024 maxEventBytes) :
    appendEvent maxEventBytes event = .ok event := by
  rw [appendEvent, this]
  change (if max 1024 maxEventBytes < encoded.length then _ else _) = _
  rw [if_neg (by omega)]
  rfl

theorem appendEvent_long (this : event.encoded = .ok encoded)
    (long : max 1024 maxEventBytes < encoded.length) (named : event.action.encodable = true)
    (timed : event.timestamp.encodable = true) : appendEvent maxEventBytes event =
      .ok { event with details := .truncated (Sha256.hexdigest encoded) encoded.length } := by
  obtain ⟨again, written⟩ :=
    @encoded_truncated event (Sha256.hexdigest encoded) encoded.length named timed
  rw [appendEvent, this]
  change (if max 1024 maxEventBytes < encoded.length then _ else _) = _
  rw [if_pos long, written]
  rfl

end Written

/-- A run finds each of its calls at most once, and each exactly once where all keep the count. -/
theorem recordAll_accounts : ∀ (calls : List Call) (sink sink' : Sink) (events : List Event),
    recordAll redactData pid maxEventBytes sink calls = .ok (sink', events) →
      let made := calls.countP (Call.compactable redactData) + heldIn sink.compaction
      let found := (events.map Event.accounts).sum + heldIn sink'.compaction
      found ≤ made ∧ (found = made ↔ KeepsCounts redactData pid maxEventBytes sink calls) := by
  intro calls
  induction calls with
  | nil =>
    intro sink sink' events run
    cases run
    simp [KeepsCounts]
  | cons call rest ih =>
    intro sink sink' events run
    obtain ⟨⟨next, event⟩, recorded, later⟩ := bind_ok run
    obtain ⟨⟨last, events'⟩, run', done⟩ := bind_ok later
    cases done
    obtain ⟨most, exactly⟩ := record_accounts pid maxEventBytes recorded
    obtain ⟨most', exactly'⟩ := ih next sink' events' run'
    have keeps : KeepsCounts redactData pid maxEventBytes sink (call :: rest) ↔
        KeepsCount redactData pid maxEventBytes sink call ∧
          KeepsCounts redactData pid maxEventBytes next rest := by
      rw [KeepsCounts]
      constructor
      · rintro ⟨here, after⟩
        exact ⟨here, after next event recorded⟩
      · rintro ⟨here, after⟩
        refine ⟨here, ?_⟩
        intro next' event' recorded'
        rw [recorded] at recorded'
        cases recorded'
        exact after
    rw [keeps, ← exactly, ← exactly']
    simp only [List.map_append, List.sum_append, List.countP_cons]
    omega

/-- The first call under a key is written with its own details. -/
theorem compact_first {call : Call} {key : Text} (may : call.compactable redactData = true)
    (named : call.key redactData = .ok key) : compact redactData [] call =
      .ok ([(key, ⟨call.timestamp, call.timestamp, 0⟩)],
        some (.own (call.safeDetails redactData))) := by
  rw [compact, eq_ok_of_affirmed may]
  change (call.key redactData >>= _) = _
  rw [named]
  rfl

/-- When the threshold is reached, a summary is written. -/
theorem compact_summed {table : CompactionTable} {call : Call} {key : Text} {state : Compaction}
    (may : call.compactable redactData = true) (named : call.key redactData = .ok key)
    (present : PyDict.get table key = some state)
    (many : ¬state.suppressedCount + 1 < repoListCompactionThreshold) :
    compact redactData table call =
      .ok (PyDict.assign table key ⟨call.timestamp, call.timestamp, 0⟩,
        some (.summary (call.summary redactData state.firstTimestamp
          (state.suppressedCount + 1)))) := by
  rw [compact, eq_ok_of_affirmed may]
  change (call.key redactData >>= _) = _
  rw [named]
  dsimp only [bind, Except.bind]
  rw [present]
  simp only [if_neg many]
  rfl

theorem record_written {sink : Sink} {call : Call} {table : CompactionTable} {payload : Payload}
    {event : Event} (decided : compact redactData sink.compaction call = .ok (table, some payload))
    (appended : appendEvent maxEventBytes (sink.event pid call payload) = .ok event) :
    record redactData pid maxEventBytes sink call = .ok (⟨event.seq, table⟩, some event) := by
  rw [record, decided]
  change (appendEvent maxEventBytes (sink.event pid call payload) >>= _) = _
  rw [appended]
  rfl

/-- A call whose count is held is not written. -/
theorem record_held {sink : Sink} {call : Call} {key : Text} {state : Compaction}
    (may : call.compactable redactData = true) (named : call.key redactData = .ok key)
    (present : PyDict.get sink.compaction key = some state)
    (few : state.suppressedCount + 1 < repoListCompactionThreshold) :
    record redactData pid maxEventBytes sink call =
      .ok (⟨sink.seq, PyDict.assign sink.compaction key
        ⟨state.firstTimestamp, call.timestamp, state.suppressedCount + 1⟩⟩, none) := by
  have decided : compact redactData sink.compaction call =
      .ok (PyDict.assign sink.compaction key
        ⟨state.firstTimestamp, call.timestamp, state.suppressedCount + 1⟩, none) := by
    rw [compact, eq_ok_of_affirmed may]
    change (call.key redactData >>= _) = _
    rw [named]
    dsimp only [bind, Except.bind]
    rw [present]
    simp only [if_pos few]
    rfl
  rw [record, decided]
  rfl

end Steps

end RepoForge.AuditSink
