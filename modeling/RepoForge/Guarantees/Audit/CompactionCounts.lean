import RepoForge.Spec.Audit.Accounting

/-!
# The counts of the compaction

A run of `record` is accounted for exactly where no call loses a count: none finds the table full
with a count in it that was not written, and no event of such a call is so long that its details
are left out, the count of a summary among them.
-/
namespace RepoForge.AuditSink

open PyStr (lit)

/-- The calls that may be compacted are those written in full, those counted in a summary and those
counted in memory. -/
def NothingLost (redactData : Value → Value) (calls : List Call) (events : List Event)
    (sink : Sink) : Prop :=
  calls.countP (Call.compactable redactData) =
    events.countP Event.inFull + (events.map Event.suppressedCount).sum + heldIn sink.compaction

theorem recordAll_nothingLost_iff {redactData : Value → Value} {pid maxEventBytes seq : Nat}
    {calls : List Call} {events : List Event} {sink : Sink}
    (run : recordAll redactData pid maxEventBytes ⟨seq, []⟩ calls = .ok (sink, events)) :
    NothingLost redactData calls events sink ↔
      KeepsCounts redactData pid maxEventBytes ⟨seq, []⟩ calls := by
  obtain ⟨-, exactly⟩ := recordAll_accounts pid maxEventBytes calls ⟨seq, []⟩ sink events run
  have fresh : heldIn [] = 0 := rfl
  rw [sum_accounts] at exactly
  rw [← exactly, NothingLost]
  simp only [fresh]
  omega

/-- A listing of the repositories. -/
def listed (session : Text) (lastSeq : Nat) : Call where
  action := lit "repo_list"
  success := true
  details := [(lit "is_mutating", .bool false), (lit "origin", .str (lit "model")),
    (lit "session_hash", .str (PyStr.ofText session))]
  timestamp := lit "2026-01-01T00:00:00Z"
  lastSeq := lastSeq

theorem listed_compactable (session : Text) (lastSeq : Nat) :
    (listed session lastSeq).compactable id = true := rfl

/-- A sink that has held a count of the listings. -/
def holding (seq : Nat) (key : Text) (count : Nat) : Sink :=
  ⟨seq, [(key, ⟨lit "2026-01-01T00:00:00Z", lit "2026-01-01T00:00:00Z", count⟩)]⟩

section Listings

variable {pid maxEventBytes seq lastSeq : Nat} {session key : Text} {encoded : Bytes}

theorem record_listed_first (named : (listed session lastSeq).key id = .ok key)
    (this : (Sink.event pid ⟨seq, []⟩ (listed session lastSeq)
      (.own ((listed session lastSeq).safeDetails id))).encoded = .ok encoded)
    (short : encoded.length ≤ max 1024 maxEventBytes) :
    record id pid maxEventBytes ⟨seq, []⟩ (listed session lastSeq) =
      .ok (holding (max seq lastSeq + 1) key 0, some (Sink.event pid ⟨seq, []⟩
        (listed session lastSeq) (.own ((listed session lastSeq).safeDetails id)))) := by
  exact record_written pid maxEventBytes
    (compact_first (listed_compactable session lastSeq) named)
    (appendEvent_short maxEventBytes this short)

theorem record_listed_held {count : Nat} (named : (listed session lastSeq).key id = .ok key)
    (few : count + 1 < repoListCompactionThreshold) :
    record id pid maxEventBytes (holding seq key count) (listed session lastSeq) =
      .ok (holding seq key (count + 1), none) := by
  have held : PyDict.get (holding seq key count).compaction key =
      some ⟨lit "2026-01-01T00:00:00Z", lit "2026-01-01T00:00:00Z", count⟩ := by
    simp [holding, PyDict.get_cons]
  rw [record_held pid maxEventBytes (listed_compactable session lastSeq) named held few]
  simp [holding, PyDict.assign, listed]

/-- Listings whose count is held leave nothing but the count. -/
theorem recordAll_listed (named : (listed session lastSeq).key id = .ok key) (rest : List Call) :
    ∀ more count : Nat, count + more < repoListCompactionThreshold →
      recordAll id pid maxEventBytes (holding seq key count)
          (List.replicate more (listed session lastSeq) ++ rest) =
        recordAll id pid maxEventBytes (holding seq key (count + more)) rest := by
  intro more
  induction more with
  | zero =>
    intro count _
    rfl
  | succ more ih =>
    intro count few
    have sum : count + 1 + more = count + (more + 1) := by omega
    rw [List.replicate_succ, List.cons_append, recordAll, record_listed_held named (by omega)]
    change (recordAll id pid maxEventBytes (holding seq key (count + 1)) _ >>= _) = _
    rw [ih (count + 1) (by omega), sum]
    cases recordAll id pid maxEventBytes (holding seq key (count + (more + 1))) rest <;> rfl

theorem record_listed_summed (named : (listed session lastSeq).key id = .ok key)
    (this : (Sink.event pid (holding seq key 24) (listed session lastSeq)
      (.summary ((listed session lastSeq).summary id (lit "2026-01-01T00:00:00Z") 25))).encoded =
        .ok encoded)
    (long : max 1024 maxEventBytes < encoded.length) :
    record id pid maxEventBytes (holding seq key 24) (listed session lastSeq) =
      .ok (holding (max seq lastSeq + 1) key 0, some (Sink.event pid (holding seq key 24)
        (listed session lastSeq) (.truncated (Sha256.hexdigest encoded) encoded.length))) := by
  have present : PyDict.get (holding seq key 24).compaction key =
      some ⟨lit "2026-01-01T00:00:00Z", lit "2026-01-01T00:00:00Z", 24⟩ := by
    simp [holding, PyDict.get_cons]
  have decided := compact_summed (listed_compactable session lastSeq) named present (by decide)
  have emptied : PyDict.assign (holding seq key 24).compaction key
      ⟨(listed session lastSeq).timestamp, (listed session lastSeq).timestamp, 0⟩ =
        (holding seq key 0).compaction := by
    simp [holding, PyDict.assign, listed]
  rw [emptied] at decided
  exact record_written pid maxEventBytes decided
    (appendEvent_long maxEventBytes this long (Json.encodable_lit _) (Json.encodable_lit _))

end Listings

/-- The event of the first listing. -/
def listedEvent (session : Text) : Event :=
  Sink.event 7 ⟨0, []⟩ (listed session 0) (.own ((listed session 0).safeDetails id))

theorem recordAll_nothingLost_once :
    ∃ sink events, recordAll id 7 65536 ⟨0, []⟩ [listed "4f8c1a".toList 0] = .ok (sink, events) ∧
      (NothingLost id [listed "4f8c1a".toList 0] events sink ↔
        KeepsCounts id 7 65536 ⟨0, []⟩ [listed "4f8c1a".toList 0]) := by
  obtain ⟨key, named⟩ : ∃ key, (listed "4f8c1a".toList 0).key id = .ok key :=
    ok_of_isSome (by decide +kernel)
  obtain ⟨encoded, this, length⟩ := ok_of_map (f := List.length) (b := 178)
    (x := (listedEvent "4f8c1a".toList).encoded) (by decide +kernel)
  have run : recordAll id 7 65536 ⟨0, []⟩ [listed "4f8c1a".toList 0] =
      .ok (holding 1 key 0, [listedEvent "4f8c1a".toList]) := by
    rw [recordAll, record_listed_first named this (by omega)]
    rfl
  exact ⟨_, _, run, recordAll_nothingLost_iff run⟩

/-- The summary of the 25 listings after it. -/
def listedSummary (session : Text) : Event :=
  Sink.event 7 (holding 1 [] 24) (listed session 1)
    (.summary ((listed session 1).summary id (lit "2026-01-01T00:00:00Z") 25))

/-- Where the first event is short enough and the summary too long, 25 listings are lost. -/
theorem listed_lost {session key : Text} {encoded encoded' : Bytes}
    (named : (listed session 1).key id = .ok key)
    (first : (listedEvent session).encoded = .ok encoded) (short : encoded.length ≤ 1024)
    (last : (listedSummary session).encoded = .ok encoded') (long : 1024 < encoded'.length) :
    ∃ sink events, recordAll id 7 1024 ⟨0, []⟩
        (listed session 0 :: List.replicate 25 (listed session 1)) = .ok (sink, events) ∧
      ¬NothingLost id (listed session 0 :: List.replicate 25 (listed session 1)) events sink := by
  have split : List.replicate 25 (listed session 1) =
      List.replicate 24 (listed session 1) ++ [listed session 1] := List.replicate_succ'
  have run : recordAll id 7 1024 ⟨0, []⟩
      (listed session 0 :: List.replicate 25 (listed session 1)) =
      .ok (holding 2 key 0, [listedEvent session, Sink.event 7 (holding 1 key 24)
        (listed session 1) (.truncated (Sha256.hexdigest encoded') encoded'.length)]) := by
    rw [recordAll, @record_listed_first _ _ _ 0 _ _ _ named first (by omega), split]
    change (recordAll id 7 1024 (holding 1 key 0) _ >>= _) = _
    rw [recordAll_listed named [listed session 1] 24 0 (by decide), recordAll,
      record_listed_summed named last (by omega)]
    rfl
  refine ⟨_, _, run, ?_⟩
  intro same
  have calls : (listed session 0 :: List.replicate 25 (listed session 1)).countP
      (Call.compactable id) = 26 := by
    rw [List.countP_cons, List.countP_replicate]
    rfl
  have one (lost : Event) (none : lost.inFull = false) (zero : lost.suppressedCount = 0) :
      [listedEvent session, lost].countP Event.inFull +
        ([listedEvent session, lost].map Event.suppressedCount).sum = 1 := by
    have found : (listedEvent session).inFull = true := rfl
    have alone : (listedEvent session).suppressedCount = 0 := rfl
    simp [found, alone, none, zero]
  have empty : heldIn (holding 2 key 0).compaction = 0 := rfl
  rw [NothingLost, calls, one _ rfl rfl, empty] at same
  omega

/-- A session hash of many characters. -/
def longSession : Text := List.replicate 820 'a'

/-- Of 26 listings one is written, and the summary of the others is so long that it loses its
count. -/
theorem recordAll_summary_lost :
    ∃ sink events, recordAll id 7 1024 ⟨0, []⟩
        (listed longSession 0 :: List.replicate 25 (listed longSession 1)) = .ok (sink, events) ∧
      ¬NothingLost id (listed longSession 0 :: List.replicate 25 (listed longSession 1)) events
        sink := by
  obtain ⟨key, named⟩ : ∃ key, (listed longSession 1).key id = .ok key :=
    ok_of_isSome (by decide +kernel)
  obtain ⟨encoded, first, length⟩ := ok_of_map (f := List.length) (b := 992)
    (x := (listedEvent longSession).encoded) (by decide +kernel)
  obtain ⟨encoded', last, length'⟩ := ok_of_map (f := List.length) (b := 1201)
    (x := (listedSummary longSession).encoded) (by decide +kernel)
  exact listed_lost named first (by omega) last (by omega)

end RepoForge.AuditSink
