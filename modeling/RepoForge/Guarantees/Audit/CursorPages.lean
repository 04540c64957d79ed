import Mathlib.Data.List.Perm.Subperm
import RepoForge.Guarantees.Audit.NumbersIncrease

/-!
# Pages from a cursor

One running sink, and a consumer that passes the cursor it got last. `readSince` looks at the lowest
surviving number only, so a page passes over an event exactly where that event is gone and both an
older and a newer one have survived.
-/
namespace RepoForge.Audit

open Runs

/-- The sink and the consumer: its cursor, and what it has been given, in order. -/
structure Feed where
  audit : AuditState
  cursor : Nat
  returned : List Nat

inductive FeedLabel where
  | append (given : Appending) (ending : Ending)
  | prune (before : Int)
  | read (limit : Nat)
  deriving DecidableEq

def feedStep (maxBytes : Nat) (f : Feed) : FeedLabel → Feed
  | .append given ending => { f with audit := step maxBytes f.audit (.append 0 given ending) }
  | .prune before => { f with audit := step maxBytes f.audit (.prune before) }
  | .read limit =>
    match readSince f.cursor limit f.audit.log with
    | .ok (.ok events nextCursor) => { f with
        cursor := nextCursor
        returned := f.returned ++ events }
    | .ok (.gap _ _) => f
    | .error _ => f

/-- The sink has just been opened on no log. -/
def feedStart (first : Nat) : Feed := ⟨step 0 start (.opened 0 true), first, []⟩

/-- What comes before an event that was returned was returned before it. -/
def NonePassed (first : Nat) (f : Feed) : Prop :=
  ∀ before m after, f.returned = before ++ m :: after →
    ∀ n ∈ f.audit.appended, first < n → n < m → n ∈ before

/-- An event above the cursor is gone, although one at or below the next number has survived and so
few events up to it that the page would go on: then none after it has survived. -/
def NoHole (f : Feed) : FeedLabel → Prop
  | .read limit => ∀ n ∈ f.audit.appended, f.cursor < n → n ∉ readable f.audit.log →
      (∃ older ∈ readable f.audit.log, older ≤ f.cursor + 1) →
      ((readable f.audit.log).filter fun seq => f.cursor < seq ∧ seq < n).length < limit →
      limit ≤ 5000 → ∀ newer ∈ readable f.audit.log, newer ≤ n
  | _ => True

def seqs (log : Log) : List Nat := log.lines.filterMap fun line => line.event.map AuditEvent.seq

structure Following (first : Nat) (f : Feed) : Prop where
  recorded : Recorded f.audit
  decreasing : (seqs f.audit.log).Pairwise (· > ·)
  counter : ∃ counter, f.audit.sinks 0 = some counter ∧ highest f.audit ≤ counter
  since : first ≤ f.cursor
  upTo : ∀ m ∈ f.returned, m ≤ f.cursor
  place : f.cursor = first ∨ f.cursor ∈ f.returned
  known : ∀ m ∈ f.returned, m ∈ f.audit.appended

variable {maxBytes first limit : Nat} {f : Feed} {log : Log} {l : FeedLabel}
  {labels : List FeedLabel}

/-! ### The log of one sink -/

theorem tailOf_initial (budget : Nat) (lines : List Line) : (Log.tailOf budget lines) <+: lines := by
  induction lines generalizing budget with
  | nil => exact List.prefix_rfl
  | cons first older ih =>
    unfold Log.tailOf
    split
    · exact List.nil_prefix
    · exact (List.prefix_cons_inj first).mpr (ih _)

theorem readable_sorted (decreasing : (seqs log).Pairwise (· > ·)) :
    (readable log).Pairwise (· < ·) := by
  unfold readable
  rw [List.pairwise_reverse]
  exact decreasing.sublist ((tailOf_initial _ _).sublist.filterMap _)

theorem mem_seqs {n : Nat} : n ∈ seqs log ↔
    ∃ line ∈ log.lines, ∃ event, line.event = some event ∧ event.seq = n := by
  simp [seqs, List.mem_filterMap, Option.map_eq_some_iff]

theorem seqs_write {line : Line} {unfinished : Bool} (decreasing : (seqs log).Pairwise (· > ·))
    (above : ∀ event, line.event = some event → ∀ n ∈ seqs log, n < event.seq) :
    (seqs (log.write line unfinished)).Pairwise (· > ·) := by
  unfold Log.write
  split
  · rename_i torn older _ same
    have before : (seqs ⟨older, unfinished⟩).Sublist (seqs log) := by
      unfold seqs
      rw [same]
      exact (List.sublist_cons_self _ _).filterMap _
    exact decreasing.sublist before
  · rcases found : line.event with _ | event
    · simpa [seqs, found] using decreasing
    · have all := above event found
      simp only [seqs, List.filterMap_cons, found, Option.map_some, List.pairwise_cons]
      exact ⟨all, decreasing⟩

theorem seqs_rotate {incoming : Nat} :
    (seqs (rotate maxBytes incoming log)).Sublist (seqs log) := by
  unfold rotate
  split
  · exact List.Sublist.refl _
  · exact List.nil_sublist _

theorem seqs_appendEvent {seq : Nat} {given : Appending} {ending : Ending}
    (decreasing : (seqs log).Pairwise (· > ·)) (above : ∀ n ∈ seqs log, n < seq) :
    (seqs (appendEvent maxBytes seq given ending log)).Pairwise (· > ·) := by
  have rotated : (seqs (rotate maxBytes (given.size + 1) log)).Pairwise (· > ·) :=
    decreasing.sublist seqs_rotate
  have own : ∀ event, (lineOf seq given).event = some event →
      ∀ n ∈ seqs (rotate maxBytes (given.size + 1) log), n < event.seq := by
    intro event found n here
    unfold lineOf at found
    dsimp only at found
    split_ifs at found
    cases found
    exact above n (seqs_rotate.subset here)
  cases ending with
  | kept => exact decreasing
  | moved => exact rotated
  | torn size stray => exact seqs_write rotated fun event found => by cases found
  | unterminated => exact seqs_write rotated own
  | whole => exact seqs_write rotated own

theorem seqs_prune {before : Int} : (seqs (prune before log)).Sublist (seqs log) := by
  unfold prune
  split
  · exact List.Sublist.refl _
  · exact List.filter_sublist.filterMap _

/-! ### A page -/

/-- What a read gives. -/
theorem readSince_cases (cursor limit : Nat) (log : Log) :
    (∃ e, readSince cursor limit log = .error e) ∧ (limit = 0 ∨ 5000 < limit) ∨
    (readable log = [] ∧ readSince cursor limit log = .ok (.ok [] cursor)) ∨
    (∃ watermark ∈ readable log, (∀ n ∈ readable log, watermark ≤ n) ∧ 0 < cursor ∧
      cursor + 1 < watermark ∧ readSince cursor limit log = .ok (.gap watermark cursor)) ∨
    0 < limit ∧ limit ≤ 5000 ∧ (0 < cursor → ∃ older ∈ readable log, older ≤ cursor + 1) ∧
      readSince cursor limit log =
        .ok (.ok (((readable log).filter fun seq => cursor < seq).take limit)
          ((((readable log).filter fun seq => cursor < seq).take limit).getLast?.getD cursor)) := by
  unfold readSince
  split_ifs with bad
  · exact .inl ⟨⟨_, rfl⟩, bad⟩
  · right
    split
    · rename_i none
      exact .inl ⟨List.min?_eq_none_iff.mp none, rfl⟩
    · rename_i watermark least
      obtain ⟨inside, below⟩ := (List.min?_eq_some_iff).mp least
      right
      split_ifs with behind
      · exact .inl ⟨watermark, inside, below, behind.1, behind.2, rfl⟩
      · refine .inr ⟨by omega, by omega, fun positive => ⟨watermark, inside, ?_⟩, rfl⟩
        omega

/-- In an increasing list, what is smaller than an entry stands before it. -/
theorem mem_before {l before after : List Nat} {m n : Nat} (sorted : l.Pairwise (· < ·))
    (split : l = before ++ m :: after) (here : n ∈ l) (less : n < m) : n ∈ before := by
  subst split
  rcases List.mem_append.mp here with first | later
  · exact first
  · obtain ⟨above, -⟩ := List.pairwise_cons.mp (List.pairwise_append.mp sorted).2.1
    rcases List.mem_cons.mp later with rfl | later
    · omega
    · have := above n later
      omega

/-- In an increasing list without `n`, with something above it, the first entry above `n` stands
right after those below. -/
theorem split_at {l : List Nat} {n newer : Nat} (sorted : l.Pairwise (· < ·)) (missing : n ∉ l)
    (here : newer ∈ l) (above : n < newer) : ∃ m after, n < m ∧
      l = (l.filter fun k => k < n) ++ m :: after := by
  induction l with
  | nil => cases here
  | cons k rest ih =>
    obtain ⟨later, sorted⟩ := List.pairwise_cons.mp sorted
    obtain ⟨different, missing⟩ := List.ne_and_not_mem_of_not_mem_cons missing
    by_cases below : k < n
    · have inside : newer ∈ rest := by
        rcases List.mem_cons.mp here with rfl | inside
        · omega
        · exact inside
      obtain ⟨m, after, above, split⟩ := ih sorted missing inside
      refine ⟨m, after, above, ?_⟩
      rw [List.filter_cons_of_pos (by simpa using below), List.cons_append, ← split]
    · have none : (k :: rest).filter (fun k => k < n) = [] := by
        rw [List.filter_eq_nil_iff]
        intro other inside
        rcases List.mem_cons.mp inside with rfl | inside
        · simpa using below
        · have := later other inside
          simp only [decide_eq_true_eq]
          omega
      exact ⟨k, rest, by omega, by rw [none, List.nil_append]⟩

theorem NonePassed.of_append {f' : Feed} {events : List Nat} (passed : NonePassed first f')
    (more : f'.returned = f.returned ++ events)
    (grows : ∀ n ∈ f.audit.appended, n ∈ f'.audit.appended) : NonePassed first f := by
  intro before m after split n here above less
  refine passed before m (after ++ events) ?_ n (grows n here) above less
  rw [more, split, List.append_assoc, List.cons_append]

/-- What was appended up to the cursor was returned. -/
theorem NonePassed.covered (passed : NonePassed first f) (following : Following first f) {n : Nat}
    (here : n ∈ f.audit.appended) (above : first < n) (upTo : n ≤ f.cursor) : n ∈ f.returned := by
  rcases following.place with same | inside
  · omega
  · obtain ⟨before, after, split⟩ := List.append_of_mem inside
    rw [split]
    rcases Nat.lt_or_ge n f.cursor with less | equal
    · exact List.mem_append_left _ (passed before _ after split n here above less)
    · have same : n = f.cursor := by omega
      rw [same]
      simp

/-- The entries that a page may have. -/
def beyond (f : Feed) : List Nat := (readable f.audit.log).filter fun seq => f.cursor < seq

theorem beyond_filter {n : Nat} : ((beyond f).filter fun k => k < n) =
    (readable f.audit.log).filter fun seq => f.cursor < seq ∧ seq < n := by
  unfold beyond
  rw [List.filter_filter]
  congr 1
  funext seq
  simp [and_comm]

theorem page_passed (following : Following first f) (cap : limit ≤ 5000)
    (older : ∃ older ∈ readable f.audit.log, older ≤ f.cursor + 1) {next : Nat} :
    NonePassed first ⟨f.audit, next, f.returned ++ (beyond f).take limit⟩ ↔
      NonePassed first f ∧ NoHole f (.read limit) := by
  have sorted : (beyond f).Pairwise (· < ·) := (readable_sorted following.decreasing).filter _
  constructor
  · intro passed
    refine ⟨passed.of_append rfl fun _ here => here, ?_⟩
    intro n here above missing _ few _ newer inside
    by_contra beyond_n
    have absent : n ∉ beyond f := fun inside => missing (List.mem_of_mem_filter inside)
    have listed : newer ∈ beyond f :=
      List.mem_filter.mpr ⟨inside, decide_eq_true (by omega)⟩
    obtain ⟨m, after, less, split⟩ := split_at sorted absent listed (by omega)
    rw [← beyond_filter] at few
    have page : (beyond f).take limit = ((beyond f).filter fun k => k < n) ++
        m :: after.take (limit - ((beyond f).filter fun k => k < n).length - 1) := by
      conv_lhs => rw [split]
      rw [List.take_append, List.take_of_length_le (by omega)]
      obtain ⟨rest, count⟩ : ∃ rest, limit - ((beyond f).filter fun k => k < n).length = rest + 1 :=
        ⟨limit - ((beyond f).filter fun k => k < n).length - 1, by omega⟩
      rw [count, List.take_succ_cons, Nat.add_sub_cancel]
    have before := passed (f.returned ++ (beyond f).filter fun k => k < n) m _
      (by rw [page, List.append_assoc]) n here (by have := following.since; omega) less
    rcases List.mem_append.mp before with old | below
    · have := following.upTo n old
      omega
    · exact absent (List.mem_of_mem_filter below)
  · rintro ⟨passed, noHole⟩ before m after split n here above less
    have inPage : ∀ early, before = f.returned ++ early →
        (beyond f).take limit = early ++ m :: after → n ∈ before := by
      rintro early rfl page
      have whole : beyond f = early ++ m :: (after ++ (beyond f).drop limit) := by
        conv_lhs => rw [← List.take_append_drop limit (beyond f), page]
        simp
      have entry : m ∈ beyond f := by
        rw [whole]
        simp
      rcases Nat.lt_or_ge f.cursor n with beyond_cursor | upTo
      · by_cases inside : n ∈ readable f.audit.log
        · have listed : n ∈ beyond f := List.mem_filter.mpr ⟨inside, decide_eq_true beyond_cursor⟩
          exact List.mem_append_right _ (mem_before sorted whole listed less)
        · have short : ((beyond f).take limit).length ≤ limit := List.length_take_le _ _
          have subset : ((beyond f).filter fun k => k < n).length ≤ early.length := by
            have distinct : ((beyond f).filter fun k => k < n).Nodup :=
              (sorted.imp fun less => Nat.ne_of_lt less).filter _
            refine (distinct.subperm fun k member => ?_).length_le
            obtain ⟨listed, below⟩ := List.mem_filter.mp member
            exact mem_before sorted whole listed 
              (Nat.lt_trans (of_decide_eq_true below) less)
          have few : ((beyond f).filter fun k => k < n).length < limit := by
            rw [page, List.length_append, List.length_cons] at short
            omega
          rw [beyond_filter] at few
          have below := noHole n here beyond_cursor inside older few cap m
            (List.mem_of_mem_filter entry)
          omega
      · exact List.mem_append_left _ (passed.covered following here above upTo)
    rcases List.append_eq_append_iff.mp split with ⟨early, same, page⟩ | ⟨late, old, page⟩
    · exact inPage early same page
    · cases late with
      | nil => exact inPage [] (by simpa using old.symm) page.symm
      | cons k late =>
        obtain ⟨rfl, -⟩ := List.cons_eq_cons.mp page
        exact passed before m late old n here above less

theorem readable_appended (recorded : Recorded f.audit) {n : Nat}
    (here : n ∈ readable f.audit.log) : n ∈ f.audit.appended := by
  obtain ⟨line, inside, found⟩ := List.mem_filterMap.mp (List.mem_reverse.mp here)
  obtain ⟨event, same, rfl⟩ := Option.map_eq_some_iff.mp found
  exact recorded line ((tailOf_initial _ _).subset inside) event same

/-- The cursor after a page is its last entry, if it has one. -/
theorem page_last {l : List Nat} (sorted : l.Pairwise (· < ·)) (cursor : Nat) :
    l = [] ∧ l.getLast?.getD cursor = cursor ∨
      l.getLast?.getD cursor ∈ l ∧ ∀ n ∈ l, n ≤ l.getLast?.getD cursor := by
  rcases List.eq_nil_or_concat l with rfl | ⟨before, last, rfl⟩
  · exact .inl ⟨rfl, rfl⟩
  · right
    simp only [List.concat_eq_append, List.getLast?_append, List.getLast?_singleton,
      Option.some_or, Option.getD_some]
    refine ⟨by simp, fun n here => ?_⟩
    rcases List.mem_append.mp here with early | same
    · rw [List.concat_eq_append] at sorted
      exact Nat.le_of_lt ((List.pairwise_append.mp sorted).2.2 n early last (by simp))
    · exact Nat.le_of_eq (List.mem_singleton.mp same)

/-! ### The runs -/

theorem following_start : Following first (feedStart first) where
  recorded := by rintro _ ⟨⟩
  decreasing := List.Pairwise.nil
  counter := ⟨0, by simp [feedStart, step, start, recoverLastSeq, Log.tail, Log.tailOf, Log.empty],
    Nat.zero_le _⟩
  since := Nat.le_refl _
  upTo _ here := by cases here
  place := .inl rfl
  known _ here := by cases here

theorem nextSeq_highest {s : AuditState} {counter : Nat} (bound : highest s ≤ counter) {n : Nat}
    (here : n ∈ s.appended) : n < nextSeq counter s.log := by
  have below := (highest_lt (s := s) (m := counter + 1) (by omega)).mp (by omega) n here
  unfold nextSeq
  omega

theorem following_step (following : Following first f) :
    Following first (feedStep maxBytes f l) := by
  cases l with
  | append given ending =>
    obtain ⟨counter, there, bound⟩ := following.counter
    have new : ∀ n ∈ f.audit.appended, n < nextSeq counter f.audit.log :=
      fun n here => nextSeq_highest bound here
    have after := @step_append maxBytes _ _ _ given ending there
    refine ⟨recorded_step following.recorded, ?_, ?_, following.since, following.upTo,
      following.place, ?_⟩
    · simp only [feedStep, after]
      refine seqs_appendEvent following.decreasing fun n here => ?_
      obtain ⟨line, inside, event, found, rfl⟩ := mem_seqs.mp here
      exact new _ (following.recorded line inside event found)
    · refine ⟨nextSeq counter f.audit.log, by simp [feedStep, after], ?_⟩
      have above : highest f.audit < nextSeq counter f.audit.log := by
        unfold nextSeq
        omega
      simp only [feedStep, after, highest]
      split
      · simp only [List.foldr_cons, Nat.max_le, Nat.le_refl, true_and]
        exact Nat.le_of_lt above
      · exact Nat.le_of_lt above
    · intro m here
      have before := following.known m here
      simp only [feedStep, after]
      split
      · exact List.mem_cons_of_mem _ before
      · exact before
  | prune before =>
    exact ⟨recorded_step following.recorded, following.decreasing.sublist seqs_prune,
      following.counter, following.since, following.upTo, following.place, following.known⟩
  | read limit =>
    unfold feedStep
    rcases readSince_cases f.cursor limit f.audit.log with
      ⟨⟨e, same⟩, -⟩ | ⟨-, same⟩ | ⟨watermark, -, -, -, -, same⟩ | ⟨-, -, -, same⟩
    · simp only [same]
      exact following
    · simp only [same, List.append_nil]
      exact following
    · simp only [same]
      exact following
    · simp only [same]
      have sorted : ((beyond f).take limit).Pairwise (· < ·) :=
        ((readable_sorted following.decreasing).filter _).sublist (List.take_sublist _ _)
      have entries : ∀ n ∈ (beyond f).take limit, n ∈ readable f.audit.log ∧ f.cursor < n := by
        intro n here
        obtain ⟨inside, above⟩ := List.mem_filter.mp (List.mem_of_mem_take here)
        exact ⟨inside, of_decide_eq_true above⟩
      change Following first ⟨f.audit, ((beyond f).take limit).getLast?.getD f.cursor,
        f.returned ++ (beyond f).take limit⟩
      have known : ∀ m ∈ f.returned ++ (beyond f).take limit, m ∈ f.audit.appended := by
        intro m here
        rcases List.mem_append.mp here with old | new
        · exact following.known m old
        · exact readable_appended following.recorded (entries m new).1
      rcases page_last sorted f.cursor with ⟨nothing, still⟩ | ⟨last, most⟩
      · rw [still, nothing, List.append_nil]
        exact following
      · refine ⟨following.recorded, following.decreasing, following.counter, ?_, ?_, ?_, known⟩
        · exact Nat.le_trans following.since (Nat.le_of_lt (entries _ last).2)
        · intro m here
          rcases List.mem_append.mp here with old | new
          · exact Nat.le_trans (following.upTo m old) (Nat.le_of_lt (entries _ last).2)
          · exact most m new
        · exact .inr (List.mem_append_right _ last)

/-- A step passes over nothing exactly where it meets no hole. -/
theorem nonePassed_step (following : Following first f) (positive : 0 < first) :
    NonePassed first (feedStep maxBytes f l) ↔ NonePassed first f ∧ NoHole f l := by
  cases l with
  | prune before => exact (iff_of_eq (and_true _)).symm
  | append given ending =>
    obtain ⟨counter, there, bound⟩ := following.counter
    have after := @step_append maxBytes _ _ _ given ending there
    refine Iff.trans ?_ (iff_of_eq (and_true _)).symm
    constructor
    · intro passed
      refine passed.of_append (List.append_nil _).symm fun n here => ?_
      simp only [feedStep, after]
      split
      · exact List.mem_cons_of_mem _ here
      · exact here
    · intro passed before m later split n here above less
      have old : n ∈ f.audit.appended ∨ n = nextSeq counter f.audit.log := by
        simp only [feedStep, after] at here
        split at here
        · exact (List.mem_cons.mp here).symm
        · exact .inl here
      rcases old with old | rfl
      · exact passed before m later split n old above less
      · -- a new event is above all that were returned
        have returned : m ∈ f.returned := by
          change f.returned = _ at split
          rw [split]
          simp
        have := nextSeq_highest bound (following.known m returned)
        omega
  | read limit =>
    have still : f = feedStep maxBytes f (.read limit) → NoHole f (.read limit) →
        (NonePassed first (feedStep maxBytes f (.read limit)) ↔
          NonePassed first f ∧ NoHole f (.read limit)) := by
      intro same noHole
      rw [← same]
      exact (and_iff_left noHole).symm
    rcases readSince_cases f.cursor limit f.audit.log with
      ⟨⟨e, same⟩, bad⟩ | ⟨nothing, same⟩ | ⟨watermark, -, least, -, behind, same⟩ |
        ⟨-, cap, older, same⟩
    · refine still (by simp only [feedStep, same]) fun n _ _ _ _ few cap => ?_
      omega
    · refine still (by simp only [feedStep, same, List.append_nil]) fun n _ _ _ older => ?_
      obtain ⟨other, inside, -⟩ := older
      rw [nothing] at inside
      cases inside
    · refine still (by simp only [feedStep, same]) fun n _ _ _ older => ?_
      obtain ⟨other, inside, below⟩ := older
      have := least other inside
      omega
    · have since := following.since
      rw [← page_passed following cap (older (by omega))]
      simp only [feedStep, same]
      exact Iff.rfl

theorem nonePassed_run (following : Following first f) (positive : 0 < first) :
    NonePassed first (run (feedStep maxBytes) f labels) ↔
      NonePassed first f ∧ Along (feedStep maxBytes) NoHole f labels := by
  induction labels generalizing f with
  | nil => exact ⟨fun same => ⟨same, along_nil⟩, fun both => both.1⟩
  | cons l labels ih =>
    rw [run_cons, ih (following_step following), nonePassed_step following positive, along_cons,
      and_assoc]

/-- Nothing is passed over exactly in the runs whose reads meet no hole. -/
theorem none_passed_iff (maxBytes : Nat) {first : Nat} (positive : 0 < first)
    (labels : List FeedLabel) :
    NonePassed first (run (feedStep maxBytes) (feedStart first) labels) ↔
      Along (feedStep maxBytes) NoHole (feedStart first) labels := by
  rw [nonePassed_run following_start positive]
  refine and_iff_right ?_
  intro before m after split
  simp [feedStart] at split

/-- Two events, and a read. -/
def followedLabels : List FeedLabel :=
  [.append ⟨10, 100, true, false⟩ .whole, .append ⟨20, 100, true, false⟩ .whole, .read 500]

theorem none_passed_followed :
    NonePassed 1 (run (feedStep 5000000) (feedStart 1) followedLabels) ↔
      Along (feedStep 5000000) NoHole (feedStart 1) followedLabels :=
  none_passed_iff 5000000 (by decide) followedLabels

/-! ### A clock that goes back -/

/-- The second of three events has the earliest timestamp, and is pruned between two reads. -/
def holedLabels : List FeedLabel :=
  [.append ⟨10, 100, true, false⟩ .whole, .append ⟨5, 100, true, false⟩ .whole,
    .append ⟨10, 100, true, false⟩ .whole, .prune 7, .read 500]

theorem pruned_event_passed : ¬ ∀ (maxBytes first : Nat) (labels : List FeedLabel), 0 < first →
    NonePassed first (run (feedStep maxBytes) (feedStart first) labels) := by
  intro claim
  have passed := claim 5000000 1 holedLabels (by decide)
  have third : (run (feedStep 5000000) (feedStart 1) holedLabels).returned = [3] := by decide
  have second : 2 ∈ (run (feedStep 5000000) (feedStart 1) holedLabels).audit.appended := by decide
  have before := passed [] 3 [] third 2 second (by decide) (by decide)
  cases before

end RepoForge.Audit
