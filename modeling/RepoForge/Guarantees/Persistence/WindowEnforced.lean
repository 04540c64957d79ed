import Mathlib.Tactic.NormNum
import RepoForge.Spec.Persistence.LedgerSteps

/-!
# The sliding window of the ledger

Calls of all repositories take turns. What was admitted for a repository is still accounted for in
its file (`Accounted`), as far as a later call can look back: the file is pruned at the cutoff of
some call, and no later call has an earlier one. So every admission had room for all that its window
holds, which is what `SlidingWindow.Paced` asks.
-/
namespace RepoForge.Persistence.MutationLedger
open PyStr (lit)
open SlidingWindow

/-- A call, the ledger it found, what it returned or raised and the ledger it left. -/
structure Answered where
  call : Reservation
  found : Ledger
  outcome : Except Raised Int
  left : Ledger

def answer (call : Reservation) (ledger : Ledger) : Answered where
  call
  found := ledger
  outcome := (reserve call ledger).1
  left := (reserve call ledger).2

def answers : Ledger → List Reservation → List Answered
  | _, [] => []
  | ledger, call :: calls => answer call ledger :: answers (answer call ledger).left calls

def lastLedger (ledger : Ledger) (calls : List Reservation) : Ledger :=
  calls.foldl (fun ledger call => (answer call ledger).left) ledger

/-- It returned and its marker was new in the window. -/
def Answered.admits (a : Answered) : Bool := a.outcome.isOk && !repeats a.call a.found

def admissions (repoId : PyStr) (answered : List Answered) : List Reservation :=
  (answered.filter fun a => decide (a.call.repoId = repoId) && a.admits).map (·.call)

variable {repoId : PyStr} {ledger : Ledger} {call : Reservation} {calls : List Reservation}
  {a : Answered} {done : List Answered}

theorem answers_snoc :
    answers ledger (calls ++ [call]) =
      answers ledger calls ++ [answer call (lastLedger ledger calls)] := by
  induction calls generalizing ledger with
  | nil => rfl
  | cons first calls ih => simp [answers, lastLedger, ih]

theorem lastLedger_snoc :
    lastLedger ledger (calls ++ [call]) = (answer call (lastLedger ledger calls)).left := by
  simp [lastLedger]

theorem mem_answers (here : a ∈ answers ledger calls) :
    a.call ∈ calls ∧ ∃ found, a = answer a.call found := by
  induction calls generalizing ledger with
  | nil => cases here
  | cons first calls ih =>
    simp only [answers, List.mem_cons] at here
    rcases here with rfl | later
    · exact ⟨List.mem_cons_self .., ledger, rfl⟩
    · obtain ⟨listed, answered⟩ := ih later
      exact ⟨List.mem_cons_of_mem _ listed, answered⟩

theorem admissions_snoc :
    admissions repoId (done ++ [a]) = admissions repoId done ++ admissions repoId [a] := by
  simp [admissions]

theorem admissions_of_not (other : (decide (a.call.repoId = repoId) && a.admits) = false) :
    admissions repoId [a] = [] := by
  simp [admissions, List.filter_cons_of_neg, other]

theorem admissions_of_admits (own : a.call.repoId = repoId) (admits : a.admits = true) :
    admissions repoId [a] = [a.call] := by
  simp [admissions, own, admits]

theorem mem_admissions (here : call ∈ admissions repoId done) :
    ∃ a ∈ done, a.call = call ∧ call.repoId = repoId := by
  simp only [admissions, List.mem_map, List.mem_filter, Bool.and_eq_true, decide_eq_true_eq] at here
  obtain ⟨a, ⟨here, own, -⟩, rfl⟩ := here
  exact ⟨a, here, rfl, own⟩

/-- What was admitted is in the file, as far as any call can look that is no earlier than those
before it. -/
def Accounted (repoId : PyStr) (width : ℚ) (done : List Answered) (ledger : Ledger) : Prop :=
  admissions repoId done = [] ∨ ∃ file entries, ledger (identity repoId) = some file ∧
    readFile repoId file = .ok entries ∧
    ∀ start, (∀ a ∈ done, a.call.repoId = repoId → a.call.nowEpoch - width ≤ start) →
      ((since Reservation.nowEpoch start (admissions repoId done)).map Reservation.entry).Sublist
        (since LedgerEntry.reservedAtEpoch start entries)

theorem read_of_file {file : StoredFile} (here : ledger (identity repoId) = some file) :
    read ledger repoId = readFile repoId file := by
  rw [read, here]

theorem entries_since (start : ℚ) (reservations : List Reservation) :
    since LedgerEntry.reservedAtEpoch start (reservations.map Reservation.entry) =
      (since Reservation.nowEpoch start reservations).map Reservation.entry := by
  induction reservations with
  | nil => rfl
  | cons first rest ih =>
    by_cases kept : start ≤ first.nowEpoch <;>
      simp_all [since, Reservation.entry]

theorem inWindow_valid (readable : ∃ entries, read ledger call.repoId = .ok entries) :
    ∀ entry ∈ inWindow call ledger, entry.Valid := by
  obtain ⟨entries, readable⟩ := readable
  intro entry here
  have here := List.mem_of_mem_filter here
  rw [stored_of_read readable] at here
  exact (read_valid readable).1 entry here

theorem extended_valid (readable : ∃ entries, read ledger call.repoId = .ok entries)
    (valid : call.entry.Valid) : ∀ entry ∈ inWindow call ledger ++ [call.entry], entry.Valid := by
  intro entry here
  rcases List.mem_append.mp here with old | this
  · exact inWindow_valid readable entry old
  · rw [List.mem_singleton.mp this]
    exact valid

theorem inWindow_length (readable : ∃ entries, read ledger call.repoId = .ok entries) :
    (inWindow call ledger).length ≤ maxRecords := by
  obtain ⟨entries, readable⟩ := readable
  calc (inWindow call ledger).length ≤ (stored ledger call.repoId).length := List.length_filter_le ..
    _ = entries.length := by rw [stored_of_read readable]
    _ ≤ maxRecords := (read_valid readable).2

theorem Answered.reserved (here : a ∈ answers ledger calls) :
    Reserved a.call a.found a.outcome a.left := by
  obtain ⟨-, found, same⟩ := mem_answers here
  rw [same]
  exact reserve_reserved a.call found

/-- The call of another repository does not touch a file that can be read. -/
theorem other_file {file : StoredFile} {entries : List LedgerEntry}
    (step : Reserved a.call a.found a.outcome a.left) (here : a.found (identity repoId) = some file)
    (readable : readFile repoId file = .ok entries) (other : a.call.repoId ≠ repoId) :
    a.left (identity repoId) = some file := by
  have untouched {kept others : List LedgerEntry} (read : read a.found a.call.repoId = .ok others) :
      a.found.holding a.call.repoId kept (identity repoId) = some file := by
    have apart : identity repoId ≠ identity a.call.repoId := by
      intro same
      rw [read_of_file (same ▸ here)] at read
      exact other (readFile_owner read readable)
    rw [Ledger.holding, Function.update_of_ne apart, here]
  obtain ⟨call, found, outcome, left⟩ := a
  simp only at step
  cases step with
  | rejected => exact here
  | repeated => exact here
  | pruned _ read => exact untouched read
  | admitted _ read => exact untouched read

theorem admits_of_new {n : Int} (new : repeats a.call a.found = false) (ok : a.outcome = .ok n) :
    a.admits = true := by
  simp [Answered.admits, new, ok, Except.isOk, Except.toBool]

theorem not_admits_of_again (again : repeats a.call a.found = true) : a.admits = false := by
  simp [Answered.admits, again]

theorem not_admits_of_error {e : Raised} (error : a.outcome = .error e) : a.admits = false := by
  simp [Answered.admits, error, Except.isOk, Except.toBool]

/-- A step that admits nothing and, for its repository, at most prunes. -/
theorem Accounted.kept {width : ℚ} (h : Accounted repoId width done a.found)
    (nothing : admissions repoId [a] = [])
    (file : ∀ file entries, a.found (identity repoId) = some file →
      readFile repoId file = .ok entries → ∃ file' entries', a.left (identity repoId) = some file' ∧
        readFile repoId file' = .ok entries' ∧
        (entries' = entries ∨ a.call.repoId = repoId ∧ entries' =
          since LedgerEntry.reservedAtEpoch (a.call.nowEpoch - width) entries)) :
    Accounted repoId width (done ++ [a]) a.left := by
  rw [Accounted, admissions_snoc, nothing, List.append_nil]
  rcases h with none | ⟨before, entries, here, readable, accounted⟩
  · exact .inl none
  · obtain ⟨after, entries', there, readable', same⟩ := file before entries here readable
    apply Or.inr
    refine ⟨after, entries', there, readable', ?_⟩
    intro start late
    have earlier := accounted start fun b old => late b (by simp [old])
    rcases same with rfl | ⟨own, rfl⟩
    · exact earlier
    · rw [since_since (late a (by simp) own)]
      exact earlier

theorem Accounted.other {width : ℚ} (step : Reserved a.call a.found a.outcome a.left)
    (h : Accounted repoId width done a.found) (other : a.call.repoId ≠ repoId) :
    Accounted repoId width (done ++ [a]) a.left := by
  apply h.kept (admissions_of_not (by simp [other]))
  intro file entries here readable
  exact ⟨file, entries, other_file step here readable other, readable, .inl rfl⟩

theorem holding_file (ledger : Ledger) (repoId : PyStr) {entries : List LedgerEntry} (valid : ∀ entry ∈ entries, entry.Valid)
    (few : entries.length ≤ maxRecords) :
    ∃ file, (ledger.holding repoId entries) (identity repoId) = some file ∧
      readFile repoId file = .ok entries :=
  ⟨_, Function.update_self .., readFile_payload valid few⟩

theorem Accounted.own {width : ℚ} (step : Reserved a.call a.found a.outcome a.left)
    (h : Accounted a.call.repoId width done a.found) (fixed : (a.call.windowSeconds : ℚ) = width) :
    Accounted a.call.repoId width (done ++ [a]) a.left := by
  obtain ⟨call, found, outcome, left⟩ := a
  simp only at step fixed h ⊢
  have cutoff : call.nowEpoch - width = call.cutoff := by rw [Reservation.cutoff, fixed]
  cases step with
  | rejected e =>
    apply h.kept (admissions_of_not (by simp [not_admits_of_error]))
    intro file entries here readable
    exact ⟨file, entries, here, readable, .inl rfl⟩
  | repeated again =>
    apply h.kept (admissions_of_not (by simp [not_admits_of_again, again]))
    intro file entries here readable
    exact ⟨file, entries, here, readable, .inl rfl⟩
  | pruned again readable =>
    apply h.kept (admissions_of_not (by simp [not_admits_of_again, again]))
    intro file entries here readable'
    have stands : inWindow call found =
        since LedgerEntry.reservedAtEpoch (call.nowEpoch - width) entries := by
      rw [inWindow, stored_of_read ((read_of_file here).trans readable'), cutoff]
    obtain ⟨after, there, whole⟩ := holding_file found call.repoId (inWindow_valid ⟨_, readable⟩)
      (inWindow_length ⟨_, readable⟩)
    exact ⟨after, _, there, whole, .inr ⟨rfl, stands⟩⟩
  | admitted new readable valid room positive few =>
    have all := extended_valid ⟨_, readable⟩ valid
    obtain ⟨after, there, whole⟩ := holding_file found call.repoId all few
    apply Or.inr
    refine ⟨after, _, there, whole, ?_⟩
    intro start late
    have here : call.cutoff ≤ start :=
      cutoff ▸ late _ (List.mem_append_right _ (List.mem_singleton_self _)) rfl
    have counts : admissions call.repoId [Answered.mk call found
        (.ok (total LedgerEntry.count (inWindow call found) + call.count))
        (found.holding call.repoId (inWindow call found ++ [call.entry]))] = [call] :=
      admissions_of_admits rfl (admits_of_new new rfl)
    rw [admissions_snoc, counts, since_append, since_append, List.map_append, inWindow,
      since_since here, ← entries_since start [call]]
    apply List.Sublist.append _ (List.Sublist.refl _)
    rcases h with none | ⟨file, entries, file_here, readable', accounted⟩
    · simp [none, since]
    · rw [stored_of_read ((read_of_file file_here).trans readable')]
      exact accounted start fun b old => late b (by simp [old])

/-- Whether the calls of a repository agree on the window, and come in order. -/
structure Steady (repoId : PyStr) (maxInWindow windowSeconds : Int) (calls : List Reservation) :
    Prop where
  same : ∀ call ∈ calls, call.repoId = repoId →
    call.maxInWindow = maxInWindow ∧ call.windowSeconds = windowSeconds
  ordered : (calls.filter fun call => decide (call.repoId = repoId)).Pairwise
    fun first later => first.nowEpoch ≤ later.nowEpoch

variable {maxInWindow windowSeconds : Int}

theorem Steady.start {more : List Reservation}
    (h : Steady repoId maxInWindow windowSeconds (calls ++ more)) :
    Steady repoId maxInWindow windowSeconds calls := by
  obtain ⟨same, ordered⟩ := h
  rw [List.filter_append, List.pairwise_append] at ordered
  constructor
  · intro call here
    exact same call (by simp [here])
  · exact ordered.1

theorem Steady.last (h : Steady repoId maxInWindow windowSeconds (calls ++ [call]))
    (own : call.repoId = repoId) {earlier : Reservation} (here : earlier ∈ calls)
    (own' : earlier.repoId = repoId) : earlier.nowEpoch ≤ call.nowEpoch := by
  have ordered := h.ordered
  rw [List.filter_append, List.pairwise_append] at ordered
  exact ordered.2.2 earlier (by simp [here, own']) call (by simp [own])

theorem lastLedger_accounted (h : Steady repoId maxInWindow windowSeconds calls) :
    Accounted repoId windowSeconds (answers ledger calls) (lastLedger ledger calls) := by
  induction calls using List.reverseRecOn with
  | nil => exact .inl rfl
  | append_singleton calls call ih =>
    have before := ih h.start
    have step : Reserved (answer call (lastLedger ledger calls)).call
        (answer call (lastLedger ledger calls)).found (answer call (lastLedger ledger calls)).outcome
        (answer call (lastLedger ledger calls)).left := reserve_reserved _ _
    rw [answers_snoc, lastLedger_snoc]
    by_cases own : call.repoId = repoId
    · have fixed := (h.same call (by simp) own).2
      subst own
      exact Accounted.own step before (congrArg Int.cast fixed)
    · exact Accounted.other step before own

/-- What the window of a call holds is at least what was admitted in it. -/
theorem admitted_le_inWindow {width : ℚ} (h : Accounted call.repoId width done ledger)
    (fixed : (call.windowSeconds : ℚ) = width)
    (latest : ∀ a ∈ done, a.call.repoId = call.repoId → a.call.nowEpoch ≤ call.nowEpoch) :
    ((since Reservation.nowEpoch call.cutoff (admissions call.repoId done)).map
      Reservation.entry).Sublist (inWindow call ledger) := by
  rcases h with none | ⟨file, entries, here, readable, accounted⟩
  · simp [none, since]
  · rw [inWindow, stored_of_read ((read_of_file here).trans readable)]
    apply accounted
    intro a old own
    rw [Reservation.cutoff, fixed]
    exact sub_le_sub_right (latest a old own) width

theorem count_entries (reservations : List Reservation) :
    total LedgerEntry.count (reservations.map Reservation.entry) =
      total Reservation.count reservations := by
  rw [total, total, List.map_map]
  rfl

/-- What an admission rests on. -/
theorem Answered.admits_room (step : Reserved a.call a.found a.outcome a.left)
    (admits : a.admits = true) :
    (∃ entries, read a.found a.call.repoId = .ok entries) ∧ 0 < a.call.count ∧
      total LedgerEntry.count (inWindow a.call a.found) + a.call.count ≤ a.call.maxInWindow ∧
      stored a.left a.call.repoId = inWindow a.call a.found ++ [a.call.entry] := by
  obtain ⟨call, found, outcome, left⟩ := a
  simp only at step
  cases step with
  | rejected e =>
    rw [not_admits_of_error rfl] at admits
    cases admits
  | repeated again =>
    rw [not_admits_of_again again] at admits
    cases admits
  | pruned again =>
    rw [not_admits_of_again again] at admits
    cases admits
  | admitted new readable valid room positive few =>
    have all := extended_valid ⟨_, readable⟩ valid
    exact ⟨⟨_, readable⟩, valid.positive, room, stored_of_read (read_holding all few)⟩

theorem admitted_positive (here : call ∈ admissions repoId (answers ledger calls)) :
    0 < call.count := by
  simp only [admissions, List.mem_map, List.mem_filter, Bool.and_eq_true, decide_eq_true_eq] at here
  obtain ⟨a, ⟨here, -, admits⟩, rfl⟩ := here
  exact (Answered.admits_room (Answered.reserved here) admits).2.1

/-- Every admission has room for all that its window holds. -/
theorem admissions_paced (h : Steady repoId maxInWindow windowSeconds calls) :
    Paced Reservation.nowEpoch Reservation.count (windowSeconds : ℚ) (max maxInWindow 0)
      (admissions repoId (answers ledger calls)) := by
  induction calls using List.reverseRecOn with
  | nil => exact .nil
  | append_singleton calls call ih =>
    have before := ih h.start
    have step : Reserved (answer call (lastLedger ledger calls)).call
        (answer call (lastLedger ledger calls)).found (answer call (lastLedger ledger calls)).outcome
        (answer call (lastLedger ledger calls)).left := reserve_reserved _ _
    rw [answers_snoc, admissions_snoc]
    by_cases new : (decide (call.repoId = repoId) &&
        (answer call (lastLedger ledger calls)).admits) = true
    · obtain ⟨own, admits⟩ : call.repoId = repoId ∧ _ := by simpa using new
      subst own
      obtain ⟨limit, width⟩ := h.same call (by simp) rfl
      obtain ⟨readable, -, room, -⟩ := Answered.admits_room step admits
      have counts : admissions call.repoId [answer call (lastLedger ledger calls)] = [call] :=
        admissions_of_admits rfl admits
      have earlier {y : Reservation} (here : y ∈ admissions call.repoId (answers ledger calls)) :
          y.nowEpoch ≤ call.nowEpoch := by
        obtain ⟨a, there, rfl, own⟩ := mem_admissions here
        exact h.last rfl (mem_answers there).1 own
      have sub : ((since Reservation.nowEpoch call.cutoff (admissions call.repoId
          (answers ledger calls))).map Reservation.entry).Sublist
          (inWindow call (lastLedger ledger calls)) := by
        apply admitted_le_inWindow (lastLedger_accounted h.start) (congrArg Int.cast width)
        intro a there own
        exact h.last rfl (mem_answers there).1 own
      rw [counts]
      apply Paced.snoc before
      · intro y here
        exact earlier here
      · have nonneg : ∀ entry ∈ inWindow call (lastLedger ledger calls), 0 ≤ entry.count :=
          fun entry here => (inWindow_valid readable entry here).positive.le
        calc total Reservation.count (since Reservation.nowEpoch (call.nowEpoch - windowSeconds)
                (admissions call.repoId (answers ledger calls))) + call.count
            = total LedgerEntry.count ((since Reservation.nowEpoch call.cutoff
                (admissions call.repoId (answers ledger calls))).map Reservation.entry) +
                call.count := by rw [count_entries, Reservation.cutoff, width]
          _ ≤ total LedgerEntry.count (inWindow call (lastLedger ledger calls)) + call.count :=
              add_le_add (total_le_of_sublist nonneg sub) le_rfl
          _ ≤ call.maxInWindow := room
          _ ≤ max maxInWindow 0 := by rw [limit]; exact le_max_left ..
    · rw [admissions_of_not (Bool.eq_false_iff.mpr new), List.append_nil]
      exact before

/-- What was admitted in the window of a call, and its marker with it, is still there. -/
theorem repeats_of_admitted {before after : List Answered}
    (h : Steady repoId maxInWindow windowSeconds calls)
    (split : answers ledger calls = before ++ a :: after) (own : a.call.repoId = repoId)
    {earlier : Reservation} (here : earlier ∈ admissions repoId before)
    (marker : earlier.marker = a.call.marker) (fresh : a.call.cutoff ≤ earlier.nowEpoch) :
    repeats a.call a.found = true := by
  induction calls using List.reverseRecOn generalizing after with
  | nil => simp [answers] at split
  | append_singleton calls call ih =>
    rw [answers_snoc] at split
    rcases List.eq_nil_or_concat after with rfl | ⟨middle, last, rfl⟩
    · obtain ⟨same, this⟩ := List.append_inj' split rfl
      cases this
      subst own
      have latest : ∀ b ∈ before, b.call.repoId = call.repoId → b.call.nowEpoch ≤ call.nowEpoch := by
        intro b there own
        exact h.last rfl (mem_answers (same ▸ there)).1 own
      have sub := admitted_le_inWindow (same ▸ lastLedger_accounted h.start)
        (congrArg Int.cast (h.same call (by simp) rfl).2) latest
      have kept : earlier ∈ since Reservation.nowEpoch call.cutoff (admissions call.repoId before) :=
        List.mem_filter.mpr ⟨here, decide_eq_true fresh⟩
      exact List.any_eq_true.mpr
        ⟨earlier.entry, sub.subset (List.mem_map_of_mem kept), decide_eq_true marker⟩
    · have prefix_eq : answers ledger calls = before ++ a :: middle := by
        have := (List.append_inj' (split.trans (by simp : before ++ a :: (middle.concat last) =
          (before ++ a :: middle) ++ [last])) rfl).1
        exact this
      exact ih h.start prefix_eq

/-- A repeated marker adds nothing to what is stored, and takes nothing out of the window. -/
theorem stored_of_repeats (step : Reserved a.call a.found a.outcome a.left)
    (again : repeats a.call a.found = true) :
    (stored a.left a.call.repoId).Sublist (stored a.found a.call.repoId) ∧
      inWindow a.call a.left = inWindow a.call a.found ∧
      ∀ n, a.outcome = .ok n → n = total LedgerEntry.count (inWindow a.call a.found) := by
  obtain ⟨call, found, outcome, left⟩ := a
  simp only at step again ⊢
  cases step with
  | rejected e => exact ⟨List.Sublist.refl _, rfl, by simp⟩
  | repeated => exact ⟨List.Sublist.refl _, rfl, fun n returned => by cases returned; rfl⟩
  | pruned _ readable =>
    have left : stored (found.holding call.repoId (inWindow call found)) call.repoId =
        inWindow call found :=
      stored_of_read (read_holding (inWindow_valid ⟨_, readable⟩) (inWindow_length ⟨_, readable⟩))
    refine ⟨?_, ?_, fun n returned => by cases returned; rfl⟩
    · rw [left]
      exact List.filter_sublist
    · rw [inWindow, left, inWindow, since_since le_rfl]
  | admitted new =>
    rw [new] at again
    cases again

theorem left_of_error (step : Reserved a.call a.found a.outcome a.left) {e : Raised}
    (raised : a.outcome = .error e) : a.left = a.found := by
  obtain ⟨call, found, outcome, left⟩ := a
  simp only at step raised ⊢
  subst raised
  cases step
  rfl

/-- Whatever the ledger holds at first: no window of the repository admits more than the limit; a
marker that was admitted in the window of a call, or is stored in it, reserves nothing more; what is
admitted is one new entry; and a call that raises leaves every file as it was. -/
theorem window_enforced (repoId : PyStr) (maxInWindow windowSeconds : Int) (ledger : Ledger)
    (calls : List Reservation) (steady : Steady repoId maxInWindow windowSeconds calls) :
    (∀ stop : ℚ, total Reservation.count (within Reservation.nowEpoch (stop - windowSeconds) stop
      (admissions repoId (answers ledger calls))) ≤ max maxInWindow 0) ∧
    (∀ before a after, answers ledger calls = before ++ a :: after → a.call.repoId = repoId →
      ∀ earlier ∈ admissions repoId before, earlier.marker = a.call.marker →
        a.call.cutoff ≤ earlier.nowEpoch → repeats a.call a.found = true) ∧
    (∀ a ∈ answers ledger calls, repeats a.call a.found = true →
      a.admits = false ∧
      (stored a.left a.call.repoId).Sublist (stored a.found a.call.repoId) ∧
      inWindow a.call a.left = inWindow a.call a.found ∧
      ∀ n, a.outcome = .ok n → n = total LedgerEntry.count (inWindow a.call a.found)) ∧
    (∀ a ∈ answers ledger calls, a.admits = true →
      stored a.left a.call.repoId = inWindow a.call a.found ++ [a.call.entry]) ∧
    ∀ a ∈ answers ledger calls, ∀ e, a.outcome = .error e → a.left = a.found := by
  refine ⟨?_, ?_, ?_, ?_, ?_⟩
  · intro stop
    exact (admissions_paced steady).total_within_le (le_max_right ..)
      (fun call here => (admitted_positive here).le) stop
  · intro before a after split own earlier here marker fresh
    exact repeats_of_admitted steady split own here marker fresh
  · intro a here again
    exact ⟨not_admits_of_again again, stored_of_repeats (Answered.reserved here) again⟩
  · intro a here admits
    exact (Answered.admits_room (Answered.reserved here) admits).2.2.2
  · intro a here e raised
    exact left_of_error (Answered.reserved here) raised

def demo : PyStr := lit "demo"

/-- The second call repeats the marker of the first. -/
def sampleReservations : List Reservation := [
  ⟨demo, lit "open-issue", 2, 0, 3, 60⟩,
  ⟨demo, lit "open-issue", 2, 30, 3, 60⟩,
  ⟨demo, lit "comment", 2, 61, 3, 60⟩]

theorem sampleReservations_steady : Steady demo 3 60 sampleReservations := by
  constructor
  · decide
  · norm_num [sampleReservations]

theorem window_enforced_sample : Steady demo 3 60 sampleReservations ∧
    ∀ stop : ℚ, total Reservation.count (within Reservation.nowEpoch (stop - (60 : Int)) stop
      (admissions demo (answers (fun _ => none) sampleReservations))) ≤ max 3 0 :=
  ⟨sampleReservations_steady,
    (window_enforced demo 3 60 (fun _ => none) sampleReservations sampleReservations_steady).1⟩

end RepoForge.Persistence.MutationLedger
