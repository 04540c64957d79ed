import RepoForge.Library.Runs
import RepoForge.Source.Audit.AuditLog

/-!
# The numbers of the audit log

A number repeats, or is smaller than one before, exactly where a sink appends whose own counter is
behind and which does not find the newest event in the tail of the log: it was pruned or rotated
away, or its line is torn, broken or too long.
-/
namespace RepoForge.Audit

open Runs

/-- The highest number appended so far. -/
def highest (s : AuditState) : Nat := s.appended.foldr max 0

/-- The last readable event in the tail of the log has this number. -/
def LastInTail (n : Nat) (log : Log) : Prop :=
  ∃ newer line older event, log.tail seqRecoveryTailBytes = newer ++ line :: older ∧
    line.event = some event ∧ event.seq = n ∧ ∀ other ∈ newer, other.event = none

/-- A sink that appends has reached the highest number itself, or finds it in the log. -/
def NewestKnown (s : AuditState) : AuditLabel → Prop
  | .append k _ ending => ending.appends = true → ∀ counter, s.sinks k = some counter →
      highest s ≤ counter ∨ LastInTail (highest s) s.log
  | _ => True

/-- Every event in the log was appended. -/
def Recorded (s : AuditState) : Prop :=
  ∀ line ∈ s.log.lines, ∀ event, line.event = some event → event.seq ∈ s.appended

variable {maxBytes : Nat} {s : AuditState} {log : Log} {l : AuditLabel} {labels : List AuditLabel}

theorem highest_lt {m : Nat} (positive : 0 < m) : highest s < m ↔ ∀ n ∈ s.appended, n < m := by
  unfold highest
  induction s.appended with
  | nil => simpa using positive
  | cons n rest ih => simp only [List.foldr_cons, Nat.max_lt, ih, List.forall_mem_cons]

/-! ### The lines of the log -/

theorem tailOf_subset {budget : Nat} {lines : List Line} {line : Line}
    (here : line ∈ Log.tailOf budget lines) : line ∈ lines := by
  induction lines generalizing budget with
  | nil => cases here
  | cons first older ih =>
    unfold Log.tailOf at here
    split at here
    · cases here
    · rcases List.mem_cons.mp here with rfl | here
      · exact List.mem_cons_self
      · exact List.mem_cons_of_mem _ (ih here)

theorem mem_write {line other : Line} {unfinished : Bool}
    (here : other ∈ (log.write line unfinished).lines) :
    other.event = none ∨ other = line ∨ other ∈ log.lines := by
  unfold Log.write at here
  split at here
  · rename_i torn older _ same
    rw [same]
    rcases List.mem_cons.mp here with rfl | here
    · exact .inl rfl
    · exact .inr (.inr (List.mem_cons_of_mem _ here))
  · rcases List.mem_cons.mp here with rfl | here
    · exact .inr (.inl rfl)
    · exact .inr (.inr here)

theorem mem_rotate {incoming : Nat} {line : Line} (here : line ∈ (rotate maxBytes incoming log).lines) :
    line ∈ log.lines := by
  unfold rotate at here
  split at here
  · exact here
  · cases here

/-- What an append leaves in the log. -/
theorem mem_appendEvent {seq : Nat} {given : Appending} {ending : Ending} {line : Line}
    {event : AuditEvent} (found : line.event = some event)
    (here : line ∈ (appendEvent maxBytes seq given ending log).lines) :
    line ∈ log.lines ∨ ending.appends = true ∧ event = ⟨seq, given.timestamp⟩ := by
  have written : ∀ part unfinished,
      line ∈ ((rotate maxBytes (given.size + 1) log).write part unfinished).lines →
        line ∈ log.lines ∨ line = part := by
    intro part unfinished there
    rcases mem_write there with none | same | old
    · rw [found] at none
      cases none
    · exact .inr same
    · exact .inl (mem_rotate old)
  have own : line = lineOf seq given → event = ⟨seq, given.timestamp⟩ := by
    rintro rfl
    unfold lineOf at found
    dsimp only at found
    split_ifs at found
    cases found
    rfl
  cases ending with
  | kept => exact .inl here
  | moved => exact .inl (mem_rotate here)
  | torn size stray =>
    refine (written _ _ here).imp id fun same => ?_
    rw [same] at found
    cases found
  | unterminated => exact (written _ _ here).imp id fun same => ⟨rfl, own same⟩
  | whole => exact (written _ _ here).imp id fun same => ⟨rfl, own same⟩

theorem mem_prune {before : Int} {line : Line} (here : line ∈ (prune before log).lines) :
    line ∈ log.lines := by
  unfold prune at here
  split at here
  · exact here
  · exact List.mem_of_mem_filter here

theorem step_append_closed {k : Nat} {given : Appending} {ending : Ending}
    (closed : s.sinks k = none) : step maxBytes s (.append k given ending) = s := by
  simp only [step, closed]

theorem step_append {k counter : Nat} {given : Appending} {ending : Ending}
    (there : s.sinks k = some counter) : step maxBytes s (.append k given ending) =
      { log := appendEvent maxBytes (nextSeq counter s.log) given ending s.log
        sinks := Function.update s.sinks k (some (nextSeq counter s.log))
        appended := if ending.appends then nextSeq counter s.log :: s.appended else s.appended } := by
  simp only [step, there]

theorem recorded_step (recorded : Recorded s) : Recorded (step maxBytes s l) := by
  cases l with
  | opened k found => exact recorded
  | closed k => exact recorded
  | prune before =>
    intro line here event found
    exact recorded line (mem_prune here) event found
  | append k given ending =>
    cases there : s.sinks k with
    | none =>
      rw [step_append_closed there]
      exact recorded
    | some counter =>
      rw [step_append there]
      intro line here event found
      dsimp only at here ⊢
      rcases mem_appendEvent found here with old | ⟨appends, rfl⟩
      · have before := recorded line old event found
        split
        · exact List.mem_cons_of_mem _ before
        · exact before
      · rw [if_pos appends]
        exact List.mem_cons_self

/-! ### The next number -/

theorem recover_eq_iff {n : Nat} (positive : 0 < n) :
    recoverLastSeq log = n ↔ LastInTail n log := by
  unfold recoverLastSeq
  constructor
  · intro same
    rcases found : (log.tail seqRecoveryTailBytes).findSome? Line.event with _ | event
    · rw [found] at same
      simp only [Option.map_none, Option.getD_none] at same
      omega
    · rw [found] at same
      obtain ⟨newer, line, older, split, here, others⟩ := List.findSome?_eq_some_iff.mp found
      exact ⟨newer, line, older, event, split, here, same, others⟩
  · rintro ⟨newer, line, older, event, split, here, same, others⟩
    have found : (log.tail seqRecoveryTailBytes).findSome? Line.event = some event :=
      List.findSome?_eq_some_iff.mpr ⟨newer, line, older, split, here, others⟩
    rw [found]
    exact same

theorem recover_le (recorded : Recorded s) : recoverLastSeq s.log ≤ highest s := by
  unfold recoverLastSeq
  rcases found : (s.log.tail seqRecoveryTailBytes).findSome? Line.event with _ | event
  · exact Nat.zero_le _
  · obtain ⟨newer, line, older, split, here, -⟩ := List.findSome?_eq_some_iff.mp found
    have inside : line ∈ s.log.tail seqRecoveryTailBytes := by
      rw [split]
      simp
    have member := recorded line (tailOf_subset inside) event here
    change event.seq ≤ highest s
    by_contra above
    exact Nat.lt_irrefl _ ((highest_lt (by omega)).mp (Nat.lt_of_not_le above) event.seq member)

theorem nextSeq_above (recorded : Recorded s) {counter : Nat} :
    (∀ n ∈ s.appended, n < nextSeq counter s.log) ↔
      highest s ≤ counter ∨ LastInTail (highest s) s.log := by
  have bound := recover_le recorded
  rw [← highest_lt (by unfold nextSeq; omega), nextSeq]
  rcases Nat.eq_zero_or_pos (highest s) with none | positive
  · simp only [none, Nat.zero_le, true_or, iff_true]
    omega
  · rw [← recover_eq_iff positive]
    omega

/-- An append keeps the numbers increasing exactly where the newest is known. -/
theorem increasing_step (recorded : Recorded s) :
    (step maxBytes s l).appended.Pairwise (· > ·) ↔
      s.appended.Pairwise (· > ·) ∧ NewestKnown s l := by
  cases l with
  | opened k found => exact (iff_of_eq (and_true _)).symm
  | closed k => exact (iff_of_eq (and_true _)).symm
  | prune before => exact (iff_of_eq (and_true _)).symm
  | append k given ending =>
    cases there : s.sinks k with
    | none => simp [step_append_closed there, NewestKnown, there]
    | some counter =>
      rw [step_append there, NewestKnown]
      cases appends : ending.appends with
      | false => simp
      | true =>
        simp only [if_true, List.pairwise_cons, forall_true_left, gt_iff_lt, there,
          Option.some.injEq, forall_eq']
        rw [nextSeq_above recorded, and_comm]

theorem increasing_run (recorded : Recorded s) :
    (run (step maxBytes) s labels).appended.Pairwise (· > ·) ↔
      s.appended.Pairwise (· > ·) ∧ Along (step maxBytes) NewestKnown s labels := by
  induction labels generalizing s with
  | nil => exact ⟨fun same => ⟨same, along_nil⟩, fun both => both.1⟩
  | cons l labels ih =>
    rw [run_cons, ih (recorded_step recorded), increasing_step recorded, along_cons, and_assoc]

/-- The numbers, the newest first, decrease exactly in the runs whose sinks all know the newest. -/
theorem numbers_increase_iff (maxBytes : Nat) (labels : List AuditLabel) :
    (run (step maxBytes) start labels).appended.Pairwise (· > ·) ↔
      Along (step maxBytes) NewestKnown start labels := by
  rw [increasing_run (by rintro _ ⟨⟩)]
  exact and_iff_right List.Pairwise.nil

/-! ### A number that repeats -/

def sampleAppending : Appending := ⟨0, 100, true, false⟩

/-- One sink appends, the log is pruned, and another sink appends. -/
def prunedLabels : List AuditLabel :=
  [.opened 1 true, .append 1 sampleAppending .whole, .prune 1, .opened 2 true,
    .append 2 sampleAppending .whole]

theorem number_repeats : ¬ ∀ (maxBytes : Nat) (labels : List AuditLabel),
    (run (step maxBytes) start labels).appended.Pairwise (· > ·) := by
  intro claim
  exact absurd (claim 5000000 prunedLabels) (by decide)

end RepoForge.Audit
