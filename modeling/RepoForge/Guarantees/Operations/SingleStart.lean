import Mathlib.Data.List.Pairwise
import RepoForge.Spec.Operations.Tasks

/-!
# At most one start

The start of a child is saved for at most one owner and attempt of a work item, and a
started item is never claimed again (`started_once`). Workers, monitors, recovery, repair
and cancellation run in any order, and any of their saves may find that another came first.

The invariant is `Started`: once a start is saved, the item that stands in the queue, if it
still stands there, is started, claimed, and owned by the one that started it. No command
leads out of such an item but deletion.
-/
namespace RepoForge

open CompareAndSave

abbrev WorkSave := Save Text WorkCommand OperationWorkItem

/-- The owner and attempt whose start this save records. -/
def WorkSave.starts (x : WorkSave) : Option (Text × Nat) :=
  match x.command with
  | .markStarted ownerId attempt _ => some (ownerId, attempt)
  | .claim _ _ _ | .renew _ _ _ | .requeue _ => none

def WorkSave.claims (x : WorkSave) : Bool :=
  match x.command with
  | .claim _ _ _ => true
  | .markStarted _ _ _ | .renew _ _ _ | .requeue _ => false

/-- The item is started by this owner in this attempt. -/
structure OperationWorkItem.StartedBy (item : OperationWorkItem) (pair : Text × Nat) : Prop where
  started : item.childStarted = true
  claimed : item.state = .claimed
  owner : item.ownerId = some pair.1
  attempt : item.attempt = pair.2

/-- A command that applies to a started item neither claims it nor starts it for another, and
leaves it started by the same. -/
theorem startedBy_apply {command : WorkCommand} {item next : OperationWorkItem} {pair : Text × Nat}
    (h : item.StartedBy pair) (ok : command.apply item = .ok next) :
    next.StartedBy pair ∧ (∀ ownerId lease now, command ≠ .claim ownerId lease now) ∧
      ∀ ownerId attempt now, command = .markStarted ownerId attempt now →
        (ownerId, attempt) = pair := by
  cases command with
  | claim ownerId lease now =>
    obtain ⟨queued, -⟩ := claim_ok ok
    rw [h.claimed] at queued
    cases queued
  | renew ownerId lease now =>
    obtain ⟨-, -, rfl⟩ := renew_ok ok
    refine ⟨⟨h.started, h.claimed, h.owner, h.attempt⟩, ?_, ?_⟩ <;> intros <;> simp_all
  | markStarted ownerId attempt now =>
    obtain ⟨⟨-, owner, same⟩, ⟨-, rfl⟩ | ⟨unstarted, -⟩⟩ := markStarted_ok ok
    · refine ⟨h, by intros; simp, ?_⟩
      rintro _ _ _ ⟨rfl, rfl, rfl⟩
      have name : ownerId = pair.1 := Option.some.inj (owner.symm.trans h.owner)
      exact Prod.ext name (same.symm.trans h.attempt)
    · rw [h.started] at unstarted
      cases unstarted
  | requeue now =>
    obtain ⟨unstarted, -⟩ := requeue_ok ok
    rw [h.started] at unstarted
    cases unstarted

/-- A saved start leaves the item started by the one it names. -/
theorem startedBy_of_mark {item next : OperationWorkItem} {ownerId : Text} {attempt : Nat}
    {now : Timestamp} (ok : markWorkChildStarted item ownerId attempt now = .ok next) :
    next.StartedBy (ownerId, attempt) := by
  obtain ⟨⟨claimed, owner, same⟩, ⟨started, rfl⟩ | ⟨-, rfl⟩⟩ := markStarted_ok ok
  · exact ⟨started, claimed, owner, same⟩
  · exact ⟨rfl, claimed, owner, same⟩

/-- What a later save of the same item may be, after an earlier one. -/
def Respects (later earlier : WorkSave) : Prop :=
  later.key = earlier.key → ∀ pair, earlier.starts = some pair →
    later.claims = false ∧ later.before.StartedBy pair ∧
      ∀ other, later.starts = some other → other = pair

structure Started (s : System) : Prop where
  linked : LinkedQueue s.queue
  standing : ∀ x ∈ s.queue.saved, ∀ pair, WorkSave.starts x = some pair →
    ∀ e, s.queue.records x.key = some e → e.value.StartedBy pair
  ordered : s.queue.saved.Pairwise Respects

theorem Started.step {s : System} (h : Started s) (l : Label) : Started (s.step l) := by
  have linked := System.step_linked h.linked l
  rcases System.step_effect h.linked l with ⟨records, saved⟩ |
    ⟨k, command, e, next, found, ok, records, saved⟩ | ⟨k, records, saved⟩
  · refine ⟨linked, ?_, ?_⟩
    · rw [records, saved]
      exact h.standing
    · rw [saved]
      exact h.ordered
  · -- a command is applied to the item that stands in the queue
    refine ⟨linked, ?_, ?_⟩
    · rw [records, saved]
      intro x member pair starts e' found'
      by_cases same : x.key = k
      · rw [same, Function.update_self, Option.some.injEq] at found'
        subst found'
        rcases List.mem_cons.mp member with rfl | older
        · cases command with
          | markStarted ownerId attempt now =>
            cases starts
            exact startedBy_of_mark ok
          | claim ownerId lease now => cases starts
          | renew ownerId lease now => cases starts
          | requeue now => cases starts
        · exact (startedBy_apply (h.standing x older pair starts e (same ▸ found)) ok).1
      · rw [Function.update_of_ne same] at found'
        rcases List.mem_cons.mp member with rfl | older
        · exact absurd rfl same
        · exact h.standing x older pair starts e' found'
    · rw [saved]
      refine List.pairwise_cons.mpr ⟨fun earlier member same pair starts => ?_, h.ordered⟩
      have before := h.standing earlier member pair starts e (by rw [← same]; exact found)
      obtain ⟨-, unclaimed, sameStart⟩ := startedBy_apply before ok
      refine ⟨?_, before, ?_⟩
      · cases command with
        | claim ownerId lease now => exact absurd rfl (unclaimed ownerId lease now)
        | renew ownerId lease now => rfl
        | markStarted ownerId attempt now => rfl
        | requeue now => rfl
      · intro other starts'
        cases command with
        | markStarted ownerId attempt now =>
          cases starts'
          exact sameStart ownerId attempt now rfl
        | claim ownerId lease now => cases starts'
        | renew ownerId lease now => cases starts'
        | requeue now => cases starts'
  · refine ⟨linked, ?_, ?_⟩
    · rw [records, saved]
      intro x member pair starts e found
      by_cases same : x.key = k
      · rw [same, Function.update_self] at found
        cases found
      · rw [Function.update_of_ne same] at found
        exact h.standing x member pair starts e found
    · rw [saved]
      exact h.ordered

/-- Two saves of one item that record starts record the same one. -/
def SameStart (x y : WorkSave) : Prop :=
  x.key = y.key → ∀ pair other, x.starts = some pair → y.starts = some other → pair = other

instance : Std.Symm SameStart where
  symm _ _ h same pair other startX startY := (h same.symm other pair startY startX).symm

theorem same_start {saved : List WorkSave} (ordered : saved.Pairwise Respects) :
    ∀ x ∈ saved, ∀ y ∈ saved, SameStart x y := by
  intro x hx y hy
  refine List.Pairwise.forall_of_forall ?_ (ordered.imp ?_) hx hy
  · intro x _ _ pair other startX startY
    exact Option.some.inj (startX.symm.trans startY)
  · intro later earlier respects same pair other startLater startEarlier
    exact (respects same other startEarlier).2.2 pair startLater

/-- In every run, all saved starts of an item name the same owner and attempt; and of any two
saves of one item of which the earlier records a start, the later is no claim and finds the
item already started by that owner in that attempt. -/
theorem started_once (requests : List (Text × OperationWorkRequest × Timestamp))
    (labels : List Label) :
    (∀ x ∈ ((System.start requests).run labels).queue.saved,
      ∀ y ∈ ((System.start requests).run labels).queue.saved, SameStart x y) ∧
    ((System.start requests).run labels).queue.saved.Pairwise Respects := by
  have fresh := System.start_fresh requests
  have initial : Started (System.start requests) := by
    refine ⟨linked_idle fresh.calls, ?_, ?_⟩
    · rw [fresh.saved]
      simp
    · rw [fresh.saved]
      exact List.Pairwise.nil
  have started := System.run_induction (I := Started) (fun _ l h => h.step l) labels _ initial
  exact ⟨same_start started.ordered, started.ordered⟩

end RepoForge

/-!
# Stale workers

The clean-up of `run_once` deletes the work item and the result by operation id, whoever
owns them by then. A worker whose item was requeued and claimed again in the meantime takes
both away from the new owner (`stale_worker_discards_current`). It does no harm in a run in
which no requeue is saved for an item that a worker is still at work on
(`stale_worker_harmless`).
-/
namespace RepoForge

open CompareAndSave

/-- The item stands under this claim. -/
def Claim.Holds (c : Claim) (item : OperationWorkItem) : Prop :=
  item.ownerId = some c.ownerId ∧ item.attempt = c.attempt

/-- The claim of the worker that deletes the work item in this step. -/
def Label.discards (s : System) : Label → Option Claim
  | .operationMissing w => match s.workers w with
    | .starting c => some c
    | _ => none
  | .cleanedUp w => match s.workers w with
    | .cleaning c => some c
    | _ => none
  | _ => none

/-- The claim of the worker that deletes the result in this step. -/
def Label.drops (s : System) : Label → Option Claim
  | .cancelFound w => match s.workers w with
    | .settling c => some c
    | _ => none
  | .resultDropped w => match s.workers w with
    | .failing c => some c
    | _ => none
  | _ => none

/-- A worker removes an item that is not under its claim, or the result of a newer attempt. -/
def Harms (s : System) (l : Label) : Prop :=
  (∃ c e, l.discards s = some c ∧ s.queue.records c.operationId = some e ∧ ¬ c.Holds e.value) ∨
  (∃ c r, l.drops s = some c ∧ s.results c.operationId = some r ∧ c.attempt < r.claim.attempt)

/-- A requeue is saved for an item that some worker is still at work on. -/
def RequeuesHeld (s : System) (l : Label) : Prop :=
  ∃ t x now w c, l = .call (.save t) ∧ s.queue.outcome t = some x ∧ x.command = .requeue now ∧
    (s.workers w).claim = some c ∧ c.operationId = x.key

/-- Every step of the run has the property in the state it starts from. -/
def Along (P : System → Label → Prop) : System → List Label → Prop
  | _, [] => True
  | s, l :: rest => P s l ∧ Along P (s.step l) rest

theorem along_of_invariant {I : System → Prop} {P Q : System → Label → Prop}
    (each : ∀ s l, I s → P s l → I (s.step l)) (gives : ∀ s l, I s → Q s l) :
    ∀ (labels : List Label) (s : System), I s → Along P s labels → Along Q s labels
  | [], _, _, _ => trivial
  | l :: rest, s, h, along =>
    ⟨gives s l h, along_of_invariant each gives rest _ (each s l h along.1) along.2⟩

/-- Workers at work own what stands under the ids they work on. -/
structure Owned (s : System) : Prop where
  linked : LinkedQueue s.queue
  held : ∀ w c, (s.workers w).claim = some c → ∀ e, s.queue.records c.operationId = some e →
    e.value.state = .claimed ∧ c.Holds e.value
  alone : ∀ w w' c c', (s.workers w).claim = some c → (s.workers w').claim = some c' →
    c.operationId = c'.operationId → c.attempt = c'.attempt
  results : ∀ operationId r, s.results operationId = some r →
    ∀ e, s.queue.records operationId = some e → r.claim.attempt ≤ e.value.attempt
  latest : ∀ w c r, (s.workers w).claim = some c → s.results c.operationId = some r →
    r.claim.attempt ≤ c.attempt

theorem Owned.not_harms {s : System} (h : Owned s) (l : Label) : ¬ Harms s l := by
  have discarding : ∀ c, l.discards s = some c → ∃ w, (s.workers w).claim = some c := by
    intro c discards
    cases l with
    | operationMissing w =>
      refine ⟨w, ?_⟩
      simp only [Label.discards] at discards
      split at discards <;> simp_all [WorkerPhase.claim]
    | cleanedUp w =>
      refine ⟨w, ?_⟩
      simp only [Label.discards] at discards
      split at discards <;> simp_all [WorkerPhase.claim]
    | _ => cases discards
  have dropping : ∀ c, l.drops s = some c → ∃ w, (s.workers w).claim = some c := by
    intro c drops
    cases l with
    | cancelFound w =>
      refine ⟨w, ?_⟩
      simp only [Label.drops] at drops
      split at drops <;> simp_all [WorkerPhase.claim]
    | resultDropped w =>
      refine ⟨w, ?_⟩
      simp only [Label.drops] at drops
      split at drops <;> simp_all [WorkerPhase.claim]
    | _ => cases drops
  rintro (⟨c, e, discards, found, foreign⟩ | ⟨c, r, drops, found, newer⟩)
  · obtain ⟨w, claim⟩ := discarding c discards
    exact foreign (h.held w c claim e found).2
  · obtain ⟨w, claim⟩ := dropping c drops
    have := h.latest w c r claim found
    omega

/-- Fewer items, fewer results and fewer claims do not break ownership. -/
theorem Owned.shrink {s s' : System} (h : Owned s) (linked : LinkedQueue s'.queue)
    (records : ∀ operationId e, s'.queue.records operationId = some e →
      s.queue.records operationId = some e)
    (results : ∀ operationId r, s'.results operationId = some r →
      s.results operationId = some r)
    (claims : ∀ w c, (s'.workers w).claim = some c → (s.workers w).claim = some c) : Owned s' where
  linked := linked
  held w c hc e found := h.held w c (claims w c hc) e (records _ e found)
  alone w w' c c' hc hc' same := h.alone w w' c c' (claims w c hc) (claims w' c' hc') same
  results operationId r hr e found := h.results operationId r (results _ r hr) e (records _ e found)
  latest w c r hc hr := h.latest w c r (claims w c hc) (results _ r hr)

section Moves

variable {s : System} {w : Nat} {c : Claim} {phase : WorkerPhase}

/-- A worker moves on under its claim, or leaves. -/
theorem enter_claims (here : (s.workers w).claim = some c)
    (next : phase.claim = some c ∨ phase.claim = none) :
    ∀ u d, ((s.enter w phase).workers u).claim = some d → (s.workers u).claim = some d := by
  intro u d hd
  by_cases same : u = w
  · subst same
    simp only [System.enter, Function.update_self] at hd
    rcases next with next | next
    · rw [here, ← next, hd]
    · rw [next] at hd
      cases hd
  · simpa only [System.enter, Function.update_of_ne same] using hd

theorem Owned.enter (h : Owned s) (here : (s.workers w).claim = some c)
    (next : phase.claim = some c ∨ phase.claim = none) : Owned (s.enter w phase) :=
  h.shrink h.linked (fun _ _ found => found) (fun _ _ found => found) (enter_claims here next)

theorem Owned.deleteWork (h : Owned s) (operationId : Text) : Owned (s.deleteWork operationId) := by
  refine h.shrink (h.linked.delete operationId) (fun other e found => ?_) (fun _ _ found => found)
    fun _ _ claim => claim
  by_cases same : other = operationId
  · simp [System.deleteWork, Store.delete, same] at found
  · simpa only [System.deleteWork, Store.delete, Function.update_of_ne same] using found

theorem Owned.deleteResult (h : Owned s) (operationId : Text) :
    Owned (s.deleteResult operationId) := by
  refine h.shrink h.linked (fun _ _ found => found) (fun other r found => ?_) fun _ _ claim => claim
  by_cases same : other = operationId
  · simp [System.deleteResult, same] at found
  · simpa only [System.deleteResult, Function.update_of_ne same] using found

theorem Owned.saveResult (h : Owned s) (here : (s.workers w).claim = some c) (data : Bytes) :
    Owned { s with results := Function.update s.results c.operationId (some ⟨c, data⟩) } where
  linked := h.linked
  held := h.held
  alone := h.alone
  results operationId r hr e found := by
    by_cases same : operationId = c.operationId
    · subst same
      simp only [Function.update_self, Option.some.injEq] at hr
      subst hr
      exact (h.held w c here e found).2.2.ge
    · simp only [Function.update_of_ne same] at hr
      exact h.results operationId r hr e found
  latest u d r hd hr := by
    by_cases same : d.operationId = c.operationId
    · simp only [same, Function.update_self, Option.some.injEq] at hr
      subst hr
      exact (h.alone w u c d here hd same.symm).le
    · simp only [Function.update_of_ne same] at hr
      exact h.latest u d r hd hr

end Moves

section Saves

variable {s : System}

theorem apply_attempt {command : WorkCommand} {item next : OperationWorkItem}
    (ok : command.apply item = .ok next) : item.attempt ≤ next.attempt := by
  cases command with
  | claim ownerId lease now =>
    obtain ⟨-, rfl⟩ := claim_ok ok
    exact Nat.le_succ _
  | renew ownerId lease now =>
    obtain ⟨-, -, rfl⟩ := renew_ok ok
    exact Nat.le_refl _
  | markStarted ownerId attempt now =>
    obtain ⟨-, ⟨-, rfl⟩ | ⟨-, rfl⟩⟩ := markStarted_ok ok <;> exact Nat.le_refl _
  | requeue now =>
    obtain ⟨-, rfl⟩ := requeue_ok ok
    exact Nat.le_refl _

/-- A change of a claimed item that is no requeue keeps it under its claim. -/
theorem apply_claimed {command : WorkCommand} {item next : OperationWorkItem} {c : Claim}
    (claimed : item.state = .claimed) (holds : c.Holds item) (ok : command.apply item = .ok next)
    (kept : ∀ now, command ≠ .requeue now) : next.state = .claimed ∧ c.Holds next := by
  cases command with
  | claim ownerId lease now =>
    obtain ⟨queued, -⟩ := claim_ok ok
    rw [claimed] at queued
    cases queued
  | renew ownerId lease now =>
    obtain ⟨-, -, rfl⟩ := renew_ok ok
    exact ⟨claimed, holds⟩
  | markStarted ownerId attempt now =>
    obtain ⟨-, ⟨-, rfl⟩ | ⟨-, rfl⟩⟩ := markStarted_ok ok <;> exact ⟨claimed, holds⟩
  | requeue now => exact absurd rfl (kept now)

/-- The claims after a save: those before it, and the one that was saved. -/
theorem claims_after_save {t w : Nat} {c : Claim}
    (claim : ((s.call (.save t)).workers w).claim = some c) :
    (s.workers w).claim = some c ∨ ∃ x ownerId lease now, s.queue.outcome t = some x ∧
      x.command = .claim ownerId lease now ∧ c = ⟨x.key, ownerId, x.after.attempt⟩ := by
  by_cases same : w = t
  · subst same
    simp only [System.call, Function.update_self, System.afterSave] at claim
    split at claim
    · rename_i operationId ownerId lease now before after revision outcome idle
      simp only [WorkerPhase.claim, Option.some.injEq] at claim
      exact .inr ⟨_, ownerId, lease, now, outcome, rfl, claim.symm⟩
    · exact .inl claim
  · simp only [System.call, Function.update_of_ne same] at claim
    exact .inl claim

/-- A save that does not requeue work in hand keeps every worker the owner of its item. -/
theorem Owned.save (h : Owned s) (t : Nat) (kept : ¬ RequeuesHeld s (.call (.save t))) :
    Owned (s.call (.save t)) := by
  have linked : LinkedQueue (s.queue.save t) := h.linked.save work_advances t
  cases made : s.queue.outcome t with
  | none =>
    have queue : s.queue.save t = s.queue.abandon t := by simp [Store.save, made]
    refine h.shrink linked (fun _ _ found => ?_) (fun _ _ found => found) fun w c claim => ?_
    · simpa only [System.call, Store.act, queue, Store.abandon] using found
    · rcases claims_after_save claim with old | ⟨x, _, _, _, outcome, -⟩
      · exact old
      · rw [made] at outcome
        cases outcome
  | some x =>
    obtain ⟨e, found, -, revision, ok⟩ := h.linked.outcome made
    have records : (s.call (.save t)).queue.records =
        Function.update s.queue.records x.key (some ⟨x.revision, x.after⟩) := by
      simp [System.call, Store.act, Store.save, made]
    -- before a claim is saved nobody works on the item, since it stands queued
    have unclaimed : ∀ ownerId lease now, x.command = .claim ownerId lease now →
        ∀ w c, (s.workers w).claim = some c → c.operationId ≠ x.key := by
      intro ownerId lease now command w c claim same
      obtain ⟨claimed, -⟩ := h.held w c claim e (same ▸ found)
      rw [command] at ok
      obtain ⟨queued, -⟩ := claim_ok ok
      rw [claimed] at queued
      cases queued
    have claims : ∀ w c, ((s.call (.save t)).workers w).claim = some c →
        (s.workers w).claim = some c ∨ ∃ ownerId lease now,
          x.command = .claim ownerId lease now ∧ c = ⟨x.key, ownerId, x.after.attempt⟩ := by
      intro w c claim
      rcases claims_after_save claim with old | ⟨y, ownerId, lease, now, outcome, new⟩
      · exact .inl old
      · obtain rfl : x = y := Option.some.inj (made.symm.trans outcome)
        exact .inr ⟨ownerId, lease, now, new⟩
    refine ⟨linked, ?_, ?_, ?_, ?_⟩
    · intro w c claim e' found'
      rw [records] at found'
      rcases claims _ _ claim with old | ⟨ownerId, lease, now, command, rfl⟩
      · by_cases same : c.operationId = x.key
        · rw [same, Function.update_self, Option.some.injEq] at found'
          subst found'
          obtain ⟨claimed, holds⟩ := h.held w c old e (same ▸ found)
          refine apply_claimed claimed holds ok fun now requeue => kept ?_
          exact ⟨t, x, now, w, c, rfl, made, requeue, old, same⟩
        · rw [Function.update_of_ne same] at found'
          exact h.held w c old e' found'
      · rw [Function.update_self, Option.some.injEq] at found'
        subst found'
        rw [command] at ok
        obtain ⟨-, after⟩ := claim_ok ok
        exact ⟨by rw [after], by rw [after], rfl⟩
    · intro w w' c c' claim claim' same
      rcases claims _ _ claim with old | ⟨ownerId, lease, now, command, rfl⟩
      · rcases claims _ _ claim' with old' | ⟨ownerId, lease, now, command, rfl⟩
        · exact h.alone w w' c c' old old' same
        · exact absurd same (unclaimed ownerId lease now command w c old)
      · rcases claims _ _ claim' with old' | ⟨ownerId', lease', now', command', rfl⟩
        · exact absurd same.symm (unclaimed ownerId lease now command w' c' old')
        · rfl
    · intro operationId r hr e' found'
      rw [records] at found'
      by_cases same : operationId = x.key
      · rw [same, Function.update_self, Option.some.injEq] at found'
        subst found'
        exact (h.results operationId r hr e (same ▸ found)).trans (apply_attempt ok)
      · rw [Function.update_of_ne same] at found'
        exact h.results operationId r hr e' found'
    · intro w c r claim hr
      rcases claims _ _ claim with old | ⟨ownerId, lease, now, command, rfl⟩
      · exact h.latest w c r old hr
      · exact (h.results x.key r hr e found).trans (apply_attempt ok)

end Saves

theorem Owned.step {s : System} (h : Owned s) (l : Label) (kept : ¬ RequeuesHeld s l) :
    Owned (s.step l) := by
  have claimOf : ∀ {w : Nat} {phase : WorkerPhase} {c : Claim}, s.workers w = phase →
      phase.claim = some c → (s.workers w).claim = some c := by
    rintro w _ c rfl claim
    exact claim
  cases l with
  | call a =>
    cases a with
    | save t => exact h.save t kept
    | list t k command =>
      refine h.shrink (System.step_linked h.linked _) (fun id e found => ?_) (fun _ _ r => r)
        fun _ _ claim => claim
      simp only [System.step, System.call, Store.act, Store.list] at found
      split at found
      · exact found
      · split at found <;> exact found
    | read t k command =>
      refine h.shrink (System.step_linked h.linked _) (fun id e found => ?_) (fun _ _ r => r)
        fun _ _ claim => claim
      simp only [System.step, System.call, Store.act, Store.read] at found
      split at found
      · exact found
      · split at found <;> exact found
    | compare t =>
      refine h.shrink (System.step_linked h.linked _) (fun id e found => ?_) (fun _ _ r => r)
        fun _ _ claim => claim
      simp only [System.step, System.call, Store.act, Store.compare] at found
      split at found
      · split at found
        · exact found
        · split at found <;> exact found
      · exact found
      · exact found
    | abandon t =>
      exact h.shrink (System.step_linked h.linked _) (fun _ _ found => found) (fun _ _ r => r)
        fun _ _ claim => claim
    | delete k => exact h.deleteWork k
  | operationMissing w =>
    simp only [System.step]
    split
    · rename_i c here
      exact (h.deleteWork c.operationId).enter (claimOf here rfl) (.inr rfl)
    · exact h
  | cleanedUp w =>
    simp only [System.step]
    split
    · rename_i c here
      exact (h.deleteWork c.operationId).enter (claimOf here rfl) (.inr rfl)
    · exact h
  | cancelFound w =>
    simp only [System.step]
    split
    · rename_i c here
      exact (h.deleteResult c.operationId).enter (claimOf here rfl) (.inl rfl)
    · exact h
  | resultDropped w =>
    simp only [System.step]
    split
    · rename_i c here
      exact (h.deleteResult c.operationId).enter (claimOf here rfl) (.inl rfl)
    · exact h
  | resultSaved w data =>
    simp only [System.step]
    split
    · rename_i c here
      exact (h.saveResult (claimOf here rfl) data).enter (claimOf here rfl) (.inl rfl)
    · exact h
  | stopped w =>
    refine h.shrink h.linked (fun _ _ found => found) (fun _ _ r => r) fun u d claim => ?_
    by_cases same : u = w
    · simp [System.step, System.enter, same, WorkerPhase.claim] at claim
    · simpa only [System.step, System.enter, Function.update_of_ne same] using claim
  | startRaised w =>
    simp only [System.step]
    split
    · rename_i c here
      exact h.enter (claimOf here rfl) (.inr rfl)
    · exact h
  | _ =>
    simp only [System.step]
    split
    all_goals first | exact h | (rename_i c here; exact h.enter (claimOf here rfl) (.inl rfl))

/-- In every run in which no requeue is saved for an item that a worker is still at work on,
no worker removes an item that is not under its claim, or the result of a newer attempt. -/
theorem stale_worker_harmless (requests : List (Text × OperationWorkRequest × Timestamp))
    (labels : List Label)
    (undisturbed : Along (fun s l => ¬ RequeuesHeld s l) (System.start requests) labels) :
    Along (fun s l => ¬ Harms s l) (System.start requests) labels := by
  have fresh := System.start_fresh requests
  have idle : ∀ w c, ((System.start requests).workers w).claim ≠ some c := by
    intro w c
    rw [fresh.workers w]
    simp [WorkerPhase.claim]
  have none : ∀ operationId r, (System.start requests).results operationId ≠ some r := by
    intro operationId r
    rw [fresh.results operationId]
    simp
  have initial : Owned (System.start requests) :=
    ⟨linked_idle fresh.calls, fun w c claim => absurd claim (idle w c),
      fun w _ c _ claim => absurd claim (idle w c), fun operationId r hr => absurd hr (none _ r),
      fun w c _ claim => absurd claim (idle w c)⟩
  exact along_of_invariant (fun _ l h kept => h.step l kept) (fun _ l h => h.not_harms l) labels _
    initial undisturbed

namespace Sample

def operation : Text := "op-0123456789abcdef01234567".toList
def alice : Text := "worker-a".toList
def bob : Text := "worker-b".toList

def requests : List (Text × OperationWorkRequest × Timestamp) :=
  [(operation, ⟨.adhoc, List.replicate 64 'a', 1⟩, 0)]

/-- Worker 0 claims the item, fails and cleans up. -/
def undisturbed : List Label :=
  [.call (.list 0 operation (.claim alice 90 1)), .call (.save 0), .operationStarted 0,
    .handlerRaised 0, .resultDropped 0, .reported 0, .cleanedUp 0]

/-- Worker 0 claims the item and its lease runs out; thread 2, a recovery pass, requeues it;
worker 1 claims it and saves its result; the monitor of worker 0 finds the lease lost. -/
def overtaken : List Label :=
  [.call (.list 0 operation (.claim alice 90 1)), .call (.save 0), .operationStarted 0,
    .call (.read 2 operation (.requeue 100)), .call (.compare 2), .call (.save 2),
    .call (.list 1 operation (.claim bob 200 110)), .call (.save 1), .operationStarted 1,
    .handlerReturned 1, .resultSaved 1 [7], .handlerRaised 0]

end Sample

/-- An undisturbed run up to the clean-up of its only worker. -/
theorem stale_worker_harmless_cleanup :
    Along (fun s l => ¬ Harms s l) (System.start Sample.requests) Sample.undisturbed := by
  refine stale_worker_harmless Sample.requests Sample.undisturbed ?_
  have other : ∀ s l, (∀ t, l ≠ .call (.save t)) → ¬ RequeuesHeld s l := by
    rintro s l calls ⟨t, -, -, -, -, rfl, -⟩
    exact calls t rfl
  refine ⟨other _ _ (by simp), ?_, other _ _ (by simp), other _ _ (by simp), other _ _ (by simp),
    other _ _ (by simp), other _ _ (by simp), trivial⟩
  rintro ⟨t, x, now, w, c, same, made, requeue, -⟩
  obtain rfl : 0 = t := by simpa using same
  have claim : ((((System.start Sample.requests).step
      (.call (.list 0 Sample.operation (.claim Sample.alice 90 1)))).queue.outcome 0).map
        Save.command) = some (.claim Sample.alice 90 1) := by decide
  rw [made, Option.map_some, requeue] at claim
  cases claim

/-- Worker 0 deletes the result and the work item of worker 1, which holds the item in its
second attempt. -/
theorem stale_worker_discards_current :
    Label.drops ((System.start Sample.requests).run Sample.overtaken) (.resultDropped 0) =
      some ⟨Sample.operation, Sample.alice, 1⟩ ∧
    ((System.start Sample.requests).run Sample.overtaken).results Sample.operation =
      some ⟨⟨Sample.operation, Sample.bob, 2⟩, [7]⟩ ∧
    ((System.start Sample.requests).run
      (Sample.overtaken ++ [.resultDropped 0])).results Sample.operation = none ∧
    Label.discards ((System.start Sample.requests).run
      (Sample.overtaken ++ [.resultDropped 0, .reported 0])) (.cleanedUp 0) =
        some ⟨Sample.operation, Sample.alice, 1⟩ ∧
    (((System.start Sample.requests).run (Sample.overtaken ++ [.resultDropped 0, .reported 0])
      ).queue.records Sample.operation).map (fun e => (e.value.ownerId, e.value.attempt)) =
        some (some Sample.bob, 2) ∧
    (((System.start Sample.requests).run (Sample.overtaken ++
      [.resultDropped 0, .reported 0, .cleanedUp 0])).queue.records Sample.operation).isNone := by
  refine ⟨by decide, by decide, by decide, by decide, by decide, by decide⟩

end RepoForge
