import Mathlib.Algebra.Order.Group.Multiset
import RepoForge.Spec.HotReload.RouterInvariant

/-!
# Containers are disposed of once, and not in use

Over every run of calls on one router in which no `close` comes to dispose after another has, and
no container is installed twice. The second `close` of a router disposes of the active container
again: `close` empties the requests and the retired containers, but it has no mark for the active
one.
-/
namespace RepoForge.HotReload

open PyStr PyDict Runs

def RouterCall.held : RouterCall → Option GenerationServiceContainer
  | .holding c => some c
  | _ => none

def RouterCall.rest : RouterCall → List GenerationServiceContainer
  | .disposing rest => rest
  | _ => []

def holders (calls : List RouterCall) : Multiset GenerationServiceContainer :=
  calls.filterMap RouterCall.held

/-- What calls that have left the lock are about to dispose of. -/
def pending (calls : List RouterCall) : Multiset GenerationServiceContainer :=
  calls.flatMap RouterCall.rest

/-- Disposed of, or about to be. -/
def RouterMachine.handed (m : RouterMachine) : Multiset GenerationServiceContainer :=
  m.disposed + pending m.calls

section Calls

variable {calls others : List RouterCall} {call : RouterCall} {c : GenerationServiceContainer}

theorem holders_perm (same : calls.Perm others) : holders calls = holders others :=
  Multiset.coe_eq_coe.mpr (same.filterMap _)

theorem pending_perm (same : calls.Perm others) : pending calls = pending others :=
  Multiset.coe_eq_coe.mpr (same.flatMap_right _)

theorem pending_cons : pending (call :: calls) = call.rest + pending calls := by
  simp [pending]

theorem holders_holding : holders (.holding c :: calls) = c ::ₘ holders calls := rfl

theorem holders_disposing {rest : List GenerationServiceContainer} :
    holders (.disposing rest :: calls) = holders calls := rfl

theorem holders_closing : holders (.closing :: calls) = holders calls := rfl

theorem mem_holders : c ∈ holders calls ↔ RouterCall.holding c ∈ calls := by
  simp only [holders, Multiset.mem_coe, List.mem_filterMap]
  constructor
  · intro found
    obtain ⟨call, here, held⟩ := found
    cases call with
    | holding d =>
      cases held
      exact here
    | closing => cases held
    | disposing rest => cases held
  · intro here
    exact ⟨_, here, rfl⟩

theorem mem_pending : c ∈ pending calls ↔ ∃ rest, RouterCall.disposing rest ∈ calls ∧ c ∈ rest := by
  simp only [pending, Multiset.mem_coe, List.mem_flatMap]
  constructor
  · intro found
    obtain ⟨call, here, inside⟩ := found
    cases call with
    | holding d => cases inside
    | closing => cases inside
    | disposing rest => exact ⟨rest, here, inside⟩
  · intro found
    obtain ⟨rest, here, inside⟩ := found
    exact ⟨_, here, inside⟩

/-- A call and the others, and what is left when the call moves on. -/
theorem exists_others {i : Nat} (found : calls[i]? = some call) :
    ∃ others, calls.Perm (call :: others) ∧ ∀ next, (calls.set i next).Perm (next :: others) := by
  obtain ⟨bound, rfl⟩ := List.getElem?_eq_some_iff.mp found
  exact ⟨calls.eraseIdx i, (List.getElem_cons_eraseIdx_perm bound).symm,
    fun next => List.set_perm_cons_eraseIdx bound next⟩

end Calls

/-- The invariant of a machine. -/
structure Sound (m : RouterMachine) : Prop where
  kept : Kept m.router (holders m.calls) m.handed m.installed
  waiting : RouterCall.closing ∈ m.calls → m.router.closed = true

/-- No `close` comes to its check after another one has emptied the router, and no container is
installed that has been before. -/
def Careful (m : RouterMachine) : RouterEvent → Prop
  | .commitSwap candidate _ => candidate ∉ m.installed
  | .close _ => m.router.activeRequests ≠ []
  | .wake call _ => m.calls[call]? = some .closing → m.router.activeRequests ≠ []
  | _ => True

instance (m : RouterMachine) : (event : RouterEvent) → Decidable (Careful m event)
  | .commitSwap candidate _ => inferInstanceAs (Decidable (candidate ∉ m.installed))
  | .close _ => inferInstanceAs (Decidable (m.router.activeRequests ≠ []))
  | .wake call _ =>
    inferInstanceAs (Decidable (m.calls[call]? = some .closing → m.router.activeRequests ≠ []))
  | .acquire | .release _ | .dispose _ => inferInstanceAs (Decidable True)

section Steps

variable {m : RouterMachine}

theorem sound_start (initial : GenerationServiceContainer) : Sound (.start initial) :=
  ⟨kept_init initial, by simp [RouterMachine.start]⟩

/-- A machine is sound if it is with one of its calls in the first place. -/
theorem sound_of {router : AtomicServiceRouter} {calls others : List RouterCall}
    {next : RouterCall} {installed disposed : List GenerationServiceContainer}
    (moved : calls.Perm (next :: others))
    (kept : Kept router (holders (next :: others)) (disposed + (next.rest + pending others))
      installed)
    (waiting : RouterCall.closing ∈ next :: others → router.closed = true) :
    Sound ⟨router, calls, installed, disposed⟩ := by
  constructor
  · rw [RouterMachine.handed]
    dsimp only
    rwa [holders_perm moved, pending_perm moved, pending_cons]
  · intro here
    exact waiting (moved.mem_iff.mp here)

theorem Sound.kept_of (sound : Sound m) {call : RouterCall} {others : List RouterCall}
    (moved : m.calls.Perm (call :: others)) :
    Kept m.router (holders (call :: others)) (m.disposed + (call.rest + pending others))
      m.installed := by
  have kept := sound.kept
  rwa [RouterMachine.handed, holders_perm moved, pending_perm moved, pending_cons] at kept

/-- A call that did nothing but end. -/
theorem sound_ended (sound : Sound m) : Sound { m with calls := m.calls ++ [.disposing []] } := by
  refine sound_of (List.perm_append_singleton _ _) ?_ ?_
  · simpa [RouterCall.rest, holders_disposing, RouterMachine.handed] using sound.kept
  · intro here
    exact sound.waiting (by simpa using here)

theorem sound_acquire (sound : Sound m) : Sound m.acquire := by
  unfold RouterMachine.acquire
  split
  · exact sound_ended sound
  · rename_i selected router ok
    refine sound_of (List.perm_append_singleton _ _) ?_ ?_
    · simpa [RouterCall.rest, holders_holding, RouterMachine.handed] using
        acquire_kept sound.kept ok
    · intro here
      have closed := sound.waiting (by simpa using here)
      simp [AtomicServiceRouter.acquire, closed] at ok

theorem release_closed {r r' : AtomicServiceRouter} {selected : GenerationServiceContainer}
    {dispose : Option GenerationServiceContainer} (ok : r.release selected = .ok (dispose, r')) :
    r'.closed = r.closed := by
  unfold AtomicServiceRouter.release at ok
  dsimp only at ok
  split at ok
  · cases ok
  · split at ok
    · cases ok
      rfl
    · split_ifs at ok <;>
      · cases ok
        rfl

theorem sound_release (sound : Sound m) {call : Nat} : Sound (m.release call) := by
  unfold RouterMachine.release
  split
  · rename_i selected found
    obtain ⟨others, moved, moves⟩ := exists_others found
    have before := sound.kept_of moved
    simp only [RouterCall.rest, holders_holding] at before
    obtain ⟨dispose, router, ok, kept⟩ := release_kept before
    rw [ok]
    refine sound_of (moves _) ?_ ?_
    · simpa [RouterCall.rest, holders_disposing, add_left_comm] using kept
    · intro here
      rw [release_closed ok]
      refine sound.waiting (moved.mem_iff.mpr ?_)
      simpa using here
  · exact sound

theorem sound_commitSwap (sound : Sound m) {candidate : GenerationServiceContainer}
    {commit : Except Raised Unit} (fresh : candidate ∉ m.installed) :
    Sound (m.commitSwap candidate commit) := by
  unfold RouterMachine.commitSwap
  split
  · exact sound_ended sound
  · rename_i previous dispose router ok
    refine sound_of (List.perm_append_singleton _ _) ?_ ?_
    · simpa [RouterCall.rest, holders_disposing, RouterMachine.handed, add_left_comm] using
        commitSwap_kept sound.kept ok fresh
    · intro here
      have closed := sound.waiting (by simpa using here)
      rw [(commitSwap_ok ok).2.1] at closed
      cases closed

/-- The loop of a `close`, wherever its call stands among the others. -/
theorem sound_close {put : RouterCall → List RouterCall} {others : List RouterCall}
    {expired : Bool} (moves : ∀ next, (put next).Perm (next :: others))
    (kept : Kept m.router (holders others) (m.disposed + pending others) m.installed)
    (closed : m.router.closed = true) (live : m.router.activeRequests ≠ []) :
    Sound (m.close put expired) := by
  unfold RouterMachine.close
  split
  · rename_i rest router through
    refine sound_of (moves _) ?_ ?_
    · simpa [RouterCall.rest, holders_disposing, add_left_comm] using
        closeLoop_kept kept closed live through
    · intro _
      unfold AtomicServiceRouter.closeLoop at through
      split_ifs at through
      cases through
      exact closed
  · exact sound_of (moves _) (by simpa [RouterCall.rest, holders_disposing] using kept)
      fun _ => closed
  · exact sound_of (moves _) (by simpa [RouterCall.rest, holders_closing] using kept)
      fun _ => closed

theorem sound_dispose (sound : Sound m) {call : Nat} : Sound (m.step (.dispose call)) := by
  simp only [RouterMachine.step]
  split
  · rename_i container rest found
    obtain ⟨others, moved, moves⟩ := exists_others found
    have before := sound.kept_of moved
    simp only [RouterCall.rest, holders_disposing] at before
    refine sound_of (moves _) ?_ ?_
    · have same : ((m.disposed ++ [container] : List _) : Multiset GenerationServiceContainer) +
          (rest + pending others) =
            m.disposed + ((container :: rest : List _) + pending others) := by
        simp only [← Multiset.coe_add, add_assoc, ← Multiset.cons_coe, Multiset.cons_add,
          Multiset.coe_nil, zero_add]
      simp only [RouterCall.rest, holders_disposing]
      rwa [same]
    · intro here
      refine sound.waiting (moved.mem_iff.mpr ?_)
      simpa using here
  · exact sound

/-- Every step keeps the invariant. -/
theorem sound_step (sound : Sound m) {event : RouterEvent} (careful : Careful m event) :
    Sound (m.step event) := by
  cases event with
  | acquire => exact sound_acquire sound
  | release call => exact sound_release sound
  | commitSwap candidate commit => exact sound_commitSwap sound careful
  | close expired =>
    exact sound_close (fun next => List.perm_append_singleton _ _) (close_kept sound.kept) rfl
      careful
  | wake call expired =>
    simp only [RouterMachine.step]
    split
    · rename_i found
      obtain ⟨others, moved, moves⟩ := exists_others found
      have kept := sound.kept_of moved
      simp only [RouterCall.rest, holders_closing, Multiset.coe_nil, zero_add] at kept
      have waits : RouterCall.closing ∈ m.calls := List.mem_of_getElem? found
      exact sound_close moves kept (sound.waiting waits) (careful found)
    · exact sound
  | dispose call => exact sound_dispose sound

/-- Only its own release ends a request. -/
theorem step_holding {call : Nat} {c : GenerationServiceContainer} {event : RouterEvent}
    (held : m.calls[call]? = some (.holding c)) (other : event ≠ .release call) :
    (m.step event).calls[call]? = some (.holding c) := by
  have bound : call < m.calls.length := (List.getElem?_eq_some_iff.mp held).1
  have appended : ∀ next, (m.calls ++ [next])[call]? = some (.holding c) := by
    intro next
    rw [List.getElem?_append_left bound, held]
  have moved : ∀ i next, i ≠ call → (m.calls.set i next)[call]? = some (.holding c) := by
    intro i next apart
    rw [List.getElem?_set_ne apart, held]
  cases event with
  | acquire =>
    simp only [RouterMachine.step, RouterMachine.acquire]
    split
    · exact appended _
    · exact appended _
  | release i =>
    have apart : i ≠ call := fun same => other (by rw [same])
    simp only [RouterMachine.step, RouterMachine.release]
    split
    · split
      · exact moved i _ apart
      · exact moved i _ apart
    · exact held
  | commitSwap candidate commit =>
    simp only [RouterMachine.step, RouterMachine.commitSwap]
    split
    · exact appended _
    · exact appended _
  | close expired =>
    simp only [RouterMachine.step, RouterMachine.close]
    split <;> exact appended _
  | wake i expired =>
    simp only [RouterMachine.step]
    split
    · rename_i found
      have apart : i ≠ call := by
        intro same
        rw [same, held] at found
        cases found
      simp only [RouterMachine.close]
      split <;> exact moved i _ apart
    · exact held
  | dispose i =>
    simp only [RouterMachine.step]
    split
    · rename_i found
      refine moved i _ fun same => ?_
      rw [same, held] at found
      cases found
    · exact held

theorem run_holding {call : Nat} {c : GenerationServiceContainer} {events : List RouterEvent}
    (held : m.calls[call]? = some (.holding c)) (kept : .release call ∉ events) :
    (run RouterMachine.step m events).calls[call]? = some (.holding c) := by
  induction events generalizing m with
  | nil => exact held
  | cons event events ih =>
    rw [List.mem_cons, not_or] at kept
    exact ih (step_holding held (fun same => kept.1 same.symm)) kept.2

end Steps

/-- What the claims about disposal say of one state. -/
structure Orderly (m : RouterMachine) : Prop where
  unused : ∀ c ∈ m.disposed, RouterCall.holding c ∉ m.calls
  once : m.disposed.Nodup
  /-- A container that was replaced is disposed of, or a call that has taken it is about to dispose
  of it, or it is retired and held. -/
  accounted : ∀ c ∈ m.installed, c ≠ m.router.active →
    c ∈ m.disposed ∨ (∃ rest, RouterCall.disposing rest ∈ m.calls ∧ c ∈ rest) ∨
      get m.router.retired c.generation = some c ∧ RouterCall.holding c ∈ m.calls

theorem Sound.orderly {m : RouterMachine} (sound : Sound m) : Orderly m := by
  have once := sound.kept.once
  rw [RouterMachine.handed, Multiset.nodup_add] at once
  constructor
  · intro c there held
    refine sound.kept.held_apart (mem_holders.mpr held) ?_
    exact Multiset.mem_add.mpr (.inl there)
  · exact once.1
  · intro c known replaced
    rcases sound.kept.accounted c known with active | there | retired
    · exact absurd active replaced
    · rcases Multiset.mem_add.mp there with disposed | waiting
      · exact .inl disposed
      · exact .inr (.inl (mem_pending.mp waiting))
    · exact .inr (.inr ⟨retired, mem_holders.mp (sound.kept.retiring _ _ retired).2.2⟩)

/-- Throughout every careful run containers are disposed of once and not in use, and a request
keeps its container until it releases it. -/
theorem containers_disposed_once (initial : GenerationServiceContainer)
    (events : List RouterEvent)
    (careful : Along RouterMachine.step Careful (.start initial) events) :
    Throughout RouterMachine.step Orderly (.start initial) events ∧
      ∀ before during after call c, events = before ++ during ++ after →
        (run RouterMachine.step (.start initial) before).calls[call]? = some (.holding c) →
        .release call ∉ during →
        (run RouterMachine.step (.start initial) (before ++ during)).calls[call]? =
          some (.holding c) := by
  constructor
  · intro before after split
    have sound := careful.invariant (fun _ _ sound careful => sound_step sound careful)
      (sound_start initial)
    exact (sound before after split).orderly
  · intro before during after call c _ held kept
    rw [run_append]
    exact run_holding held kept

section Sample

def sampleContainer (generation : Int) (positive : 0 < generation) : GenerationServiceContainer :=
  ⟨generation.toNat, generation, generation.toNat, [], positive⟩

def firstContainer : GenerationServiceContainer := sampleContainer 1 (by decide)

def secondContainer : GenerationServiceContainer := sampleContainer 2 (by decide)

/-- A request that outlives a swap, a `close` that waits for one, and times out. -/
def sampleRun : List RouterEvent :=
  [.acquire, .commitSwap secondContainer (.ok ()), .acquire, .close true, .release 0, .dispose 0,
    .close false, .release 2, .wake 4 false, .dispose 4]

theorem containers_disposed_once_sample :
    (run RouterMachine.step (.start firstContainer) sampleRun).disposed =
        [firstContainer, secondContainer] ∧
      Throughout RouterMachine.step Orderly (.start firstContainer) sampleRun := by
  have careful : Along RouterMachine.step Careful (.start firstContainer) sampleRun :=
    along_of_passes (fun _ _ passed => of_decide_eq_true passed)
      (by decide : passes RouterMachine.step (fun m event => decide (Careful m event))
        (.start firstContainer) sampleRun = true)
  exact ⟨by decide, (containers_disposed_once firstContainer sampleRun careful).1⟩

/-- Closed twice, the router disposes of its container twice. -/
theorem closed_twice_disposes_twice :
    ¬ Throughout RouterMachine.step Orderly (.start firstContainer)
      [.close false, .dispose 0, .close false, .dispose 1] := by
  intro orderly
  have once := orderly.last.once
  revert once
  decide

end Sample

end RepoForge.HotReload
