import Mathlib.Logic.Function.Basic
import RepoForge.Library.Runs

/-!
# Scripts of processes that share a state

A script is a program as the tree of its atomic operations: each changes the shared state and
goes on with what it saw, may have to wait (`ready`), and may raise, before or after its change.
A process that crashes is gone, and what it held is released. A machine is a shared state with a
process for each index; its runs interleave the operations of all processes with any faults.

`Safe` is the rely-guarantee judgement for one process: whatever the others do between two of its
operations (`Discipline.rely`), each of its operations keeps the invariant and what the others
rely on, and it ends where its postconditions hold. `Triple` is its Hoare form. `Machine.kept` is
the rule for whole machines: if every program is safe wherever it may be called, the invariant
holds throughout every run whose steps are all permitted.
-/
namespace RepoForge.Scripts

open Runs

/-- When an operation may raise, seen from its change of the state. -/
inductive Raises where
  | never
  | before
  | either
  deriving DecidableEq, Repr

structure Op (T S : Type) where
  tag : T
  ready : S → Bool
  change : S → S
  raises : Raises

/-- `next` gets the state that the operation saw, before its change. -/
inductive Script (T S E A : Type) where
  | ret (value : A)
  | raise (error : E)
  | act (op : Op T S) (next : S → Script T S E A) (failed : E → Script T S E A)

variable {ι C T S E A B : Type}

namespace Script

def bind : Script T S E A → (A → Script T S E B) → Script T S E B
  | ret a, f => f a
  | raise e, _ => raise e
  | act op next failed, f => act op (fun s => (next s).bind f) (fun e => (failed e).bind f)

instance : Monad (Script T S E) where
  pure := ret
  bind := bind

/-- `try: … except Exception as exc: …`. -/
def handle : Script T S E A → (E → Script T S E A) → Script T S E A
  | ret a, _ => ret a
  | raise e, handler => handler e
  | act op next failed, handler =>
    act op (fun s => (next s).handle handler) (fun e => (failed e).handle handler)

def ofExcept : Except E A → Script T S E A
  | .ok a => ret a
  | .error e => raise e

/-- The exception is the result. -/
def attempt (x : Script T S E A) : Script T S E (Except E A) :=
  handle (do
    let a ← x
    ret (.ok a)) fun e => ret (.error e)

def perform (op : Op T S) : Script T S E Unit := act op (fun _ => ret ()) raise

/-- One read, which may itself raise. -/
def look (tag : T) (read : S → Except E A) : Script T S E A :=
  act ⟨tag, fun _ => true, id, .before⟩ (fun s => ofExcept (read s)) raise

/-- `with` a lock: what was entered is left however the body ends. -/
def within (enter leave : Op T S) (body : Script T S E A) : Script T S E A := do
  perform enter
  let a ← body.handle fun e => do
    perform leave
    raise e
  perform leave
  ret a

/-- The script run by itself, without faults: its end and the state it leaves, unless it has to
wait for ever. -/
def solo : Script T S E A → S → Option (Except E A × S)
  | ret a, s => some (.ok a, s)
  | raise e, s => some (.error e, s)
  | act op next _, s => if op.ready s then (next s).solo (op.change s) else none

/-- The next operations of the script, without faults; one that has to wait waits. -/
def steps : Nat → Script T S E A → S → Script T S E A × S
  | n + 1, act op next failed, s =>
    if op.ready s then steps n (next s) (op.change s) else (act op next failed, s)
  | _, x, s => (x, s)

section Solo

variable {s t : S}

theorem solo_bind {x : Script T S E A} {f : A → Script T S E B} {a : A}
    (first : x.solo s = some (.ok a, t)) : (x >>= f).solo s = (f a).solo t := by
  change (x.bind f).solo s = _
  induction x generalizing s with
  | ret b =>
    cases first
    rfl
  | raise e => cases first
  | act op next failed ih =>
    simp only [solo, Script.bind] at first ⊢
    split at first
    · rename_i ready
      rw [if_pos ready]
      exact ih s first
    · cases first

theorem solo_handle {x : Script T S E A} {handler : E → Script T S E A} {a : A}
    (first : x.solo s = some (.ok a, t)) : (x.handle handler).solo s = some (.ok a, t) := by
  induction x generalizing s with
  | ret b => exact first
  | raise e => cases first
  | act op next failed ih =>
    simp only [solo, Script.handle] at first ⊢
    split at first
    · rename_i ready
      rw [if_pos ready]
      exact ih s first
    · cases first

theorem solo_ofExcept {x : Except E A} {a : A} (h : x = .ok a) :
    (ofExcept x : Script T S E A).solo s = some (.ok a, s) := by
  subst h
  rfl

theorem solo_look {tag : T} {read : S → Except E A} {a : A} (h : read s = .ok a) :
    (look tag read).solo s = some (.ok a, s) :=
  solo_ofExcept h

theorem solo_perform {op : Op T S} (ready : op.ready s = true) :
    (perform op : Script T S E Unit).solo s = some (.ok (), op.change s) := by
  simp only [perform, solo, if_pos ready]

theorem solo_within {enter leave : Op T S} {body : Script T S E A} {a : A}
    (ready : enter.ready s = true) (inside : body.solo (enter.change s) = some (.ok a, t))
    (free : leave.ready t = true) :
    (within enter leave body).solo s = some (.ok a, leave.change t) := by
  unfold within
  rw [solo_bind (solo_perform ready), solo_bind (solo_handle inside),
    solo_bind (solo_perform free)]
  rfl

end Solo

end Script

/-- How one operation goes. -/
inductive Fault (E : Type) where
  | done
  | before (error : E)
  | after (error : E)
  | crash
  deriving DecidableEq, Repr

structure Process (C T S E A : Type) where
  call : C
  rest : Script T S E A

structure Machine (ι C T S E A : Type) where
  shared : S
  process : ι → Option (Process C T S E A)

structure Kernel (ι C T S E A : Type) where
  program : ι → C → Script T S E A
  /-- What the death of a process does to the state. -/
  release : ι → S → S

inductive Event (ι C E : Type) where
  | start (p : ι) (call : C)
  | go (p : ι) (fault : Fault E)
  deriving DecidableEq, Repr

namespace Machine

variable [DecidableEq ι] (K : Kernel ι C T S E A)

def set (s : Machine ι C T S E A) (p : ι) (shared : S) (process : Option (Process C T S E A)) :
    Machine ι C T S E A :=
  ⟨shared, Function.update s.process p process⟩

/-- One operation of a process; a process that is not there, has ended or has to wait does
nothing. -/
def advance (s : Machine ι C T S E A) (p : ι) (fault : Fault E) : Machine ι C T S E A :=
  match s.process p with
  | some ⟨c, .act op next failed⟩ =>
    match fault with
    | .done =>
      if op.ready s.shared then s.set p (op.change s.shared) (some ⟨c, next s.shared⟩) else s
    | .before e => if op.raises = .never then s else s.set p s.shared (some ⟨c, failed e⟩)
    | .after e =>
      if op.raises = .either ∧ op.ready s.shared then
        s.set p (op.change s.shared) (some ⟨c, failed e⟩)
      else s
    | .crash => s.set p (K.release p s.shared) none
  | _ => s

/-- An operation is of the call that the process was in. -/
theorem advance_call {s : Machine ι C T S E A} {p : ι} {fault : Fault E} {c : C}
    {script : Script T S E A} (after : (s.advance K p fault).process p = some ⟨c, script⟩) :
    ∃ before, s.process p = some ⟨c, before⟩ := by
  unfold advance at after
  rcases process : s.process p with _ | ⟨c', a | e | ⟨op, next, failed⟩⟩ <;>
    rw [process] at after <;> simp only at after
  · rw [process] at after
    cases after
  · rw [process] at after
    cases after
    exact ⟨_, rfl⟩
  · rw [process] at after
    cases after
    exact ⟨_, rfl⟩
  · refine ⟨.act op next failed, ?_⟩
    have same : c' = c := by
      cases fault <;> simp only at after <;> (try split at after) <;>
        simp_all [set]
    rw [same]

/-- A process takes up a call when it has ended the one before. -/
def take (s : Machine ι C T S E A) (p : ι) (c : C) : Machine ι C T S E A :=
  match s.process p with
  | some ⟨_, .act _ _ _⟩ => s
  | _ => s.set p s.shared (some ⟨c, K.program p c⟩)

/-- The operation that the process comes to next. -/
def nextTag (s : Machine ι C T S E A) (p : ι) : Option T :=
  match s.process p with
  | some ⟨_, .act op _ _⟩ => some op.tag
  | _ => none

theorem take_idle {s : Machine ι C T S E A} {p : ι} {c : C} (idle : s.nextTag p = none) :
    s.take K p c = s.set p s.shared (some ⟨c, K.program p c⟩) := by
  unfold nextTag at idle
  unfold take
  rcases process : s.process p with _ | ⟨c', a | e | ⟨op, next, failed⟩⟩ <;> simp only
  rw [process] at idle
  cases idle

def step (s : Machine ι C T S E A) : Event ι C E → Machine ι C T S E A
  | .start p c => s.take K p c
  | .go p fault => s.advance K p fault

/-- The next operations of one process, without faults. -/
def segment (s : Machine ι C T S E A) (p : ι) (n : Nat) : Machine ι C T S E A :=
  match s.process p with
  | some ⟨c, script⟩ => s.set p (script.steps n s.shared).2 (some ⟨c, (script.steps n s.shared).1⟩)
  | none => s

theorem set_self {s : Machine ι C T S E A} {p : ι} : s.set p s.shared (s.process p) = s := by
  simp [set]

/-- The run of a segment. -/
theorem run_segment {s : Machine ι C T S E A} {p : ι} {n : Nat} :
    run (step K) s (List.replicate n (.go p .done)) = s.segment p n := by
  induction n generalizing s with
  | zero =>
    unfold segment
    rcases process : s.process p with _ | ⟨c, a | e | ⟨op, next, failed⟩⟩ <;>
      simp only [Script.steps, List.replicate_zero, run_nil] <;> rw [← process, set_self]
  | succ n ih =>
    rw [List.replicate_succ, run_cons, ih]
    change (s.advance K p .done).segment p n = _
    unfold advance
    rcases process : s.process p with _ | ⟨c, a | e | ⟨op, next, failed⟩⟩ <;> simp only
    · simp [segment, process]
    · cases n <;> simp [segment, process, Script.steps]
    · cases n <;> simp [segment, process, Script.steps]
    · by_cases ready : op.ready s.shared = true
      · rw [if_pos ready]
        simp [segment, process, Script.steps, ready, set, Function.update_idem]
      · rw [if_neg ready]
        cases n <;> simp [segment, process, Script.steps, ready]

/-- A call, and so many of its operations. -/
structure Stretch (ι C : Type) where
  process : ι
  call : C
  operations : Nat

def Stretch.labels (x : Stretch ι C) : List (Event ι C E) :=
  .start x.process x.call :: List.replicate x.operations (.go x.process .done)

def stretch (s : Machine ι C T S E A) (x : Stretch ι C) : Machine ι C T S E A :=
  (s.take K x.process x.call).segment x.process x.operations

theorem stretch_idle {s : Machine ι C T S E A} {x : Stretch ι C}
    (idle : s.nextTag x.process = none) :
    s.stretch K x =
      s.set x.process ((K.program x.process x.call).steps x.operations s.shared).2
        (some ⟨x.call, ((K.program x.process x.call).steps x.operations s.shared).1⟩) := by
  rw [stretch, take_idle K idle]
  simp [segment, set]

theorem run_stretches {s : Machine ι C T S E A} {stretches : List (Stretch ι C)} :
    run (step K) s (stretches.flatMap Stretch.labels) = stretches.foldl (stretch K) s := by
  induction stretches generalizing s with
  | nil => rfl
  | cons x rest ih =>
    rw [List.flatMap_cons, run_append, ih]
    change rest.foldl (stretch K) (run (step K) (s.take K x.process x.call) _) = _
    rw [run_segment]
    rfl

/-- What a run may do: which calls are made where, and how each operation may go there. -/
structure Permit (ι C T S E : Type) where
  starts : ι → C → S → Prop
  goes : ι → T → Fault E → S → Prop

def Permitted (M : Permit ι C T S E) (s : Machine ι C T S E A) : Event ι C E → Prop
  | .start p c => M.starts p c s.shared
  | .go p fault => ∀ c op next failed, s.process p = some ⟨c, .act op next failed⟩ →
      M.goes p op.tag fault s.shared

omit [DecidableEq ι] in
theorem permitted_go {M : Permit ι C T S E} {s : Machine ι C T S E A} {p : ι} {fault : Fault E}
    (allowed : ∀ tag, s.nextTag p = some tag → M.goes p tag fault s.shared) :
    Permitted M s (.go p fault) := by
  intro c op next failed there
  refine allowed op.tag ?_
  rw [nextTag, there]

end Machine

/-- What each process may assume of the others, and what all of them keep. -/
structure Discipline (ι C S : Type) where
  inv : S → Prop
  /-- What the others may do between two operations of a process. -/
  rely : ι → S → S → Prop
  /-- The process has nothing in hand. -/
  rest : ι → S → Prop
  /-- What an operation of a process in this call may do. -/
  good : ι → C → S → S → Prop
  rely_refl : ∀ p s, rely p s s
  rely_trans : ∀ {p s t u}, rely p s t → rely p t u → rely p s u
  rest_rely : ∀ {p s t}, rest p s → rely p s t → rest p t
  good_refl : ∀ p c s, good p c s s

namespace Discipline

variable (D : Discipline ι C S)

/-- A step of the process that the invariant, its call and every other process allow. -/
structure Guarantee (p : ι) (c : C) (s t : S) : Prop where
  inv : D.inv t
  good : D.good p c s t
  others : ∀ q, q ≠ p → D.rely q s t

theorem guarantee_refl {p : ι} {c : C} {s : S} (inv : D.inv s) : D.Guarantee p c s s :=
  ⟨inv, D.good_refl p c s, fun q _ => D.rely_refl q s⟩

end Discipline

section Judgement

variable (D : Discipline ι C S) (goes : T → Fault E → S → Prop) (p : ι) (c : C)

/-- The process is safe from the state on: it ends where `Q`, or `X` if it raises, holds. -/
def Safe (Q : A → S → Prop) (X : E → S → Prop) : Script T S E A → S → Prop
  | .ret a, s => ∀ t, D.inv t → D.rely p s t → Q a t
  | .raise e, s => ∀ t, D.inv t → D.rely p s t → X e t
  | .act op next failed, s => ∀ t, D.inv t → D.rely p s t →
    (op.ready t = true → goes op.tag .done t →
      D.Guarantee p c t (op.change t) ∧ Safe Q X (next t) (op.change t)) ∧
    (∀ e, op.raises ≠ .never → goes op.tag (.before e) t → Safe Q X (failed e) t) ∧
    (∀ e, op.raises = .either → op.ready t = true → goes op.tag (.after e) t →
      D.Guarantee p c t (op.change t) ∧ Safe Q X (failed e) (op.change t))

/-- A process that starts the script where `P` holds is safe. -/
def Triple (P : S → Prop) (script : Script T S E A) (Q : A → S → Prop) (X : E → S → Prop) : Prop :=
  ∀ s, D.inv s → P s → Safe D goes p c Q X script s

/-- What the others leave alone. -/
def Stable (P : S → Prop) : Prop := ∀ s t, P s → D.inv t → D.rely p s t → P t

variable {D goes p c} {P P' : S → Prop} {Q Q' : A → S → Prop} {R : B → S → Prop}
  {X X' : E → S → Prop} {s t : S} {x : Script T S E A}

theorem Safe.stable (safe : Safe D goes p c Q X x s) (rely : D.rely p s t) :
    Safe D goes p c Q X x t := by
  cases x with
  | ret a => exact fun u invU relyU => safe u invU (D.rely_trans rely relyU)
  | raise e => exact fun u invU relyU => safe u invU (D.rely_trans rely relyU)
  | act op next failed => exact fun u invU relyU => safe u invU (D.rely_trans rely relyU)

theorem Safe.weaken (safe : Safe D goes p c Q X x s) (post : ∀ a t, D.inv t → Q a t → Q' a t)
    (error : ∀ e t, D.inv t → X e t → X' e t) : Safe D goes p c Q' X' x s := by
  induction x generalizing s with
  | ret a => exact fun t inv rely => post a t inv (safe t inv rely)
  | raise e => exact fun t inv rely => error e t inv (safe t inv rely)
  | act op next failed ihNext ihFailed =>
    intro t inv rely
    obtain ⟨done, early, late⟩ := safe t inv rely
    refine ⟨?_, ?_, ?_⟩
    · intro ready allowed
      exact ⟨(done ready allowed).1, ihNext t (done ready allowed).2⟩
    · intro e may allowed
      exact ihFailed e (early e may allowed)
    · intro e may ready allowed
      exact ⟨(late e may ready allowed).1, ihFailed e (late e may ready allowed).2⟩

theorem Safe.bind {f : A → Script T S E B} (inv : D.inv s)
    (first : Safe D goes p c (fun a t => Safe D goes p c R X (f a) t) X x s) :
    Safe D goes p c R X (x >>= f) s := by
  change Safe D goes p c R X (x.bind f) s
  induction x generalizing s with
  | ret a => exact first s inv (D.rely_refl p s)
  | raise e => exact first
  | act op next failed ihNext ihFailed =>
    intro t invT rely
    obtain ⟨done, early, late⟩ := first t invT rely
    refine ⟨?_, ?_, ?_⟩
    · intro ready allowed
      obtain ⟨kept, safe⟩ := done ready allowed
      exact ⟨kept, ihNext t kept.inv safe⟩
    · intro e may allowed
      exact ihFailed e invT (early e may allowed)
    · intro e may ready allowed
      obtain ⟨kept, safe⟩ := late e may ready allowed
      exact ⟨kept, ihFailed e kept.inv safe⟩

theorem Safe.handle {handler : E → Script T S E A} (inv : D.inv s)
    (first : Safe D goes p c Q (fun e t => Safe D goes p c Q X (handler e) t) x s) :
    Safe D goes p c Q X (x.handle handler) s := by
  induction x generalizing s with
  | ret a => exact first
  | raise e => exact first s inv (D.rely_refl p s)
  | act op next failed ihNext ihFailed =>
    intro t invT rely
    obtain ⟨done, early, late⟩ := first t invT rely
    refine ⟨?_, ?_, ?_⟩
    · intro ready allowed
      obtain ⟨kept, safe⟩ := done ready allowed
      exact ⟨kept, ihNext t kept.inv safe⟩
    · intro e may allowed
      exact ihFailed e invT (early e may allowed)
    · intro e may ready allowed
      obtain ⟨kept, safe⟩ := late e may ready allowed
      exact ⟨kept, ihFailed e kept.inv safe⟩

namespace Triple

theorem weaken (spec : Triple D goes p c P x Q X) (pre : ∀ s, D.inv s → P' s → P s)
    (post : ∀ a s, D.inv s → Q a s → Q' a s) (error : ∀ e s, D.inv s → X e s → X' e s) :
    Triple D goes p c P' x Q' X' :=
  fun s inv start => (spec s inv (pre s inv start)).weaken post error

theorem ret {a : A} (stable : Stable D p P) (post : ∀ s, D.inv s → P s → Q a s) :
    Triple D goes p c P (pure a : Script T S E A) Q X :=
  fun s _ start t inv rely => post t inv (stable s t start inv rely)

theorem raise {e : E} (stable : Stable D p P) (error : ∀ s, D.inv s → P s → X e s) :
    Triple D goes p c P (.raise e : Script T S E A) Q X :=
  fun s _ start t inv rely => error t inv (stable s t start inv rely)

theorem bind {f : A → Script T S E B} (first : Triple D goes p c P x Q X)
    (later : ∀ a, Triple D goes p c (Q a) (f a) R X) : Triple D goes p c P (x >>= f) R X :=
  fun s inv start => Safe.bind inv ((first s inv start).weaken (fun a t invT q => later a t invT q)
    fun _ _ _ error => error)

theorem handle {handler : E → Script T S E A} {Y : E → S → Prop} (body : Triple D goes p c P x Q Y)
    (caught : ∀ e, Triple D goes p c (Y e) (handler e) Q X) :
    Triple D goes p c P (x.handle handler) Q X :=
  fun s inv start => Safe.handle inv ((body s inv start).weaken (fun _ _ _ q => q)
    fun e t invT error => caught e t invT error)

/-- What a precondition says of no state may be used at once. -/
theorem of_pure {B : Prop} (spec : B → Triple D goes p c P x Q X) :
    Triple D goes p c (fun s => B ∧ P s) x Q X :=
  fun s inv ⟨known, start⟩ => spec known s inv start

theorem attempt {Y : E → S → Prop} (body : Triple D goes p c P x Q X)
    (stableQ : ∀ a, Stable D p (Q a)) (stableX : ∀ e, Stable D p (X e)) :
    Triple D goes p c P x.attempt (fun r s => (∃ a, r = .ok a ∧ Q a s) ∨ ∃ e, r = .error e ∧ X e s)
      Y := by
  refine Triple.handle (Y := X) (body.bind fun a => ?_) fun e => ?_
  · exact ret (stableQ a) fun s _ q => .inl ⟨a, rfl, q⟩
  · exact ret (stableX e) fun s _ x => .inr ⟨e, rfl, x⟩

/-- One operation that gives what it saw. -/
theorem observe {op : Op T S} {read : S → A} (stable : Stable D p P)
    (done : ∀ s, D.inv s → P s → op.ready s = true → goes op.tag .done s →
      D.Guarantee p c s (op.change s) ∧ Q (read s) (op.change s))
    (early : op.raises ≠ .never → ∀ e s, D.inv s → P s → goes op.tag (.before e) s → X e s)
    (late : op.raises = .either → ∀ e s, D.inv s → P s → op.ready s = true →
      goes op.tag (.after e) s → D.Guarantee p c s (op.change s) ∧ X e (op.change s))
    (stableQ : ∀ a, Stable D p (Q a)) (stableX : ∀ e, Stable D p (X e)) :
    Triple D goes p c P (.act op (fun s => pure (read s)) .raise) Q X := by
  intro s _ start t invT rely
  have here := stable s t start invT rely
  refine ⟨?_, ?_, ?_⟩
  · intro ready allowed
    obtain ⟨kept, post⟩ := done t invT here ready allowed
    exact ⟨kept, fun u invU relyU => stableQ _ _ u post invU relyU⟩
  · intro e may allowed u invU relyU
    exact stableX e t u (early may e t invT here allowed) invU relyU
  · intro e may ready allowed
    obtain ⟨kept, error⟩ := late may e t invT here ready allowed
    exact ⟨kept, fun u invU relyU => stableX e _ u error invU relyU⟩

theorem perform {op : Op T S} {Q : Unit → S → Prop} (stable : Stable D p P)
    (done : ∀ s, D.inv s → P s → op.ready s = true → goes op.tag .done s →
      D.Guarantee p c s (op.change s) ∧ Q () (op.change s))
    (early : op.raises ≠ .never → ∀ e s, D.inv s → P s → goes op.tag (.before e) s → X e s)
    (late : op.raises = .either → ∀ e s, D.inv s → P s → op.ready s = true →
      goes op.tag (.after e) s → D.Guarantee p c s (op.change s) ∧ X e (op.change s))
    (stableQ : Stable D p (Q ())) (stableX : ∀ e, Stable D p (X e)) :
    Triple D goes p c P (Script.perform op : Script T S E Unit) Q X :=
  observe stable done early late (fun _ => stableQ) stableX

theorem look {tag : T} {read : S → Except E A} (stable : Stable D p P)
    (ok : ∀ s a, D.inv s → P s → goes tag .done s → read s = .ok a → Q a s)
    (error : ∀ e s, D.inv s → P s → X e s)
    (stableQ : ∀ a, Stable D p (Q a)) (stableX : ∀ e, Stable D p (X e)) :
    Triple D goes p c P (Script.look tag read) Q X := by
  intro s _ start t invT rely
  have here := stable s t start invT rely
  refine ⟨?_, ?_, ?_⟩
  · intro _ allowed
    refine ⟨D.guarantee_refl invT, ?_⟩
    change Safe D goes p c Q X (Script.ofExcept (read t)) t
    cases seen : read t with
    | ok a => exact fun u invU relyU => stableQ a t u (ok t a invT here allowed seen) invU relyU
    | error e => exact fun u invU relyU => stableX e t u (error e t invT here) invU relyU
  · intro e _ _ u invU relyU
    exact stableX e t u (error e t invT here) invU relyU
  · intro e may
    cases may

theorem of_exists {B : Type} {P : B → S → Prop} (spec : ∀ b, Triple D goes p c (P b) x Q X) :
    Triple D goes p c (fun s => ∃ b, P b s) x Q X :=
  fun s inv ⟨b, start⟩ => spec b s inv start

theorem ofExcept {r : Except E A} (stable : Stable D p P)
    (ok : ∀ a s, D.inv s → P s → r = .ok a → Q a s)
    (error : ∀ e s, D.inv s → P s → r = .error e → X e s) :
    Triple D goes p c P (Script.ofExcept r : Script T S E A) Q X := by
  cases r with
  | ok a => exact ret stable fun s inv start => ok a s inv start rfl
  | error e => exact raise stable fun s inv start => error e s inv start rfl

/-- What is held in the body is given back however the body ends. -/
theorem within {enter leave : Op T S} {N : S → Prop} {U : A → S → Prop} {V : E → S → Prop}
    (entered : Triple D goes p c P (Script.perform enter) (fun _ => N) X)
    (body : Triple D goes p c N x U V)
    (left : ∀ a, Triple D goes p c (U a) (Script.perform leave) (fun _ => Q a) X)
    (leftRaising : ∀ e, Triple D goes p c (V e) (Script.perform leave) (fun _ => X e) X)
    (stableQ : ∀ a, Stable D p (Q a)) (stableX : ∀ e, Stable D p (X e)) :
    Triple D goes p c P (Script.within enter leave x) Q X := by
  refine entered.bind fun _ => ?_
  refine Triple.bind (Q := U) ?_ fun a => (left a).bind fun _ => ret (stableQ a) fun _ _ q => q
  exact body.handle fun e => (leftRaising e).bind fun _ => raise (stableX e) fun _ _ x => x

end Triple

/-- The script changes nothing: what the others leave alone holds however it ends. -/
def Quiet (D : Discipline ι C S) (goes : T → Fault E → S → Prop) (p : ι) (c : C)
    (x : Script T S E A) : Prop :=
  ∀ P : S → Prop, Stable D p P → Triple D goes p c P x (fun _ => P) (fun _ => P)

namespace Quiet

theorem ret {a : A} : Quiet D goes p c (pure a : Script T S E A) :=
  fun _ stable => Triple.ret stable fun _ _ start => start

theorem raise {e : E} : Quiet D goes p c (.raise e : Script T S E A) :=
  fun _ stable => Triple.raise stable fun _ _ start => start

theorem look {tag : T} {read : S → Except E A} : Quiet D goes p c (Script.look tag read) :=
  fun _ stable => Triple.look stable (fun _ _ _ start _ _ => start) (fun _ _ _ start => start)
    (fun _ => stable) fun _ => stable

theorem ofExcept {r : Except E A} : Quiet D goes p c (Script.ofExcept r : Script T S E A) :=
  fun _ stable => Triple.ofExcept stable (fun _ _ _ start _ => start) fun _ _ _ start _ => start

theorem bind {f : A → Script T S E B} (first : Quiet D goes p c x)
    (later : ∀ a, Quiet D goes p c (f a)) : Quiet D goes p c (x >>= f) :=
  fun P stable => Triple.bind (first P stable) fun a => later a P stable

theorem ite {condition : Prop} [Decidable condition] {y : Script T S E A}
    (yes : condition → Quiet D goes p c x) (no : ¬ condition → Quiet D goes p c y) :
    Quiet D goes p c (if condition then x else y) := by
  split
  · rename_i here
    exact yes here
  · rename_i here
    exact no here

/-- A script that changes nothing, before another. -/
theorem followed {f : A → Script T S E B} (first : Quiet D goes p c x) (stable : Stable D p P)
    (later : ∀ a, Triple D goes p c P (f a) R X) (error : ∀ e s, D.inv s → P s → X e s) :
    Triple D goes p c P (x >>= f) R X :=
  Triple.bind ((first P stable).weaken (fun _ _ start => start) (fun _ _ _ post => post) error)
    later

end Quiet

end Judgement

namespace Machine

variable [DecidableEq ι] {K : Kernel ι C T S E A} {D : Discipline ι C S} {M : Permit ι C T S E}

/-- Every process is safe, or has nothing in hand. -/
structure Kept (K : Kernel ι C T S E A) (D : Discipline ι C S) (M : Permit ι C T S E)
    (post : C → A → S → Prop) (s : Machine ι C T S E A) : Prop where
  inv : D.inv s.shared
  absent : ∀ p, s.process p = none → D.rest p s.shared
  present : ∀ p c script, s.process p = some ⟨c, script⟩ → (∃ t, M.starts p c t) ∧
    Safe D (M.goes p) p c (fun a t => D.rest p t ∧ post c a t) (fun _ => D.rest p) script s.shared

/-- What has to be shown of a kernel. -/
structure Disciplined (K : Kernel ι C T S E A) (D : Discipline ι C S) (M : Permit ι C T S E)
    (post : C → A → S → Prop) : Prop where
  programs : ∀ p c s, D.inv s → D.rest p s → M.starts p c s →
    Safe D (M.goes p) p c (fun a t => D.rest p t ∧ post c a t) (fun _ => D.rest p)
      (K.program p c) s
  crashes : ∀ p c s, (∃ t, M.starts p c t) → (∃ tag, M.goes p tag .crash s) → D.inv s →
    D.Guarantee p c s (K.release p s) ∧ D.rest p (K.release p s)

variable {post : C → A → S → Prop} {s : Machine ι C T S E A}

/-- The step of one process is in the guarantee: the others go on as before. -/
theorem Kept.set {p : ι} {c : C} {shared : S} {after : Option (Process C T S E A)}
    (kept : Kept K D M post s) (step : D.Guarantee p c s.shared shared)
    (absent : after = none → D.rest p shared)
    (present : ∀ c script, after = some ⟨c, script⟩ → (∃ t, M.starts p c t) ∧
      Safe D (M.goes p) p c (fun a t => D.rest p t ∧ post c a t) (fun _ => D.rest p) script shared) :
    Kept K D M post (s.set p shared after) := by
  refine ⟨step.inv, ?_, ?_⟩
  · intro q gone
    by_cases same : q = p
    · subst same
      exact absent (by simpa [Machine.set] using gone)
    · have before : s.process q = none := by simpa [Machine.set, same] using gone
      exact D.rest_rely (kept.absent q before) (step.others q same)
  · intro q c' script there
    by_cases same : q = p
    · subst same
      exact present c' script (by simpa [Machine.set] using there)
    · have before : s.process q = some ⟨c', script⟩ := by simpa [Machine.set, same] using there
      obtain ⟨started, safe⟩ := kept.present q c' script before
      exact ⟨started, safe.stable (step.others q same)⟩

theorem Kept.step (rules : Disciplined K D M post) (kept : Kept K D M post s) {l : Event ι C E}
    (permitted : Permitted M s l) : Kept K D M post (s.step K l) := by
  cases l with
  | start p c =>
    have begun : D.rest p s.shared → Kept K D M post (s.set p s.shared (some ⟨c, K.program p c⟩)) := by
      intro resting
      refine kept.set (c := c) (D.guarantee_refl kept.inv) (by simp) ?_
      intro c' script same
      cases same
      exact ⟨⟨s.shared, permitted⟩, rules.programs p c s.shared kept.inv resting permitted⟩
    change Kept K D M post (s.take K p c)
    unfold take
    rcases process : s.process p with _ | ⟨c', a | e | ⟨op, next, failed⟩⟩ <;> simp only
    · exact begun (kept.absent p process)
    · exact begun ((kept.present p c' _ process).2 s.shared kept.inv (D.rely_refl p _)).1
    · exact begun ((kept.present p c' _ process).2 s.shared kept.inv (D.rely_refl p _))
    · exact kept
  | go p fault =>
    change Kept K D M post (s.advance K p fault)
    unfold advance
    rcases process : s.process p with _ | ⟨c, a | e | ⟨op, next, failed⟩⟩ <;> simp only
    · exact kept
    · exact kept
    · exact kept
    · have allowed := permitted c op next failed process
      obtain ⟨started, safe⟩ := kept.present p c _ process
      obtain ⟨done, early, late⟩ := safe s.shared kept.inv (D.rely_refl p _)
      cases fault with
      | done =>
        simp only
        split
        · rename_i ready
          obtain ⟨step, safe⟩ := done ready allowed
          exact kept.set step (by simp) fun c' script same => by cases same; exact ⟨started, safe⟩
        · exact kept
      | before e =>
        simp only
        split
        · exact kept
        · rename_i may
          exact kept.set (c := c) (D.guarantee_refl kept.inv) (by simp) fun c' script same => by
            cases same
            exact ⟨started, early e may allowed⟩
      | after e =>
        simp only
        split
        · rename_i both
          obtain ⟨step, safe⟩ := late e both.1 both.2 allowed
          exact kept.set step (by simp) fun c' script same => by cases same; exact ⟨started, safe⟩
        · exact kept
      | crash =>
        obtain ⟨step, resting⟩ := rules.crashes p c s.shared started ⟨_, allowed⟩ kept.inv
        exact kept.set step (fun _ => resting) (by simp)

omit [DecidableEq ι] in
/-- A process between two calls has nothing in hand. -/
theorem Kept.resting (kept : Kept K D M post s) {p : ι} (idle : s.nextTag p = none) :
    D.rest p s.shared := by
  unfold nextTag at idle
  rcases process : s.process p with _ | ⟨c, a | e | ⟨op, next, failed⟩⟩
  · exact kept.absent p process
  · exact ((kept.present p c _ process).2 s.shared kept.inv (D.rely_refl p _)).1
  · exact (kept.present p c _ process).2 s.shared kept.inv (D.rely_refl p _)
  · rw [process] at idle
    cases idle

/-- A step leaves the state alone, or is one that the call of its process may make. -/
theorem Kept.effect (rules : Disciplined K D M post) (kept : Kept K D M post s) {l : Event ι C E}
    (permitted : Permitted M s l) : (s.step K l).shared = s.shared ∨
      ∃ p c fault script, l = .go p fault ∧ s.process p = some ⟨c, script⟩ ∧
        D.good p c s.shared (s.step K l).shared := by
  cases l with
  | start p c =>
    left
    change (s.take K p c).shared = s.shared
    unfold take
    split <;> rfl
  | go p fault =>
    change (s.advance K p fault).shared = s.shared ∨ ∃ p' c' fault' script',
      Event.go p fault = .go p' fault' ∧ s.process p' = some ⟨c', script'⟩ ∧
        D.good p' c' s.shared (s.advance K p fault).shared
    unfold advance
    rcases process : s.process p with _ | ⟨c, a | e | ⟨op, next, failed⟩⟩ <;> simp only
    · exact .inl trivial
    · exact .inl trivial
    · exact .inl trivial
    · have allowed := permitted c op next failed process
      obtain ⟨started, safe⟩ := kept.present p c _ process
      obtain ⟨done, -, late⟩ := safe s.shared kept.inv (D.rely_refl p _)
      cases fault with
      | done =>
        simp only
        split
        · rename_i ready
          exact .inr ⟨p, c, .done, _, rfl, process, (done ready allowed).1.good⟩
        · exact .inl rfl
      | before e =>
        simp only
        split <;> exact .inl rfl
      | after e =>
        simp only
        split
        · rename_i both
          exact .inr ⟨p, c, .after e, _, rfl, process, (late e both.1 both.2 allowed).1.good⟩
        · exact .inl rfl
      | crash =>
        exact .inr ⟨p, c, .crash, _, rfl, process,
          (rules.crashes p c s.shared started ⟨_, allowed⟩ kept.inv).1.good⟩

/-- Every run whose steps are all permitted keeps every process safe. -/
theorem kept (rules : Disciplined K D M post) {labels : List (Event ι C E)}
    (start : Kept K D M post s) (along : Along (step K) (Permitted M) s labels) :
    Throughout (step K) (Kept K D M post) s labels :=
  along.invariant (fun _ _ kept permitted => kept.step rules permitted) start

end Machine

end RepoForge.Scripts
