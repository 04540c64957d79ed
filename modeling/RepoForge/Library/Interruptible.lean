import Mathlib.Logic.Relation

/-!
# Interruptible procedures

A procedure changes a durable state step by step. Its run keeps, beside the final
state and the result, every state it passed through: a crash between two steps
leaves exactly one of these. `Spec` is the crash form of a Hoare triple: next to the
postconditions for a normal return and for a raised error it has a condition for
every state the run passed through. `Attempts` is any finite number of runs of one
procedure, each cut short, and `Spec.attempts` is the rule for recovery procedures
that may themselves be interrupted.
-/
namespace RepoForge.Interruptible

variable {σ τ ε α β : Type}

structure Outcome (σ ε α : Type) where
  visited : List σ
  state : σ
  result : Except ε α

def Proc (σ ε α : Type) : Type := σ → Outcome σ ε α

namespace Proc

def ret (value : α) : Proc σ ε α := fun s => ⟨[], s, .ok value⟩

def raise (error : ε) : Proc σ ε α := fun s => ⟨[], s, .error error⟩

def andThen (first : Proc σ ε α) (next : α → Proc σ ε β) : Proc σ ε β := fun s =>
  match (first s).result with
  | .ok value =>
    let rest := next value (first s).state
    ⟨(first s).visited ++ rest.visited, rest.state, rest.result⟩
  | .error error => ⟨(first s).visited, (first s).state, .error error⟩

instance : Monad (Proc σ ε) where
  pure := ret
  bind := andThen

instance : LawfulMonad (Proc σ ε) := LawfulMonad.mk' (Proc σ ε)
  (fun x => by
    funext s
    change andThen x (ret ∘ id) s = x s
    unfold andThen
    cases h : (x s).result with
    | ok value => simp [ret, ← h]
    | error e => simp [← h])
  (fun _ _ => rfl)
  (fun x f g => by
    funext s
    change andThen (andThen x f) g s = andThen x (fun a => andThen (f a) g) s
    cases h : (x s).result with
    | error e => simp [andThen, h]
    | ok value =>
      cases k : (f value (x s).state).result with
      | error e => simp [andThen, h, k]
      | ok next => simp [andThen, h, k])

/-- One atomic change of the state, which may be refused. -/
def step (change : σ → Except ε σ) : Proc σ ε Unit := fun s =>
  match change s with
  | .ok next => ⟨[next], next, .ok ()⟩
  | .error error => ⟨[], s, .error error⟩

/-- Look at the state without changing it. -/
def check (look : σ → Except ε α) : Proc σ ε α := fun s => ⟨[], s, look s⟩

def inspect (look : σ → α) : Proc σ ε α := fun s => ⟨[], s, .ok (look s)⟩

/-- Run a handler where the body raised; the handler sees the state the body left. -/
def handle (body : Proc σ ε α) (handler : ε → Proc σ ε α) : Proc σ ε α := fun s =>
  match (body s).result with
  | .ok value => ⟨(body s).visited, (body s).state, .ok value⟩
  | .error error =>
    let rest := handler error (body s).state
    ⟨(body s).visited ++ rest.visited, rest.state, rest.result⟩

/-- The same run with its error under another name. -/
def mapError {ε' : Type} (rename : ε → ε') (body : Proc σ ε α) : Proc σ ε' α := fun s =>
  ⟨(body s).visited, (body s).state, (body s).result.mapError rename⟩

/-- Run a procedure on a part of a larger state. -/
def zoom (get : τ → σ) (put : τ → σ → τ) (body : Proc σ ε α) : Proc τ ε α := fun t =>
  ⟨(body (get t)).visited.map (put t), put t (body (get t)).state, (body (get t)).result⟩

section Runs

variable {first body : Proc σ ε α} {next : α → Proc σ ε β} {handler : ε → Proc σ ε α} {s v : σ}
  {value : α} {last : β} {e : ε}

theorem bind_run (h : (first s).result = .ok value) : (first >>= next) s =
    ⟨(first s).visited ++ (next value (first s).state).visited, (next value (first s).state).state,
      (next value (first s).state).result⟩ := by
  simp [Bind.bind, andThen, h]

theorem bind_run_error (h : (first s).result = .error e) : (first >>= next) s =
    ⟨(first s).visited, (first s).state, .error e⟩ := by
  simp [Bind.bind, andThen, h]

theorem bind_returns (h : ((first >>= next) s).result = .ok last) :
    ∃ value, (first s).result = .ok value ∧ (next value (first s).state).result = .ok last ∧
      ((first >>= next) s).state = (next value (first s).state).state := by
  cases hr : (first s).result with
  | ok value =>
    rw [bind_run hr] at h ⊢
    exact ⟨value, rfl, h, rfl⟩
  | error e =>
    rw [bind_run_error hr] at h
    cases h

theorem visited_bind_left (h : v ∈ (first s).visited) : v ∈ ((first >>= next) s).visited := by
  cases hr : (first s).result with
  | ok value =>
    rw [bind_run hr]
    exact List.mem_append_left _ h
  | error e =>
    rw [bind_run_error hr]
    exact h

theorem visited_bind_right (hr : (first s).result = .ok value)
    (h : v ∈ (next value (first s).state).visited) : v ∈ ((first >>= next) s).visited := by
  rw [bind_run hr]
  exact List.mem_append_right _ h

theorem handle_run (h : (body s).result = .ok value) : handle body handler s = body s := by
  unfold handle
  rw [h]
  simp only
  rw [← h]

theorem visited_handle (h : v ∈ (body s).visited) : v ∈ (handle body handler s).visited := by
  cases hr : (body s).result with
  | ok value =>
    rw [handle_run hr]
    exact h
  | error e =>
    simp only [handle, hr]
    exact List.mem_append_left _ h

end Runs

end Proc

open Proc

/-- Started where `P` holds, the run passes only through states satisfying `C`, a
normal return satisfies `Q`, and a raised error satisfies `E`. -/
structure Spec (P : σ → Prop) (body : Proc σ ε α) (Q : α → σ → Prop) (E : ε → σ → Prop)
    (C : σ → Prop) : Prop where
  visits : ∀ s, P s → ∀ v ∈ (body s).visited, C v
  returns : ∀ s, P s → ∀ value, (body s).result = .ok value → Q value (body s).state
  raises : ∀ s, P s → ∀ error, (body s).result = .error error → E error (body s).state

namespace Spec

variable {P P' : σ → Prop} {Q Q' : α → σ → Prop} {R : β → σ → Prop} {E E' : ε → σ → Prop}
  {C C' : σ → Prop} {body : Proc σ ε α}

theorem weaken (spec : Spec P body Q E C) (pre : ∀ s, P' s → P s)
    (post : ∀ value s, Q value s → Q' value s) (error : ∀ e s, E e s → E' e s)
    (crash : ∀ s, C s → C' s) : Spec P' body Q' E' C' :=
  ⟨fun s hs v hv => crash v (spec.visits s (pre s hs) v hv),
    fun s hs value hr => post value _ (spec.returns s (pre s hs) value hr),
    fun s hs e hr => error e _ (spec.raises s (pre s hs) e hr)⟩

theorem ret (value : α) (post : ∀ s, P s → Q value s) :
    Spec P (pure value : Proc σ ε α) Q E C := by
  refine ⟨?_, ?_, ?_⟩
  · intro s _ v hv
    simp [pure, Proc.ret] at hv
  · intro s hs other hr
    simp only [pure, Proc.ret, Except.ok.injEq] at hr ⊢
    exact hr ▸ post s hs
  · intro s _ e hr
    simp [pure, Proc.ret] at hr

theorem raise (error : ε) (raised : ∀ s, P s → E error s) :
    Spec P (Proc.raise error : Proc σ ε α) Q E C := by
  refine ⟨?_, ?_, ?_⟩
  · intro s _ v hv
    simp [Proc.raise] at hv
  · intro s _ value hr
    simp [Proc.raise] at hr
  · intro s hs e hr
    simp only [Proc.raise, Except.error.injEq] at hr ⊢
    exact hr ▸ raised s hs

theorem bind {next : α → Proc σ ε β} (first : Spec P body Q E C)
    (rest : ∀ value, Spec (Q value) (next value) R E C) : Spec P (body >>= next) R E C := by
  change Spec P (andThen body next) R E C
  refine ⟨?_, ?_, ?_⟩
  · intro s hs v hv
    unfold andThen at hv
    split at hv
    · rename_i value hr
      rcases List.mem_append.mp hv with hv | hv
      · exact first.visits s hs v hv
      · exact (rest value).visits _ (first.returns s hs value hr) v hv
    · exact first.visits s hs v hv
  · intro s hs out hout
    unfold andThen at hout ⊢
    split at hout
    · rename_i value hr
      simp only at hout ⊢
      exact (rest value).returns _ (first.returns s hs value hr) out hout
    · cases hout
  · intro s hs e hout
    unfold andThen at hout ⊢
    split at hout
    · rename_i value hr
      simp only at hout ⊢
      exact (rest value).raises _ (first.returns s hs value hr) e hout
    · rename_i other hr
      simp only at hout ⊢
      cases hout
      exact first.raises s hs e hr

theorem step {change : σ → Except ε σ} {Q : Unit → σ → Prop}
    (applied : ∀ s, P s → ∀ next, change s = .ok next → C next ∧ Q () next)
    (refused : ∀ s, P s → ∀ e, change s = .error e → E e s) :
    Spec P (Proc.step change) Q E C := by
  refine ⟨?_, ?_, ?_⟩
  · intro s hs v hv
    unfold Proc.step at hv
    split at hv
    · rename_i next hc
      simp only [List.mem_singleton] at hv
      exact hv ▸ (applied s hs next hc).1
    · simp at hv
  · intro s hs value hr
    unfold Proc.step at hr ⊢
    split at hr
    · rename_i next hc
      simp only
      exact (applied s hs next hc).2
    · cases hr
  · intro s hs e hr
    unfold Proc.step at hr ⊢
    split at hr
    · cases hr
    · rename_i other hc
      simp only [Except.error.injEq] at hr ⊢
      exact hr ▸ refused s hs other hc

theorem check {look : σ → Except ε α}
    (passed : ∀ s, P s → ∀ value, look s = .ok value → Q value s)
    (refused : ∀ s, P s → ∀ e, look s = .error e → E e s) :
    Spec P (Proc.check look) Q E C :=
  ⟨fun _ _ v hv => by simp [Proc.check] at hv, fun s hs value hr => passed s hs value hr,
    fun s hs e hr => refused s hs e hr⟩

theorem inspect {look : σ → α} (seen : ∀ s, P s → Q (look s) s) :
    Spec P (Proc.inspect look) Q E C := by
  refine ⟨?_, ?_, ?_⟩
  · intro s _ v hv
    simp [Proc.inspect] at hv
  · intro s hs value hr
    simp only [Proc.inspect, Except.ok.injEq] at hr ⊢
    exact hr ▸ seen s hs
  · intro s _ e hr
    simp [Proc.inspect] at hr

/-- A specification may be proved from each starting state apart. -/
theorem pointwise (each : ∀ s, P s → Spec (· = s) body Q E C) : Spec P body Q E C :=
  ⟨fun s hs => (each s hs).visits s rfl, fun s hs => (each s hs).returns s rfl,
    fun s hs => (each s hs).raises s rfl⟩

/-- Two procedures that run alike from a state satisfy the same specifications there. -/
theorem of_run_eq {other : Proc σ ε α} {s : σ} (same : body s = other s)
    (spec : Spec (· = s) other Q E C) : Spec (· = s) body Q E C := by
  refine ⟨?_, ?_, ?_⟩
  · rintro _ rfl
    rw [same]
    exact spec.visits _ rfl
  · rintro _ rfl
    rw [same]
    exact spec.returns _ rfl
  · rintro _ rfl
    rw [same]
    exact spec.raises _ rfl

/-- A procedure that never raises returns. -/
theorem completes (spec : Spec P body Q (fun _ _ => False) C) {s : σ} (start : P s) :
    ∃ value, (body s).result = .ok value ∧ Q value (body s).state := by
  cases hr : (body s).result with
  | ok value => exact ⟨value, rfl, spec.returns s start value hr⟩
  | error e => exact (spec.raises s start e hr).elim

/-- A run ends where it ends. -/
theorem run {s : σ} : Spec (· = s) body (fun value t => (body s).result = .ok value ∧
      t = (body s).state) (fun e t => (body s).result = .error e ∧ t = (body s).state)
    (· ∈ (body s).visited) := by
  refine ⟨?_, ?_, ?_⟩
  · rintro _ rfl v hv
    exact hv
  · rintro _ rfl value hr
    exact ⟨hr, rfl⟩
  · rintro _ rfl e hr
    exact ⟨hr, rfl⟩

/-- Two specifications of one procedure hold together. -/
theorem both {Q₂ : α → σ → Prop} {E₂ : ε → σ → Prop} {C₂ : σ → Prop} (spec : Spec P body Q E C)
    (spec₂ : Spec P body Q₂ E₂ C₂) :
    Spec P body (fun value s => Q value s ∧ Q₂ value s) (fun e s => E e s ∧ E₂ e s)
      (fun s => C s ∧ C₂ s) :=
  ⟨fun s hs v hv => ⟨spec.visits s hs v hv, spec₂.visits s hs v hv⟩,
    fun s hs value hr => ⟨spec.returns s hs value hr, spec₂.returns s hs value hr⟩,
    fun s hs e hr => ⟨spec.raises s hs e hr, spec₂.raises s hs e hr⟩⟩

theorem mapError {ε' : Type} {F : ε' → σ → Prop} (rename : ε → ε') (spec : Spec P body Q E C)
    (error : ∀ e s, E e s → F (rename e) s) : Spec P (Proc.mapError rename body) Q F C := by
  refine ⟨spec.visits, ?_, ?_⟩
  · intro s hs value hr
    cases h : (body s).result with
    | ok got =>
      rw [Proc.mapError, h] at hr
      cases hr
      exact spec.returns s hs value h
    | error e =>
      rw [Proc.mapError, h] at hr
      cases hr
  · intro s hs e hr
    cases h : (body s).result with
    | ok got =>
      rw [Proc.mapError, h] at hr
      cases hr
    | error cause =>
      rw [Proc.mapError, h] at hr
      cases hr
      exact error cause _ (spec.raises s hs cause h)

/-- The precondition may be split on a fact about the starting state. -/
theorem split (F : σ → Prop) (yes : Spec (fun s => P s ∧ F s) body Q E C)
    (no : Spec (fun s => P s ∧ ¬ F s) body Q E C) : Spec P body Q E C := by
  refine ⟨?_, ?_, ?_⟩
  · intro s hs
    by_cases hf : F s
    · exact yes.visits s ⟨hs, hf⟩
    · exact no.visits s ⟨hs, hf⟩
  · intro s hs
    by_cases hf : F s
    · exact yes.returns s ⟨hs, hf⟩
    · exact no.returns s ⟨hs, hf⟩
  · intro s hs
    by_cases hf : F s
    · exact yes.raises s ⟨hs, hf⟩
    · exact no.raises s ⟨hs, hf⟩

theorem handle {handler : ε → Proc σ ε α} (first : Spec P body Q E C)
    (caught : ∀ e, Spec (E e) (handler e) Q E' C) : Spec P (Proc.handle body handler) Q E' C := by
  refine ⟨?_, ?_, ?_⟩
  · intro s hs v hv
    unfold Proc.handle at hv
    split at hv
    · exact first.visits s hs v hv
    · rename_i e hr
      rcases List.mem_append.mp hv with hv | hv
      · exact first.visits s hs v hv
      · exact (caught e).visits _ (first.raises s hs e hr) v hv
  · intro s hs value hout
    unfold Proc.handle at hout ⊢
    split at hout
    · rename_i got hr
      simp only [Except.ok.injEq] at hout ⊢
      exact hout ▸ first.returns s hs got hr
    · rename_i e hr
      simp only at hout ⊢
      exact (caught e).returns _ (first.raises s hs e hr) value hout
  · intro s hs e hout
    unfold Proc.handle at hout ⊢
    split at hout
    · cases hout
    · rename_i other hr
      simp only at hout ⊢
      exact (caught other).raises _ (first.raises s hs other hr) e hout

end Spec

/-- A run cut short leaves the state it started from or one it passed through. -/
def InterruptedAt (body : Proc σ ε α) (s v : σ) : Prop := v = s ∨ v ∈ (body s).visited

/-! ### Cuts by number

A cut is the number of changes after which the run stops, `none` where it does not. -/

def stopped (body : Proc σ ε α) (cut : Option Nat) (s : σ) : σ :=
  match cut with
  | none => (body s).state
  | some n => (s :: (body s).visited)[n]?.getD (body s).state

section Cuts

variable {body first : Proc σ ε α} {next : α → Proc σ ε β} {s : σ} {value : α} {n : Nat}

theorem stopped_some : stopped body (some n) s =
    (s :: (body s).visited)[n]?.getD (body s).state := rfl

theorem stopped_cases (cut : Option Nat) :
    stopped body cut s = (body s).state ∨ InterruptedAt body s (stopped body cut s) := by
  cases cut with
  | none => exact .inl rfl
  | some n =>
    rw [stopped_some]
    by_cases inside : n < (s :: (body s).visited).length
    · right
      rw [List.getElem?_eq_getElem inside]
      exact List.mem_cons.mp (List.getElem_mem inside)
    · left
      rw [List.getElem?_eq_none (Nat.not_lt.mp inside)]
      rfl

/-- A run that is not cut is cut after its end. -/
theorem stopped_none (late : (body s).visited.length < n) :
    stopped body none s = stopped body (some n) s := by
  rw [stopped_some, List.getElem?_eq_none late]
  rfl

/-- What holds in every state of a run and at its end holds where it is cut. -/
theorem Spec.stopped {P C : σ → Prop} {Q : α → σ → Prop} {E : ε → σ → Prop}
    (spec : Spec P body Q E C) (start : P s) (before : C s) (returned : ∀ a t, Q a t → C t)
    (raised : ∀ e t, E e t → C t) (cut : Option Nat) : C (stopped body cut s) := by
  rcases @stopped_cases _ _ _ body s cut with whole | same | inside
  · rw [whole]
    cases result : (body s).result with
    | ok a => exact returned a _ (spec.returns s start a result)
    | error e => exact raised e _ (spec.raises s start e result)
  · rw [same]
    exact before
  · exact spec.visits s start _ inside

/-- Only looking is never seen in a cut. -/
theorem stopped_inspect {look : σ → α} :
    stopped (Proc.inspect look >>= next) (some n) s = stopped (next (look s)) (some n) s := by
  rw [stopped_some, stopped_some, @Proc.bind_run _ _ _ _ _ _ s (look s) rfl]
  rfl

theorem stopped_check {look : σ → Except ε α} (seen : look s = .ok value) :
    stopped (Proc.check look >>= next) (some n) s = stopped (next value) (some n) s := by
  rw [stopped_some, stopped_some, @Proc.bind_run _ _ _ _ _ _ s value seen]
  rfl

theorem stopped_check_error {look : σ → Except ε α} {e : ε} (seen : look s = .error e) :
    stopped (Proc.check look >>= next) (some n) s = s := by
  rw [stopped_some, Proc.bind_run_error (s := s) (e := e) seen]
  cases n <;> rfl

theorem stopped_raise {e : ε} (cut : Option Nat) :
    stopped (Proc.raise e : Proc σ ε α) cut s = s := by
  cases cut with
  | none => rfl
  | some n => cases n <;> rfl

theorem stopped_pure {a : α} (cut : Option Nat) : stopped (pure a : Proc σ ε α) cut s = s := by
  cases cut with
  | none => rfl
  | some n => cases n <;> rfl

/-- What a run makes of its result is not seen in a cut. -/
theorem stopped_map {β : Type} {f : α → β} (cut : Option Nat) :
    stopped (body >>= fun a => pure (f a)) cut s = stopped body cut s := by
  have same : ((body >>= fun a => pure (f a)) s).visited = (body s).visited ∧
      ((body >>= fun a => pure (f a)) s).state = (body s).state := by
    cases result : (body s).result with
    | ok a =>
      rw [Proc.bind_run result]
      exact ⟨List.append_nil _, rfl⟩
    | error e =>
      rw [Proc.bind_run_error result]
      exact ⟨rfl, rfl⟩
  cases cut with
  | none => exact same.2
  | some n => rw [stopped_some, stopped_some, same.1, same.2]

/-- Every cut is a cut by number; where there is none, the number is as large as one likes. -/
theorem stopped_number (body : Proc σ ε α) (cut : Option Nat) (s : σ) (bound : Nat) :
    ∃ n, stopped body cut s = stopped body (some n) s ∧ (cut = some n ∨ cut = none ∧ bound < n) := by
  cases cut with
  | none =>
    have late : (body s).visited.length < (body s).visited.length + bound + 1 := by omega
    exact ⟨_, stopped_none late, .inr ⟨rfl, by omega⟩⟩
  | some n => exact ⟨n, rfl, .inl rfl⟩

end Cuts

/-- Changes that are never refused, one after the other. -/
def changes : List (σ → σ) → Proc σ ε Unit
  | [] => pure ()
  | f :: rest => do
    Proc.step fun s => .ok (f s)
    changes rest

/-- All of a list of changes. -/
def applied (fs : List (σ → σ)) (s : σ) : σ := fs.foldl (fun s f => f s) s

section Changes

variable {fs gs : List (σ → σ)} {s : σ} {n : Nat}

@[simp] theorem applied_nil : applied [] s = s := rfl

@[simp] theorem applied_cons {f : σ → σ} : applied (f :: fs) s = applied fs (f s) := rfl

theorem applied_append : applied (fs ++ gs) s = applied gs (applied fs s) := List.foldl_append

/-- What every change keeps holds after any number of them. -/
theorem applied_keeps {P : σ → Prop} (keeps : ∀ f ∈ fs, ∀ s, P s → P (f s)) (start : P s) :
    P (applied fs s) := by
  induction fs generalizing s with
  | nil => exact start
  | cons f rest ih =>
    exact ih (fun g inside => keeps g (List.mem_cons_of_mem f inside))
      (keeps f List.mem_cons_self s start)

theorem applied_take_keeps {P : σ → Prop} (keeps : ∀ f ∈ fs, ∀ s, P s → P (f s)) (start : P s) :
    P (applied (fs.take n) s) :=
  applied_keeps (fun f inside => keeps f (List.mem_of_mem_take inside)) start

theorem changes_run : (changes fs : Proc σ ε Unit) s =
    ⟨(List.range fs.length).map fun n => applied (fs.take (n + 1)) s, applied fs s, .ok ()⟩ := by
  induction fs generalizing s with
  | nil => rfl
  | cons f rest ih =>
    have first : (Proc.step (fun s => .ok (f s)) : Proc σ ε Unit) s = ⟨[f s], f s, .ok ()⟩ := rfl
    have whole := @Proc.bind_run _ _ _ _ (Proc.step (fun s => .ok (f s)) : Proc σ ε Unit)
      (fun _ => changes rest) s () (by rw [first])
    rw [changes, whole, first]
    dsimp only
    rw [ih, List.length_cons, List.range_succ_eq_map]
    simp

theorem changes_result : ((changes fs : Proc σ ε Unit) s).result = .ok () := by rw [changes_run]

theorem changes_state : ((changes fs : Proc σ ε Unit) s).state = applied fs s := by
  rw [changes_run]

theorem bind_changes {next : Unit → Proc σ ε α} : (changes fs >>= next) s =
    ⟨((changes fs : Proc σ ε Unit) s).visited ++ (next () (applied fs s)).visited,
      (next () (applied fs s)).state, (next () (applied fs s)).result⟩ := by
  rw [Proc.bind_run changes_result, changes_state]

/-- The changes before the cut have happened. -/
theorem stopped_changes :
    stopped (changes fs : Proc σ ε Unit) (some n) s = applied (fs.take n) s := by
  rw [stopped_some, changes_run]
  cases n with
  | zero => rfl
  | succ n =>
    rw [List.getElem?_cons_succ]
    by_cases inside : n < fs.length
    · simp [inside]
    · rw [List.getElem?_eq_none (by simpa using inside), List.take_of_length_le (by omega)]
      rfl

/-- A run that begins with changes is cut among them or later. -/
theorem stopped_bind_changes {next : Unit → Proc σ ε α} :
    stopped (changes fs >>= next) (some n) s =
      if n ≤ fs.length then applied (fs.take n) s
      else stopped (next ()) (some (n - fs.length)) (applied fs s) := by
  have length : ((changes fs : Proc σ ε Unit) s).visited.length = fs.length := by
    simp [changes_run]
  rw [stopped_some, bind_changes, ← List.cons_append]
  split
  · rename_i early
    have inside : n < (s :: ((changes fs : Proc σ ε Unit) s).visited).length := by
      rw [List.length_cons, length]
      omega
    have whole : stopped (changes fs : Proc σ ε Unit) (some n) s = applied (fs.take n) s :=
      stopped_changes
    rw [← whole, stopped_some, List.getElem?_append_left inside, List.getElem?_eq_getElem inside]
    rfl
  · rename_i late
    obtain ⟨k, rfl⟩ : ∃ k, n = fs.length + (k + 1) := ⟨n - fs.length - 1, by omega⟩
    rw [List.getElem?_append_right (by rw [List.length_cons, length]; omega), stopped_some,
      Nat.add_sub_cancel_left, List.getElem?_cons_succ, List.length_cons, length]
    congr 2
    omega

end Changes

/-- Any finite number of runs of one procedure, each cut short. -/
def Attempts (body : Proc σ ε α) : σ → σ → Prop := Relation.ReflTransGen (InterruptedAt body)

/-- An invariant that holds at every crash of a recovery procedure survives any
number of interrupted recoveries. -/
theorem Spec.attempts {I : σ → Prop} {body : Proc σ ε α} {Q : α → σ → Prop} {E : ε → σ → Prop}
    (spec : Spec I body Q E I) {s v : σ} (start : I s) (runs : Attempts body s v) : I v := by
  induction runs with
  | refl => exact start
  | tail _ cut ih =>
    rcases cut with rfl | cut
    · exact ih
    · exact spec.visits _ ih _ cut

end RepoForge.Interruptible
