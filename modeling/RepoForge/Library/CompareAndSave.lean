import Mathlib.Logic.Function.Basic

/-!
# Compare-and-save stores

Records carry a revision, and a record is replaced only under the revision that the writer
has read. A writer is a thread with one call in flight: it reads a record, computes the next
value by a command, and saves. `list` keeps the revision of that first read. `read` keeps
the value only; `compare` then reads again, refuses a record whose stamp is not the one seen,
and takes the revision from there. Between any two of these steps every other thread may
run, and records may be deleted.

`Linked` is what such calls maintain: a call that can still be saved was computed from the
value that stands in the record. It rests on `Advances`, that no command gives two values
of one record the same stamp. `act_effect` is the rule for users of the store: whatever the
interleaving, an action leaves the records alone, deletes one, or applies a command to the
value that stands there.
-/
namespace RepoForge.CompareAndSave

structure Envelope (V : Type) where
  revision : Nat
  value : V
  deriving DecidableEq

inductive Call (K C V : Type) where
  | computed (key : K) (command : C) (seen next : V)
  | checked (key : K) (command : C) (revision : Nat) (next : V)

def Call.key {K C V : Type} : Call K C V → K
  | computed k _ _ _ | checked k _ _ _ => k

/-- One record replaced. -/
structure Save (K C V : Type) where
  key : K
  command : C
  before : V
  after : V
  revision : Nat

/-- The records, the call of each thread, and every save so far, the latest first. -/
structure Store (T K C V : Type) where
  records : K → Option (Envelope V)
  calls : T → Option (Call K C V)
  saved : List (Save K C V)

inductive Action (T K C : Type) where
  | list (thread : T) (key : K) (command : C)
  | read (thread : T) (key : K) (command : C)
  | compare (thread : T)
  | save (thread : T)
  | abandon (thread : T)
  | delete (key : K)

section Steps

variable {T K C V E S : Type} [DecidableEq T] [DecidableEq K] [DecidableEq S]
  (apply : C → V → Except E V) (stamp : V → S)

namespace Store

def abandon (t : T) (s : Store T K C V) : Store T K C V :=
  { s with calls := Function.update s.calls t none }

def hold (t : T) (call : Call K C V) (s : Store T K C V) : Store T K C V :=
  { s with calls := Function.update s.calls t (some call) }

def list (t : T) (k : K) (c : C) (s : Store T K C V) : Store T K C V :=
  match s.records k with
  | none => s.abandon t
  | some e => match apply c e.value with
    | .error _ => s.abandon t
    | .ok next => s.hold t (.checked k c e.revision next)

def read (t : T) (k : K) (c : C) (s : Store T K C V) : Store T K C V :=
  match s.records k with
  | none => s.abandon t
  | some e => match apply c e.value with
    | .error _ => s.abandon t
    | .ok next => s.hold t (.computed k c e.value next)

def compare (t : T) (s : Store T K C V) : Store T K C V :=
  match s.calls t with
  | some (.computed k c seen next) => match s.records k with
    | none => s.abandon t
    | some e => if stamp e.value = stamp seen then s.hold t (.checked k c e.revision next)
      else s.abandon t
  | some (.checked _ _ _ _) | none => s

/-- The save that the call of a thread would make now, if its revision is still the one of
the record. -/
def outcome (t : T) (s : Store T K C V) : Option (Save K C V) :=
  match s.calls t with
  | some (.checked k c r next) => match s.records k with
    | none => none
    | some e => if e.revision = r then some ⟨k, c, e.value, next, r + 1⟩ else none
  | some (.computed _ _ _ _) | none => none

def save (t : T) (s : Store T K C V) : Store T K C V :=
  match s.outcome t with
  | some x => {
      records := Function.update s.records x.key (some ⟨x.revision, x.after⟩)
      calls := Function.update s.calls t none
      saved := x :: s.saved }
  | none => s.abandon t

def delete (k : K) (s : Store T K C V) : Store T K C V :=
  { s with records := Function.update s.records k none }

def act (s : Store T K C V) : Action T K C → Store T K C V
  | .list t k c => s.list apply t k c
  | .read t k c => s.read apply t k c
  | .compare t => s.compare stamp t
  | .save t => s.save t
  | .abandon t => s.abandon t
  | .delete k => s.delete k

end Store

end Steps

section Linked

variable {T K C V E : Type} [DecidableEq T] [DecidableEq K] {apply : C → V → Except E V}
  {stamp : V → Int} {s : Store T K C V}

/-- A command gives a later stamp or changes nothing. -/
def Advances (apply : C → V → Except E V) (stamp : V → Int) : Prop :=
  ∀ c v w, apply c v = .ok w → stamp v < stamp w ∨ w = v

/-- Every call in flight was computed from a value that the record has or had, and the stamp
or the revision it carries tells which. -/
structure Linked (apply : C → V → Except E V) (stamp : V → Int) (s : Store T K C V) : Prop where
  computed : ∀ t k c seen next, s.calls t = some (.computed k c seen next) →
    apply c seen = .ok next ∧
      ∀ e, s.records k = some e → stamp seen < stamp e.value ∨ e.value = seen
  checked : ∀ t k c r next, s.calls t = some (.checked k c r next) →
    ∃ v, apply c v = .ok next ∧
      ∀ e, s.records k = some e → r < e.revision ∨ r = e.revision ∧ e.value = v

/-- What an action does to the records. -/
inductive Effect (apply : C → V → Except E V) (s s' : Store T K C V) : Prop
  | quiet : s'.records = s.records → s'.saved = s.saved → Effect apply s s'
  | saved (k : K) (c : C) (e : Envelope V) (next : V) : s.records k = some e →
      apply c e.value = .ok next →
      s'.records = Function.update s.records k (some ⟨e.revision + 1, next⟩) →
      s'.saved = ⟨k, c, e.value, next, e.revision + 1⟩ :: s.saved → Effect apply s s'
  | deleted (k : K) : s'.records = Function.update s.records k none → s'.saved = s.saved →
      Effect apply s s'

omit [DecidableEq T] [DecidableEq K] in
theorem linked_idle (idle : ∀ t, s.calls t = none) : Linked apply stamp s where
  computed t k c seen next h := by simp [idle t] at h
  checked t k c r next h := by simp [idle t] at h

omit [DecidableEq K] in
theorem Linked.abandon (h : Linked apply stamp s) (t : T) : Linked apply stamp (s.abandon t) where
  computed u k c seen next hu := by
    by_cases same : u = t
    · simp [Store.abandon, same] at hu
    · simp only [Store.abandon, Function.update_of_ne same] at hu
      exact h.computed u k c seen next hu
  checked u k c r next hu := by
    by_cases same : u = t
    · simp [Store.abandon, same] at hu
    · simp only [Store.abandon, Function.update_of_ne same] at hu
      exact h.checked u k c r next hu

omit [DecidableEq K] in
/-- A call from the value that stands in the record may be held. -/
theorem Linked.hold_computed (h : Linked apply stamp s) (t : T) {k : K} {c : C} {e : Envelope V}
    {next : V} (found : s.records k = some e) (ok : apply c e.value = .ok next) :
    Linked apply stamp (s.hold t (.computed k c e.value next)) where
  computed u k' c' seen next' hu := by
    by_cases same : u = t
    · simp only [Store.hold, same, Function.update_self, Option.some.injEq,
        Call.computed.injEq] at hu
      obtain ⟨rfl, rfl, rfl, rfl⟩ := hu
      refine ⟨ok, fun e' he' => .inr ?_⟩
      rw [show s.records k = some e' from he'] at found
      cases found
      rfl
    · simp only [Store.hold, Function.update_of_ne same] at hu
      exact h.computed u k' c' seen next' hu
  checked u k' c' r next' hu := by
    by_cases same : u = t
    · simp [Store.hold, same] at hu
    · simp only [Store.hold, Function.update_of_ne same] at hu
      exact h.checked u k' c' r next' hu

omit [DecidableEq K] in
theorem Linked.hold_checked (h : Linked apply stamp s) (t : T) {k : K} {c : C} {e : Envelope V}
    {next : V} (found : s.records k = some e) (ok : apply c e.value = .ok next) :
    Linked apply stamp (s.hold t (.checked k c e.revision next)) where
  computed u k' c' seen next' hu := by
    by_cases same : u = t
    · simp [Store.hold, same] at hu
    · simp only [Store.hold, Function.update_of_ne same] at hu
      exact h.computed u k' c' seen next' hu
  checked u k' c' r next' hu := by
    by_cases same : u = t
    · simp only [Store.hold, same, Function.update_self, Option.some.injEq,
        Call.checked.injEq] at hu
      obtain ⟨rfl, rfl, rfl, rfl⟩ := hu
      refine ⟨e.value, ok, fun e' he' => .inr ?_⟩
      rw [show s.records k = some e' from he'] at found
      cases found
      exact ⟨rfl, rfl⟩
    · simp only [Store.hold, Function.update_of_ne same] at hu
      exact h.checked u k' c' r next' hu

omit [DecidableEq T] in
theorem Linked.delete (h : Linked apply stamp s) (k : K) : Linked apply stamp (s.delete k) where
  computed t k' c seen next ht := by
    obtain ⟨ok, seen_le⟩ := h.computed t k' c seen next ht
    refine ⟨ok, fun e found => ?_⟩
    by_cases same : k' = k
    · simp [Store.delete, same] at found
    · simp only [Store.delete, Function.update_of_ne same] at found
      exact seen_le e found
  checked t k' c r next ht := by
    obtain ⟨v, ok, current⟩ := h.checked t k' c r next ht
    refine ⟨v, ok, fun e found => ?_⟩
    by_cases same : k' = k
    · simp [Store.delete, same] at found
    · simp only [Store.delete, Function.update_of_ne same] at found
      exact current e found

omit [DecidableEq T] [DecidableEq K] in
theorem Store.outcome_eq_some {t : T} {x : Save K C V} (h : s.outcome t = some x) :
    ∃ e, s.calls t = some (.checked x.key x.command e.revision x.after) ∧
      s.records x.key = some e ∧ x.before = e.value ∧ x.revision = e.revision + 1 := by
  unfold outcome at h
  split at h
  · rename_i k c r next held
    split at h
    · cases h
    · rename_i e found
      split at h
      · rename_i same
        cases h
        exact ⟨e, same ▸ held, found, rfl, by rw [same]⟩
      · cases h
  · cases h
  · cases h

omit [DecidableEq T] [DecidableEq K] in
/-- The value that a save replaces is the one its command was applied to. -/
theorem Linked.outcome (h : Linked apply stamp s) {t : T} {x : Save K C V}
    (made : s.outcome t = some x) :
    ∃ e, s.records x.key = some e ∧ x.before = e.value ∧ x.revision = e.revision + 1 ∧
      apply x.command e.value = .ok x.after := by
  obtain ⟨e, held, found, before, revision⟩ := Store.outcome_eq_some made
  obtain ⟨v, ok, current⟩ := h.checked t _ _ _ _ held
  rcases current e found with stale | ⟨-, same⟩
  · omega
  · exact ⟨e, found, before, revision, same ▸ ok⟩

theorem Linked.save (advances : Advances apply stamp) (h : Linked apply stamp s) (t : T) :
    Linked apply stamp (s.save t) := by
  unfold Store.save
  split
  · rename_i x made
    obtain ⟨e, found, before, revision, ok⟩ := h.outcome made
    have later := advances _ _ _ ok
    have rest := h.abandon t
    constructor
    · intro u k c seen next hu
      obtain ⟨okay, seen_le⟩ := rest.computed u k c seen next hu
      refine ⟨okay, fun e' found' => ?_⟩
      by_cases same : k = x.key
      · subst same
        simp only [Function.update_self, Option.some.injEq] at found'
        subst found'
        rcases seen_le e found with lt | eq
        · rcases later with up | stay
          · exact .inl (Int.lt_trans lt up)
          · exact .inl (by simpa only [stay] using lt)
        · rcases later with up | stay
          · exact .inl (eq ▸ up)
          · exact .inr (stay.trans eq)
      · simp only [Function.update_of_ne same] at found'
        exact seen_le e' found'
    · intro u k c r next hu
      obtain ⟨v, okay, current⟩ := rest.checked u k c r next hu
      refine ⟨v, okay, fun e' found' => ?_⟩
      by_cases same : k = x.key
      · subst same
        simp only [Function.update_self, Option.some.injEq] at found'
        subst found'
        have bound : r ≤ e.revision := by
          rcases current e found with lt | ⟨eq, -⟩ <;> omega
        exact .inl (by simp only; omega)
      · simp only [Function.update_of_ne same] at found'
        exact current e' found'
  · exact h.abandon t

/-- Every action keeps the calls linked to the records. -/
theorem Linked.act (advances : Advances apply stamp) (h : Linked apply stamp s)
    (a : Action T K C) : Linked apply stamp (s.act apply stamp a) := by
  cases a with
  | list t k c =>
    simp only [Store.act, Store.list]
    split
    · exact h.abandon t
    · rename_i e found
      split
      · exact h.abandon t
      · rename_i next ok
        exact h.hold_checked t found ok
  | read t k c =>
    simp only [Store.act, Store.read]
    split
    · exact h.abandon t
    · rename_i e found
      split
      · exact h.abandon t
      · rename_i next ok
        exact h.hold_computed t found ok
  | compare t =>
    simp only [Store.act, Store.compare]
    split
    · rename_i k c seen next held
      obtain ⟨ok, seen_le⟩ := h.computed t k c seen next held
      split
      · exact h.abandon t
      · rename_i e found
        split
        · rename_i same
          -- the same stamp, so the same value as at the first read
          have value : e.value = seen := (seen_le e found).resolve_left (by omega)
          exact h.hold_checked t found (value ▸ ok)
        · exact h.abandon t
    · exact h
    · exact h
  | save t => exact h.save advances t
  | abandon t => exact h.abandon t
  | delete k => exact h.delete k

omit [DecidableEq T] in
/-- A record is created under a key that no call in flight is about. -/
theorem Linked.create (h : Linked apply stamp s) {k : K} (e : Envelope V)
    (unheld : ∀ t call, s.calls t = some call → call.key ≠ k) :
    Linked apply stamp { s with records := Function.update s.records k (some e) } where
  computed t k' c seen next ht := by
    obtain ⟨ok, seen_le⟩ := h.computed t k' c seen next ht
    refine ⟨ok, fun e' found => ?_⟩
    have other : k' ≠ k := unheld t _ ht
    simp only [Function.update_of_ne other] at found
    exact seen_le e' found
  checked t k' c r next ht := by
    obtain ⟨v, ok, current⟩ := h.checked t k' c r next ht
    refine ⟨v, ok, fun e' found => ?_⟩
    have other : k' ≠ k := unheld t _ ht
    simp only [Function.update_of_ne other] at found
    exact current e' found

/-- A call in flight is about a record, or was in flight before. -/
theorem Store.act_calls {a : Action T K C} {t : T} {call : Call K C V}
    (held : (s.act apply stamp a).calls t = some call) :
    (∃ e, s.records call.key = some e) ∨ ∃ before, s.calls t = some before ∧ before.key = call.key := by
  have abandoned : ∀ u, (s.abandon u).calls t = some call →
      ∃ before, s.calls t = some before ∧ before.key = call.key := by
    intro u held
    by_cases same : t = u
    · simp [Store.abandon, same] at held
    · simp only [Store.abandon, Function.update_of_ne same] at held
      exact ⟨call, held, rfl⟩
  have holding : ∀ u new, (s.hold u new).calls t = some call →
      (∃ e, s.records new.key = some e) → (∃ e, s.records call.key = some e) ∨
        ∃ before, s.calls t = some before ∧ before.key = call.key := by
    intro u new held found
    by_cases same : t = u
    · simp only [Store.hold, same, Function.update_self, Option.some.injEq] at held
      exact .inl (held ▸ found)
    · simp only [Store.hold, Function.update_of_ne same] at held
      exact .inr ⟨call, held, rfl⟩
  cases a with
  | list u k c =>
    simp only [Store.act, Store.list] at held
    split at held
    · exact .inr (abandoned u held)
    · rename_i e found
      split at held
      · exact .inr (abandoned u held)
      · exact holding u _ held ⟨e, found⟩
  | read u k c =>
    simp only [Store.act, Store.read] at held
    split at held
    · exact .inr (abandoned u held)
    · rename_i e found
      split at held
      · exact .inr (abandoned u held)
      · exact holding u _ held ⟨e, found⟩
  | compare u =>
    simp only [Store.act, Store.compare] at held
    split at held
    · split at held
      · exact .inr (abandoned u held)
      · rename_i e found
        split at held
        · exact holding u _ held ⟨e, found⟩
        · exact .inr (abandoned u held)
    · exact .inr ⟨call, held, rfl⟩
    · exact .inr ⟨call, held, rfl⟩
  | save u =>
    simp only [Store.act, Store.save] at held
    split at held
    · exact .inr (abandoned u held)
    · exact .inr (abandoned u held)
  | abandon u => exact .inr (abandoned u held)
  | delete k => exact .inr ⟨call, held, rfl⟩

theorem Store.save_effect (h : Linked apply stamp s) (t : T) : Effect apply s (s.save t) := by
  unfold save
  split
  · rename_i x made
    obtain ⟨e, found, before, revision, ok⟩ := h.outcome made
    refine .saved x.key x.command e x.after found ok ?_ ?_
    · rw [revision]
    · rw [← before, ← revision]
  · exact .quiet rfl rfl

/-- Whatever the interleaving, an action leaves the records alone, deletes one, or applies a
command to the value that stands there. -/
theorem Store.act_effect (h : Linked apply stamp s) (a : Action T K C) :
    Effect apply s (s.act apply stamp a) := by
  cases a with
  | list t k c =>
    simp only [act, list]
    split
    · exact .quiet rfl rfl
    · split <;> exact .quiet rfl rfl
  | read t k c =>
    simp only [act, read]
    split
    · exact .quiet rfl rfl
    · split <;> exact .quiet rfl rfl
  | compare t =>
    simp only [act, compare]
    split
    · split
      · exact .quiet rfl rfl
      · split <;> exact .quiet rfl rfl
    · exact .quiet rfl rfl
    · exact .quiet rfl rfl
  | save t => exact save_effect h t
  | abandon t => exact .quiet rfl rfl
  | delete k => exact .deleted k rfl rfl

end Linked

end RepoForge.CompareAndSave
