import RepoForge.Source.Persistence.StateLifecycle

/-!
# The lifecycle lock

What the lifecycle lock gives its holder. The assertions of a process that holds the lock are
about the files and its own checks (`Held`), and nobody else touches these; a process that holds
nothing (`Resting`) knows only the invariant. `guarded` is this discipline for an invariant of
the files, and the rules below are those of the library at it: `held_write`, `held_look` and
`locked` for the holder, `resting_look` for the reads before the lock.

With `solo` one process runs alone, and what it read before the lock is still so after it.
-/
namespace RepoForge

open Scripts

namespace Lifecycle

/-- What a process has verified. -/
abbrev Checks := Text → Option (Option Bytes)

/-- What the others leave a process. -/
structure Undisturbed (p : Nat) (s t : LifecycleWorld) : Prop where
  exclusive : t.exclusive = some p ↔ s.exclusive = some p
  sharing : p ∈ t.sharing ↔ p ∈ s.sharing
  held : s.exclusive = some p → t.root = s.root ∧ t.verified p = s.verified p

def Resting (p : Nat) (w : LifecycleWorld) : Prop := w.exclusive ≠ some p ∧ p ∉ w.sharing

/-- The holder of the lock is alone. -/
def LocksOk (w : LifecycleWorld) : Prop := w.sharing ≠ [] → w.exclusive = none

def Held (p : Nat) (F : StateRoot → Checks → Prop) (w : LifecycleWorld) : Prop :=
  w.exclusive = some p ∧ F w.root (w.verified p)

theorem Undisturbed.refl (p : Nat) (s : LifecycleWorld) : Undisturbed p s s :=
  ⟨Iff.rfl, Iff.rfl, fun _ => ⟨rfl, rfl⟩⟩

theorem Undisturbed.trans {p : Nat} {s t u : LifecycleWorld} (first : Undisturbed p s t)
    (second : Undisturbed p t u) : Undisturbed p s u := by
  refine ⟨second.exclusive.trans first.exclusive, second.sharing.trans first.sharing, ?_⟩
  intro holding
  obtain ⟨root, checks⟩ := first.held holding
  obtain ⟨root', checks'⟩ := second.held (first.exclusive.mpr holding)
  exact ⟨root'.trans root, checks'.trans checks⟩

/-- The steps of a call that its guarantee allows. Locks are no concern of it. -/
structure StepRule (J : Type) where
  allows : Nat → LifecycleCall J → LifecycleWorld → LifecycleWorld → Prop
  locks : ∀ p c s t, t.root = s.root → allows p c s t

variable {J : Type}

/-- Every step is allowed. -/
def anyStep : StepRule J := ⟨fun _ _ _ _ => True, fun _ _ _ _ _ => trivial⟩

/-- The lock guards the files, of which `I` holds throughout. -/
def guarded (solo : Option Nat) (I : StateRoot → Prop) (rule : StepRule J) :
    Discipline Nat (LifecycleCall J) LifecycleWorld where
  inv w := LocksOk w ∧ I w.root
  rely p s t := Undisturbed p s t ∧ (solo = some p → t = s)
  rest := Resting
  good := rule.allows
  rely_refl p s := ⟨.refl p s, fun _ => rfl⟩
  rely_trans first second :=
    ⟨first.1.trans second.1, fun alone => (second.2 alone).trans (first.2 alone)⟩
  rest_rely resting rely :=
    ⟨fun holding => resting.1 (rely.1.exclusive.mp holding),
      fun member => resting.2 (rely.1.sharing.mp member)⟩
  good_refl p c s := rule.locks p c s s rfl

/-- A process that runs alone is the one that runs. -/
def Turn (solo : Option Nat) (p : Nat) : Prop := ∀ q, solo = some q → q = p

theorem nobody_turn {p : Nat} : Turn none p := by
  intro q same
  cases same

/-- The process holds nothing; alone, it still knows what it has seen. -/
def Outside (solo : Option Nat) (p : Nat) (H : StateRoot → Prop) (w : LifecycleWorld) : Prop :=
  Resting p w ∧ (solo = some p → H w.root)

def Sharing (p : Nat) (w : LifecycleWorld) : Prop := p ∈ w.sharing

section Changes

variable {solo : Option Nat} {I : StateRoot → Prop} {rule : StepRule J} {p : Nat}
  {c : LifecycleCall J} {w w' : LifecycleWorld} {F : StateRoot → Checks → Prop}
  {H : StateRoot → Prop}

theorem held_stable : Stable (guarded solo I rule) p (Held p F) := by
  intro s t held _ rely
  obtain ⟨root, checks⟩ := rely.1.held held.1
  refine ⟨rely.1.exclusive.mpr held.1, ?_⟩
  rw [root, checks]
  exact held.2

theorem outside_stable : Stable (guarded solo I rule) p (Outside solo p H) := by
  intro s t outside _ rely
  refine ⟨(guarded solo I rule).rest_rely outside.1 rely, ?_⟩
  intro alone
  rw [rely.2 alone]
  exact outside.2 alone

theorem sharing_stable : Stable (guarded solo I rule) p (Sharing p) :=
  fun _ _ sharing _ rely => rely.1.sharing.mpr sharing

/-- A change that a process makes to the files and to its own checks. -/
structure Own (p : Nat) (w w' : LifecycleWorld) : Prop where
  exclusive : w'.exclusive = w.exclusive
  sharing : w'.sharing = w.sharing
  checks : ∀ q, q ≠ p → w'.verified q = w.verified q

theorem Own.refl (p : Nat) (w : LifecycleWorld) : Own p w w := ⟨rfl, rfl, fun _ _ => rfl⟩

theorem own_onRoot (change : StateRoot → StateRoot) : Own p w (w.onRoot change) :=
  ⟨rfl, rfl, fun _ _ => rfl⟩

theorem own_verify (id : Text) (content : Option Bytes) : Own p w (w.verify p id content) :=
  ⟨rfl, rfl, fun q other => by simp [LifecycleWorld.verify, other]⟩

theorem own_store (id : Text) (content : Option Bytes) (author : Author) :
    Own p w (w.store p id content author) :=
  ⟨rfl, rfl, (own_verify id content).checks⟩

theorem release_resting : Resting p (LifecycleWorld.release p w) := by
  constructor
  · unfold LifecycleWorld.release
    simp only
    split
    · simp
    · assumption
  · simp [LifecycleWorld.release]

variable (turn : Turn solo p) (inv : (guarded solo I rule).inv w)

include turn inv

/-- Whoever holds the lock, alone or with others, keeps the rest away from the files. -/
theorem own_guarantee (access : w.exclusive = some p ∨ Sharing p w) (own : Own p w w')
    (kept : I w'.root) (good : rule.allows p c w w') :
    (guarded solo I rule).Guarantee p c w w' := by
  refine ⟨⟨?_, kept⟩, good, ?_⟩
  · intro shared
    rw [own.sharing] at shared
    rw [own.exclusive]
    exact inv.1 shared
  · intro q other
    refine ⟨⟨by rw [own.exclusive], by rw [own.sharing], ?_⟩, ?_⟩
    · intro holding
      rcases access with mine | sharing
      · rw [mine] at holding
        cases holding
        exact absurd rfl other
      · rw [inv.1 (List.ne_nil_of_mem sharing)] at holding
        cases holding
    · intro alone
      exact absurd (turn q alone) other

/-- What the end of a process gives back was its own. -/
theorem release_guarantee :
    (guarded solo I rule).Guarantee p c w (LifecycleWorld.release p w) := by
  refine ⟨⟨?_, inv.2⟩, rule.locks p c _ _ rfl, ?_⟩
  · intro shared
    have some_ : w.sharing ≠ [] := by
      intro none_
      apply shared
      simp [LifecycleWorld.release, none_]
    simp [LifecycleWorld.release, inv.1 some_]
  · intro q other
    refine ⟨⟨?_, ?_, ?_⟩, ?_⟩
    · unfold LifecycleWorld.release
      simp only
      split
      · rename_i mine
        rw [mine]
        simp [Ne.symm other]
      · rfl
    · simp [LifecycleWorld.release, other]
    · intro _
      exact ⟨rfl, by simp [LifecycleWorld.release, other]⟩
    · intro alone
      exact absurd (turn q alone) other

theorem lock_guarantee {operation planId : Text} (ready : (lock p operation planId).ready w = true) :
    (guarded solo I rule).Guarantee p c w ((lock p operation planId).change w) := by
  obtain ⟨free, unshared⟩ : w.exclusive = none ∧ w.sharing = [] := by simpa [lock] using ready
  refine ⟨⟨?_, inv.2⟩, rule.locks p c _ _ rfl, ?_⟩
  · intro shared
    exact absurd unshared shared
  · intro q other
    refine ⟨⟨?_, Iff.rfl, fun _ => ⟨rfl, rfl⟩⟩, ?_⟩
    · simp [lock, free, Ne.symm other]
    · intro alone
      exact absurd (turn q alone) other

theorem share_guarantee (ready : (share p).ready w = true) :
    (guarded solo I rule).Guarantee p c w ((share p).change w) := by
  have free : w.exclusive = none := by simpa [share] using ready
  refine ⟨⟨fun _ => free, inv.2⟩, rule.locks p c _ _ rfl, ?_⟩
  intro q other
  refine ⟨⟨Iff.rfl, ?_, fun _ => ⟨rfl, rfl⟩⟩, ?_⟩
  · simp [share, other]
  · intro alone
    exact absurd (turn q alone) other

end Changes

section Rules

variable {solo : Option Nat} {I : StateRoot → Prop} {rule : StepRule J}
  {goes : LifecycleAction → Fault LifecycleError → LifecycleWorld → Prop} {p : Nat}
  {c : LifecycleCall J} {A : Type} {F G : StateRoot → Checks → Prop} {H : StateRoot → Prop}
  {K : A → StateRoot → Prop} {Q : A → StateRoot → Checks → Prop}
  {X : LifecycleError → StateRoot → Checks → Prop} {body : LifecycleScript A}

/-- An operation of the holder. -/
theorem held_perform (turn : Turn solo p) {op : Op LifecycleAction LifecycleWorld}
    (own : ∀ w, Own p w (op.change w))
    (kept : ∀ w, w.exclusive = some p → I w.root → F w.root (w.verified p) →
      I (op.change w).root ∧ rule.allows p c w (op.change w))
    (post : ∀ w, I w.root → F w.root (w.verified p) →
      G (op.change w).root ((op.change w).verified p))
    (early : ∀ e w, I w.root → F w.root (w.verified p) → goes op.tag (.before e) w →
      X e w.root (w.verified p))
    (late : op.raises = .either → ∀ e w, I w.root → F w.root (w.verified p) →
      goes op.tag (.after e) w → X e (op.change w).root ((op.change w).verified p)) :
    Triple (guarded solo I rule) goes p c (Held p F) (Script.perform op) (fun _ => Held p G)
      (fun e => Held p (X e)) := by
  have step : ∀ w, (guarded solo I rule).inv w → Held p F w →
      (guarded solo I rule).Guarantee p c w (op.change w) := by
    intro w inv held
    obtain ⟨kept, good⟩ := kept w held.1 inv.2 held.2
    exact own_guarantee turn inv (.inl held.1) (own w) kept good
  have holding : ∀ w, Held p F w → (op.change w).exclusive = some p :=
    fun w held => (own w).exclusive.trans held.1
  refine Triple.perform held_stable ?_ ?_ ?_ held_stable fun _ => held_stable
  · intro w inv held _ _
    exact ⟨step w inv held, holding w held, post w inv.2 held.2⟩
  · intro _ e w inv held allowed
    exact ⟨held.1, early e w inv.2 held.2 allowed⟩
  · intro may e w inv held _ allowed
    exact ⟨step w inv held, holding w held, late may e w inv.2 held.2 allowed⟩

theorem held_write (turn : Turn solo p) {tag : LifecycleAction}
    {change : LifecycleWorld → LifecycleWorld} (own : ∀ w, Own p w (change w))
    (kept : ∀ w, w.exclusive = some p → I w.root → F w.root (w.verified p) →
      I (change w).root ∧ rule.allows p c w (change w))
    (post : ∀ w, I w.root → F w.root (w.verified p) → G (change w).root ((change w).verified p))
    (early : ∀ e w, I w.root → F w.root (w.verified p) → goes tag (.before e) w →
      X e w.root (w.verified p))
    (late : ∀ e w, I w.root → F w.root (w.verified p) → goes tag (.after e) w →
      X e (change w).root ((change w).verified p)) :
    Triple (guarded solo I rule) goes p c (Held p F) (write tag change) (fun _ => Held p G)
      (fun e => Held p (X e)) :=
  held_perform turn own kept post early fun _ => late

theorem held_look {tag : LifecycleAction} {read : LifecycleWorld → Except LifecycleError A}
    (ok : ∀ w a, I w.root → F w.root (w.verified p) → read w = .ok a →
      Q a w.root (w.verified p))
    (error : ∀ e s v, F s v → X e s v) :
    Triple (guarded solo I rule) goes p c (Held p F) (Script.look tag read) (fun a => Held p (Q a))
      (fun e => Held p (X e)) :=
  Triple.look held_stable (fun w a inv held _ read => ⟨held.1, ok w a inv.2 held.2 read⟩)
    (fun e _ _ held => ⟨held.1, error e _ _ held.2⟩) (fun _ => held_stable) fun _ => held_stable

/-- A read of the holder that notes what it has verified. -/
theorem held_verify (turn : Turn solo p) {tag : LifecycleAction}
    {change : LifecycleWorld → LifecycleWorld} {read : LifecycleWorld → Except LifecycleError A}
    (same : ∀ w, (change w).root = w.root) (own : ∀ w, Own p w (change w))
    (ok : ∀ w a, I w.root → F w.root (w.verified p) → read w = .ok a →
      Q a w.root ((change w).verified p))
    (error : ∀ e w, I w.root → F w.root (w.verified p) → read w = .error e →
      X e w.root ((change w).verified p))
    (early : ∀ e s v, F s v → X e s v) :
    Triple (guarded solo I rule) goes p c (Held p F)
      (.act ⟨tag, fun _ => true, change, .before⟩ (fun w => .ofExcept (read w)) .raise)
      (fun a => Held p (Q a)) (fun e => Held p (X e)) := by
  intro s _ start w inv rely
  have held := held_stable s w start inv rely
  have holding : (change w).exclusive = some p := (own w).exclusive.trans held.1
  refine ⟨?_, ?_, ?_⟩
  · intro _ _
    refine ⟨own_guarantee turn inv (.inl held.1) (own w) (by rw [same]; exact inv.2)
      (rule.locks p c _ _ (same w)), ?_⟩
    change Safe _ _ _ _ _ _ (Script.ofExcept (read w)) (change w)
    cases seen : read w with
    | ok a =>
      have post : Held p (Q a) (change w) := ⟨holding, by
        rw [same]
        exact ok w a inv.2 held.2 seen⟩
      exact fun t invT relyT => held_stable _ t post invT relyT
    | error e =>
      have post : Held p (X e) (change w) := ⟨holding, by
        rw [same]
        exact error e w inv.2 held.2 seen⟩
      exact fun t invT relyT => held_stable _ t post invT relyT
  · intro e _ _ t invT relyT
    exact held_stable w t ⟨held.1, early e _ _ held.2⟩ invT relyT
  · intro e may
    cases may

theorem held_ret {a : A} (post : ∀ s v, I s → F s v → Q a s v) :
    Triple (guarded solo I rule) goes p c (Held p F) (pure a : LifecycleScript A)
      (fun a => Held p (Q a)) (fun e => Held p (X e)) :=
  Triple.ret held_stable fun _ inv held => ⟨held.1, post _ _ inv.2 held.2⟩

theorem held_raise {e : LifecycleError} (error : ∀ s v, I s → F s v → X e s v) :
    Triple (guarded solo I rule) goes p c (Held p F) (.raise e : LifecycleScript A)
      (fun a => Held p (Q a)) (fun e => Held p (X e)) :=
  Triple.raise held_stable fun _ inv held => ⟨held.1, error _ _ inv.2 held.2⟩

/-- The assertion may be weakened by what the invariant gives. -/
theorem held_weaken {F' : StateRoot → Checks → Prop} {Q' : A → StateRoot → Checks → Prop}
    {X' : LifecycleError → StateRoot → Checks → Prop}
    (spec : Triple (guarded solo I rule) goes p c (Held p F) body (fun a => Held p (Q a))
      (fun e => Held p (X e)))
    (pre : ∀ s v, I s → F' s v → F s v) (post : ∀ a s v, I s → Q a s v → Q' a s v)
    (error : ∀ e s v, I s → X e s v → X' e s v) :
    Triple (guarded solo I rule) goes p c (Held p F') body (fun a => Held p (Q' a))
      (fun e => Held p (X' e)) :=
  spec.weaken (fun _ inv held => ⟨held.1, pre _ _ inv.2 held.2⟩)
    (fun a _ inv held => ⟨held.1, post a _ _ inv.2 held.2⟩)
    fun e _ inv held => ⟨held.1, error e _ _ inv.2 held.2⟩

/-- The holder goes on with the exception in hand. -/
theorem held_attempt {B : Type} {f : Except LifecycleError A → LifecycleScript B}
    {R : B → LifecycleWorld → Prop} {Y : LifecycleError → LifecycleWorld → Prop}
    (spec : Triple (guarded solo I rule) goes p c (Held p F) body (fun a => Held p (Q a))
      (fun e => Held p (X e)))
    (ok : ∀ a, Triple (guarded solo I rule) goes p c (Held p (Q a)) (f (.ok a)) R Y)
    (error : ∀ e, Triple (guarded solo I rule) goes p c (Held p (X e)) (f (.error e)) R Y) :
    Triple (guarded solo I rule) goes p c (Held p F) (body.attempt >>= f) R Y := by
  refine Triple.bind (Triple.attempt spec (fun _ => held_stable) fun _ => held_stable)
    fun outcome w inv cases_ => ?_
  rcases cases_ with ⟨a, rfl, held⟩ | ⟨e, rfl, held⟩
  · exact ok a w inv held
  · exact error e w inv held

/-- What an assertion says of no state may be used at once. -/
theorem held_pure {B : Prop} {R : A → LifecycleWorld → Prop}
    {Y : LifecycleError → LifecycleWorld → Prop}
    (spec : B → Triple (guarded solo I rule) goes p c (Held p F) body R Y) :
    Triple (guarded solo I rule) goes p c (Held p fun s v => B ∧ F s v) body R Y :=
  (Triple.of_pure spec).weaken (fun _ _ held => ⟨held.2.1, held.1, held.2.2⟩) (fun _ _ _ q => q)
    fun _ _ _ y => y

theorem outside_ret {a : A} (post : ∀ s, I s → H s → K a s) :
    Triple (guarded solo I rule) goes p c (Outside solo p H) (pure a : LifecycleScript A)
      (fun a => Outside solo p (K a)) (fun _ => Outside solo p fun _ => True) :=
  Triple.ret outside_stable fun _ inv outside =>
    ⟨outside.1, fun alone => post _ inv.2 (outside.2 alone)⟩

/-- A check that looks at no file. -/
theorem outside_check {x : Except LifecycleError A} :
    Triple (guarded solo I rule) goes p c (Outside solo p H) (.ofExcept x)
      (fun _ => Outside solo p H) (fun _ => Outside solo p fun _ => True) := by
  cases x with
  | ok a => exact Triple.ret outside_stable fun _ _ outside => outside
  | error e =>
    exact Triple.raise outside_stable fun _ _ outside => ⟨outside.1, fun _ => trivial⟩

/-- A read before the lock. -/
theorem outside_look {tag : LifecycleAction} {read : LifecycleWorld → Except LifecycleError A}
    {B : A → Prop}
    (ok : ∀ w a, I w.root → Outside solo p H w → read w = .ok a →
      B a ∧ (solo = some p → K a w.root)) :
    Triple (guarded solo I rule) goes p c (Outside solo p H) (Script.look tag read)
      (fun a w => B a ∧ Outside solo p (K a) w) (fun _ => Outside solo p fun _ => True) := by
  refine Triple.look outside_stable ?_ ?_ ?_ fun _ => outside_stable
  · intro w a inv outside _ seen
    obtain ⟨pure_, known⟩ := ok w a inv.2 outside seen
    exact ⟨pure_, outside.1, known⟩
  · intro e w _ outside
    exact ⟨outside.1, fun _ => trivial⟩
  · intro a s t held inv rely
    exact ⟨held.1, outside_stable s t held.2 inv rely⟩

/-- A critical section. -/
theorem locked (turn : Turn solo p) {operation planId : Text}
    (entered : ∀ w, I w.root → Outside solo p H w → goes (.lock operation planId) .done w →
      F w.root (w.verified p))
    (spec : Triple (guarded solo I rule) goes p c (Held p F) body
      (fun a => Held p fun s _ => K a s) (fun e => Held p (X e))) :
    Triple (guarded solo I rule) goes p c (Outside solo p H)
      (Script.within (lock p operation planId) (unlock p) body) (fun a => Outside solo p (K a))
      (fun _ => Outside solo p fun _ => True) := by
  refine Triple.within (N := Held p F) ?_ spec ?_ ?_ (fun _ => outside_stable)
    fun _ => outside_stable
  · refine Triple.perform outside_stable ?_ ?_ ?_ held_stable fun _ => outside_stable
    · intro w inv outside ready allowed
      exact ⟨lock_guarantee turn inv ready, rfl, entered w inv.2 outside allowed⟩
    · intro _ e w _ outside _
      exact ⟨outside.1, fun _ => trivial⟩
    · intro may
      cases may
  · intro a
    refine Triple.perform held_stable ?_ ?_ ?_ outside_stable fun _ => outside_stable
    · intro w inv held _ _
      exact ⟨release_guarantee turn inv, release_resting, fun _ => held.2⟩
    · intro may
      exact absurd rfl may
    · intro may
      cases may
  · intro e
    refine Triple.perform held_stable ?_ ?_ ?_ outside_stable fun _ => outside_stable
    · intro w inv _ _ _
      exact ⟨release_guarantee turn inv, release_resting, fun _ => trivial⟩
    · intro may
      exact absurd rfl may
    · intro may
      cases may

/-- A call of the repository: it holds the lock with others, and changes one record. -/
theorem shared_change (turn : Turn solo p) {codec : LifecycleCodec J} {id : Text}
    {call : RecordCall}
    (kept : ∀ w content fault, I w.root → recordOutcome codec id call (w.root.records id) = .ok content →
      (fault = .done ∨ ∃ e, fault = .after e) → goes (.change id call) fault w →
      I (w.root.store id content .repository) ∧
        rule.allows p c w (w.onRoot fun s => s.store id content .repository)) :
    Triple (guarded solo I rule) goes p c (Outside solo p fun _ => True)
      (repositoryCall codec p id call) (fun _ => Outside solo p fun _ => True)
      (fun _ => Outside solo p fun _ => True) := by
  have leave : Triple (guarded solo I rule) goes p c (Sharing p) (Script.perform (unshare p))
      (fun _ => Outside solo p fun _ => True) (fun _ => Outside solo p fun _ => True) := by
    refine Triple.perform sharing_stable ?_ ?_ ?_ outside_stable fun _ => outside_stable
    · intro w inv _ _ _
      exact ⟨release_guarantee turn inv, release_resting, fun _ => trivial⟩
    · intro may
      exact absurd rfl may
    · intro may
      cases may
  refine Triple.within (N := Sharing p) (U := fun _ => Sharing p) (V := fun _ => Sharing p) ?_ ?_
    (fun _ => leave) (fun _ => leave) (fun _ => outside_stable) fun _ => outside_stable
  · refine Triple.perform outside_stable ?_ ?_ ?_ sharing_stable fun _ => outside_stable
    · intro w inv _ ready _
      exact ⟨share_guarantee turn inv ready, by simp [Sharing, share]⟩
    · intro _ _ w _ outside _
      exact outside
    · intro may
      cases may
  · intro s _ start w inv rely
    have sharing := sharing_stable s w start inv rely
    have step : ∀ fault, (fault = .done ∨ ∃ e, fault = .after e) → goes (.change id call) fault w →
        (guarded solo I rule).Guarantee p c w (recordChange codec id call w) ∧
          Sharing p (recordChange codec id call w) := by
      intro fault happens allowed
      unfold recordChange
      cases outcome : recordOutcome codec id call (w.root.records id) with
      | error e => exact ⟨Discipline.guarantee_refl _ inv, sharing⟩
      | ok content =>
        obtain ⟨kept, good⟩ := kept w content fault inv.2 outcome happens allowed
        exact ⟨own_guarantee turn inv (.inr sharing) (own_onRoot _) kept good, sharing⟩
    refine ⟨?_, ?_, ?_⟩
    · intro _ allowed
      obtain ⟨made, shared⟩ := step .done (.inl rfl) allowed
      refine ⟨made, ?_⟩
      change Safe _ _ _ _ _ _ (Script.ofExcept _) _
      cases (recordOutcome codec id call (w.root.records id)).map fun _ => () with
      | ok a => exact fun t invT relyT => sharing_stable _ t shared invT relyT
      | error e => exact fun t invT relyT => sharing_stable _ t shared invT relyT
    · intro e _ _ t invT relyT
      exact sharing_stable w t sharing invT relyT
    · intro e _ _ allowed
      obtain ⟨made, shared⟩ := step (.after e) (.inr ⟨e, rfl⟩) allowed
      exact ⟨made, fun t invT relyT => sharing_stable _ t shared invT relyT⟩

/-- A call ends with nothing in hand. -/
theorem outside_answer {answer : A → LifecycleAnswer} {R : LifecycleAnswer → LifecycleWorld → Prop}
    (spec : Triple (guarded solo I rule) goes p c (Outside solo p H) body
      (fun a => Outside solo p (K a)) (fun _ => Outside solo p fun _ => True))
    (post : ∀ a w, Outside solo p (K a) w → R (answer a) w) :
    Triple (guarded solo I rule) goes p c (Outside solo p H)
      (do
        let a ← body
        pure (answer a))
      (fun a w => Resting p w ∧ R a w) (fun _ => Resting p) := by
  refine Triple.bind (Triple.weaken spec (fun _ _ h => h) (fun _ _ _ h => h) fun _ _ _ h => h.1)
    fun a => ?_
  exact Triple.ret outside_stable fun w _ outside => ⟨outside.1, post a w outside⟩

end Rules

end Lifecycle

end RepoForge
