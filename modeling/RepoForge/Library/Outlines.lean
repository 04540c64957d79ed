import RepoForge.Library.Scripts

/-!
# Proof outlines of machines

A second rule for machines, beside `Machine.kept`. What a process needs of the shared state is
told by the tag of the operation that it comes to next (`Outline.need`), so a proof of one process
is an assertion at each of its operations. A step keeps the invariant and what every other process
needs where it stands; the runs may be restricted by where the others stand.
-/
namespace RepoForge.Scripts

open Runs

variable {ι C T S E A B : Type}

/-- An atomic call that returns or raises by itself; where it raises it changes nothing. -/
def Script.call (tag : T) (answer : S → Except E (A × S)) : Script T S E A :=
  .act
    { tag := tag
      ready := fun _ => true
      change := fun s => match answer s with
        | .ok (_, t) => t
        | .error _ => s
      raises := .either }
    (fun s => .ofExcept ((answer s).map Prod.fst)) .raise

/-- A loop over scripts. -/
def Script.collect (f : A → Script T S E B) : List A → Script T S E (List B)
  | [] => .ret []
  | a :: rest => do
    let b ← f a
    let others ← collect f rest
    .ret (b :: others)

/-- The operation is done, whether it returns or raises. -/
def Fault.acts : Fault E → Bool
  | .done | .after _ => true
  | .before _ | .crash => false

theorem Script.solo_collect {f : A → Script T S E B} {g : A → B} {entries : List A} {s : S}
    (each : ∀ a ∈ entries, (f a).solo s = some (.ok (g a), s)) :
    (Script.collect f entries).solo s = some (.ok (entries.map g), s) := by
  induction entries with
  | nil => rfl
  | cons a rest ih =>
    rw [collect, solo_bind (each a List.mem_cons_self),
      solo_bind (ih fun b there => each b (List.mem_cons_of_mem _ there))]
    rfl

structure Outline (ι T S : Type) where
  inv : S → Prop
  need : ι → T → S → Prop

/-- A step of one process, as the others see it from where they stand. -/
structure Outline.Keeps (O : Outline ι T S) (p : ι) (view : ι → Option T) (s t : S) : Prop where
  inv : O.inv t
  others : ∀ q tag, q ≠ p → view q = some tag → O.need q tag s → O.need q tag t

section Judgement

variable (O : Outline ι T S) (goes : T → Fault E → S → (ι → Option T) → Prop) (p : ι)

/-- The process meets what its operations need, and ends where `Q`, or `X` if it raises, holds. -/
def Outlined (Q : A → S → Prop) (X : E → S → Prop) : Script T S E A → S → Prop
  | .ret a, s => Q a s
  | .raise e, s => X e s
  | .act op next failed, s => O.need p op.tag s ∧ ∀ t view, O.inv t → O.need p op.tag t →
    (op.ready t = true → goes op.tag .done t view →
      O.Keeps p view t (op.change t) ∧ Outlined Q X (next t) (op.change t)) ∧
    (∀ e, op.raises ≠ .never → goes op.tag (.before e) t view → Outlined Q X (failed e) t) ∧
    (∀ e, op.raises = .either → op.ready t = true → goes op.tag (.after e) t view →
      O.Keeps p view t (op.change t) ∧ Outlined Q X (failed e) (op.change t))

def Annotated (P : S → Prop) (x : Script T S E A) (Q : A → S → Prop) (X : E → S → Prop) : Prop :=
  ∀ s, O.inv s → P s → Outlined O goes p Q X x s

variable {O goes p} {P P' : S → Prop} {Q Q' : A → S → Prop} {R : B → S → Prop}
  {X X' : E → S → Prop} {x : Script T S E A} {s t : S}

theorem Outline.keeps_refl {view : ι → Option T} (inv : O.inv s) : O.Keeps p view s s :=
  ⟨inv, fun _ _ _ _ here => here⟩

theorem Outlined.weaken (outlined : Outlined O goes p Q X x s) (inv : O.inv s)
    (post : ∀ a t, O.inv t → Q a t → Q' a t) (error : ∀ e t, O.inv t → X e t → X' e t) :
    Outlined O goes p Q' X' x s := by
  induction x generalizing s with
  | ret a => exact post a s inv outlined
  | raise e => exact error e s inv outlined
  | act op next failed ihNext ihFailed =>
    refine ⟨outlined.1, ?_⟩
    intro t view invT need
    obtain ⟨done, early, late⟩ := outlined.2 t view invT need
    refine ⟨?_, ?_, ?_⟩
    · intro ready allowed
      obtain ⟨kept, rest⟩ := done ready allowed
      exact ⟨kept, ihNext t rest kept.inv⟩
    · intro e may allowed
      exact ihFailed e (early e may allowed) invT
    · intro e may ready allowed
      obtain ⟨kept, rest⟩ := late e may ready allowed
      exact ⟨kept, ihFailed e rest kept.inv⟩

theorem Outlined.bind {f : A → Script T S E B} (inv : O.inv s)
    (first : Outlined O goes p (fun a t => Outlined O goes p R X (f a) t) X x s) :
    Outlined O goes p R X (x >>= f) s := by
  change Outlined O goes p R X (x.bind f) s
  induction x generalizing s with
  | ret a => exact first
  | raise e => exact first
  | act op next failed ihNext ihFailed =>
    refine ⟨first.1, ?_⟩
    intro t view invT need
    obtain ⟨done, early, late⟩ := first.2 t view invT need
    refine ⟨?_, ?_, ?_⟩
    · intro ready allowed
      obtain ⟨kept, rest⟩ := done ready allowed
      exact ⟨kept, ihNext t kept.inv rest⟩
    · intro e may allowed
      exact ihFailed e invT (early e may allowed)
    · intro e may ready allowed
      obtain ⟨kept, rest⟩ := late e may ready allowed
      exact ⟨kept, ihFailed e kept.inv rest⟩

theorem Outlined.handle {handler : E → Script T S E A} (inv : O.inv s)
    (first : Outlined O goes p Q (fun e t => Outlined O goes p Q X (handler e) t) x s) :
    Outlined O goes p Q X (x.handle handler) s := by
  induction x generalizing s with
  | ret a => exact first
  | raise e => exact first
  | act op next failed ihNext ihFailed =>
    refine ⟨first.1, ?_⟩
    intro t view invT need
    obtain ⟨done, early, late⟩ := first.2 t view invT need
    refine ⟨?_, ?_, ?_⟩
    · intro ready allowed
      obtain ⟨kept, rest⟩ := done ready allowed
      exact ⟨kept, ihNext t kept.inv rest⟩
    · intro e may allowed
      exact ihFailed e invT (early e may allowed)
    · intro e may ready allowed
      obtain ⟨kept, rest⟩ := late e may ready allowed
      exact ⟨kept, ihFailed e kept.inv rest⟩

namespace Annotated

theorem weaken (spec : Annotated O goes p P x Q X) (pre : ∀ s, O.inv s → P' s → P s)
    (post : ∀ a s, O.inv s → Q a s → Q' a s) (error : ∀ e s, O.inv s → X e s → X' e s) :
    Annotated O goes p P' x Q' X' :=
  fun s inv start => (spec s inv (pre s inv start)).weaken inv post error

theorem ret {a : A} (post : ∀ s, O.inv s → P s → Q a s) :
    Annotated O goes p P (pure a : Script T S E A) Q X :=
  post

theorem raise {e : E} (error : ∀ s, O.inv s → P s → X e s) :
    Annotated O goes p P (.raise e : Script T S E A) Q X :=
  error

theorem bind {f : A → Script T S E B} (first : Annotated O goes p P x Q X)
    (later : ∀ a, Annotated O goes p (Q a) (f a) R X) : Annotated O goes p P (x >>= f) R X :=
  fun s inv start => Outlined.bind inv ((first s inv start).weaken inv
    (fun a t invT q => later a t invT q) fun _ _ _ error => error)

theorem handle {handler : E → Script T S E A} {Y : E → S → Prop}
    (body : Annotated O goes p P x Q Y) (caught : ∀ e, Annotated O goes p (Y e) (handler e) Q X) :
    Annotated O goes p P (x.handle handler) Q X :=
  fun s inv start => Outlined.handle inv ((body s inv start).weaken inv (fun _ _ _ q => q)
    fun e t invT error => caught e t invT error)

theorem ofExcept {r : Except E A} (ok : ∀ a s, O.inv s → P s → r = .ok a → Q a s)
    (error : ∀ e s, O.inv s → P s → r = .error e → X e s) :
    Annotated O goes p P (Script.ofExcept r : Script T S E A) Q X := by
  cases r with
  | ok a => exact ret fun s inv start => ok a s inv start rfl
  | error e => exact raise fun s inv start => error e s inv start rfl

theorem attempt (body : Annotated O goes p P x Q X) {Y : E → S → Prop} :
    Annotated O goes p P x.attempt
      (fun r s => (∃ a, r = .ok a ∧ Q a s) ∨ ∃ e, r = .error e ∧ X e s) Y := by
  refine handle (Y := X) (body.bind fun a => ?_) fun e => ?_
  · exact ret fun s _ q => .inl ⟨a, rfl, q⟩
  · exact ret fun s _ x => .inr ⟨e, rfl, x⟩

/-- A read, which needs nothing. -/
theorem look {tag : T} {read : S → Except E A} (free : ∀ s, O.need p tag s)
    (ok : ∀ s a, O.inv s → read s = .ok a → Q a s) (error : ∀ e s, O.inv s → X e s) :
    Annotated O goes p P (Script.look tag read) Q X := by
  intro s _ _
  refine ⟨free s, ?_⟩
  intro t view invT _
  refine ⟨?_, ?_, ?_⟩
  · intro _ _
    refine ⟨Outline.keeps_refl invT, ?_⟩
    change Outlined O goes p Q X (Script.ofExcept (read t)) t
    cases seen : read t with
    | ok a => exact ok t a invT seen
    | error e => exact error e t invT
  · intro e _ _
    exact error e t invT
  · intro e may
    cases may

/-- A call of a store. -/
theorem call {tag : T} {answer : S → Except E (A × S)} (need : ∀ s, O.inv s → P s → O.need p tag s)
    (ok : ∀ s view a t, O.inv s → O.need p tag s → answer s = .ok (a, t) →
      goes tag .done s view → O.Keeps p view s t ∧ Q a t)
    (refused : ∀ s e, O.inv s → O.need p tag s → answer s = .error e → X e s)
    (early : ∀ e s, O.inv s → O.need p tag s → X e s)
    (late : ∀ s view a t e, O.inv s → O.need p tag s → answer s = .ok (a, t) →
      goes tag (.after e) s view → O.Keeps p view s t ∧ X e t) :
    Annotated O goes p P (Script.call tag answer) Q X := by
  intro s inv start
  refine ⟨need s inv start, ?_⟩
  intro t view invT needT
  refine ⟨?_, ?_, ?_⟩
  · intro _ allowed
    cases seen : answer t with
    | ok result =>
      simp only [seen]
      exact ok t view result.1 result.2 invT needT seen allowed
    | error e =>
      simp only [seen]
      exact ⟨Outline.keeps_refl invT, refused t e invT needT seen⟩
  · intro e _ _
    exact early e t invT needT
  · intro e _ _ allowed
    cases seen : answer t with
    | ok result =>
      simp only [seen]
      exact late t view result.1 result.2 e invT needT seen allowed
    | error e' =>
      simp only [seen]
      exact ⟨Outline.keeps_refl invT, early e t invT needT⟩

theorem collect {f : A → Script T S E B} {entries : List A}
    (each : ∀ a, Annotated O goes p (fun _ => True) (f a) (fun _ _ => True) X) :
    Annotated O goes p P (Script.collect f entries) (fun _ _ => True) X := by
  induction entries generalizing P with
  | nil => exact ret fun _ _ _ => trivial
  | cons a rest ih =>
    refine bind ((each a).weaken (fun _ _ _ => trivial) (fun _ _ _ q => q) fun _ _ _ error => error) ?_
    intro b
    exact bind ih fun others => ret fun _ _ _ => trivial

end Annotated

end Judgement

namespace Machine

variable [DecidableEq ι] {K : Kernel ι C T S E A} {O : Outline ι T S}
  {starts : ι → C → S → Prop} {goes : T → Fault E → S → (ι → Option T) → Prop}
  {s : Machine ι C T S E A}

/-- Which calls are made where, and how each operation may go there while the others stand where
they do. -/
def Allowed (starts : ι → C → S → Prop) (goes : T → Fault E → S → (ι → Option T) → Prop)
    (s : Machine ι C T S E A) : Event ι C E → Prop
  | .start p c => starts p c s.shared
  | .go p fault => ∀ tag, s.nextTag p = some tag → goes tag fault s.shared s.nextTag

/-- The invariant holds, and each process has what it needs. -/
structure Standing (O : Outline ι T S) (goes : T → Fault E → S → (ι → Option T) → Prop)
    (s : Machine ι C T S E A) : Prop where
  inv : O.inv s.shared
  process : ∀ p c script, s.process p = some ⟨c, script⟩ →
    Outlined O goes p (fun _ _ => True) (fun _ _ => True) script s.shared

/-- What has to be shown of a kernel. -/
structure OutlinedBy (K : Kernel ι C T S E A) (O : Outline ι T S) (starts : ι → C → S → Prop)
    (goes : T → Fault E → S → (ι → Option T) → Prop) : Prop where
  programs : ∀ p c s, O.inv s → starts p c s →
    Outlined O goes p (fun _ _ => True) (fun _ _ => True) (K.program p c) s
  crashes : ∀ p tag s view, O.inv s → O.need p tag s → goes tag .crash s view →
    O.Keeps p view s (K.release p s)

omit [DecidableEq ι] in
theorem nextTag_act {p : ι} {c : C} {op : Op T S} {next : S → Script T S E A}
    {failed : E → Script T S E A} (there : s.process p = some ⟨c, .act op next failed⟩) :
    s.nextTag p = some op.tag := by
  rw [nextTag, there]

theorem Standing.set {p : ι} {shared : S} {after : Option (Process C T S E A)}
    (standing : Standing O goes s) (step : O.Keeps p s.nextTag s.shared shared)
    (own : ∀ c script, after = some ⟨c, script⟩ →
      Outlined O goes p (fun _ _ => True) (fun _ _ => True) script shared) :
    Standing O goes (s.set p shared after) := by
  refine ⟨step.inv, ?_⟩
  intro q c script there
  by_cases same : q = p
  · subst same
    exact own c script (by simpa [Machine.set] using there)
  · have before : s.process q = some ⟨c, script⟩ := by simpa [Machine.set, same] using there
    have outlined := standing.process q c script before
    cases script with
    | ret a => exact trivial
    | raise e => exact trivial
    | act op next failed =>
      exact ⟨step.others q op.tag same (nextTag_act before) outlined.1, outlined.2⟩

theorem Standing.step (rules : OutlinedBy K O starts goes) (standing : Standing O goes s)
    {l : Event ι C E} (allowed : Allowed starts goes s l) : Standing O goes (s.step K l) := by
  cases l with
  | start p c =>
    have begun : Standing O goes (s.set p s.shared (some ⟨c, K.program p c⟩)) := by
      refine standing.set (Outline.keeps_refl standing.inv) ?_
      intro c' script same
      cases same
      exact rules.programs p c s.shared standing.inv allowed
    change Standing O goes (s.take K p c)
    unfold take
    rcases process : s.process p with _ | ⟨c', a | e | ⟨op, next, failed⟩⟩ <;> simp only
    · exact begun
    · exact begun
    · exact begun
    · exact standing
  | go p fault =>
    change Standing O goes (s.advance K p fault)
    unfold advance
    rcases process : s.process p with _ | ⟨c, a | e | ⟨op, next, failed⟩⟩ <;> simp only
    · exact standing
    · exact standing
    · exact standing
    · have permitted := allowed op.tag (nextTag_act process)
      have outlined := standing.process p c _ process
      obtain ⟨done, early, late⟩ := outlined.2 s.shared s.nextTag standing.inv outlined.1
      cases fault with
      | done =>
        simp only
        split
        · rename_i ready
          obtain ⟨step, rest⟩ := done ready permitted
          exact standing.set step fun c' script same => by cases same; exact rest
        · exact standing
      | before e =>
        simp only
        split
        · exact standing
        · rename_i may
          refine standing.set (Outline.keeps_refl standing.inv) fun c' script same => ?_
          cases same
          exact early e may permitted
      | after e =>
        simp only
        split
        · rename_i both
          obtain ⟨step, rest⟩ := late e both.1 both.2 permitted
          exact standing.set step fun c' script same => by cases same; exact rest
        · exact standing
      | crash =>
        have step := rules.crashes p op.tag s.shared s.nextTag standing.inv outlined.1 permitted
        exact standing.set step fun c' script same => by cases same

/-- Every run whose steps are all allowed keeps the invariant, and what each process needs. -/
theorem standing (rules : OutlinedBy K O starts goes) {labels : List (Event ι C E)}
    (start : Standing O goes s) (along : Along (step K) (Allowed starts goes) s labels) :
    Throughout (step K) (Standing O goes) s labels :=
  along.invariant (fun _ _ standing allowed => standing.step rules allowed) start

end Machine

end RepoForge.Scripts
