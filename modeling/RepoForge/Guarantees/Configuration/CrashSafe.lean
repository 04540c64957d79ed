import RepoForge.Guarantees.Configuration.PointersWhole
import RepoForge.Spec.Configuration.StoreRestart

/-!
# The generation store survives crashes

In every run of calls in which no process dies while it removes a pruned generation, and no accepted
text has a carriage return, a restarted process can read the store and accept. A directory that has
lost some of its files makes `history`, and with it every later `accept`, raise; so does a text that
is not read as it was written.
-/
namespace RepoForge.ConfigStore

open Scripts PyDict Runs

section

variable {ι : Type} {R : Environment} {torn settled : Prop} {c : Call} {s t u : Store ι}

/-- What a process that has just started can do. -/
structure Survives (R : Environment) (accepted : ConfigMutation → Prop) (s : Store Unit) :
    Prop where
  current : ∃ item, item.map (·.generation) = s.accepted ∧
    (loadPointer R .accepted).solo s = some (.ok item, s)
  active : ∃ item, item.map (·.generation) = s.active ∧
    (loadPointer R .active).solo s = some (.ok item, s)
  history : ∃ items, items.map (·.generation) = listing s ∧
    (history R).solo s = some (.ok items, s)
  accepts : ∀ m, accepted m → Expected R s m →
    ∃ item t, (accept R () m).solo s = some (.ok item, t)
  /-- A number has one content, whenever it is accepted. -/
  contents : ∀ e ∈ s.everAccepted, ∀ e' ∈ s.everAccepted, e.1 = e'.1 → e.2 = e'.2
  /-- And none of its files holds anything else. -/
  kept : ∀ e ∈ s.everAccepted, ∃ whole, e.2 = some whole ∧ whole.Complete ∧
    ∀ d, s.dir e.1 = some d → d.Within whole

/-- What is accepted under a call is what was accepted before it, or what it accepts. -/
structure AcceptedUnder (c : Call) (s t : Store ι) : Prop where
  grows : ∀ e ∈ s.everAccepted, e ∈ t.everAccepted
  accepted : t.accepted = s.accepted ∨
    (∃ m g d, c = .accept m ∧ t.accepted = some g ∧ (∀ e ∈ s.everAccepted, e.1 < g) ∧
      t.dir g = some d ∧ d.source = some m.sourceText ∧ d.resolved = some m.resolvedText) ∨
    ∃ g expected token, c = .rollback g expected token ∧ t.accepted = some g

theorem acceptedUnder_refl : AcceptedUnder c s s := ⟨fun _ ever => ever, .inl rfl⟩

/-- Changes that leave the accepted pointer and its directory. -/
theorem AcceptedUnder.frame (under : AcceptedUnder c s t) (accepted : u.accepted = t.accepted)
    (everAccepted : u.everAccepted = t.everAccepted)
    (dirs : ∀ g d, t.accepted = some g → t.dir g = some d → u.dir g = some d) :
    AcceptedUnder c s u := by
  refine ⟨by rw [everAccepted]; exact under.grows, ?_⟩
  rcases under.accepted with same | ⟨m, g, d, call, now, newer, there, texts⟩ | rolled
  · exact .inl (accepted.trans same)
  · exact .inr (.inl ⟨m, g, d, call, accepted.trans now, newer, dirs g d now there, texts⟩)
  · refine .inr (.inr ?_)
    rwa [accepted]

variable [DecidableEq ι]

theorem AcceptedUnder.change (under : AcceptedUnder c s t)
    (change : Change R torn settled c t u) : AcceptedUnder c s u := by
  cases change with
  | creates m number current kind call newest passed =>
    refine under.frame rfl rfl fun g d _ there => ?_
    rw [Store.dir, dir_assign, if_neg, there]
    rintro rfl
    exact lt_irrefl _ (newest g (by rw [there]; rfl))
  | accepts g d there complete own chosen call =>
    refine ⟨fun e ever => List.mem_cons_of_mem _ (under.grows e ever), .inr ?_⟩
    rcases call with ⟨m, call⟩ | ⟨n, expected, token, call⟩
    · obtain ⟨source, resolved, newer⟩ := own m call
      exact .inl ⟨m, g, d, call, rfl, fun e ever => newer e (under.grows e ever), there, source,
        resolved⟩
    · rw [chosen n expected token call]
      exact .inr ⟨n, expected, token, call, rfl⟩
  | unlinks g newest file accepted older active target one =>
    have frame : (unlinkFile g file t).everAccepted = t.everAccepted := by
      unfold unlinkFile
      split <;> rfl
    refine under.frame (pointer_unlinkFile (p := .accepted)) frame fun n d now there => ?_
    rw [dir_unlinkFile, if_neg, there]
    rintro rfl
    rw [accepted] at now
    cases now
    exact lt_irrefl _ older
  | removes g newest accepted older active target one emptied =>
    refine under.frame rfl rfl fun n d now there => ?_
    rw [dir_removeDir, if_neg, there]
    rintro ⟨rfl, -⟩
    rw [accepted] at now
    cases now
    exact lt_irrefl _ older
  | calm source generationLock activationLock selecting idle =>
    exact under.frame rfl rfl fun _ _ _ there => there
  | dies p whole => exact under.frame rfl rfl fun _ _ _ there => there
  | stages g holds => exact under.frame rfl rfl fun _ _ _ there => there
  | unstages whole => exact under.frame rfl rfl fun _ _ _ there => there
  | resolves g text staged => exact under.frame rfl rfl fun _ _ _ there => there
  | activates g d text staged there stored written =>
    exact under.frame rfl rfl fun _ _ _ there => there

end

/-- A restarted process can go on at every point of the run, and a call that is interrupted has
accepted what it should, or nothing. -/
structure CrashSafe (R : Environment) (accepted : ConfigMutation → Prop)
    (m : StoreMachine Unit) (labels : List (Event Unit Call ConfigError)) : Prop where
  survives : Throughout (Machine.step (kernel R))
    (fun m => m.nextTag () = none → Survives R accepted m.shared) m labels
  between : ∀ before c during rest, labels = before ++ .start () c :: during ++ rest →
    (run (Machine.step (kernel R)) m before).nextTag () = none →
    (∀ l ∈ during, ∃ fault, l = .go () fault) →
    AcceptedUnder c (run (Machine.step (kernel R)) m before).shared
      (run (Machine.step (kernel R)) m (before ++ .start () c :: during)).shared

theorem Ready.survives {R : Environment} {s : Store Unit} (ready : Ready R s) (sound : Sound s)
    (resting : Resting () s) : Survives R (fun m => PlainCall (.accept m)) s := by
  have unlocked : s.generationLock = none := by
    cases there : s.generationLock with
    | none => rfl
    | some p => exact absurd there resting.1
  have restarted := fun lock => ready.restarted sound (sound.idle unlocked) lock
  have here : Restarted R s := restarted s.generationLock
  refine ⟨here.loadPointer .accepted, here.loadPointer .active, here.history, ?_, ready.logged,
    sound.recorded⟩
  exact fun m plain expected => (restarted (some ())).accept unlocked plain expected

theorem store_survives {R : Environment} {source : Option Text}
    {labels : List (Event Unit Call ConfigError)}
    (operates : Along (Machine.step (kernel R)) (Machine.Permitted operating) (newMachine source)
      labels)
    (whole : Along (Machine.step (kernel R)) DiesWhole (newMachine source) labels)
    (plain : ∀ m, .start () (.accept m) ∈ labels → Plain m.sourceText ∧ Plain m.resolvedText) :
    CrashSafe R (fun m => PlainCall (.accept m)) (newMachine source) labels := by
  have made : ∀ p c, .start p c ∈ labels → PlainCall c := by
    intro p c inside m same
    subst same
    obtain ⟨done, rest, split⟩ := List.append_of_mem inside
    exact ⟨operates done _ rest split m rfl, plain m inside⟩
  obtain ⟨along, kept⟩ := kept_run PlainCall False False operates made (.inl fun p q => rfl)
    (fun none => none.elim) (.inr whole)
  have ready : Throughout (Machine.step (kernel R)) (fun m => Ready R m.shared)
      (newMachine source) labels := by
    refine (along.both kept.along).invariant (fun m l ready step => ?_) ⟨fun g d there => ?_, ?_⟩
    · obtain ⟨permitted, here, -⟩ := step
      rcases here.effect disciplined permitted with same | ⟨p, c, fault, script, -, process, good⟩
      · rw [same]
        exact ready
      · obtain ⟨⟨t, called⟩, -⟩ := here.present p c script process
        rcases good with same | change
        · rw [same]
          exact ready
        · exact ready.change here.inv change called
    · cases there
    · intro e ever
      cases ever
  refine ⟨fun done rest split idle => ?_, ?_⟩
  · have here := kept done rest split
    exact (ready done rest split).survives here.inv (here.resting idle)
  · intro before c during rest split idle go
    have steps := along.both kept.along
    rw [split] at steps
    obtain ⟨-, later⟩ := along_cons.mp steps.within
    rw [run_append, run_cons]
    have begun : (Machine.step (kernel R) (run (Machine.step (kernel R)) (newMachine source) before)
        (.start () c)) = (run (Machine.step (kernel R)) (newMachine source) before).set ()
        (run (Machine.step (kernel R)) (newMachine source) before).shared
        (some ⟨c, (kernel R).program () c⟩) :=
      Machine.take_idle (kernel R) idle
    -- As long as only its operations follow, the process is in this call or dead.
    have under := (later.both (along_of_forall fun l inside _ => go l inside)).invariant
      (Q := fun m => AcceptedUnder c (run (Machine.step (kernel R)) (newMachine source)
        before).shared m.shared ∧ ∀ c' script, m.process () = some ⟨c', script⟩ → c' = c) ?_ ?_
    · exact under.last.1
    · intro m l here step
      obtain ⟨under, mine⟩ := here
      obtain ⟨⟨permitted, now, -⟩, fault, rfl⟩ := step
      refine ⟨?_, fun c' script there => ?_⟩
      · rcases now.effect disciplined permitted with same | ⟨p, c', fault', script, -, process, good⟩
        · rw [same]
          exact under
        · rcases good with same | change
          · rw [same]
            exact under
          · rw [mine c' script process] at change
            exact under.change change
      · obtain ⟨script', there⟩ := Machine.advance_call (K := kernel R) there
        exact mine c' script' there
    · rw [begun]
      refine ⟨acceptedUnder_refl, fun c' script there => ?_⟩
      simp only [Machine.set, Function.update_self, Option.some.injEq] at there
      exact (congrArg Process.call there).symm

/-- An `accept` that dies after it has stored its generation. -/
def diedStretches : List (Machine.Stretch Unit Call) :=
  activatedStretches () ++ [
    { process := ()
      call := .accept (sampleMutation 1)
      operations := 34 }]

def diedLabels : List (Event Unit Call ConfigError) :=
  diedStretches.flatMap Machine.Stretch.labels ++ [.go () .crash]

/-- Whether a process dies only where no directory is being removed. -/
def diesWhole (m : StoreMachine Unit) : Event Unit Call ConfigError → Bool
  | .go _ .crash => m.shared.removing.isNone
  | _ => true

theorem diesWhole_of (m : StoreMachine Unit) (l : Event Unit Call ConfigError)
    (whole : diesWhole m l = true) : DiesWhole m l := by
  intro p same
  subst same
  exact Option.isNone_iff_eq_none.mp whole

theorem sampleMutation_plain (i : Nat) :
    Plain (sampleMutation i).sourceText ∧ Plain (sampleMutation i).resolvedText := by
  unfold sampleMutation Plain
  dsimp only
  split_ifs <;> decide

theorem crash_operate {stretches : List (Machine.Stretch Unit Call)}
    (valid : ∀ x ∈ stretches, ∀ m, x.call = .accept m → m.Valid) (m : StoreMachine Unit) :
    ∀ l ∈ stretches.flatMap Machine.Stretch.labels ++ [.go () .crash],
      Machine.Permitted operating m l := by
  intro l inside
  rcases List.mem_append.mp inside with calls | last
  · exact stretches_operate valid m l calls
  · rw [List.mem_singleton.mp last]
    exact fun _ _ _ _ _ => .inr rfl

/-- Where a `start` in stretches comes from. -/
theorem start_mem {stretches : List (Machine.Stretch Unit Call)} {c : Call}
    (inside : (.start () c : Event Unit Call ConfigError) ∈
      stretches.flatMap Machine.Stretch.labels ++ [.go () .crash]) :
    ∃ x ∈ stretches, x.call = c := by
  rcases List.mem_append.mp inside with calls | last
  · obtain ⟨x, here, inside⟩ := List.mem_flatMap.mp calls
    rcases List.mem_cons.mp inside with same | later
    · cases same
      exact ⟨x, here, rfl⟩
    · cases List.eq_of_mem_replicate later
  · cases List.mem_singleton.mp last

theorem diedStretches_sample {x : Machine.Stretch Unit Call} (inside : x ∈ diedStretches)
    {m : ConfigMutation} (same : x.call = .accept m) : ∃ i, m = sampleMutation i := by
  simp only [diedStretches, activatedStretches, List.map_cons, List.map_nil, List.cons_append,
    List.nil_append, List.mem_cons, List.not_mem_nil, or_false] at inside
  rcases inside with rfl | rfl | rfl | rfl <;> cases same <;> exact ⟨_, rfl⟩

theorem store_survives_died :
    CrashSafe sampleEnvironment (fun m => PlainCall (.accept m)) (newMachine none) diedLabels := by
  refine store_survives (along_of_forall fun l inside m => crash_operate ?_ m l inside)
    (along_of_passes diesWhole_of (by decide +kernel)) fun m inside => ?_
  · intro x here m same
    obtain ⟨i, rfl⟩ := diedStretches_sample here same
    exact sampleMutation_valid i
  · obtain ⟨x, here, same⟩ := start_mem inside
    obtain ⟨i, rfl⟩ := diedStretches_sample here same
    exact sampleMutation_plain i

/-! ### A process that dies inside a removal -/

/-- The next `accept` has removed the first file of the first generation. -/
def tornStretches : List (Machine.Stretch Unit Call) :=
  retainedStretches () ++ [
    { process := ()
      call := .accept (sampleMutation retainedGenerations)
      operations := 365 }]

def tornLabels : List (Event Unit Call ConfigError) :=
  tornStretches.flatMap Machine.Stretch.labels ++ [.go () .crash]

def tornEnd : StoreMachine Unit :=
  (tornStretches.foldl (Machine.stretch (kernel sampleEnvironment)) (newMachine none)).advance
    (kernel sampleEnvironment) () .crash

theorem tornEnd_run :
    run (Machine.step (kernel sampleEnvironment)) (newMachine none) tornLabels = tornEnd := by
  rw [tornLabels, run_append, Machine.run_stretches, run_cons, run_nil, tornEnd, Machine.step]

theorem tornLabels_operate :
    Along (Machine.step (kernel sampleEnvironment)) (Machine.Permitted operating)
      (newMachine none) tornLabels := by
  refine along_of_forall fun l inside m => crash_operate (fun x here m same => ?_) m l inside
  rcases List.mem_append.mp here with retained | next
  · exact retainedStretches_valid retained same
  · rw [List.mem_singleton.mp next] at same
    cases same
    exact sampleMutation_valid _

theorem retained_unit : acceptEach () retainedGenerations 0 (Store.fresh none) =
    some (retainedStore 20) := by
  have first : acceptEach () 10 0 (Store.fresh none) = some (retainedStore 10) := by
    decide +kernel
  have second : acceptEach () 6 10 (retainedStore 10) = some (retainedStore 16) := by
    decide +kernel
  have last : acceptEach () 4 16 (retainedStore 16) = some (retainedStore 20) := by
    decide +kernel
  have sixteen := acceptEach_append first second
  have twenty := acceptEach_append sixteen last
  exact twenty

theorem stretch_alone {m m' : StoreMachine Unit} {x : Machine.Stretch Unit Call}
    (idle : m.nextTag () = none) (idle' : m'.nextTag () = none) (same : m.shared = m'.shared) :
    m.stretch (kernel sampleEnvironment) x = m'.stretch (kernel sampleEnvironment) x := by
  have overwritten {p : Unit} {shared process} : m.set p shared process = m'.set p shared process :=
    congrArg (Machine.mk shared) (funext fun q => by
      rw [Subsingleton.elim q p, Function.update_self, Function.update_self])
  rw [Machine.stretch_idle _ idle, Machine.stretch_idle _ idle', same, overwritten]

/-- The store in which the process dies, if it has retained as many generations as it can. -/
def tornMachine : StoreMachine Unit :=
  (Machine.stretch (kernel sampleEnvironment) ⟨retainedStore 20, fun _ => none⟩
    { process := ()
      call := .accept (sampleMutation retainedGenerations)
      operations := 365 }).advance (kernel sampleEnvironment) () .crash

theorem tornEnd_eq : tornEnd = tornMachine := by
  obtain ⟨m, run, shared, idle, -⟩ := retained_run retained_unit
  rw [tornEnd, tornStretches, List.foldl_append, run, List.foldl_cons, List.foldl_nil,
    @stretch_alone m ⟨retainedStore 20, fun _ => none⟩ _ idle rfl shared, tornMachine]

/-- `history` raises after the restart. -/
theorem tornEnd_history : (tornEnd.nextTag ()).isNone = true ∧
    ((history sampleEnvironment).solo tornEnd.shared).all
      (fun result => result.1.toOption.isNone) = true := by
  rw [tornEnd_eq]
  decide +kernel

theorem torn_removal_not_survived :
    ¬ ∀ (R : Environment) (source : Option Text) (labels : List (Event Unit Call ConfigError)),
      Along (Machine.step (kernel R)) (Machine.Permitted operating) (newMachine source) labels →
      CrashSafe R ConfigMutation.Valid (newMachine source) labels := by
  intro claim
  have safe := (claim sampleEnvironment none tornLabels tornLabels_operate).survives.last
  rw [tornEnd_run] at safe
  obtain ⟨idle, raises⟩ := tornEnd_history
  obtain ⟨items, -, reads⟩ := (safe (Option.isNone_iff_eq_none.mp idle)).history
  rw [reads] at raises
  cases raises

end RepoForge.ConfigStore
