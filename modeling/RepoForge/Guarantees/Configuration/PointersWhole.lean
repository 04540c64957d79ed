import RepoForge.Library.PyStr
import RepoForge.Library.Sha256
import RepoForge.Spec.Configuration.StoreDisciplined

/-!
# No configuration pointer dangles

In every run that removes no file of a generation which is active, staged, or being loaded by
`stage_activation`, all pointers name complete generations. `_prune` does not see to that: it reads
the pointers of the other lock once, before it removes anything.
-/
namespace RepoForge.ConfigStore

open Scripts PyDict Runs PyStr

/-- `a = 1` -/
def oneText : Text := "a = 1\n".toList

/-- `a = 2` -/
def twoText : Text := "a = 2\n".toList

/-- The digests of the two texts are what SHA-256 gives; a changed value that the policy does not
know is incompatible. -/
def sampleEnvironment : Environment where
  sha256Text t :=
    if t = oneText then "cb78bd8a17f7b751fe0d4663366dcbc257204033ef7ddd64b1f2969573b5b2e2".toList
    else if t = twoText then
      "1382c01db535c28d9d2e3137ea7b6ff14ed03537bc4dab2e8d40182bd48bbd69".toList
    else Sha256.hexdigest (utf8 t)
  hexadecimal t := by
    split_ifs
    · decide
    · decide
    · obtain ⟨length, lower⟩ := Sha256.hexdigest_hex (utf8 t)
      simp [isSha256, length, lower]
  classify before after := .ok (if before = after then .equivalent else .incompatible)
  removal _ := [.metadata, .source, .resolved]
  everyFile g file := by cases file <;> decide

def sampleApproval : ApprovalEvent where
  actor := "operator".toList
  approvedAt := "2024-05-01T00:00:00+00:00".toList
  proposalId := "proposal".toList
  approvalTokenSha256 := "token".toList

/-- Approved mutations, with the two texts in turn. -/
def sampleMutation (i : Nat) : ConfigMutation where
  sourceText := if i % 2 = 0 then oneText else twoText
  resolvedText := if i % 2 = 0 then oneText else twoText
  repositoryFingerprints := []
  reason := "edit".toList
  createdAt := "2024-05-01T00:00:00+00:00".toList
  expectedGeneration := none
  expectedSourceSha256 := none
  proposalId := some "proposal".toList
  approval := some sampleApproval
  correlationId := "correlation".toList

theorem sampleMutation_valid (i : Nat) : (sampleMutation i).Valid := by
  refine ⟨⟨?_, ?_, List.cons_ne_nil _ _, List.cons_ne_nil _ _⟩, ?_, ?_⟩
  · unfold sampleMutation
    dsimp only
    split_ifs <;> decide
  · unfold sampleMutation
    dsimp only
    split_ifs <;> decide
  · intro item inside
    cases inside
  · intro event same
    cases same
    rfl

theorem stretches_operate {ι : Type} {stretches : List (Machine.Stretch ι Call)}
    (valid : ∀ x ∈ stretches, ∀ m, x.call = .accept m → m.Valid) (m : StoreMachine ι) :
    ∀ l ∈ stretches.flatMap Machine.Stretch.labels, Machine.Permitted operating m l := by
  intro l inside
  obtain ⟨x, here, inside⟩ := List.mem_flatMap.mp inside
  rcases List.mem_cons.mp inside with rfl | later
  · exact valid x here
  · rw [List.eq_of_mem_replicate later]
    exact fun _ _ _ _ _ => .inl rfl

/-- A generation that is accepted, staged and activated. -/
def activatedStretches {ι : Type} (p : ι) : List (Machine.Stretch ι Call) :=
  [.accept (sampleMutation 0), .stage 1 none, .activate 1 none].map fun call =>
    { process := p
      call := call
      operations := 40 }

theorem activatedStretches_operate {ι : Type} {p : ι} (m : StoreMachine ι) :
    ∀ l ∈ (activatedStretches p).flatMap Machine.Stretch.labels,
      Machine.Permitted operating m l := by
  refine stretches_operate (fun x inside m same => ?_) m
  simp only [activatedStretches, List.map_cons, List.map_nil, List.mem_cons, List.not_mem_nil,
    or_false] at inside
  rcases inside with rfl | rfl | rfl <;> cases same
  exact sampleMutation_valid 0

/-- What each pointer names is complete. -/
def PointersWhole {ι : Type} (s : Store ι) : Prop := ∀ p g, s.pointer p = some g → s.Holds g

theorem pointers_whole {ι : Type} [DecidableEq ι] {R : Environment} {source : Option Text}
    {labels : List (Event ι Call ConfigError)}
    (operates : Along (Machine.step (kernel R)) (Machine.Permitted operating) (newMachine source)
      labels)
    (removes : Along (Machine.step (kernel R)) RemovesUnselected (newMachine source) labels) :
    Throughout (Machine.step (kernel R)) (fun m => PointersWhole m.shared) (newMachine source)
      labels := by
  obtain ⟨-, kept⟩ := kept_run (fun _ => True) True False operates (fun _ _ _ => trivial)
    (.inr removes) (fun none => none.elim) (.inl trivial)
  exact fun done rest split => (kept done rest split).inv.pointers

/-- Whether a step removes nothing. -/
def removesNothing (m : StoreMachine Bool) : Event Bool Call ConfigError → Bool
  | .go p .done =>
    match m.nextTag p with
    | some (.unlink _) | some (.rmdir _) => false
    | _ => true
  | _ => true

theorem removesUnselected_of_nothing (m : StoreMachine Bool) (l : Event Bool Call ConfigError)
    (nothing : removesNothing m l = true) : RemovesUnselected m l := by
  intro p g same tag
  subst same
  rcases tag with tag | tag <;> simp [removesNothing, tag] at nothing

theorem activatedStretches_removes :
    Along (Machine.step (kernel sampleEnvironment)) RemovesUnselected (newMachine none)
      ((activatedStretches true).flatMap Machine.Stretch.labels) :=
  along_of_passes removesUnselected_of_nothing (by decide +kernel)

theorem pointers_whole_activated :
    Throughout (Machine.step (kernel sampleEnvironment)) (fun m => PointersWhole m.shared)
      (newMachine none) ((activatedStretches true).flatMap Machine.Stretch.labels) :=
  pointers_whole (along_of_forall fun l inside m => activatedStretches_operate m l inside)
    activatedStretches_removes

/-! ### A generation staged while it is pruned -/

/-- As many generations as are retained. -/
def retainedStretches {ι : Type} (p : ι) : List (Machine.Stretch ι Call) :=
  (List.range retainedGenerations).map fun i =>
    { process := p
      call := .accept (sampleMutation i)
      operations := 1000 }

section Retained

variable {ι : Type} [DecidableEq ι] {p : ι} {k l n : Nat}

deriving instance DecidableEq for Store

def sampleDir (i : Nat) : GenerationDir where
  metadata := some (generationOf sampleEnvironment (sampleMutation i) (i + 1) i
    (if i = 0 then .expansion else .incompatible))
  source := some (sampleMutation i).sourceText
  resolved := some (sampleMutation i).resolvedText

/-- The store after the first `n` sample mutations. -/
def retainedStore (n : Nat) : Store ι :=
  let dirs := (List.range n).map fun i : Nat => ((i : Int) + 1, sampleDir i)
  { Store.fresh (if n = 0 then none else some (sampleMutation (n - 1)).sourceText) with
    generations := dirs
    accepted := if n = 0 then none else some n
    everAccepted := (dirs.map fun dir => (dir.1, some dir.2)).reverse }

def ended : Script Access (Store ι) ConfigError (Option ConfigGeneration) → Bool
  | .act _ _ _ => false
  | _ => true

/-- The next `k` sample mutations are accepted, from the `n`-th on. -/
def acceptEach (p : ι) : Nat → Nat → Store ι → Option (Store ι)
  | 0, _, s => some s
  | k + 1, n, s =>
    let after := ((kernel sampleEnvironment).program p (.accept (sampleMutation n))).steps 1000 s
    if ended after.1 then acceptEach p k (n + 1) after.2 else none

theorem acceptEach_append {s t u : Store ι} (first : acceptEach p k n s = some t)
    (next : acceptEach p l (n + k) t = some u) : acceptEach p (k + l) n s = some u := by
  induction k generalizing n s with
  | zero =>
    cases first
    rw [Nat.zero_add]
    exact next
  | succ k ih =>
    rw [Nat.add_right_comm]
    rw [acceptEach] at first ⊢
    split at first
    · rename_i finished
      rw [if_pos finished]
      exact ih first (by rwa [Nat.add_assoc, Nat.add_comm 1])
    · cases first

theorem nextTag_ended {m : StoreMachine ι} {s : Store ι} {c : Call}
    {x : Script Access (Store ι) ConfigError (Option ConfigGeneration)} (finished : ended x = true) :
    (m.set p s (some ⟨c, x⟩)).nextTag p = none := by
  unfold Machine.nextTag Machine.set
  dsimp only
  rw [Function.update_self]
  cases x with
  | act => cases finished
  | _ => rfl

/-- What the calls of a process that accepts do to the machine. -/
theorem accepts_run {m : StoreMachine ι} {s : Store ι} (idle : m.nextTag p = none)
    (each : acceptEach p k n m.shared = some s) :
    ∃ m' : StoreMachine ι, ((List.range' n k).map fun i =>
        ({ process := p, call := .accept (sampleMutation i), operations := 1000 } :
          Machine.Stretch ι Call)).foldl (Machine.stretch (kernel sampleEnvironment)) m = m' ∧
      m'.shared = s ∧ m'.nextTag p = none ∧ ∀ q, q ≠ p → m'.process q = m.process q := by
  induction k generalizing n m with
  | zero =>
    cases each
    exact ⟨m, rfl, rfl, idle, fun _ _ => rfl⟩
  | succ k ih =>
    rw [acceptEach] at each
    split at each
    · rename_i finished
      rw [List.range'_succ, List.map_cons, List.foldl_cons, Machine.stretch_idle _ idle]
      obtain ⟨m', run, shared, later, others⟩ := ih (nextTag_ended (m := m) finished) each
      refine ⟨m', run, shared, later, fun q other => ?_⟩
      exact (others q other).trans (Function.update_of_ne other ..)
    · cases each

theorem retained_run {s : Store ι}
    (each : acceptEach p retainedGenerations 0 (Store.fresh none) = some s) :
    ∃ m : StoreMachine ι, (retainedStretches p).foldl
        (Machine.stretch (kernel sampleEnvironment)) (newMachine none) = m ∧
      m.shared = s ∧ m.nextTag p = none ∧ ∀ q, q ≠ p → m.process q = none := by
  rw [retainedStretches, List.range_eq_range']
  exact accepts_run rfl each

end Retained

/-- While the next `accept` is about to prune the first generation, that one is staged. -/
def danglingStretches : List (Machine.Stretch Bool Call) :=
  retainedStretches false ++ [
    { process := false
      call := .accept (sampleMutation retainedGenerations)
      operations := 364 },
    { process := true
      call := .stage 1 none
      operations := 1000 }]

def danglingLabels : List (Event Bool Call ConfigError) :=
  danglingStretches.flatMap Machine.Stretch.labels ++ List.replicate 1000 (.go false .done)

theorem retainedStretches_valid {ι : Type} {p : ι} {x : Machine.Stretch ι Call}
    (inside : x ∈ retainedStretches p) {m : ConfigMutation} (same : x.call = .accept m) :
    m.Valid := by
  obtain ⟨i, -, rfl⟩ := List.mem_map.mp inside
  cases same
  exact sampleMutation_valid i

theorem danglingLabels_operate :
    Along (Machine.step (kernel sampleEnvironment)) (Machine.Permitted operating)
      (newMachine none) danglingLabels := by
  refine along_of_forall fun l inside m => ?_
  rcases List.mem_append.mp inside with calls | last
  · refine stretches_operate (fun x here m same => ?_) m l calls
    rcases List.mem_append.mp here with retained | next
    · exact retainedStretches_valid retained same
    · simp only [List.mem_cons, List.not_mem_nil, or_false] at next
      rcases next with rfl | rfl
      · cases same
        exact sampleMutation_valid _
      · cases same
  · rw [List.eq_of_mem_replicate last]
    exact fun _ _ _ _ _ => .inl rfl

/-- Where that run ends. -/
def danglingEnd : StoreMachine Bool :=
  (danglingStretches.foldl (Machine.stretch (kernel sampleEnvironment)) (newMachine none)).segment
    false 1000

theorem danglingEnd_run : run (Machine.step (kernel sampleEnvironment)) (newMachine none)
    danglingLabels = danglingEnd := by
  rw [danglingLabels, run_append, Machine.run_stretches, Machine.run_segment, danglingEnd]

theorem retained_false : acceptEach false retainedGenerations 0 (Store.fresh none) =
    some (retainedStore 20) := by
  have first : acceptEach false 10 0 (Store.fresh none) = some (retainedStore 10) := by
    decide +kernel
  have second : acceptEach false 6 10 (retainedStore 10) = some (retainedStore 16) := by
    decide +kernel
  have last : acceptEach false 4 16 (retainedStore 16) = some (retainedStore 20) := by
    decide +kernel
  have sixteen := acceptEach_append first second
  have twenty := acceptEach_append sixteen last
  exact twenty

/-- Where the store is left by the process that prunes, and the other one in between. -/
def danglingStore : Store Bool :=
  let begun := ((kernel sampleEnvironment).program false
    (.accept (sampleMutation retainedGenerations))).steps 364 (retainedStore 20)
  let staged := ((kernel sampleEnvironment).program true (.stage 1 none)).steps 1000 begun.2
  (begun.1.steps 1000 staged.2).2

theorem danglingEnd_shared : danglingEnd.shared = danglingStore := by
  obtain ⟨m, run, shared, idle, others⟩ := retained_run retained_false
  rw [danglingEnd, danglingStretches, List.foldl_append, run, List.foldl_cons, List.foldl_cons,
    List.foldl_nil, @Machine.stretch_idle _ _ _ _ _ _ _ _ m _ idle, shared, Machine.stretch_idle]
  · simp [Machine.segment, Machine.set, danglingStore]
  · simp [Machine.nextTag, Machine.set, others true (by decide)]

theorem not_whole_of_missing {ι : Type} {s : Store ι} {g : Nat}
    (missing : (decide (s.target = some g) && (s.dir g).isNone) = true) : ¬PointersWhole s := by
  intro whole
  obtain ⟨staged, gone⟩ := (Bool.and_eq_true _ _).mp missing
  obtain ⟨d, there, -⟩ := whole .target g (of_decide_eq_true staged)
  rw [there] at gone
  cases gone

theorem danglingEnd_pointers : (decide (danglingEnd.shared.target = some 1) &&
    (danglingEnd.shared.dir 1).isNone) = true := by
  rw [danglingEnd_shared]
  decide +kernel

theorem staged_generation_pruned :
    ¬ ∀ (R : Environment) (source : Option Text) (labels : List (Event Bool Call ConfigError)),
      Along (Machine.step (kernel R)) (Machine.Permitted operating) (newMachine source) labels →
      Throughout (Machine.step (kernel R)) (fun m => PointersWhole m.shared) (newMachine source)
        labels := by
  intro claim
  have whole := (claim sampleEnvironment none danglingLabels danglingLabels_operate).last
  rw [danglingEnd_run] at whole
  exact not_whole_of_missing danglingEnd_pointers whole

end RepoForge.ConfigStore

/-!
## The active resolved file matches the active generation

In every run in which `clear_activation_target`, or an `activate` of the active generation, takes no
target away after an `activate` that died between its two writes. Nothing in those two calls asks
whether the resolved file is that of the active generation.
-/
namespace RepoForge.ConfigStore

open Scripts PyDict Runs

section

variable {ι : Type} {s t : Store ι} {a : Int}

/-- The active resolved file is what `read_resolved_text` gives of the generation. -/
def ResolvedOf (s : Store ι) (a : Int) : Prop :=
  ∃ d raw, s.dir a = some d ∧ d.resolved = some raw ∧
    s.activeResolved = some (PyText.universalNewlines raw)

/-- With no target staged, the resolved file is that of the active generation. -/
def ResolvedMatches (s : Store ι) : Prop :=
  s.target = none → ∀ a, s.active = some a → ResolvedOf s a

/-- Between its two writes `activate` has a target. -/
structure Matching (s : Store ι) : Prop where
  settled : s.interrupted = false → ∀ a, s.active = some a → ResolvedOf s a
  staged : s.interrupted = true → s.target ≠ none

theorem Matching.resolved (matching : Matching s) : ResolvedMatches s := by
  intro unstaged
  cases here : s.interrupted with
  | false => exact matching.settled here
  | true => exact absurd unstaged (matching.staged here)

theorem ResolvedOf.kept (resolved : ResolvedOf s a)
    (file : t.activeResolved = s.activeResolved) (dir : ∀ d, s.dir a = some d → t.dir a = some d) :
    ResolvedOf t a := by
  obtain ⟨d, raw, there, stored, same⟩ := resolved
  exact ⟨d, raw, dir d there, stored, file.trans same⟩

/-- A change of the directories that leaves the active one. -/
theorem Matching.dirs (matching : Matching s) (active : t.active = s.active)
    (target : t.target = s.target) (file : t.activeResolved = s.activeResolved)
    (interrupted : t.interrupted = s.interrupted)
    (dirs : ∀ a d, s.active = some a → s.dir a = some d → t.dir a = some d) : Matching t := by
  refine ⟨fun done a there => ?_, fun torn => ?_⟩
  · rw [active] at there
    rw [interrupted] at done
    exact (matching.settled done a there).kept file fun d => dirs a d there
  · rw [target]
    exact matching.staged (interrupted ▸ torn)

variable [DecidableEq ι] {R : Environment} {torn : Prop} {c : Call}

/-- Every change keeps the match, if no target is taken away between the two writes. -/
theorem Matching.change (matching : Matching s) (change : Change R torn True c s t) :
    Matching t := by
  cases change with
  | calm source generationLock activationLock selecting idle =>
    exact ⟨matching.settled, matching.staged⟩
  | dies p whole => exact ⟨matching.settled, matching.staged⟩
  | creates m number current kind call newest passed =>
    refine matching.dirs rfl rfl rfl rfl fun a d _ there => ?_
    rw [Store.dir, dir_assign, if_neg, there]
    rintro rfl
    exact lt_irrefl _ (newest a (by rw [there]; rfl))
  | accepts g d there complete own chosen call => exact ⟨matching.settled, matching.staged⟩
  | stages g holds =>
    refine ⟨matching.settled, fun _ => ?_⟩
    simp
  | unstages whole =>
    refine ⟨matching.settled, fun torn => ?_⟩
    have done : s.interrupted = false := whole trivial
    rw [done] at torn
    cases torn
  | resolves g text staged =>
    refine ⟨fun done => (by cases done), fun _ => ?_⟩
    simp [staged]
  | activates g d text staged there stored written =>
    refine ⟨fun _ a same => ?_, fun torn => (by cases torn)⟩
    cases same
    exact ⟨d, text, there, stored, written⟩
  | unlinks g newest file accepted older active target one =>
    have frame : (unlinkFile g file s).active = s.active ∧ (unlinkFile g file s).target = s.target ∧
        (unlinkFile g file s).activeResolved = s.activeResolved ∧
        (unlinkFile g file s).interrupted = s.interrupted := by
      unfold unlinkFile
      split <;> exact ⟨rfl, rfl, rfl, rfl⟩
    refine matching.dirs frame.1 frame.2.1 frame.2.2.1 frame.2.2.2 fun a d there here => ?_
    rw [dir_unlinkFile, if_neg, here]
    rintro rfl
    exact active there
  | removes g newest accepted older active target one emptied =>
    refine matching.dirs rfl rfl rfl rfl fun a d there here => ?_
    rw [dir_removeDir, if_neg, here]
    rintro ⟨rfl, -⟩
    exact active there

end

theorem resolved_matches {R : Environment} {source : Option Text}
    {labels : List (Event Unit Call ConfigError)}
    (operates : Along (Machine.step (kernel R)) (Machine.Permitted operating) (newMachine source)
      labels)
    (unstages : Along (Machine.step (kernel R)) UnstagesSettled (newMachine source) labels) :
    Throughout (Machine.step (kernel R)) (fun m => ResolvedMatches m.shared) (newMachine source)
      labels := by
  obtain ⟨along, kept⟩ := kept_run (fun _ => True) True True operates
    (fun _ _ _ => trivial) (.inl fun p q => rfl) (fun _ => unstages) (.inl trivial)
  have start : Matching (newMachine source : StoreMachine Unit).shared := by
    refine ⟨fun _ a there => ?_, fun torn => ?_⟩
    · cases there
    · cases torn
  have matching : Throughout (Machine.step (kernel R)) (fun m => Matching m.shared)
      (newMachine source) labels := by
    refine (along.both kept.along).invariant (fun m l matching step => ?_) start
    obtain ⟨permitted, here, -⟩ := step
    rcases here.effect disciplined permitted with same | ⟨p, c, fault, script, -, -, good⟩
    · rw [same]
      exact matching
    · rcases good with same | change
      · rw [same]
        exact matching
      · exact matching.change change
  exact fun done rest split => (matching done rest split).resolved

/-- Whether a step takes no target away, but where an activation ends. -/
def unstagesNothing (m : StoreMachine Unit) : Event Unit Call ConfigError → Bool
  | .go p .done => decide (m.nextTag p ≠ some (.unstage false))
  | _ => true

theorem unstagesSettled_of_nothing (m : StoreMachine Unit) (l : Event Unit Call ConfigError)
    (nothing : unstagesNothing m l = true) : UnstagesSettled m l := by
  intro p same tag
  subst same
  simp [unstagesNothing, tag] at nothing

theorem resolved_matches_activated :
    Throughout (Machine.step (kernel sampleEnvironment)) (fun m => ResolvedMatches m.shared)
      (newMachine none) ((activatedStretches ()).flatMap Machine.Stretch.labels) :=
  resolved_matches (along_of_forall fun l inside m => activatedStretches_operate m l inside)
    (along_of_passes unstagesSettled_of_nothing (by decide +kernel))

/-! ### A target cleared between the two writes -/

/-- The second generation's activation comes to write the active pointer. -/
def interruptedStretches : List (Machine.Stretch Unit Call) :=
  activatedStretches () ++ [
    { process := ()
      call := .accept (sampleMutation 1)
      operations := 100 },
    { process := ()
      call := .stage 2 none
      operations := 40 },
    { process := ()
      call := .activate 2 none
      operations := 19 }]

/-- The process dies there, and the next one clears the target. -/
def interruptedLabels : List (Event Unit Call ConfigError) :=
  interruptedStretches.flatMap Machine.Stretch.labels ++ .go () .crash ::
    .start () (.clear none) :: List.replicate 10 (.go () .done)

def interruptedEnd : StoreMachine Unit :=
  ((((interruptedStretches.foldl (Machine.stretch (kernel sampleEnvironment))
    (newMachine none)).advance (kernel sampleEnvironment) () .crash).take
      (kernel sampleEnvironment) () (.clear none))).segment () 10

theorem interruptedEnd_run : run (Machine.step (kernel sampleEnvironment)) (newMachine none)
    interruptedLabels = interruptedEnd := by
  rw [interruptedLabels, run_append, Machine.run_stretches, run_cons, run_cons,
    Machine.run_segment]
  rfl

theorem interruptedLabels_operate :
    Along (Machine.step (kernel sampleEnvironment)) (Machine.Permitted operating)
      (newMachine none) interruptedLabels := by
  refine along_of_forall fun l inside m => ?_
  rcases List.mem_append.mp inside with calls | last
  · refine stretches_operate (fun x here m same => ?_) m l calls
    simp only [interruptedStretches, activatedStretches, List.map_cons, List.map_nil,
      List.cons_append, List.nil_append, List.mem_cons, List.not_mem_nil, or_false] at here
    rcases here with rfl | rfl | rfl | rfl | rfl | rfl <;> cases same <;>
      exact sampleMutation_valid _
  · rcases List.mem_cons.mp last with rfl | last
    · exact fun _ _ _ _ _ => .inr rfl
    rcases List.mem_cons.mp last with rfl | last
    · intro m same
      cases same
    · rw [List.eq_of_mem_replicate last]
      exact fun _ _ _ _ _ => .inl rfl

theorem interruptedEnd_files : interruptedEnd.shared.target = none ∧
    interruptedEnd.shared.active = some 1 ∧ interruptedEnd.shared.activeResolved = some twoText ∧
    (interruptedEnd.shared.dir 1).bind (·.resolved) = some oneText := by
  decide +kernel

theorem cleared_target_mismatch :
    ¬ ∀ (R : Environment) (source : Option Text) (labels : List (Event Unit Call ConfigError)),
      Along (Machine.step (kernel R)) (Machine.Permitted operating) (newMachine source) labels →
      Throughout (Machine.step (kernel R)) (fun m => ResolvedMatches m.shared) (newMachine source)
        labels := by
  intro claim
  have matching := (claim sampleEnvironment none interruptedLabels interruptedLabels_operate).last
  rw [interruptedEnd_run] at matching
  obtain ⟨target, active, file, stored⟩ := interruptedEnd_files
  obtain ⟨d, raw, there, resolved, same⟩ := matching target 1 active
  rw [there, Option.bind_some, resolved] at stored
  cases stored
  rw [file] at same
  exact absurd same (by decide)

end RepoForge.ConfigStore
