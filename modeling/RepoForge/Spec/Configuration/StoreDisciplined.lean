import RepoForge.Spec.Configuration.StoreCalls

/-!
# The generation store is disciplined

The triples of the calls: pruning removes only what no pointer names, `accept` and `rollback` move
the accepted pointer to a complete generation, and so do `stage_activation` and `activate` with
theirs. Every call keeps the discipline, and a process that dies gives its locks back.
-/
namespace RepoForge.ConfigStore

open Scripts PyDict Runs

variable {ι : Type} [DecidableEq ι] {R : Environment} {torn settled : Prop} {c : Call} {p : ι}

/-! ### Pruning -/

section Prune

/-- What `_prune` has read: no pointer that could be read names a generation that goes. -/
structure Pruning (p : ι) (newest : Int) (keep : List Int) (s : Store ι) : Prop where
  accepted : s.accepted = some newest
  active : Alone p → ∀ g, s.active = some g → g ∈ keep
  target : Alone p → ∀ g, s.target = some g → g ∈ keep

variable {newest g : Int} {keep : List Int}

omit [DecidableEq ι] in
theorem lastingG_pruning : LastingG p (Pruning p newest keep) := by
  intro s t known same alone
  refine ⟨same.accepted.trans known.accepted, fun only => ?_, fun only => ?_⟩
  · rw [alone only]
    exact known.active only
  · rw [alone only]
    exact known.target only

/-- What stays true while files of the directory are removed. -/
def Emptying (g : Int) (gone : GenerationFile → Prop) (s : Store ι) : Prop :=
  (s.removing = none ∨ s.removing = some g) ∧
    ∀ d, s.dir g = some d → ∀ file, gone file → d.has file = false

omit [DecidableEq ι] in
theorem lastingG_emptying {gone : GenerationFile → Prop} :
    LastingG p fun s => Pruning p newest keep s ∧ Emptying g gone s := by
  refine lastingG_and lastingG_pruning fun s t known same _ => ?_
  rw [Emptying, same.removing, Store.dir, same.generations]
  exact known

omit [DecidableEq ι] in
theorem has_unlink {d : GenerationDir} {file file' : GenerationFile} :
    (d.unlink file).has file' = if file' = file then false else d.has file' := by
  cases file <;> cases file' <;> rfl

omit [DecidableEq ι] in
/-- Another process finds every directory it has selected as it was. -/
theorem other_dirs {change : Store ι → Store ι} {s : Store ι}
    (allowed : Alone p ∨ Unselected g s)
    (apart : ∀ n, n ≠ g → (change s).dir n = s.dir n) :
    ∀ q, q ≠ p → ∀ n d, ¬ Unselected n s → s.dir n = some d → (change s).dir n = some d := by
  intro q other n d selected there
  rcases allowed with alone | unselected
  · exact absurd (alone q) other
  · have different : n ≠ g := by
      rintro rfl
      exact selected unselected
    rw [apart n different, there]

omit [DecidableEq ι] in
/-- No pointer names a generation that goes. -/
theorem pruned {s : Store ι} (known : Pruning p newest keep s) (gone : g ∉ keep)
    (allowed : Alone p ∨ Unselected g s) : s.active ≠ some g ∧ s.target ≠ some g := by
  rcases allowed with alone | unselected
  · exact ⟨fun active => gone (known.active alone g active),
      fun target => gone (known.target alone g target)⟩
  · exact ⟨unselected.1, unselected.2.1⟩

theorem unlink_spec {files : GenerationFile → Prop} {file : GenerationFile} (gone : g ∉ keep)
    (older : g < newest) {X : ConfigError → Store ι → Prop} :
    Triple (discipline R torn settled) (goes torn settled p) p c
      (InGeneration p fun s => Pruning p newest keep s ∧ Emptying g files s)
      (write (.unlink g) (unlinkFile g file))
      (fun _ => InGeneration p fun s =>
        Pruning p newest keep s ∧ Emptying g (fun file' => file' = file ∨ files file') s) X := by
  have frame : ∀ s : Store ι, (unlinkFile g file s).generationLock = s.generationLock ∧
      (unlinkFile g file s).activationLock = s.activationLock ∧
      (unlinkFile g file s).accepted = s.accepted ∧ SameActivation s (unlinkFile g file s) := by
    intro s
    unfold unlinkFile
    split <;> exact ⟨rfl, rfl, rfl, rfl, rfl, rfl, rfl, rfl⟩
  refine generation_write lastingG_emptying lastingG_emptying ?_
    (fun s => ⟨(frame s).1, (frame s).2.1⟩) fun s => (frame s).2.2.2
  intro s sound held known allowed
  obtain ⟨active, target⟩ := pruned known.1 gone allowed
  have dirs : ∀ n, n ≠ g → (unlinkFile g file s).dir n = s.dir n :=
    fun n different => by rw [dir_unlinkFile, if_neg different]
  refine ⟨.unlinks g newest file known.1.accepted older active target known.2.1,
    ⟨⟨(frame s).2.2.1.trans known.1.accepted, ?_, ?_⟩, ?_, ?_⟩, other_dirs allowed dirs⟩
  · rw [(frame s).2.2.2.active]
    exact known.1.active
  · rw [(frame s).2.2.2.target]
    exact known.1.target
  · unfold unlinkFile
    split
    · exact .inr rfl
    · exact known.2.1
  · intro d there file' removed
    rw [dir_unlinkFile, if_pos rfl] at there
    obtain ⟨before, here, rfl⟩ := Option.map_eq_some_iff.mp there
    rw [has_unlink]
    split_ifs with same
    · rfl
    · exact known.2.2 before here file' (removed.resolve_left same)

/-- An empty directory goes, and the removal is over. -/
theorem rmdir_spec (gone : g ∉ keep) (older : g < newest) {X : ConfigError → Store ι → Prop} :
    Triple (discipline R torn settled) (goes torn settled p) p c
      (InGeneration p fun s => Pruning p newest keep s ∧ Emptying g (fun _ => True) s)
      (write (.rmdir g) (removeDir g))
      (fun _ => InGeneration p fun s => Pruning p newest keep s ∧ s.removing = none) X := by
  refine generation_write lastingG_emptying
    (lastingG_and lastingG_pruning fun s t free same _ => same.removing.trans free) ?_
    (fun s => ⟨rfl, rfl⟩) fun s => ⟨rfl, rfl, rfl, rfl, rfl⟩
  intro s sound held known allowed
  obtain ⟨active, target⟩ := pruned known.1 gone allowed
  have emptied : ∀ d, s.dir g = some d → d = ⟨none, none, none⟩ := by
    intro d there
    have none := fun file => known.2.2 d there file trivial
    have metadata := none .metadata
    have source := none .source
    have resolved := none .resolved
    cases d
    simp_all [GenerationDir.has]
  have dirs : ∀ n, n ≠ g → (removeDir g s).dir n = s.dir n :=
    fun n different => by rw [dir_removeDir, if_neg fun both => different both.1]
  exact ⟨.removes g newest known.1.accepted older active target known.2.1 emptied,
    ⟨⟨known.1.accepted, known.1.active, known.1.target⟩, rfl⟩, other_dirs allowed dirs⟩

theorem removeFiles_spec (files : GenerationFile → Prop) {rest : List GenerationFile}
    (gone : g ∉ keep) (older : g < newest) (every : ∀ file, files file ∨ file ∈ rest)
    {X : ConfigError → Store ι → Prop} :
    Triple (discipline R torn settled) (goes torn settled p) p c
      (InGeneration p fun s => Pruning p newest keep s ∧ Emptying g files s)
      (removeFiles g rest)
      (fun _ => InGeneration p fun s => Pruning p newest keep s ∧ s.removing = none) X := by
  induction rest generalizing files with
  | nil =>
    refine Triple.handle (Y := fun _ _ => False) ?_ fun _ _ _ none => none.elim
    refine (rmdir_spec gone older).weaken (fun s _ inside => ?_) (fun _ _ _ post => post)
      fun _ _ _ error => error
    refine ⟨inside.1, inside.2.1, inside.2.2.1, inside.2.2.2.1, fun d there file _ => ?_⟩
    exact inside.2.2.2.2 d there file ((every file).resolve_right (by simp))
  | cons file rest ih =>
    refine Triple.bind (Triple.handle (Y := fun _ _ => False) (unlink_spec gone older)
      fun _ _ _ none => none.elim) fun _ => ih _ fun file' => ?_
    rcases every file' with removed | inside
    · exact .inl (.inr removed)
    · rcases List.mem_cons.mp inside with same | later
      · exact .inl (.inl same)
      · exact .inr later

/-- `rmtree` of a generation that goes. -/
theorem rmtree_spec (gone : g ∉ keep) (older : g < newest) {X : ConfigError → Store ι → Prop} :
    Triple (discipline R torn settled) (goes torn settled p) p c
      (InGeneration p fun s => Pruning p newest keep s ∧ s.removing = none) (rmtree R g)
      (fun _ => InGeneration p fun s => Pruning p newest keep s ∧ s.removing = none) X := by
  refine (removeFiles_spec (fun _ => False) gone older
    fun file => .inr (R.everyFile g file)).weaken ?_ (fun _ _ _ post => post)
    fun _ _ _ error => error
  exact fun s _ inside => ⟨inside.1, inside.2.1, inside.2.2.1, .inl inside.2.2.2,
    fun _ _ _ none => none.elim⟩

theorem pruneAll_spec {numbers : List Int} (older : ∀ g ∈ numbers, g ∉ keep → g < newest)
    {X : ConfigError → Store ι → Prop} :
    Triple (discipline R torn settled) (goes torn settled p) p c
      (InGeneration p fun s => Pruning p newest keep s ∧ s.removing = none)
      (pruneAll R keep numbers)
      (fun _ => InGeneration p fun s => Pruning p newest keep s ∧ s.removing = none) X := by
  induction numbers with
  | nil =>
    refine Triple.ret (inGeneration_stable (lastingG_and lastingG_pruning ?_)) fun _ _ inside =>
      inside
    exact fun s t free same _ => same.removing.trans free
  | cons g rest ih =>
    have spec := ih fun g' inside => older g' (List.mem_cons_of_mem g inside)
    unfold pruneAll
    split
    · exact spec
    · rename_i gone
      exact (rmtree_spec gone (older g List.mem_cons_self gone)).bind fun _ => spec

omit [DecidableEq ι] in
theorem lastingG_free : LastingG p fun s : Store ι => s.removing = none :=
  fun _ _ free same _ => same.removing.trans free

/-- What `accept` knows when it comes to `_prune`. -/
structure Accepted (newest : Int) (s : Store ι) : Prop where
  accepted : s.accepted = some newest
  greatest : ∀ g, (s.dir g).isSome = true → g ≤ newest
  free : s.removing = none

omit [DecidableEq ι] in
theorem lastingG_accepted : LastingG p (Accepted newest) := by
  intro s t known same _
  refine ⟨same.accepted.trans known.accepted, ?_, same.removing.trans known.free⟩
  intro g there
  rw [Store.dir, same.generations] at there
  exact known.greatest g there

theorem prune_spec :
    Triple (discipline R torn settled) (goes torn settled p) p c
      (InGeneration p (Accepted newest)) (prune R)
      (fun _ => InGeneration p fun s => s.removing = none)
      (fun _ => InGeneration p fun s => s.removing = none) := by
  have error : ∀ (e : ConfigError) (s : Store ι), InGeneration p (Accepted newest) s →
      InGeneration p (fun s => s.removing = none) s :=
    fun _ s inside => ⟨inside.1, inside.2.1, inside.2.2.free⟩
  -- What is read of a pointer of the other lock stays only if there is no other process.
  have lastingRead : ∀ (P : Store ι → Prop), LastingG p fun s => Alone p → P s :=
    fun P s t known _ alone only => by rw [alone only]; exact known only
  have lastingSame : ∀ fact : Prop, LastingG p fun _ : Store ι => fact :=
    fun fact s t same _ _ => same
  have stableFree : ConfigError → Stable (discipline R torn settled) p
      (InGeneration p fun s => s.removing = none) := fun _ => inGeneration_stable lastingG_free
  refine Triple.bind (generation_read (fun accepted s => Accepted newest s ∧
      accepted = some newest) lastingG_accepted
      (fun accepted => lastingG_and lastingG_accepted (lastingSame (accepted = some newest)))
      (fun s _ known => ⟨known, known.accepted⟩) _ error stableFree) fun accepted => ?_
  refine Triple.bind (generation_read (fun active s => (Accepted newest s ∧
      accepted = some newest) ∧ (Alone p → s.active = active))
      (lastingG_and lastingG_accepted (lastingSame (accepted = some newest)))
      (fun active => lastingG_and
        (lastingG_and lastingG_accepted (lastingSame (accepted = some newest)))
        (lastingRead fun s => s.active = active))
      (fun s _ known => ⟨known, fun _ => rfl⟩) _
      (fun e s inside => error e s ⟨inside.1, inside.2.1, inside.2.2.1⟩) stableFree) fun active => ?_
  refine Triple.bind (generation_read (fun target s => ((Accepted newest s ∧
      accepted = some newest) ∧ (Alone p → s.active = active)) ∧ (Alone p → s.target = target))
      (lastingG_and (lastingG_and lastingG_accepted (lastingSame (accepted = some newest)))
        (lastingRead fun s => s.active = active))
      (fun target => lastingG_and (lastingG_and
        (lastingG_and lastingG_accepted (lastingSame (accepted = some newest)))
        (lastingRead fun s => s.active = active)) (lastingRead fun s => s.target = target))
      (fun s _ known => ⟨known, fun _ => rfl⟩) _
      (fun e s inside => error e s ⟨inside.1, inside.2.1, inside.2.2.1.1⟩) stableFree) fun target =>
    ?_
  refine Triple.bind ((history_spec (lastingG_and (lastingG_and
      (lastingG_and lastingG_accepted (lastingSame (accepted = some newest)))
      (lastingRead fun s => s.active = active)) (lastingRead fun s => s.target = target))).weaken
      (fun _ _ inside => inside) (fun _ _ _ post => post)
      fun e s _ inside => error e s ⟨inside.1, inside.2.1, inside.2.2.1.1.1⟩) fun items => ?_
  intro s sound inside
  obtain ⟨held, unheld, ⟨⟨⟨known, rfl⟩, readActive⟩, readTarget⟩, names⟩ := inside
  refine ((pruneAll_spec ?_).weaken (fun _ _ start => start) (fun _ s _ post =>
    ⟨post.1, post.2.1, post.2.2.2⟩) fun _ _ _ none => none) s sound
    ⟨held, unheld, ⟨known.accepted, fun only g there => ?_, fun only g there => ?_⟩, known.free⟩
  · intro g inside gone
    rw [names] at inside
    have le := known.greatest g (mem_listing.mp inside)
    have different : g ≠ newest := by
      rintro rfl
      exact gone (by simp)
    omega
  · rw [← readActive only, there]
    simp
  · rw [← readTarget only, there]
    simp

end Prune

/-! ### Locks -/

section Locks

variable {s t : Store ι}

/-- A lock that is taken or given back. -/
theorem lock_guarantee (sound : Sound s) (change : Change R torn settled c s t)
    (idle : t.generationLock = none → t.removing = none)
    (generation : ∀ q, q ≠ p → (t.generationLock = some q ↔ s.generationLock = some q))
    (activation : ∀ q, q ≠ p → (t.activationLock = some q ↔ s.activationLock = some q))
    (sameGenerations : ∀ q, q ≠ p → s.generationLock = some q → SameGenerations s t)
    (sameActivation : ∀ q, q ≠ p → s.activationLock = some q → SameActivation s t)
    (dirs : t.generations = s.generations) : (discipline R torn settled).Guarantee p c s t := by
  refine ⟨sound.change change idle, .inr change, fun q other => ⟨?_, ?_, ?_, ?_, ?_⟩⟩
  · exact fun alone => absurd (alone p).symm other
  · exact fun held => ⟨(generation q other).mpr held, sameGenerations q other held⟩
  · exact fun free held => free ((generation q other).mp held)
  · refine fun held => ⟨(activation q other).mpr held, sameActivation q other held, ?_⟩
    intro g d _ there
    rwa [Store.dir, dirs]
  · exact fun free held => free ((activation q other).mp held)

/-- A process with none of the locks. -/
def Resting (p : ι) (s : Store ι) : Prop := s.generationLock ≠ some p ∧ s.activationLock ≠ some p

theorem resting_stable : Stable (discipline R torn settled) p (Resting p) :=
  fun _ _ free _ rely => ⟨rely.noGeneration free.1, rely.noActivation free.2⟩

theorem withGenerationLock_spec {A : Type} {body : Program ι A}
    (inside : Triple (discipline R torn settled) (goes torn settled p) p c
      (InGeneration p fun s => s.removing = none) body
      (fun _ => InGeneration p fun s => s.removing = none)
      (fun _ => InGeneration p fun s => s.removing = none)) :
    Triple (discipline R torn settled) (goes torn settled p) p c (Resting p)
      (withGenerationLock p body) (fun _ => Resting p) (fun _ => Resting p) := by
  have left : Triple (discipline R torn settled) (goes torn settled p) p c
      (InGeneration p fun s => s.removing = none)
      (Script.perform ⟨.lock, fun _ => true, fun s => { s with generationLock := none }, .never⟩)
      (fun _ => Resting p) (fun _ : ConfigError => Resting p) := by
    refine Triple.perform (inGeneration_stable lastingG_free) ?_ (fun never => absurd rfl never)
      (fun may => by cases may) resting_stable fun _ => resting_stable
    intro s sound inside _ _
    obtain ⟨held, unheld, free⟩ := inside
    refine ⟨lock_guarantee sound (.calm s.source none s.activationLock s.selecting fun _ => free)
      (fun _ => free) ?_ (fun q _ => Iff.rfl) ?_ (fun q _ _ => ⟨rfl, rfl, rfl, rfl, rfl⟩) rfl, ?_⟩
    · intro q other
      rw [held]
      simp [other.symm]
    · intro q other held'
      rw [held] at held'
      exact absurd (Option.some.inj held').symm other
    · exact ⟨by simp, unheld⟩
  refine Triple.within ?_ inside (fun _ => left) (fun _ => left) (fun _ => resting_stable)
    fun _ => resting_stable
  refine Triple.perform resting_stable ?_ ?_ (fun may => by cases may)
    (inGeneration_stable lastingG_free) fun _ => resting_stable
  · intro s sound free ready _
    have unlocked : s.generationLock = none := by simpa using ready
    refine ⟨lock_guarantee sound (.calm s.source (some p) s.activationLock s.selecting (by simp))
      (by simp) ?_ (fun q _ => Iff.rfl) ?_ (fun q _ _ => ⟨rfl, rfl, rfl, rfl, rfl⟩) rfl, ?_⟩
    · intro q other
      rw [unlocked]
      simp [other.symm]
    · intro q other held
      rw [unlocked] at held
      cases held
    · exact ⟨rfl, free.2, sound.idle unlocked⟩
  · exact fun _ e s _ _ allowed => (goes_before allowed).elim

theorem withActivationLock_spec {A : Type} {body : Program ι A}
    (inside : Triple (discipline R torn settled) (goes torn settled p) p c
      (InActivation p fun _ => True) body
      (fun _ => InActivation p fun _ => True) (fun _ => InActivation p fun _ => True)) :
    Triple (discipline R torn settled) (goes torn settled p) p c (Resting p)
      (withActivationLock p body) (fun _ => Resting p) (fun _ => Resting p) := by
  have lasting : LastingA p fun _ : Store ι => True := fun _ _ _ _ _ _ _ => trivial
  have left : Triple (discipline R torn settled) (goes torn settled p) p c
      (InActivation p fun _ => True)
      (Script.perform ⟨.lock, fun _ => true,
        fun s => { s with activationLock := none, selecting := none }, .never⟩)
      (fun _ => Resting p) (fun _ : ConfigError => Resting p) := by
    refine Triple.perform (inActivation_stable lasting) ?_ (fun never => absurd rfl never)
      (fun may => by cases may) resting_stable fun _ => resting_stable
    intro s sound inside _ _
    obtain ⟨held, unheld, -⟩ := inside
    refine ⟨lock_guarantee sound (.calm s.source s.generationLock none none sound.idle)
      sound.idle (fun q _ => Iff.rfl) ?_ (fun q _ _ => ⟨rfl, rfl, rfl, rfl, rfl⟩) ?_ rfl, ?_⟩
    · intro q other
      rw [held]
      simp [other.symm]
    · intro q other held'
      rw [held] at held'
      exact absurd (Option.some.inj held').symm other
    · exact ⟨unheld, by simp⟩
  refine Triple.within ?_ inside (fun _ => left) (fun _ => left) (fun _ => resting_stable)
    fun _ => resting_stable
  refine Triple.perform resting_stable ?_ ?_ (fun may => by cases may)
    (inActivation_stable lasting) fun _ => resting_stable
  · intro s sound free ready _
    have unlocked : s.activationLock = none := by simpa using ready
    refine ⟨lock_guarantee sound (.calm s.source s.generationLock (some p) s.selecting sound.idle)
      sound.idle (fun q _ => Iff.rfl) ?_ (fun q _ _ => ⟨rfl, rfl, rfl, rfl, rfl⟩) ?_ rfl, ?_⟩
    · intro q other
      rw [unlocked]
      simp [other.symm]
    · intro q other held
      rw [unlocked] at held
      cases held
    · exact ⟨rfl, free.1, trivial⟩
  · exact fun _ e s _ _ allowed => (goes_before allowed).elim

/-- A process that dies has nothing in hand. -/
theorem release_guarantee (sound : Sound s) (whole : s.removing = none ∨ torn) :
    (discipline R torn settled).Guarantee p c s (releaseLocks p s) ∧
      Resting p (releaseLocks p s) := by
  refine ⟨lock_guarantee sound (.dies p whole) ?_ ?_ ?_ ?_ ?_ rfl, ?_, ?_⟩
  · intro free
    simp only [releaseLocks] at free ⊢
    split_ifs at free ⊢ with held
    · rfl
    · exact sound.idle free
  · intro q other
    simp only [releaseLocks]
    split_ifs with held
    · simp [held, other.symm]
    · exact Iff.rfl
  · intro q other
    simp only [releaseLocks]
    split_ifs with held
    · simp [held, other.symm]
    · exact Iff.rfl
  · intro q other held
    have apart : s.generationLock ≠ some p := by
      rw [held]
      exact fun same => other (Option.some.inj same)
    exact ⟨rfl, rfl, rfl, by simp [releaseLocks, apart], rfl⟩
  · intro q other held
    have apart : s.activationLock ≠ some p := by
      rw [held]
      exact fun same => other (Option.some.inj same)
    exact ⟨rfl, rfl, rfl, rfl, by simp [releaseLocks, apart]⟩
  · simp only [releaseLocks]
    split_ifs with held
    · simp
    · exact held
  · simp only [releaseLocks]
    split_ifs with held
    · simp
    · exact held

end Locks

/-! ### Calls under `config-generation` -/

section Generation

variable {m : ConfigMutation} {number current : Int} {kind : CapabilityDeltaKind} {g : Int}

/-- The number is that of the next generation. -/
structure Next (number : Int) (s : Store ι) : Prop where
  free : s.removing = none
  newest : ∀ g, (s.dir g).isSome = true → g < number

omit [DecidableEq ι] in
theorem lastingG_next : LastingG p (Next number) := by
  intro s t known same _
  refine ⟨same.removing.trans known.free, fun g there => known.newest g ?_⟩
  rwa [Store.dir, same.generations] at there

/-- The generation is stored, and newer than any that was accepted. -/
structure Stored (R : Environment) (m : ConfigMutation) (number current : Int)
    (kind : CapabilityDeltaKind) (s : Store ι) : Prop where
  free : s.removing = none
  there : s.dir number = some (storedDir R m number current kind)
  greatest : ∀ g, (s.dir g).isSome = true → g ≤ number
  fresh : ∀ e ∈ s.everAccepted, e.1 < number

omit [DecidableEq ι] in
theorem lastingG_stored : LastingG p (Stored R m number current kind) := by
  intro s t known same _
  have dirs : ∀ g, t.dir g = s.dir g := fun g => by rw [Store.dir, same.generations, Store.dir]
  refine ⟨same.removing.trans known.free, (dirs number).trans known.there, ?_, ?_⟩
  · intro g there
    rw [dirs] at there
    exact known.greatest g there
  · rw [same.everAccepted]
    exact known.fresh

theorem create_spec (call : c = .accept m)
    (passed : (generationOf R m number current kind).postInit = .ok ())
    {X : ConfigError → Store ι → Prop} :
    Triple (discipline R torn settled) (goes torn settled p) p c (InGeneration p (Next number))
      (write (.create number) fun s =>
        { s with
          generations := assign s.generations number (storedDir R m number current kind) })
      (fun _ => InGeneration p (Stored R m number current kind)) X := by
  refine generation_write lastingG_next lastingG_stored ?_ (fun s => ⟨rfl, rfl⟩)
    fun s => ⟨rfl, rfl, rfl, rfl, rfl⟩
  intro s sound held known _
  refine ⟨.creates m number current kind call known.newest passed, ⟨known.free, ?_, ?_, ?_⟩, ?_⟩
  · rw [Store.dir, dir_assign, if_pos rfl]
  · intro g there
    rw [Store.dir, dir_assign] at there
    split_ifs at there with same
    · exact same.le
    · exact (known.newest g there).le
  · intro e ever
    obtain ⟨g, there, le⟩ := sound.bounded e ever
    have := known.newest g there
    omega
  · intro q _ g d _ there
    rw [Store.dir, dir_assign, if_neg, there]
    rintro rfl
    have := known.newest g (by rw [there]; rfl)
    omega

/-- The editable source is written. -/
theorem source_spec {K : Store ι → Prop} (lasting : LastingG p K) (source : Option Text)
    (kept : ∀ s, K s → K { s with source }) {X : ConfigError → Store ι → Prop} :
    Triple (discipline R torn settled) (goes torn settled p) p c (InGeneration p K)
      (write .source fun s => { s with source }) (fun _ => InGeneration p K) X := by
  refine generation_write lasting lasting ?_ (fun s => ⟨rfl, rfl⟩)
    fun s => ⟨rfl, rfl, rfl, rfl, rfl⟩
  exact fun s sound held known _ => ⟨.calm source s.generationLock s.activationLock s.selecting
    sound.idle, kept s known, fun _ _ _ _ _ there => there⟩

theorem commitGeneration_spec (call : c = .accept m)
    (passed : (generationOf R m number current kind).postInit = .ok ()) :
    Triple (discipline R torn settled) (goes torn settled p) p c (InGeneration p (Next number))
      (commitGeneration R (generationOf R m number current kind) m)
      (fun _ => InGeneration p fun s => s.removing = none)
      (fun _ => InGeneration p fun s => s.removing = none) := by
  have next : ∀ s : Store ι, Sound s → InGeneration p (Next number) s →
      InGeneration p (fun s => s.removing = none) s :=
    fun s _ inside => ⟨inside.1, inside.2.1, inside.2.2.free⟩
  have stored : ∀ s : Store ι, Sound s → InGeneration p (Stored R m number current kind) s →
      InGeneration p (fun s => s.removing = none) s :=
    fun s _ inside => ⟨inside.1, inside.2.1, inside.2.2.free⟩
  have accepting : Triple (discipline R torn settled) (goes torn settled p) p c
      (InGeneration p (Stored R m number current kind)) (acceptPointer number)
      (fun _ => InGeneration p (Accepted number)) (fun _ _ => False) := by
    refine generation_write lastingG_stored lastingG_accepted ?_ (fun s => ⟨rfl, rfl⟩)
      fun s => ⟨rfl, rfl, rfl, rfl, rfl⟩
    intro s sound held known _
    refine ⟨.accepts number _ known.there storedDir_complete ?_ ?_ (.inl ⟨m, call⟩),
      ⟨rfl, known.greatest, known.free⟩, fun _ _ _ _ _ there => there⟩
    · intro m' same
      rw [call] at same
      cases same
      exact ⟨rfl, rfl, known.fresh⟩
    · intro n expected token same
      rw [call] at same
      cases same
  refine Triple.bind (Q := fun _ => InGeneration p (Stored R m number current kind)) ?_ fun _ => ?_
  · refine quiet_read.followed (inGeneration_stable lastingG_next) (fun there => ?_) fun _ => next
    split
    · exact Triple.raise (inGeneration_stable lastingG_next) next
    · exact create_spec call passed
  refine quiet_read.followed (inGeneration_stable lastingG_stored) (fun previous => ?_) fun _ => stored
  refine Triple.bind (Q := fun _ => InGeneration p (Accepted number)) ?_ fun _ => prune_spec.bind
    fun _ => Triple.ret (inGeneration_stable lastingG_free) fun _ _ inside => inside
  refine Triple.handle (Y := fun _ _ => False) ?_ fun _ _ _ none => none.elim
  refine (source_spec lastingG_stored (some m.sourceText) fun s known =>
    ⟨known.free, known.there, known.greatest, known.fresh⟩).bind fun _ => accepting

theorem acceptAs_spec (call : c = .accept m) :
    Triple (discipline R torn settled) (goes torn settled p) p c (InGeneration p (Next number))
      (acceptAs R m number current kind) (fun _ => InGeneration p fun s => s.removing = none)
      (fun _ => InGeneration p fun s => s.removing = none) := by
  have next : ∀ s : Store ι, Sound s → InGeneration p (Next number) s →
      InGeneration p (fun s => s.removing = none) s :=
    fun s _ inside => ⟨inside.1, inside.2.1, inside.2.2.free⟩
  have stable : Stable (discipline R torn settled) p (InGeneration p (Next number)) :=
    inGeneration_stable lastingG_next
  refine Quiet.ofExcept.followed stable (fun _ => ?_) fun _ => next
  refine Triple.bind (Triple.ofExcept (Q := fun _ s =>
    (generationOf R m number current kind).postInit = .ok () ∧ InGeneration p (Next number) s)
    stable (fun _ _ _ inside same => ⟨same, inside⟩) fun _ s sound inside _ => next s sound inside)
    fun _ => Triple.of_pure fun passed => commitGeneration_spec call passed

omit [DecidableEq ι] in
theorem quiet_classified {D : Discipline ι Call (Store ι)}
    {may : Access → Fault ConfigError → Store ι → Prop} {item : ConfigGeneration} :
    Quiet D may p c (classified R item m) :=
  quiet_readResolvedText.bind fun _ => Quiet.ofExcept

theorem accept_spec (call : c = .accept m) :
    Triple (discipline R torn settled) (goes torn settled p) p c (Resting p) (accept R p m)
      (fun _ => Resting p) (fun _ => Resting p) := by
  refine withGenerationLock_spec ?_
  refine Triple.bind (Q := fun number => InGeneration p (Next number)) ?_ fun number => ?_
  · exact (nextGeneration_spec lastingG_free).weaken (fun _ _ inside => inside)
      (fun _ _ _ inside => ⟨inside.1, inside.2.1, inside.2.2.1, inside.2.2.2⟩) fun _ _ _ error => error
  have next : ∀ s : Store ι, Sound s → InGeneration p (Next number) s →
      InGeneration p (fun s => s.removing = none) s :=
    fun s _ inside => ⟨inside.1, inside.2.1, inside.2.2.free⟩
  have stable : Stable (discipline R torn settled) p (InGeneration p (Next number)) :=
    inGeneration_stable lastingG_next
  refine quiet_loadPointer.followed stable (fun current => ?_) fun _ => next
  dsimp only
  split
  · exact Triple.raise stable next
  refine quiet_read.followed stable (fun actualSource => ?_) fun _ => next
  split
  · exact Triple.raise stable next
  cases current with
  | none => exact acceptAs_spec call
  | some current =>
    refine quiet_classified.followed stable (fun kind => ?_) fun _ => next
    split
    · exact Triple.ret stable next
    · exact quiet_classified.followed stable (fun kind => acceptAs_spec call) fun _ => next

omit [DecidableEq ι] in
theorem quiet_checkRollback {D : Discipline ι Call (Store ι)}
    {may : Access → Fault ConfigError → Store ι → Prop} {target : ConfigGeneration}
    {active : Option ConfigGeneration} {token : Option Text} :
    Quiet D may p c (checkRollback R g target active token) := by
  unfold checkRollback
  cases active with
  | none => exact Quiet.ret
  | some active =>
    refine quiet_readResolvedText.bind fun before => quiet_readResolvedText.bind fun after =>
      Quiet.ofExcept.bind fun kind => Quiet.ite (fun _ => Quiet.raise) fun _ => Quiet.ret

theorem rollback_spec {expectedActive : Option Int} {token : Option Text}
    (call : c = .rollback g expectedActive token) :
    Triple (discipline R torn settled) (goes torn settled p) p c (Resting p)
      (rollback R p g expectedActive token) (fun _ => Resting p) (fun _ => Resting p) := by
  refine withGenerationLock_spec ?_
  have free : Stable (discipline R torn settled) p (InGeneration p fun s => s.removing = none) :=
    inGeneration_stable lastingG_free
  have lasting : ∀ d, LastingG p fun s : Store ι => s.removing = none ∧ s.dir g = some d :=
    fun d => lastingG_and lastingG_free lastingG_dir
  have known : ∀ d (s : Store ι), Sound s →
      InGeneration p (fun s => s.removing = none ∧ s.dir g = some d) s →
      InGeneration p (fun s => s.removing = none) s :=
    fun d s _ inside => ⟨inside.1, inside.2.1, inside.2.2.1⟩
  refine Triple.bind ((load_spec free fun d s t both sound rely => ?_).weaken
    (fun _ _ inside => inside) (fun _ _ _ loaded => loaded) fun _ _ _ inside => inside)
    fun target => Triple.of_exists fun d => Triple.of_pure fun loaded => ?_
  · have kept := inGeneration_stable (lasting d) s t
      ⟨both.1.1, both.1.2.1, both.1.2.2, both.2⟩ sound rely
    exact ⟨⟨kept.1, kept.2.1, kept.2.2.1⟩, kept.2.2.2⟩
  have accepting : Triple (discipline R torn settled) (goes torn settled p) p c
      (InGeneration p fun s => s.removing = none ∧ s.dir g = some d) (acceptPointer g)
      (fun _ => InGeneration p fun s => s.removing = none) (fun _ _ => False) := by
    refine generation_write (lasting d) lastingG_free ?_ (fun s => ⟨rfl, rfl⟩)
      fun s => ⟨rfl, rfl, rfl, rfl, rfl⟩
    intro s sound held inside _
    refine ⟨.accepts g d inside.2 loaded.complete ?_ ?_ (.inr ⟨g, expectedActive, token, call⟩),
      inside.1, fun _ _ _ _ _ there => there⟩
    · intro m same
      rw [call] at same
      cases same
    · intro n expected token same
      rw [call] at same
      cases same
      rfl
  have stable : Stable (discipline R torn settled) p
      (InGeneration p fun s => s.removing = none ∧ s.dir g = some d) :=
    inGeneration_stable (lasting d)
  refine Triple.weaken (P := InGeneration p fun s => s.removing = none ∧ s.dir g = some d) ?_
    (fun s _ both => ⟨both.1.1, both.1.2.1, both.1.2.2, both.2⟩) (fun _ _ _ post => post)
    fun _ _ _ error => error
  refine quiet_loadPointer.followed stable (fun active => ?_) fun _ => known d
  dsimp only
  split
  · exact Triple.raise stable (known d)
  refine quiet_checkRollback.followed stable (fun _ => ?_) fun _ => known d
  refine Quiet.look.followed stable (fun sourceText => ?_) fun _ => known d
  refine quiet_read.followed stable (fun previousSource => ?_) fun _ => known d
  refine quiet_read.followed stable (fun previousAccepted => ?_) fun _ => known d
  refine Triple.bind (Q := fun _ => InGeneration p fun s => s.removing = none) ?_ fun _ =>
    Triple.ret free fun _ _ inside => inside
  refine Triple.handle (Y := fun _ _ => False) ?_ fun _ _ _ none => none.elim
  exact (source_spec (lasting d) (some sourceText) fun s known => known).bind fun _ => accepting

end Generation

/-! ### Calls under `config-activation` -/

section Activation

variable {g : Int}

omit [DecidableEq ι] in
theorem lastingA_true : LastingA p fun _ : Store ι => True := fun _ _ _ _ _ _ _ => trivial

omit [DecidableEq ι] in
theorem lastingA_and {K K' : Store ι → Prop} (lasting : LastingA p K) (lasting' : LastingA p K') :
    LastingA p fun s => K s ∧ K' s :=
  fun s t both sound same alone dirs =>
    ⟨lasting s t both.1 sound same alone dirs, lasting' s t both.2 sound same alone dirs⟩

omit [DecidableEq ι] in
theorem inActivation_weaken {K : Store ι → Prop} {s : Store ι} (inside : InActivation p K s) :
    InActivation p (fun _ => True) s :=
  ⟨inside.1, inside.2.1, trivial⟩

omit [DecidableEq ι] in
/-- The directory of a generation that is selected stays. -/
theorem lastingA_dir {K : Store ι → Prop} {d : GenerationDir} (lasting : LastingA p K)
    (selected : ∀ s, K s → ¬ Unselected g s) : LastingA p fun s => K s ∧ s.dir g = some d :=
  fun s t both sound same alone dirs =>
    ⟨lasting s t both.1 sound same alone dirs, dirs g d (selected s both.1) both.2⟩

/-- Reading a generation that is selected. -/
theorem inActivation_dir {K : Store ι → Prop} (lasting : LastingA p K)
    (selected : ∀ s, K s → ¬ Unselected g s) (d : GenerationDir) :
    Stable (discipline R torn settled) p fun s => InActivation p K s ∧ s.dir g = some d := by
  intro s t both sound rely
  have kept := inActivation_stable (lastingA_dir (d := d) lasting selected) s t
    ⟨both.1.1, both.1.2.1, both.1.2.2, both.2⟩ sound rely
  exact ⟨⟨kept.1, kept.2.1, kept.2.2.1⟩, kept.2.2.2⟩

theorem stage_spec {expectedActive : Option Int} :
    Triple (discipline R torn settled) (goes torn settled p) p c (Resting p)
      (stageActivation R p g expectedActive) (fun _ => Resting p) (fun _ => Resting p) := by
  refine withActivationLock_spec ?_
  have lasting : LastingA p fun s : Store ι => s.selecting = some g :=
    fun s t selecting _ same _ _ => same.selecting.trans selecting
  have selected : ∀ s : Store ι, s.selecting = some g → ¬ Unselected g s :=
    fun s selecting unselected => unselected.2.2 selecting
  have stable : Stable (discipline R torn settled) p (InActivation p fun _ => True) :=
    inActivation_stable lastingA_true
  refine quiet_read.followed stable (fun active => ?_) fun _ _ _ inside => inside
  split
  · exact Triple.raise stable fun _ _ inside => inside
  refine Triple.bind (Q := fun _ => InActivation p fun s => s.selecting = some g) ?_ fun _ => ?_
  · -- To select a generation leaves everything that the holder of the other lock relies on.
    refine write_spec stable ?_ (inActivation_stable lasting)
    intro s sound inside _
    refine ⟨lock_guarantee sound (.calm s.source s.generationLock s.activationLock (some g)
      sound.idle) sound.idle (fun _ _ => Iff.rfl) (fun _ _ => Iff.rfl)
      (fun _ _ _ => ⟨rfl, rfl, rfl, rfl, rfl⟩) ?_ rfl, inside.1, inside.2.1, rfl⟩
    intro q other held
    rw [inside.1] at held
    exact absurd (Option.some.inj held).symm other
  refine Triple.bind ((load_spec (inActivation_stable lasting)
    (inActivation_dir lasting selected)).weaken (fun _ _ inside => inside)
    (fun _ _ _ loaded => loaded) fun _ _ _ inside => inActivation_weaken inside) fun item =>
    Triple.of_exists fun d => Triple.of_pure fun loaded => ?_
  have lastingDir := lastingA_dir (d := d) lasting selected
  refine Triple.bind (Q := fun _ => InActivation p fun _ => True) ?_ fun _ =>
    Triple.ret stable fun _ _ inside => inside
  refine Triple.weaken (P := InActivation p fun s => s.selecting = some g ∧ s.dir g = some d) ?_
    (fun s _ both => ⟨both.1.1, both.1.2.1, both.1.2.2, both.2⟩) (fun _ _ _ post => post)
    fun _ _ _ error => error
  exact activation_write lastingDir lastingA_true
    (fun s sound known _ => ⟨.stages g ⟨d, known.2, loaded.complete⟩, trivial⟩)
    (fun s => ⟨rfl, rfl⟩) fun s => ⟨rfl, rfl, rfl, rfl, rfl⟩

theorem unlinkTarget_spec {X : ConfigError → Store ι → Prop} :
    Triple (discipline R torn settled) (goes torn settled p) p c (InActivation p fun _ => True)
      (unlinkTarget false) (fun _ => InActivation p fun _ => True) X :=
  activation_write lastingA_true lastingA_true (fun _ _ _ allowed => ⟨.unstages allowed, trivial⟩)
    (fun _ => ⟨rfl, rfl⟩) fun _ => ⟨rfl, rfl, rfl, rfl, rfl⟩

theorem clear_spec {expectedGeneration : Option Int} :
    Triple (discipline R torn settled) (goes torn settled p) p c (Resting p)
      (clearActivationTarget p expectedGeneration) (fun _ => Resting p) (fun _ => Resting p) := by
  refine withActivationLock_spec ?_
  have stable : Stable (discipline R torn settled) p (InActivation p fun _ => True) :=
    inActivation_stable lastingA_true
  refine quiet_read.followed stable (fun current => ?_) fun _ _ _ inside => inside
  split
  · exact Triple.raise stable fun _ _ inside => inside
  · exact unlinkTarget_spec

/-- The two writes of `activate`, and the target taken away. -/
theorem activating_spec {d : GenerationDir} {raw : Text} (stored : d.resolved = some raw)
    (item : ConfigGeneration) :
    Triple (discipline R torn settled) (goes torn settled p) p c
      (InActivation p fun s => s.target = some g ∧ s.dir g = some d)
      (do
        write (.resolved g) fun s =>
          { s with
            activeResolved := some (PyText.universalNewlines raw)
            interrupted := true }
        write (.activate g) fun s =>
          { s with
            active := some g
            interrupted := false }
        unlinkTarget true
        return item)
      (fun _ => InActivation p fun _ => True) (fun _ => InActivation p fun _ => True) := by
  have lasting : LastingA p fun s : Store ι => s.target = some g :=
    fun s t target _ same _ _ => same.target.trans target
  have lastingDir := lastingA_dir (d := d) lasting fun s target unselected => unselected.2.1 target
  have lastingResolved : LastingA p fun s : Store ι => (s.target = some g ∧ s.dir g = some d) ∧
      s.activeResolved = some (PyText.universalNewlines raw) :=
    lastingA_and lastingDir fun s t resolved _ same _ _ => same.activeResolved.trans resolved
  have lastingDone : LastingA p fun s : Store ι => s.interrupted = false :=
    fun s t done _ same _ _ => same.interrupted.trans done
  refine Triple.bind (activation_write lastingDir lastingResolved
    (fun s _ known _ => ⟨.resolves g _ known.1, ⟨known.1, known.2⟩, rfl⟩) (fun _ => ⟨rfl, rfl⟩)
    fun _ => ⟨rfl, rfl, rfl, rfl, rfl⟩) fun _ => ?_
  refine Triple.bind (activation_write lastingResolved lastingDone
    (fun s _ known _ => ⟨.activates g d raw known.1.1 known.1.2 stored known.2, rfl⟩)
    (fun _ => ⟨rfl, rfl⟩) fun _ => ⟨rfl, rfl, rfl, rfl, rfl⟩) fun _ => ?_
  refine Triple.bind (activation_write lastingDone lastingA_true
    (fun s _ known _ => ⟨.unstages fun _ => known, trivial⟩) (fun _ => ⟨rfl, rfl⟩)
    fun _ => ⟨rfl, rfl, rfl, rfl, rfl⟩) fun _ => ?_
  exact Triple.ret (inActivation_stable lastingA_true) fun _ _ inside => inside

theorem activate_spec {expectedActive : Option Int} :
    Triple (discipline R torn settled) (goes torn settled p) p c (Resting p)
      (activate R p g expectedActive) (fun _ => Resting p) (fun _ => Resting p) := by
  refine withActivationLock_spec ?_
  have stable : Stable (discipline R torn settled) p (InActivation p fun _ => True) :=
    inActivation_stable lastingA_true
  have error : ∀ (e : ConfigError) (s : Store ι), Sound s → InActivation p (fun _ => True) s →
      InActivation p (fun _ => True) s := fun _ _ _ inside => inside
  refine quiet_read.followed stable (fun active => ?_) error
  split
  · refine quiet_read.followed stable (fun target => ?_) error
    have loading : ∀ f : ConfigGeneration → ConfigGeneration,
        Triple (discipline R torn settled) (goes torn settled p) p c (InActivation p fun _ => True)
          (do
            let item ← load R g
            return f item)
          (fun _ => InActivation p fun _ => True) fun _ => InActivation p fun _ => True := fun f =>
      quiet_load.followed stable (fun item => Triple.ret stable fun _ _ inside => inside) error
    dsimp only
    split
    · exact unlinkTarget_spec.bind fun _ => loading fun item => { item with active := true }
    · exact loading fun item => { item with active := true }
  split
  · exact Triple.raise stable fun _ _ inside => inside
  have lasting : LastingA p fun s : Store ι => s.target = some g :=
    fun s t target _ same _ _ => same.target.trans target
  have selected : ∀ s : Store ι, s.target = some g → ¬ Unselected g s :=
    fun s target unselected => unselected.2.1 target
  have staged : Stable (discipline R torn settled) p (InActivation p fun s => s.target = some g) :=
    inActivation_stable lasting
  have weaker : ∀ (e : ConfigError) (s : Store ι), Sound s →
      InActivation p (fun s => s.target = some g) s → InActivation p (fun _ => True) s :=
    fun _ _ _ inside => inActivation_weaken inside
  refine Triple.bind (Q := fun target s => InActivation p (fun _ => True) s ∧
    (target = some g → s.target = some g)) ?_ fun target => ?_
  · refine Triple.look stable ?_ (fun _ _ _ inside => inside) ?_ fun _ => stable
    · intro s target _ inside _ seen
      cases seen
      exact ⟨inside, fun same => same⟩
    · intro target s t both sound rely
      refine ⟨stable s t both.1 sound rely, fun same => ?_⟩
      exact (staged s t ⟨both.1.1, both.1.2.1, both.2 same⟩ sound rely).2.2
  intro s sound both
  split
  · exact fun t sound rely => stable s t both.1 sound rely
  rename_i same
  refine (quiet_load.followed staged (fun item => ?_) weaker) s sound
    ⟨both.1.1, both.1.2.1, both.2 (not_not.mp same)⟩
  refine Triple.bind ((readResolvedText_spec staged (inActivation_dir lasting selected)).weaken
    (fun _ _ inside => inside) (fun _ _ _ read => read) weaker) fun resolved =>
    Triple.of_exists fun d => Triple.of_exists fun raw => Triple.of_pure fun read => ?_
  obtain ⟨stored, rfl⟩ := read
  exact (activating_spec stored { item with active := true }).weaken
    (fun s _ both => ⟨both.1.1, both.1.2.1, both.1.2.2, both.2⟩)
    (fun _ _ _ post => post) fun _ _ _ error => error

end Activation

/-! ### The machine -/

section Runs

variable {calls : Call → Prop}

/-- Processes and their store. -/
abbrev StoreMachine (ι : Type) : Type :=
  Machine ι Call Access (Store ι) ConfigError (Option ConfigGeneration)

/-- A store that was just made, and no process. -/
def newMachine (source : Option Text) : StoreMachine ι := ⟨Store.fresh source, fun _ => none⟩

/-- The runs: any calls by any processes, which may die at any operation. -/
def operating : Machine.Permit ι Call Access (Store ι) ConfigError where
  starts _ c _ := ∀ m, c = .accept m → m.Valid
  goes _ _ fault _ := fault = .done ∨ fault = .crash

/-- A file or directory that goes is of a generation that is not selected. -/
def RemovesUnselected (m : StoreMachine ι) (l : Event ι Call ConfigError) : Prop :=
  ∀ p g, l = .go p .done → m.nextTag p = some (.unlink g) ∨ m.nextTag p = some (.rmdir g) →
    Unselected g m.shared

/-- `clear_activation_target`, or `activate` of the active generation, does not take the target away
after an `activate` that died between its two writes. -/
def UnstagesSettled (m : StoreMachine ι) (l : Event ι Call ConfigError) : Prop :=
  ∀ p, l = .go p .done → m.nextTag p = some (.unstage false) → m.shared.interrupted = false

/-- No process dies while a directory is being removed. -/
def DiesWhole (m : StoreMachine ι) (l : Event ι Call ConfigError) : Prop :=
  ∀ p, l = .go p .crash → m.shared.removing = none

/-- These calls, and `goes` for every operation. -/
def permit (calls : Call → Prop) (torn settled : Prop) :
    Machine.Permit ι Call Access (Store ι) ConfigError where
  starts _ c _ := calls c
  goes := goes torn settled

omit [DecidableEq ι] in
theorem permitted_permit {m : StoreMachine ι} {l : Event ι Call ConfigError}
    (operates : Machine.Permitted operating m l) (made : ∀ p c, l = .start p c → calls c)
    (removes : (∀ p : ι, Alone p) ∨ RemovesUnselected m l)
    (settles : settled → UnstagesSettled m l) (whole : torn ∨ DiesWhole m l) :
    Machine.Permitted (permit calls torn settled) m l := by
  cases l with
  | start p c => exact made p c rfl
  | go p fault =>
    intro c op next failed there
    have tag : m.nextTag p = some op.tag := by rw [Machine.nextTag, there]
    change goes torn settled p op.tag fault m.shared
    rcases operates c op next failed there with rfl | rfl
    · cases here : op.tag with
      | unlink g => exact removes.imp (· p) fun h => h p g rfl (.inl (tag.trans (congrArg some here)))
      | rmdir g => exact removes.imp (· p) fun h => h p g rfl (.inr (tag.trans (congrArg some here)))
      | unstage committed =>
        cases committed with
        | true => trivial
        | false => exact fun s => settles s p rfl (tag.trans (congrArg some here))
      | _ => trivial
    · have dies : m.shared.removing = none ∨ torn := whole.symm.imp (· p rfl) id
      cases op.tag with
      | unstage committed => cases committed <;> exact dies
      | _ => exact dies

omit [DecidableEq ι] in
theorem sound_fresh (source : Option Text) : Sound (Store.fresh source : Store ι) := by
  refine ⟨?_, ?_, ?_, ?_, fun _ => rfl⟩
  · intro p g there
    cases p <;> cases there
  · intro g d item there
    cases there
  · intro e there
    cases there
  · intro e there
    cases there

theorem kept_new (source : Option Text) :
    Machine.Kept (kernel R) (discipline R torn settled) (permit calls torn settled) (fun _ _ _ => True)
      (newMachine source : StoreMachine ι) := by
  refine ⟨sound_fresh source, fun p _ => ⟨by simp [newMachine, Store.fresh], ?_⟩, fun p c script there => ?_⟩
  · simp [newMachine, Store.fresh]
  · cases there

theorem disciplined : Machine.Disciplined (kernel R) (discipline R torn settled)
    (permit calls torn settled : Machine.Permit ι Call Access (Store ι) ConfigError)
    fun _ _ _ => True := by
  have resting : ∀ {c : Call} {p : ι} {A : Type} {program : Program ι A}
      (f : A → Option ConfigGeneration),
      Triple (discipline R torn settled) (goes torn settled p) p c (Resting p) program
        (fun _ => Resting p) (fun _ => Resting p) →
      Triple (discipline R torn settled) (goes torn settled p) p c (Resting p)
        (do
          let a ← program
          return f a)
        (fun _ t => Resting p t ∧ True) (fun _ => Resting p) := fun f spec =>
    spec.bind fun _ => Triple.ret resting_stable fun _ _ free => ⟨free, trivial⟩
  refine ⟨?_, ?_⟩
  · intro p c s sound free _
    cases c with
    | accept m => exact resting some (accept_spec rfl) s sound free
    | rollback g expectedActive token => exact resting some (rollback_spec rfl) s sound free
    | stage g expectedActive => exact resting some stage_spec s sound free
    | clear expectedGeneration => exact resting (fun _ => none) clear_spec s sound free
    | activate g expectedActive => exact resting some activate_spec s sound free
  · intro p c s _ dies sound
    obtain ⟨tag, dies⟩ := dies
    refine release_guarantee sound ?_
    cases tag with
    | unstage committed => cases committed <;> exact dies
    | _ => exact dies

/-- Every run that meets the conditions keeps all processes safe. -/
theorem kept_run (calls : Call → Prop) (torn settled : Prop) {source : Option Text} {labels : List (Event ι Call ConfigError)}
    (operates : Along (Machine.step (kernel R)) (Machine.Permitted operating) (newMachine source)
      labels)
    (made : ∀ p c, .start p c ∈ labels → calls c)
    (removes : (∀ p : ι, Alone p) ∨
      Along (Machine.step (kernel R)) RemovesUnselected (newMachine source) labels)
    (settles : settled →
      Along (Machine.step (kernel R)) UnstagesSettled (newMachine source) labels)
    (whole : torn ∨ Along (Machine.step (kernel R)) DiesWhole (newMachine source) labels) :
    Along (Machine.step (kernel R)) (Machine.Permitted (permit calls torn settled)) (newMachine source)
        labels ∧
      Throughout (Machine.step (kernel R)) (Machine.Kept (kernel R) (discipline R torn settled)
        (permit calls torn settled) fun _ _ _ => True) (newMachine source) labels := by
  have along : Along (Machine.step (kernel R)) (Machine.Permitted (permit calls torn settled))
      (newMachine source) labels := by
    intro done l rest split
    exact permitted_permit (operates done l rest split)
      (fun p c same => made p c (by rw [split, ← same]; simp))
      (removes.imp (fun h => h) fun h => h done l rest split)
      (fun s => settles s done l rest split) (whole.imp (fun h => h) fun h => h done l rest split)
  exact ⟨along, Machine.kept disciplined (kept_new source) along⟩

end Runs

end RepoForge.ConfigStore
