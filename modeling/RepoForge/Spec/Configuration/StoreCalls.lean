import RepoForge.Spec.Configuration.StoreRules

/-!
# The calls of the generation store

Each call is safe for the discipline of the store: under one of its locks it relies on what the
other lock's holders leave alone, and all it does are changes of its own.
-/
namespace RepoForge.ConfigStore

open Scripts PyDict

variable {ι : Type} [DecidableEq ι]

/-- There is no other process. -/
def Alone (p : ι) : Prop := ∀ q : ι, q = p

/-- What the holder of `config-generation` alone may change. -/
structure SameGenerations (s t : Store ι) : Prop where
  generations : t.generations = s.generations
  accepted : t.accepted = s.accepted
  source : t.source = s.source
  removing : t.removing = s.removing
  everAccepted : t.everAccepted = s.everAccepted

/-- What the holder of `config-activation` alone may change. -/
structure SameActivation (s t : Store ι) : Prop where
  active : t.active = s.active
  target : t.target = s.target
  activeResolved : t.activeResolved = s.activeResolved
  interrupted : t.interrupted = s.interrupted
  selecting : t.selecting = s.selecting

/-- No pointer that `config-activation` guards names the generation, and no `stage_activation` has
begun to load it. -/
def Unselected (g : Int) (s : Store ι) : Prop :=
  s.active ≠ some g ∧ s.target ≠ some g ∧ s.selecting ≠ some g

/-- What the others do between two operations of a process. -/
structure Rely (p : ι) (s t : Store ι) : Prop where
  alone : Alone p → t = s
  generation : s.generationLock = some p → t.generationLock = some p ∧ SameGenerations s t
  noGeneration : s.generationLock ≠ some p → t.generationLock ≠ some p
  activation : s.activationLock = some p → t.activationLock = some p ∧ SameActivation s t ∧
    ∀ g d, ¬ Unselected g s → s.dir g = some d → t.dir g = some d
  noActivation : s.activationLock ≠ some p → t.activationLock ≠ some p

omit [DecidableEq ι] in
theorem rely_refl (p : ι) (s : Store ι) : Rely p s s :=
  ⟨fun _ => rfl, fun held => ⟨held, ⟨rfl, rfl, rfl, rfl, rfl⟩⟩, fun held => held,
    fun held => ⟨held, ⟨rfl, rfl, rfl, rfl, rfl⟩, fun _ _ _ there => there⟩, fun held => held⟩

omit [DecidableEq ι] in
theorem rely_trans {p : ι} {s t u : Store ι} (first : Rely p s t) (later : Rely p t u) :
    Rely p s u where
  alone alone := (later.alone alone).trans (first.alone alone)
  generation held := by
    obtain ⟨held, same⟩ := first.generation held
    obtain ⟨held, same'⟩ := later.generation held
    exact ⟨held, same'.generations.trans same.generations, same'.accepted.trans same.accepted,
      same'.source.trans same.source, same'.removing.trans same.removing,
      same'.everAccepted.trans same.everAccepted⟩
  noGeneration free := later.noGeneration (first.noGeneration free)
  activation held := by
    obtain ⟨held, same, dirs⟩ := first.activation held
    obtain ⟨held, same', dirs'⟩ := later.activation held
    refine ⟨held, ⟨same'.active.trans same.active, same'.target.trans same.target,
      same'.activeResolved.trans same.activeResolved, same'.interrupted.trans same.interrupted,
      same'.selecting.trans same.selecting⟩, fun g d selected there => ?_⟩
    refine dirs' g d ?_ (dirs g d selected there)
    rwa [Unselected, same.active, same.target, same.selecting]
  noActivation free := later.noActivation (first.noActivation free)

/-- How the operations may go: no file access raises by itself; a file of a generation is removed
only if the generation is not selected, or there is no other process; if `settled`, the target is
taken away only while the resolved file is that of the active generation; and unless `torn`, a
process does not die while it removes a directory. -/
def goes (torn settled : Prop) (p : ι) : Access → Fault ConfigError → Store ι → Prop
  | .unlink g, .done, s => Alone p ∨ Unselected g s
  | .rmdir g, .done, s => Alone p ∨ Unselected g s
  | .unstage false, .done, s => settled → s.interrupted = false
  | _, .done, _ => True
  | _, .crash, s => s.removing = none ∨ torn
  | _, _, _ => False

/-- The discipline of the processes that use the store. -/
def discipline (R : Environment) (torn settled : Prop) : Discipline ι Call (Store ι) where
  inv := Sound
  rely := Rely
  rest p s := s.generationLock ≠ some p ∧ s.activationLock ≠ some p
  good _ c s t := t = s ∨ Change R torn settled c s t
  rely_refl := rely_refl
  rely_trans := rely_trans
  rest_rely free rely := ⟨rely.noGeneration free.1, rely.noActivation free.2⟩
  good_refl _ _ _ := .inl rfl

variable {R : Environment} {torn settled : Prop} {c : Call} {p : ι} {s t : Store ι}

/-- A change of the holder of `config-generation`. -/
theorem generation_guarantee (sound : Sound s) (change : Change R torn settled c s t)
    (held : s.generationLock = some p) (locks : t.generationLock = s.generationLock ∧
      t.activationLock = s.activationLock) (same : SameActivation s t)
    (dirs : ∀ q, q ≠ p → ∀ g d, ¬ Unselected g s → s.dir g = some d → t.dir g = some d) :
    (discipline R torn settled).Guarantee p c s t := by
  refine ⟨sound.change change ?_, .inr change, fun q other => ⟨?_, ?_, ?_, ?_, ?_⟩⟩
  · rw [locks.1, held]
    simp
  · exact fun alone => absurd (alone p).symm other
  · intro held'
    rw [held] at held'
    exact absurd (Option.some.inj held').symm other
  · intro _ held'
    rw [locks.1, held] at held'
    exact other (Option.some.inj held').symm
  · intro held'
    exact ⟨locks.2.trans held', same, dirs q other⟩
  · intro free
    rwa [locks.2]

/-- A change of the holder of `config-activation`. -/
theorem activation_guarantee (sound : Sound s) (change : Change R torn settled c s t)
    (held : s.activationLock = some p) (locks : t.generationLock = s.generationLock ∧
      t.activationLock = s.activationLock) (same : SameGenerations s t) :
    (discipline R torn settled).Guarantee p c s t := by
  refine ⟨sound.change change ?_, .inr change, fun q other => ⟨?_, ?_, ?_, ?_, ?_⟩⟩
  · rw [locks.1, same.removing]
    exact sound.idle
  · exact fun alone => absurd (alone p).symm other
  · intro held'
    exact ⟨locks.1.trans held', same⟩
  · intro free
    rwa [locks.1]
  · intro held'
    rw [held] at held'
    exact absurd (Option.some.inj held').symm other
  · intro _ held'
    rw [locks.2, held] at held'
    exact other (Option.some.inj held').symm

/-! ### Rules for the accesses -/

section Rules

variable {A : Type} {K K' : Store ι → Prop} {P Q : Store ι → Prop}
  {X : ConfigError → Store ι → Prop}

omit [DecidableEq ι] in
theorem goes_before {tag : Access} {e : ConfigError} (h : goes torn settled p tag (.before e) s) :
    False := by
  cases tag <;> simp_all [goes]

/-- A write, which does not raise. -/
theorem write_spec {tag : Access} {change : Store ι → Store ι}
    (stable : Stable (discipline R torn settled) p P)
    (done : ∀ s, Sound s → P s → goes torn settled p tag .done s →
      (discipline R torn settled).Guarantee p c s (change s) ∧ Q (change s))
    (stableQ : Stable (discipline R torn settled) p Q) :
    Triple (discipline R torn settled) (goes torn settled p) p c P (write tag change) (fun _ => Q)
      X := by
  have spec : Triple (discipline R torn settled) (goes torn settled p) p c P (write tag change)
      (fun _ => Q) (fun _ _ => False) := by
    refine Triple.perform stable (fun s sound start _ allowed => done s sound start allowed) ?_ ?_
      stableQ fun _ _ _ none => none.elim
    · exact fun _ e s _ _ allowed => (goes_before allowed).elim
    · intro may
      cases may
  exact spec.weaken (fun _ _ start => start) (fun _ _ _ post => post) fun _ _ _ none => none.elim

/-- The facts that hold of the store as long as the process has `config-generation`. -/
def InGeneration (p : ι) (K : Store ι → Prop) (s : Store ι) : Prop :=
  s.generationLock = some p ∧ s.activationLock ≠ some p ∧ K s

def LastingG (p : ι) (K : Store ι → Prop) : Prop :=
  ∀ s t, K s → SameGenerations s t → (Alone p → t = s) → K t

theorem inGeneration_stable (lasting : LastingG p K) :
    Stable (discipline R torn settled) p (InGeneration p K) := by
  intro s t inside _ rely
  obtain ⟨held, free, known⟩ := inside
  obtain ⟨held', same⟩ := rely.generation held
  exact ⟨held', rely.noActivation free, lasting s t known same rely.alone⟩

/-- A write of the holder of `config-generation`. -/
theorem generation_write {tag : Access} {change : Store ι → Store ι} (lasting : LastingG p K)
    (lasting' : LastingG p K')
    (done : ∀ s, Sound s → s.generationLock = some p → K s → goes torn settled p tag .done s →
      Change R torn settled c s (change s) ∧ K' (change s) ∧
        ∀ q, q ≠ p → ∀ g d, ¬ Unselected g s → s.dir g = some d → (change s).dir g = some d)
    (locks : ∀ s, (change s).generationLock = s.generationLock ∧
      (change s).activationLock = s.activationLock)
    (same : ∀ s, SameActivation s (change s)) :
    Triple (discipline R torn settled) (goes torn settled p) p c (InGeneration p K)
      (write tag change) (fun _ => InGeneration p K') X := by
  refine write_spec (inGeneration_stable lasting) ?_ (inGeneration_stable lasting')
  intro s sound inside allowed
  obtain ⟨held, free, known⟩ := inside
  obtain ⟨made, known', dirs⟩ := done s sound held known allowed
  refine ⟨generation_guarantee sound made held (locks s) (same s) dirs, ?_, ?_, known'⟩
  · rw [(locks s).1, held]
  · rwa [(locks s).2]

/-- The facts that hold of the store as long as the process has `config-activation`. -/
def InActivation (p : ι) (K : Store ι → Prop) (s : Store ι) : Prop :=
  s.activationLock = some p ∧ s.generationLock ≠ some p ∧ K s

def LastingA (p : ι) (K : Store ι → Prop) : Prop :=
  ∀ s t, K s → Sound t → SameActivation s t → (Alone p → t = s) →
    (∀ g d, ¬ Unselected g s → s.dir g = some d → t.dir g = some d) → K t

theorem inActivation_stable (lasting : LastingA p K) :
    Stable (discipline R torn settled) p (InActivation p K) := by
  intro s t inside sound rely
  obtain ⟨held, free, known⟩ := inside
  obtain ⟨held', same, dirs⟩ := rely.activation held
  exact ⟨held', rely.noGeneration free, lasting s t known sound same rely.alone dirs⟩

/-- A write of the holder of `config-activation`. -/
theorem activation_write {tag : Access} {change : Store ι → Store ι} (lasting : LastingA p K)
    (lasting' : LastingA p K')
    (done : ∀ s, Sound s → K s → goes torn settled p tag .done s →
      Change R torn settled c s (change s) ∧ K' (change s))
    (locks : ∀ s, (change s).generationLock = s.generationLock ∧
      (change s).activationLock = s.activationLock)
    (same : ∀ s, SameGenerations s (change s)) :
    Triple (discipline R torn settled) (goes torn settled p) p c (InActivation p K)
      (write tag change) (fun _ => InActivation p K') X := by
  refine write_spec (inActivation_stable lasting) ?_ (inActivation_stable lasting')
  intro s sound inside allowed
  obtain ⟨held, free, known⟩ := inside
  obtain ⟨made, known'⟩ := done s sound known allowed
  refine ⟨activation_guarantee sound made held (locks s) (same s), ?_, ?_, known'⟩
  · rw [(locks s).2, held]
  · rwa [(locks s).1]

/-- A read by the holder of `config-generation`, with what it tells. -/
theorem generation_read {f : Store ι → A} (K' : A → Store ι → Prop) (lasting : LastingG p K)
    (lasting' : ∀ a, LastingG p (K' a)) (tells : ∀ s, Sound s → K s → K' (f s) s)
    (X : ConfigError → Store ι → Prop) (raises : ∀ e s, InGeneration p K s → X e s)
    (stableX : ∀ e, Stable (discipline R torn settled) p (X e)) :
    Triple (discipline R torn settled) (goes torn settled p) p c (InGeneration p K) (read f)
      (fun a => InGeneration p (K' a)) X := by
  refine Triple.look (inGeneration_stable lasting) ?_ (fun e s _ inside => raises e s inside)
    (fun a => inGeneration_stable (lasting' a)) stableX
  intro s a sound inside _ seen
  cases seen
  exact ⟨inside.1, inside.2.1, tells s sound inside.2.2⟩

end Rules

/-! ### Reading -/

section Reading

variable {A : Type} {P : Store ι → Prop} {g : Int} {d : GenerationDir}

omit [DecidableEq ι] in
theorem quiet_read {D : Discipline ι Call (Store ι)} {may : Access → Fault ConfigError → Store ι → Prop}
    {f : Store ι → A} : Quiet D may p c (read f) := Quiet.look

omit [DecidableEq ι] in
theorem quiet_load {D : Discipline ι Call (Store ι)}
    {may : Access → Fault ConfigError → Store ι → Prop} : Quiet D may p c (load R g) := by
  unfold load
  refine Quiet.ite (fun _ => Quiet.raise) fun _ => quiet_read.bind fun metadata =>
    quiet_read.bind fun source => quiet_read.bind fun resolved => ?_
  refine Quiet.ite (fun _ => Quiet.look.bind fun item => quiet_read.bind fun active =>
    Quiet.look.bind fun source => ?_) fun _ => Quiet.raise
  refine Quiet.ite (fun _ => Quiet.raise) fun _ => Quiet.look.bind fun resolved => ?_
  exact Quiet.ite (fun _ => Quiet.raise) fun _ => Quiet.ret

omit [DecidableEq ι] in
theorem quiet_loadPointer {D : Discipline ι Call (Store ι)}
    {may : Access → Fault ConfigError → Store ι → Prop} {pointer : Pointer} :
    Quiet D may p c (loadPointer R pointer) := by
  unfold loadPointer
  refine quiet_read.bind fun found => ?_
  cases found with
  | none => exact Quiet.ret
  | some g => exact quiet_load.bind fun _ => Quiet.ret

omit [DecidableEq ι] in
theorem quiet_readResolvedText {D : Discipline ι Call (Store ι)}
    {may : Access → Fault ConfigError → Store ι → Prop} : Quiet D may p c (readResolvedText R g) :=
  quiet_load.bind fun _ => Quiet.look

/-- What a loaded generation says of its directory. -/
structure Loaded (g : Int) (d : GenerationDir) (item : ConfigGeneration) : Prop where
  positive : 0 < g
  complete : d.Complete
  metadata : ∃ active, d.metadata = some { item with active }

section Load

variable {D : Discipline ι Call (Store ι)} {may : Access → Fault ConfigError → Store ι → Prop}

omit [DecidableEq ι] in
/-- What is read of a directory that stays. -/
theorem read_dir {f : Store ι → A} (h : GenerationDir → A)
    (stable : Stable D p fun s => P s ∧ s.dir g = some d) (stableP : Stable D p P)
    (seen : ∀ s, s.dir g = some d → f s = h d) :
    Triple D may p c (fun s => P s ∧ s.dir g = some d) (read f)
      (fun a s => a = h d ∧ P s ∧ s.dir g = some d) (fun _ => P) := by
  refine Triple.look stable ?_ (fun _ _ _ here => here.1) (fun a => ?_) fun _ => stableP
  · intro s a _ here _ same
    cases same
    exact ⟨seen s here.2, here⟩
  · exact fun s t there sound rely => ⟨there.1, stable s t there.2 sound rely⟩

omit [DecidableEq ι] in
theorem readText_dir {file : GenerationDir → Option Text}
    (stable : Stable D p fun s => P s ∧ s.dir g = some d) (stableP : Stable D p P) :
    Triple D may p c (fun s => P s ∧ s.dir g = some d) (readText g file)
      (fun text s => (∃ raw, file d = some raw ∧ text = PyText.universalNewlines raw) ∧
        P s ∧ s.dir g = some d) (fun _ => P) := by
  refine Triple.look stable ?_ (fun _ _ _ here => here.1) (fun a => ?_) fun _ => stableP
  · intro s text _ here _ seen
    refine ⟨?_, here⟩
    rw [here.2, Option.bind_some] at seen
    cases stored : file d with
    | none =>
      rw [stored] at seen
      cases seen
    | some raw =>
      rw [stored] at seen
      cases seen
      exact ⟨raw, rfl, rfl⟩
  · exact fun s t there sound rely => ⟨there.1, stable s t there.2 sound rely⟩

omit [DecidableEq ι] in
theorem readMetadata_dir (stable : Stable D p fun s => P s ∧ s.dir g = some d)
    (stableP : Stable D p P) :
    Triple D may p c (fun s => P s ∧ s.dir g = some d) (readMetadata g)
      (fun item s => d.metadata = some item ∧ P s ∧ s.dir g = some d) (fun _ => P) := by
  refine Triple.look stable ?_ (fun _ _ _ here => here.1) (fun a => ?_) fun _ => stableP
  · intro s item _ here _ seen
    refine ⟨?_, here⟩
    rw [here.2, Option.bind_some] at seen
    cases stored : d.metadata with
    | none =>
      rw [stored] at seen
      cases seen
    | some item' =>
      rw [stored] at seen
      cases seen
      rfl
  · exact fun s t there sound rely => ⟨there.1, stable s t there.2 sound rely⟩

omit [DecidableEq ι] in
/-- What `load` gives is the metadata of a complete directory. -/
theorem load_spec (stableP : Stable D p P)
    (stable : ∀ d, Stable D p fun s => P s ∧ s.dir g = some d) :
    Triple D may p c P (load R g)
      (fun item s => ∃ d, Loaded g d item ∧ P s ∧ s.dir g = some d) (fun _ => P) := by
  unfold load
  split
  · exact Triple.raise stableP fun _ _ start => start
  rename_i positive
  -- The first look finds the directory that all later ones read.
  refine Triple.bind
    (Q := fun a s => (a = false ∧ P s) ∨ ∃ d, a = d.has .metadata ∧ P s ∧ s.dir g = some d) ?_ ?_
  · refine Triple.look stableP ?_ (fun _ _ _ start => start) ?_ fun _ => stableP
    · intro s a _ start _ same
      cases same
      simp only [Store.isFile]
      cases there : s.dir g with
      | none => exact .inl ⟨rfl, start⟩
      | some d => exact .inr ⟨d, rfl, start, rfl⟩
    · rintro a s t (⟨same, start⟩ | ⟨d, same, here⟩) sound rely
      · exact .inl ⟨same, stableP s t start sound rely⟩
      · exact .inr ⟨d, same, stable d s t here sound rely⟩
  intro metadata s sound found
  rcases found with ⟨rfl, start⟩ | ⟨d, rfl, here⟩
  · refine Triple.bind (quiet_read P stableP) (fun source => Triple.bind (quiet_read P stableP)
      fun resolved => ?_) s sound start
    exact Triple.raise stableP fun _ _ start => start
  · have isFile : ∀ file (s : Store ι), s.dir g = some d → s.isFile g file = d.has file :=
      fun file s there => by rw [Store.isFile, there, Option.any_some]
    refine Triple.bind (read_dir (·.has .source) (stable d) stableP (isFile .source))
      (fun source => Triple.of_pure fun hasSource => ?_) s sound here
    refine Triple.bind (read_dir (·.has .resolved) (stable d) stableP (isFile .resolved))
      fun resolved => Triple.of_pure fun hasResolved => ?_
    split
    · rename_i all
      rw [hasSource, hasResolved, Bool.and_eq_true, Bool.and_eq_true] at all
      obtain ⟨⟨hasMetadata, hasSource⟩, hasResolved⟩ := all
      have complete : d.Complete := by
        intro file
        cases file <;> assumption
      refine (readMetadata_dir (stable d) stableP).bind fun item => Triple.of_pure fun stored => ?_
      refine Triple.bind (Q := fun _ s => P s ∧ s.dir g = some d)
        ((quiet_read _ (stable d)).weaken (fun _ _ here => here) (fun _ _ _ here => here)
          fun _ _ _ here => here.1) fun active => ?_
      refine (readText_dir (stable d) stableP).bind fun source => Triple.of_pure fun _ => ?_
      split
      · exact Triple.raise (stable d) fun _ _ here => here.1
      refine (readText_dir (stable d) stableP).bind fun resolved => Triple.of_pure fun _ => ?_
      split
      · exact Triple.raise (stable d) fun _ _ here => here.1
      exact Triple.ret (stable d) fun _ _ here =>
        ⟨d, ⟨not_le.mp positive, complete, item.active, stored⟩, here⟩
    · exact Triple.raise (stable d) fun _ _ here => here.1

omit [DecidableEq ι] in
theorem readResolvedText_spec (stableP : Stable D p P)
    (stable : ∀ d, Stable D p fun s => P s ∧ s.dir g = some d) :
    Triple D may p c P (readResolvedText R g)
      (fun text s => ∃ d raw, (d.resolved = some raw ∧ text = PyText.universalNewlines raw) ∧
        P s ∧ s.dir g = some d) (fun _ => P) := by
  refine (load_spec stableP stable).bind fun item => Triple.of_exists fun d =>
    Triple.of_pure fun _ => ?_
  refine (readText_dir (stable d) stableP).weaken (fun _ _ here => here) ?_ fun _ _ _ here => here
  intro text s _ read
  obtain ⟨⟨raw, stored, same⟩, here⟩ := read
  exact ⟨d, raw, ⟨stored, same⟩, here⟩

omit [DecidableEq ι] in
/-- `loadAll` gives the generation of each directory, if the directories stay. -/
theorem loadAll_spec (dirs : Int → Option GenerationDir) (stable : Stable D p P)
    (sound : ∀ s, D.inv s → Sound s) (frozen : ∀ s, P s → ∀ g, s.dir g = dirs g)
    (numbers : List Int) :
    Triple D may p c P (loadAll R numbers)
      (fun items s => items.map (·.generation) = numbers.filter (fun g => (dirs g).isSome) ∧ P s)
      (fun _ => P) := by
  induction numbers with
  | nil => exact Triple.ret stable fun _ _ start => ⟨rfl, start⟩
  | cons g rest ih =>
    have stableQ : ∀ items : List ConfigGeneration, Stable D p fun s =>
        items.map (·.generation) = (g :: rest).filter (fun g => (dirs g).isSome) ∧ P s :=
      fun items s t both inv rely => ⟨both.1, stable s t both.2 inv rely⟩
    refine Triple.bind (Q := fun there s => there = (dirs g).isSome ∧ P s) ?_ fun there =>
      Triple.of_pure fun same => ?_
    · refine Triple.look stable ?_ (fun _ _ _ start => start)
        (fun a s t both inv rely => ⟨both.1, stable s t both.2 inv rely⟩) fun _ => stable
      intro s a inv start _ seen
      cases seen
      exact ⟨congrArg Option.isSome (frozen s start g), start⟩
    · subst same
      cases here : dirs g with
      | none =>
        rw [Option.isSome_none, if_neg (by simp)]
        simp only [List.filter_cons, here, Option.isSome_none]
        exact ih
      | some d =>
        rw [Option.isSome_some, if_pos rfl]
        refine Triple.bind (Q := fun item s => item.generation = g ∧ P s) ?_ fun item =>
          Triple.of_pure fun named => ?_
        · refine (load_spec stable fun d s t both inv rely => ?_).weaken (fun _ _ start => start) ?_
            fun _ _ _ error => error
          · have kept := stable s t both.1 inv rely
            exact ⟨kept, by rw [frozen t kept, ← frozen s both.1, both.2]⟩
          · intro item s inv loaded
            obtain ⟨d, loaded, start, there⟩ := loaded
            obtain ⟨active, stored⟩ := loaded.metadata
            exact ⟨(sound s inv).named g d { item with active } there stored, start⟩
        · refine ih.bind fun items => Triple.ret (fun s t both inv rely =>
            ⟨both.1, stable s t both.2 inv rely⟩) ?_
          intro s _ both
          refine ⟨?_, both.2⟩
          rw [List.map_cons, named, both.1]
          simp [here]

end Load

variable {K : Store ι → Prop}

omit [DecidableEq ι] in
/-- A fact about the store that stays with the directories stays under `config-generation`. -/
theorem lastingG_and {K' : Store ι → Prop} (lasting : LastingG p K) (lasting' : LastingG p K') :
    LastingG p fun s => K s ∧ K' s :=
  fun s t both same alone => ⟨lasting s t both.1 same alone, lasting' s t both.2 same alone⟩

omit [DecidableEq ι] in
theorem lastingG_dir : LastingG p fun s => s.dir g = some d := by
  intro s t here same _
  rwa [Store.dir, same.generations]

/-- Under `config-generation`, `history` gives all generations, the newest first. -/
theorem history_spec (lasting : LastingG p K) :
    Triple (discipline R torn settled) (goes torn settled p) p c (InGeneration p K)
      (history R) (fun items => InGeneration p fun s => K s ∧ items.map (·.generation) = listing s)
      (fun _ => InGeneration p K) := by
  refine Triple.bind (Q := fun numbers s => ∃ gens,
      InGeneration p (fun s => K s ∧ s.generations = gens) s ∧
        numbers = (sortBy id (gens.map (·.1))).reverse) ?_ fun numbers => Triple.of_exists fun gens => ?_
  · refine Triple.look (inGeneration_stable lasting) ?_ (fun _ _ _ inside => inside) ?_
      fun _ => inGeneration_stable lasting
    · intro s a _ inside _ seen
      cases seen
      exact ⟨s.generations, ⟨inside.1, inside.2.1, inside.2.2, rfl⟩, rfl⟩
    · intro numbers s t there sound rely
      obtain ⟨gens, inside, same⟩ := there
      exact ⟨gens, inGeneration_stable (lastingG_and lasting fun s t here same _ =>
        same.generations.trans here) s t inside sound rely, same⟩
  have stable : Stable (discipline R torn settled) p
      (InGeneration p fun s => K s ∧ s.generations = gens) :=
    inGeneration_stable (lastingG_and lasting fun s t here same _ => same.generations.trans here)
  intro s sound both
  obtain ⟨inside, rfl⟩ := both
  refine ((loadAll_spec (get gens) stable (fun _ sound => sound)
    (fun s inside g => by rw [Store.dir, inside.2.2.2]) _).weaken (fun _ _ start => start) ?_ ?_)
    s sound inside
  · intro items s _ both
    obtain ⟨names, held, free, known, same⟩ := both
    refine ⟨held, free, known, ?_⟩
    subst same
    rw [names]
    exact listing_filter
  · exact fun _ s _ inside => ⟨inside.1, inside.2.1, inside.2.2.1⟩

/-- The next generation is newer than all that are there. -/
theorem nextGeneration_spec (lasting : LastingG p K) :
    Triple (discipline R torn settled) (goes torn settled p) p c (InGeneration p K)
      (nextGeneration R)
      (fun number => InGeneration p fun s => K s ∧ ∀ g, (s.dir g).isSome = true → g < number)
      (fun _ => InGeneration p K) := by
  refine (history_spec lasting).bind fun items => ?_
  have stable : Stable (discipline R torn settled) p
      (InGeneration p fun s => K s ∧ items.map (·.generation) = listing s) :=
    inGeneration_stable (lastingG_and lasting fun s t here same _ => by
      rw [listing, same.generations]
      exact here)
  cases items with
  | nil =>
    refine Triple.ret stable fun s _ inside =>
      ⟨inside.1, inside.2.1, inside.2.2.1, fun g there => ?_⟩
    have inside' := mem_listing.mpr there
    rw [← inside.2.2.2] at inside'
    cases inside'
  | cons first rest =>
    refine Triple.ret stable fun s _ inside =>
      ⟨inside.1, inside.2.1, inside.2.2.1, fun g there => ?_⟩
    have newest : g ≤ first.generation := le_of_listing inside.2.2.2.symm there
    omega

end Reading

end RepoForge.ConfigStore
