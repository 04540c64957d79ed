import RepoForge.Spec.Configuration.StoreDisciplined

/-!
# The generation store after a restart

`Ready` is what a process that has just started needs of the store: every directory that is not
being removed can be loaded. Every change keeps it, if no process dies inside a removal and the
accepted texts are read as they were written. In a ready store all reads succeed, and so does an
`accept` that expects what is there.
-/
namespace RepoForge.ConfigStore

open Scripts PyDict Runs Script

variable {ι : Type} {R : Environment} {s t : Store ι} {p : ι} {g : Int} {d : GenerationDir}

/-- Text that is read as it was written. -/
def Plain (t : Text) : Prop := '\r' ∉ t

/-- An `accept` comes with such texts. -/
def PlainCall (c : Call) : Prop :=
  ∀ m, c = .accept m → m.Valid ∧ Plain m.sourceText ∧ Plain m.resolvedText

/-- The directory can be loaded. -/
structure Readable (R : Environment) (g : Int) (d : GenerationDir) : Prop where
  positive : 0 < g
  texts : ∃ item source resolved, d = ⟨some item, some source, some resolved⟩ ∧
    R.sha256Text (PyText.universalNewlines source) = item.sourceSha256 ∧
    R.sha256Text (PyText.universalNewlines resolved) = item.resolvedSha256

/-- What a restarted process relies on. -/
structure Ready (R : Environment) (s : Store ι) : Prop where
  readable : ∀ g d, s.dir g = some d → s.removing ≠ some g → Readable R g d
  logged : ∀ e ∈ s.everAccepted, ∀ e' ∈ s.everAccepted, e.1 = e'.1 → e.2 = e'.2

theorem postInit_positive {generation : ConfigGeneration} (passed : generation.postInit = .ok ()) :
    0 < generation.generation := by
  unfold ConfigGeneration.postInit at passed
  split_ifs at passed with all
  exact all.1

theorem storedDir_readable {m : ConfigMutation} {number current : Int}
    {kind : CapabilityDeltaKind} (source : Plain m.sourceText) (resolved : Plain m.resolvedText)
    (positive : 0 < number) : Readable R number (storedDir R m number current kind) := by
  refine ⟨positive, _, _, _, rfl, ?_, ?_⟩
  · rw [PyText.universalNewlines_of_clean source]
    rfl
  · rw [PyText.universalNewlines_of_clean resolved]
    rfl

section Change

variable [DecidableEq ι] {settled : Prop} {c : Call}

omit [DecidableEq ι] in
/-- A change that leaves the log keeps what is logged. -/
theorem Ready.dirs (ready : Ready R s)
    (readable : ∀ g d, t.dir g = some d → t.removing ≠ some g →
      Readable R g d ∨ s.dir g = some d ∧ s.removing ≠ some g)
    (everAccepted : t.everAccepted = s.everAccepted) : Ready R t := by
  refine ⟨fun g d there whole => ?_, by rw [everAccepted]; exact ready.logged⟩
  rcases readable g d there whole with now | ⟨before, whole⟩
  · exact now
  · exact ready.readable g d before whole

theorem Ready.change (ready : Ready R s) (sound : Sound s)
    (change : Change R False settled c s t) (plain : PlainCall c) : Ready R t := by
  cases change with
  | calm source generationLock activationLock selecting idle =>
    exact ready.dirs (fun g d there whole => .inr ⟨there, whole⟩) rfl
  | dies p whole =>
    refine ready.dirs (fun g d there _ => .inr ⟨there, ?_⟩) rfl
    rw [whole.resolve_right id]
    simp
  | creates m number current kind call newest passed =>
    refine ready.dirs (fun g d there whole => ?_) rfl
    rw [Store.dir, dir_assign] at there
    split_ifs at there with same
    · cases there
      rw [same]
      obtain ⟨-, source, resolved⟩ := plain m call
      exact .inl (storedDir_readable source resolved (postInit_positive passed))
    · exact .inr ⟨there, whole⟩
  | accepts g d there complete own chosen call =>
    refine ⟨ready.readable, ?_⟩
    -- An old entry of this number is what its directory has held ever since.
    have old : ∀ e ∈ s.everAccepted, e.1 = g → e.2 = s.dir g := by
      intro e ever same
      obtain ⟨whole, recorded, -, within⟩ := sound.recorded e ever
      rw [recorded, there, (within d (same ▸ there)).eq complete]
    intro e here e' here' same
    rcases List.mem_cons.mp here with rfl | before <;>
      rcases List.mem_cons.mp here' with rfl | before'
    · rfl
    · exact (old e' before' same.symm).symm
    · exact old e before same
    · exact ready.logged e before e' before' same
  | stages g holds => exact ⟨ready.readable, ready.logged⟩
  | unstages whole => exact ⟨ready.readable, ready.logged⟩
  | resolves g text staged => exact ⟨ready.readable, ready.logged⟩
  | activates g d text staged there stored written => exact ⟨ready.readable, ready.logged⟩
  | unlinks g newest file accepted older active target one =>
    have log : (unlinkFile g file s).everAccepted = s.everAccepted := by
      unfold unlinkFile
      split <;> rfl
    refine ready.dirs (fun n d there whole => .inr ?_) log
    rw [dir_unlinkFile] at there
    cases here : s.dir g with
    | none =>
      rw [unlinkFile, here] at whole
      split_ifs at there with same
      · rw [here] at there
        cases there
      · exact ⟨there, whole⟩
    | some d' =>
      rw [unlinkFile, here] at whole
      have other : n ≠ g := fun same => whole (congrArg some same.symm)
      rw [if_neg other] at there
      refine ⟨there, ?_⟩
      rcases one with free | same
      · rw [free]
        simp
      · rw [same]
        exact fun same => other (Option.some.inj same).symm
  | removes g newest accepted older active target one emptied =>
    refine ready.dirs (fun n d there whole => .inr ?_) rfl
    have other : n ≠ g := by
      rintro rfl
      rw [dir_removeDir] at there
      split_ifs at there with empty
      exact empty ⟨rfl, there.trans (congrArg some (emptied d there))⟩
    rw [dir_removeDir, if_neg fun both => other both.1] at there
    refine ⟨there, ?_⟩
    rcases one with free | same
    · rw [free]
      simp
    · rw [same]
      exact fun same => other (Option.some.inj same).symm

end Change

/-! ### Reading alone -/

section Reading

theorem solo_read {A : Type} {f : Store ι → A} : (read f).solo s = some (.ok (f s), s) := rfl

theorem solo_pointer {p : Pointer} :
    (pointerGeneration p).solo s = some (.ok (s.pointer p), s) := rfl

theorem solo_readText {file : GenerationDir → Option Text} {text : Text} (there : s.dir g = some d)
    (stored : file d = some text) :
    (readText g file).solo s = some (.ok (PyText.universalNewlines text), s) := by
  refine solo_look ?_
  rw [there, Option.bind_some, stored]

/-- The generation that is loaded of a directory. -/
def loadedItem (s : Store ι) (g : Int) (item : ConfigGeneration) : ConfigGeneration :=
  { item with active := s.active = some g }

theorem solo_load (readable : Readable R g d) (there : s.dir g = some d) :
    ∃ item, d.metadata = some item ∧ (load R g).solo s = some (.ok (loadedItem s g item), s) := by
  obtain ⟨item, source, resolved, rfl, sourceHash, resolvedHash⟩ := readable.texts
  refine ⟨item, rfl, ?_⟩
  have isFile : ∀ file, s.isFile g file = true := by
    intro file
    rw [Store.isFile, there, Option.any_some]
    cases file <;> rfl
  have metadata : (readMetadata g).solo s = some (.ok item, s) := by
    refine solo_look ?_
    rw [there]
    rfl
  unfold load
  rw [if_neg (by have := readable.positive; omega), solo_bind solo_read, solo_bind solo_read,
    solo_bind solo_read, isFile, isFile, isFile, if_pos (by rfl), solo_bind metadata,
    solo_bind solo_pointer, solo_bind (solo_readText there rfl), if_neg (not_not.mpr sourceHash),
    solo_bind (solo_readText there rfl), if_neg (not_not.mpr resolvedHash)]
  rfl

theorem solo_readResolvedText (readable : Readable R g d) (there : s.dir g = some d) :
    ∃ raw, d.resolved = some raw ∧
      (readResolvedText R g).solo s = some (.ok (PyText.universalNewlines raw), s) := by
  obtain ⟨item, -, loads⟩ := solo_load readable there
  obtain ⟨item', source, resolved, rfl, -⟩ := readable.texts
  refine ⟨resolved, rfl, ?_⟩
  unfold readResolvedText
  rw [solo_bind loads, solo_readText there rfl]

/-- Every directory can be loaded, and holds the generation it is named after. -/
structure Restarted (R : Environment) (s : Store ι) : Prop where
  readable : ∀ g d, s.dir g = some d → Readable R g d
  named : ∀ g d item, s.dir g = some d → d.metadata = some item → item.generation = g
  pointers : ∀ p g, s.pointer p = some g → (s.dir g).isSome = true

theorem Ready.restarted (ready : Ready R s) (sound : Sound s) (whole : s.removing = none)
    (lock : Option ι) : Restarted R { s with generationLock := lock } where
  readable g d there := ready.readable g d there (by rw [whole]; simp)
  named := sound.named
  pointers p g there := by
    obtain ⟨d, here, -⟩ := sound.pointers p g (by cases p <;> exact there)
    change (s.dir g).isSome = true
    rw [here]
    rfl

theorem Restarted.loads (restarted : Restarted R s) (there : (s.dir g).isSome = true) :
    ∃ item, item.generation = g ∧ (load R g).solo s = some (.ok item, s) := by
  obtain ⟨d, here⟩ := Option.isSome_iff_exists.mp there
  obtain ⟨item, stored, loads⟩ := solo_load (restarted.readable g d here) here
  exact ⟨loadedItem s g item, restarted.named g d item here stored, loads⟩

theorem Restarted.loadPointer (restarted : Restarted R s) (p : Pointer) :
    ∃ item, item.map (·.generation) = s.pointer p ∧
      (loadPointer R p).solo s = some (.ok item, s) := by
  unfold ConfigStore.loadPointer
  cases there : s.pointer p with
  | none => exact ⟨none, rfl, by rw [solo_bind solo_pointer, there]; rfl⟩
  | some g =>
    obtain ⟨item, named, loads⟩ := restarted.loads (restarted.pointers p g there)
    refine ⟨some item, congrArg some named, ?_⟩
    rw [solo_bind solo_pointer, there]
    dsimp only
    rw [solo_bind loads]
    rfl

theorem Restarted.loadAll (restarted : Restarted R s) (numbers : List Int)
    (present : ∀ g ∈ numbers, (s.dir g).isSome = true) :
    ∃ items, items.map (·.generation) = numbers ∧
      (loadAll R numbers).solo s = some (.ok items, s) := by
  induction numbers with
  | nil => exact ⟨[], rfl, rfl⟩
  | cons g rest ih =>
    obtain ⟨item, named, loads⟩ := restarted.loads (present g List.mem_cons_self)
    obtain ⟨items, names, all⟩ := ih fun g' inside => present g' (List.mem_cons_of_mem g inside)
    refine ⟨item :: items, by rw [List.map_cons, named, names], ?_⟩
    unfold ConfigStore.loadAll
    rw [solo_bind solo_read, if_pos (present g List.mem_cons_self), solo_bind loads, solo_bind all]
    rfl

theorem Restarted.history (restarted : Restarted R s) :
    ∃ items, items.map (·.generation) = listing s ∧ (history R).solo s = some (.ok items, s) := by
  obtain ⟨items, names, all⟩ := restarted.loadAll (listing s) fun g inside => mem_listing.mp inside
  refine ⟨items, names, ?_⟩
  unfold ConfigStore.history
  rw [solo_bind solo_read, all]

theorem Restarted.nextGeneration (restarted : Restarted R s) :
    ∃ number, 0 < number ∧ (∀ g, (s.dir g).isSome = true → g < number) ∧
      (nextGeneration R).solo s = some (.ok number, s) := by
  obtain ⟨items, names, reads⟩ := restarted.history
  unfold ConfigStore.nextGeneration
  rw [solo_bind reads]
  cases items with
  | nil =>
    refine ⟨1, by decide, fun g there => ?_, rfl⟩
    have inside := mem_listing.mpr there
    rw [← names] at inside
    cases inside
  | cons first rest =>
    have top : (s.dir first.generation).isSome = true := by
      rw [← mem_listing, ← names]
      exact List.mem_cons_self
    obtain ⟨d, here⟩ := Option.isSome_iff_exists.mp top
    have positive := (restarted.readable _ d here).positive
    refine ⟨first.generation + 1, by omega, fun g there => ?_, rfl⟩
    have newest : g ≤ first.generation := le_of_listing names.symm there
    omega

end Reading

/-! ### Accepting alone -/

section Accepting

variable {m : ConfigMutation} {number current : Int} {kind : CapabilityDeltaKind}

theorem solo_write {tag : Access} {change : Store ι → Store ι} :
    (write tag change).solo s = some (.ok (), change s) := rfl

theorem solo_removeFiles (rest : List GenerationFile) (s : Store ι) :
    ∃ t, (removeFiles g rest).solo s = some (.ok (), t) := by
  induction rest generalizing s with
  | nil => exact ⟨_, rfl⟩
  | cons file rest ih =>
    obtain ⟨t, removes⟩ := ih (unlinkFile g file s)
    refine ⟨t, ?_⟩
    unfold removeFiles
    rw [solo_bind (solo_handle solo_write), removes]

theorem solo_pruneAll {keep numbers : List Int} (s : Store ι) :
    ∃ t, (pruneAll R keep numbers).solo s = some (.ok (), t) := by
  induction numbers generalizing s with
  | nil => exact ⟨s, rfl⟩
  | cons g rest ih =>
    unfold pruneAll
    split
    · exact ih s
    · obtain ⟨t, removes⟩ := solo_removeFiles (R.removal g) s
      obtain ⟨u, prunes⟩ := ih t
      exact ⟨u, by rw [rmtree, solo_bind removes, prunes]⟩

theorem Restarted.prune (restarted : Restarted R s) :
    ∃ t, (prune R).solo s = some (.ok (), t) := by
  obtain ⟨items, -, reads⟩ := restarted.history
  unfold ConfigStore.prune
  rw [solo_bind solo_pointer, solo_bind solo_pointer, solo_bind solo_pointer, solo_bind reads]
  exact solo_pruneAll s

/-- What a new generation needs of its mutation, it has. -/
theorem generationOf_postInit (valid : m.Valid) (positive : 0 < number)
    (previous : current = 0 ∨ 0 < current ∧ current < number) :
    (generationOf R m number current kind).postInit = .ok () := by
  obtain ⟨⟨-, -, reason, createdAt⟩, fingerprints, approval⟩ := valid
  unfold ConfigGeneration.postInit
  refine if_pos ⟨positive, R.hexadecimal _, R.hexadecimal _, createdAt, reason, ?_, ?_, approval⟩
  · intro before same
    rw [Option.mem_def, generationOf] at same
    dsimp only at same
    split_ifs at same with none
    cases same
    exact previous.resolve_left none
  · exact fun item inside => fingerprints item (mem_sortBy.mp inside)

theorem Restarted.commitGeneration (restarted : Restarted R s)
    (fresh : ∀ g, (s.dir g).isSome = true → g < number)
    (readable : Readable R number (storedDir R m number current kind)) :
    ∃ t, (commitGeneration R (generationOf R m number current kind) m).solo s =
      some (.ok (generationOf R m number current kind), t) := by
  have free : (s.dir number).isSome = false := by
    cases there : (s.dir number).isSome with
    | false => rfl
    | true => exact absurd (fresh number there) (lt_irrefl _)
  have stored : (storeGeneration (generationOf R m number current kind) m.sourceText
      m.resolvedText).solo s = some (.ok (), { s with
        generations := assign s.generations number (storedDir R m number current kind) }) := by
    unfold storeGeneration
    rw [solo_bind solo_read]
    change (if (s.dir number).isSome = true then _ else _ : Program ι Unit).solo s = _
    rw [free]
    rfl
  -- The store that `_prune` finds can be read as a whole.
  have committed : ∀ source everAccepted, Restarted R { s with
      generations := assign s.generations number (storedDir R m number current kind)
      source := source
      accepted := some number
      everAccepted := everAccepted } := by
    intro source everAccepted
    refine ⟨fun g d there => ?_, fun g d item there own => ?_, fun p g there => ?_⟩
    · rw [Store.dir, dir_assign] at there
      split_ifs at there with same
      · cases there
        rwa [same]
      · exact restarted.readable g d there
    · rw [Store.dir, dir_assign] at there
      split_ifs at there with same
      · cases there
        cases own
        exact same.symm
      · exact restarted.named g d item there own
    · rw [Store.dir, dir_assign]
      split_ifs with same
      · rfl
      · cases p with
        | accepted =>
          cases there
          exact absurd rfl same
        | active => exact restarted.pointers .active g there
        | target => exact restarted.pointers .target g there
  obtain ⟨t, prunes⟩ := (committed (some m.sourceText)
    ((number, some (storedDir R m number current kind)) :: s.everAccepted)).prune
  have logged : get (assign s.generations number (storedDir R m number current kind)) number =
      some (storedDir R m number current kind) := by
    rw [dir_assign, if_pos rfl]
  refine ⟨t, ?_⟩
  unfold ConfigStore.commitGeneration
  rw [solo_bind stored, solo_bind solo_read]
  rw [← logged] at prunes
  change (ConfigStore.prune R >>= fun _ => (pure (generationOf R m number current kind) :
    Program ι ConfigGeneration)).solo { s with
      generations := assign s.generations number (storedDir R m number current kind)
      source := some m.sourceText
      accepted := some number
      everAccepted := (number, get (assign s.generations number
        (storedDir R m number current kind)) number) :: s.everAccepted } = _
  rw [solo_bind prunes]
  rfl

/-- What a mutation expects is what the store holds, and it has the approval it needs. -/
structure Expected (R : Environment) (s : Store ι) (m : ConfigMutation) : Prop where
  generation : ∀ n, m.expectedGeneration = some n → n = s.accepted.getD 0
  source : ∀ digest, m.expectedSourceSha256 = some digest →
    s.source.map (fun text => R.sha256Text (PyText.universalNewlines text)) = some digest
  first : s.accepted = none → checkApproval m .expansion = .ok ()
  later : ∀ g d raw, s.accepted = some g → s.dir g = some d → d.resolved = some raw →
    ∃ kind, R.classify (PyText.universalNewlines raw) m.resolvedText = .ok kind ∧
      (kind = .equivalent ∨ checkApproval m kind = .ok ())

theorem Restarted.acceptAs (restarted : Restarted R s) (plain : PlainCall (.accept m))
    (fresh : ∀ g, (s.dir g).isSome = true → g < number) (positive : 0 < number)
    (previous : current = 0 ∨ 0 < current ∧ current < number)
    (approved : checkApproval m kind = .ok ()) :
    ∃ item t, (acceptAs R m number current kind).solo s = some (.ok item, t) := by
  obtain ⟨valid, source, resolved⟩ := plain m rfl
  have readable : Readable R number (storedDir R m number current kind) :=
    storedDir_readable source resolved positive
  obtain ⟨t, commits⟩ := restarted.commitGeneration fresh readable
  refine ⟨generationOf R m number current kind, t, ?_⟩
  unfold ConfigStore.acceptAs
  rw [solo_bind (solo_ofExcept approved),
    solo_bind (solo_ofExcept (generationOf_postInit valid positive previous)), commits]

theorem solo_withGenerationLock {A : Type} {body : Program ι A} (unlocked : s.generationLock = none)
    (inside : ∃ a t, body.solo { s with generationLock := some p } = some (.ok a, t)) :
    ∃ a t, (withGenerationLock p body).solo s = some (.ok a, t) := by
  obtain ⟨a, t, runs⟩ := inside
  refine ⟨a, _, solo_within ?_ runs rfl⟩
  simp [unlocked]

/-- An `accept` that expects what is there succeeds. -/
theorem Restarted.accept (restarted : Restarted R { s with generationLock := some p })
    (unlocked : s.generationLock = none) (plain : PlainCall (.accept m)) (expected : Expected R s m) :
    ∃ item t, (accept R p m).solo s = some (.ok item, t) := by
  obtain ⟨number, positive, fresh, next⟩ := restarted.nextGeneration
  obtain ⟨current, named, loads⟩ := restarted.loadPointer .accepted
  have accepted : (current.map (·.generation)).getD 0 = s.accepted.getD 0 :=
    congrArg (·.getD 0) named
  have unexpected : m.expectedGeneration.any
      (· ≠ (current.map (·.generation)).getD 0) = false := by
    cases same : m.expectedGeneration with
    | none => rfl
    | some n => simp [expected.generation n same, accepted]
  have unchanged : ¬ (m.expectedSourceSha256.isSome = true ∧
      (s.source.map PyText.universalNewlines).map R.sha256Text ≠ m.expectedSourceSha256) := by
    rintro ⟨given, differs⟩
    obtain ⟨digest, same⟩ := Option.isSome_iff_exists.mp given
    refine differs ?_
    rw [same, ← expected.source digest same, Option.map_map]
    rfl
  have previous : s.accepted.getD 0 = 0 ∨ 0 < s.accepted.getD 0 ∧ s.accepted.getD 0 < number := by
    cases there : s.accepted with
    | none => exact .inl rfl
    | some g =>
      have here := restarted.pointers .accepted g there
      obtain ⟨d, dir⟩ := Option.isSome_iff_exists.mp here
      exact .inr ⟨(restarted.readable g d dir).positive, fresh g here⟩
  have names : ∀ item, current = some item → s.accepted = some item.generation := by
    intro item same
    rw [same] at named
    exact named.symm
  refine solo_withGenerationLock unlocked ?_
  rw [solo_bind next, solo_bind loads]
  dsimp only
  rw [accepted] at unexpected ⊢
  rw [unexpected, if_neg (by simp), solo_bind solo_read]
  dsimp only
  rw [if_neg unchanged]
  cases current with
  | none =>
    have first : s.accepted = none := named.symm
    exact restarted.acceptAs plain fresh positive previous (expected.first first)
  | some item =>
    have here := restarted.pointers .accepted item.generation (names item rfl)
    obtain ⟨d, dir⟩ := Option.isSome_iff_exists.mp here
    obtain ⟨raw, stored, reads⟩ := solo_readResolvedText (restarted.readable _ d dir) dir
    obtain ⟨kind, classifies, approved⟩ := expected.later _ d raw (names item rfl) dir stored
    have classified : (classified R item m).solo { s with generationLock := some p } =
        some (.ok kind, { s with generationLock := some p }) := by
      unfold ConfigStore.classified
      rw [solo_bind reads, solo_ofExcept classifies]
    dsimp only
    rw [solo_bind classified]
    split
    · exact ⟨item, _, rfl⟩
    · rename_i changed
      rw [solo_bind classified]
      exact restarted.acceptAs plain fresh positive previous (approved.resolve_left changed)

end Accepting

end RepoForge.ConfigStore
