import RepoForge.Source.Configuration.GenerationStore

/-!
# What the operations of the generation store do

`Change` lists everything that one operation of a call can do to the store, with what the call knew
when it did it, and `Sound` is the invariant that every change keeps. The discipline of the store's
processes puts both together: what a process may assume of the others while it holds one of the
locks, and that it only makes changes of its own call.
-/
namespace RepoForge.ConfigStore

open Scripts PyDict

variable {ι : Type}

/-- All files are there. -/
def GenerationDir.Complete (d : GenerationDir) : Prop := ∀ file, d.has file = true

/-- The directory holds no file but those of the other. -/
structure GenerationDir.Within (d whole : GenerationDir) : Prop where
  metadata : ∀ item, d.metadata = some item → whole.metadata = some item
  source : ∀ text, d.source = some text → whole.source = some text
  resolved : ∀ text, d.resolved = some text → whole.resolved = some text

theorem GenerationDir.Within.eq {d whole : GenerationDir} (within : d.Within whole)
    (complete : d.Complete) : d = whole := by
  obtain ⟨metadata, source, resolved⟩ := d
  obtain ⟨item, rfl⟩ := Option.isSome_iff_exists.mp (complete .metadata)
  obtain ⟨src, rfl⟩ := Option.isSome_iff_exists.mp (complete .source)
  obtain ⟨res, rfl⟩ := Option.isSome_iff_exists.mp (complete .resolved)
  have m := within.metadata item rfl
  have s := within.source src rfl
  have r := within.resolved res rfl
  cases whole
  simp only at m s r
  subst m s r
  rfl

theorem GenerationDir.Within.unlink {d whole : GenerationDir} (within : d.Within whole)
    (file : GenerationFile) : (d.unlink file).Within whole := by
  cases file
  · exact ⟨by simp [GenerationDir.unlink], within.source, within.resolved⟩
  · exact ⟨within.metadata, by simp [GenerationDir.unlink], within.resolved⟩
  · exact ⟨within.metadata, within.source, by simp [GenerationDir.unlink]⟩

/-- A generation whose directory is complete. -/
def Store.Holds (s : Store ι) (g : Int) : Prop := ∃ d, s.dir g = some d ∧ d.Complete

/-- The directory that `accept` stores for a mutation. -/
def storedDir (R : Environment) (m : ConfigMutation) (number current : Int)
    (kind : CapabilityDeltaKind) : GenerationDir :=
  ⟨some (generationOf R m number current kind), some m.sourceText, some m.resolvedText⟩

theorem storedDir_complete {R : Environment} {m : ConfigMutation} {number current : Int}
    {kind : CapabilityDeltaKind} : (storedDir R m number current kind).Complete := by
  intro file
  cases file <;> rfl

/-- What one operation of a call does, and what the call knows then. `torn` says whether a process
may die while it removes a directory, and `settled` whether the target is taken away only when the
resolved file is that of the active generation. -/
inductive Change [DecidableEq ι] (R : Environment) (torn settled : Prop) (c : Call)
    (s : Store ι) : Store ι → Prop
  /-- Locks, and the editable source. -/
  | calm (source : Option Text) (generationLock activationLock : Option ι)
      (selecting : Option Int) (idle : generationLock = none → s.removing = none) :
      Change R torn settled c s { s with source, generationLock, activationLock, selecting }
  | dies (p : ι) (whole : s.removing = none ∨ torn) : Change R torn settled c s (releaseLocks p s)
  | creates (m : ConfigMutation) (number current : Int) (kind : CapabilityDeltaKind)
      (call : c = .accept m) (newest : ∀ g, (s.dir g).isSome = true → g < number)
      (passed : (generationOf R m number current kind).postInit = .ok ()) :
      Change R torn settled c s
        { s with
          generations := assign s.generations number (storedDir R m number current kind) }
  | accepts (g : Int) (d : GenerationDir) (there : s.dir g = some d) (complete : d.Complete)
      (own : ∀ m, c = .accept m → d.source = some m.sourceText ∧ d.resolved = some m.resolvedText ∧
        ∀ e ∈ s.everAccepted, e.1 < g)
      (chosen : ∀ n expected token, c = .rollback n expected token → g = n)
      (call : (∃ m, c = .accept m) ∨ ∃ n expected token, c = .rollback n expected token) :
      Change R torn settled c s
        { s with
          accepted := some g
          everAccepted := (g, s.dir g) :: s.everAccepted }
  | stages (g : Int) (holds : s.Holds g) : Change R torn settled c s { s with target := some g }
  | unstages (whole : settled → s.interrupted = false) :
      Change R torn settled c s { s with target := none }
  | resolves (g : Int) (text : Text) (staged : s.target = some g) :
      Change R torn settled c s
        { s with
          activeResolved := some text
          interrupted := true }
  | activates (g : Int) (d : GenerationDir) (text : Text) (staged : s.target = some g)
      (there : s.dir g = some d) (stored : d.resolved = some text)
      (written : s.activeResolved = some (PyText.universalNewlines text)) :
      Change R torn settled c s
        { s with
          active := some g
          interrupted := false }
  | unlinks (g newest : Int) (file : GenerationFile) (accepted : s.accepted = some newest)
      (older : g < newest) (active : s.active ≠ some g) (target : s.target ≠ some g)
      (one : s.removing = none ∨ s.removing = some g) :
      Change R torn settled c s (unlinkFile g file s)
  | removes (g newest : Int) (accepted : s.accepted = some newest)
      (older : g < newest) (active : s.active ≠ some g) (target : s.target ≠ some g)
      (one : s.removing = none ∨ s.removing = some g)
      (emptied : ∀ d, s.dir g = some d → d = ⟨none, none, none⟩) :
      Change R torn settled c s (removeDir g s)

/-- The invariant of the store. -/
structure Sound (s : Store ι) : Prop where
  pointers : ∀ p g, s.pointer p = some g → s.Holds g
  named : ∀ g d item, s.dir g = some d → d.metadata = some item → item.generation = g
  bounded : ∀ e ∈ s.everAccepted, ∃ g, (s.dir g).isSome = true ∧ e.1 ≤ g
  recorded : ∀ e ∈ s.everAccepted, ∃ whole, e.2 = some whole ∧ whole.Complete ∧
    ∀ d, s.dir e.1 = some d → d.Within whole
  idle : s.generationLock = none → s.removing = none

variable {R : Environment} {torn settled : Prop} {c : Call} {s t : Store ι}

theorem mem_listing {g : Int} : g ∈ listing s ↔ (s.dir g).isSome = true := by
  rw [listing, List.mem_reverse, mem_sortBy, Store.dir, get_isSome]

theorem listing_filter :
    ((listing s).filter fun g => (s.dir g).isSome) = listing s := by
  rw [List.filter_eq_self]
  exact fun g there => mem_listing.mp there

/-- The first number is the greatest. -/
theorem le_of_listing {first g : Int} {rest : List Int} (numbers : listing s = first :: rest)
    (there : (s.dir g).isSome = true) : g ≤ first := by
  have sorted : (listing s).Pairwise fun a b => b ≤ a := by
    rw [listing, List.pairwise_reverse]
    exact sortBy_sorted
  have inside := mem_listing.mpr there
  rw [numbers] at sorted inside
  rcases List.mem_cons.mp inside with same | later
  · exact same.le
  · exact (List.pairwise_cons.mp sorted).1 g later

theorem dir_assign {g n : Int} {d : GenerationDir} :
    get (assign s.generations n d) g = if g = n then some d else s.dir g := get_assign

/-- What an unlinked file leaves of the directories. -/
theorem dir_unlinkFile {g n : Int} {file : GenerationFile} :
    (unlinkFile n file s).dir g =
      if g = n then (s.dir n).map (·.unlink file) else s.dir g := by
  unfold unlinkFile
  cases here : s.dir n with
  | none =>
    split_ifs with same
    · rw [same, here]
      rfl
    · rfl
  | some d =>
    rw [Store.dir]
    dsimp only
    rw [dir_assign]
    rfl

theorem dir_removeDir {g n : Int} :
    (removeDir n s).dir g =
      if g = n ∧ s.dir n = some ⟨none, none, none⟩ then none else s.dir g := by
  unfold removeDir Store.dir
  dsimp only
  by_cases empty : get s.generations n = some ⟨none, none, none⟩
  · rw [if_pos empty, get_pop]
    simp [empty]
  · rw [if_neg empty]
    simp [empty]

theorem pointer_unlinkFile {p : Pointer} {g : Int} {file : GenerationFile} :
    (unlinkFile g file s).pointer p = s.pointer p := by
  unfold unlinkFile
  split <;> rfl

/-- A change that leaves the directories and the pointers keeps the invariant. -/
theorem Sound.frame (sound : Sound s) (generations : t.generations = s.generations)
    (pointers : ∀ p, t.pointer p = s.pointer p ∨ ∀ g, t.pointer p = some g → s.Holds g)
    (everAccepted : t.everAccepted = s.everAccepted)
    (idle : t.generationLock = none → t.removing = none) : Sound t := by
  have dirs : ∀ g, t.dir g = s.dir g := fun g => by rw [Store.dir, generations, Store.dir]
  refine ⟨?_, ?_, ?_, ?_, idle⟩
  · intro p g there
    have holds : s.Holds g := by
      rcases pointers p with same | holds
      · exact sound.pointers p g (same ▸ there)
      · exact holds g there
    rwa [Store.Holds, dirs]
  · intro g d item there
    rw [dirs] at there
    exact sound.named g d item there
  · intro e there
    rw [everAccepted] at there
    obtain ⟨g, present, le⟩ := sound.bounded e there
    exact ⟨g, by rwa [dirs], le⟩
  · intro e there
    rw [everAccepted] at there
    obtain ⟨whole, same, complete, within⟩ := sound.recorded e there
    refine ⟨whole, same, complete, fun d there => within d ?_⟩
    rwa [dirs] at there

/-- A change of the directories that leaves those with a pointer, and empties no greatest one. -/
theorem Sound.dirs (sound : Sound s)
    (pointers : ∀ p g, t.pointer p = some g → s.pointer p = some g ∧ ∀ d, s.dir g = some d →
      d.Complete → t.dir g = some d)
    (shrinks : ∀ g d, t.dir g = some d → (∃ d', s.dir g = some d' ∧ d.Within d') ∨
      (∀ e ∈ s.everAccepted, e.1 < g) ∧ ∀ item, d.metadata = some item → item.generation = g)
    (greater : ∀ g, (s.dir g).isSome = true → ∃ g', (t.dir g').isSome = true ∧ g ≤ g')
    (everAccepted : t.everAccepted = s.everAccepted)
    (idle : t.generationLock = none → t.removing = none) : Sound t := by
  refine ⟨?_, ?_, ?_, ?_, idle⟩
  · intro p g there
    obtain ⟨before, kept⟩ := pointers p g there
    obtain ⟨d, here, complete⟩ := sound.pointers p g before
    exact ⟨d, kept d here complete, complete⟩
  · intro g d item there own
    rcases shrinks g d there with ⟨d', before, within⟩ | ⟨-, named⟩
    · exact sound.named g d' item before (within.metadata item own)
    · exact named item own
  · intro e there
    rw [everAccepted] at there
    obtain ⟨g, present, le⟩ := sound.bounded e there
    obtain ⟨g', present', le'⟩ := greater g present
    exact ⟨g', present', le.trans le'⟩
  · intro e there
    rw [everAccepted] at there
    obtain ⟨whole, same, complete, within⟩ := sound.recorded e there
    refine ⟨whole, same, complete, fun d here => ?_⟩
    rcases shrinks e.1 d here with ⟨d', before, smaller⟩ | ⟨fresh, -⟩
    · have large := within d' before
      exact ⟨fun item own => large.metadata item (smaller.metadata item own),
        fun text own => large.source text (smaller.source text own),
        fun text own => large.resolved text (smaller.resolved text own)⟩
    · exact absurd (fresh e there) (lt_irrefl _)

/-- A generation that no pointer names. -/
theorem pointed_apart {g newest n : Int} {p : Pointer} (accepted : s.accepted = some newest)
    (older : g < newest) (active : s.active ≠ some g) (target : s.target ≠ some g)
    (there : s.pointer p = some n) : n ≠ g := by
  rintro rfl
  cases p with
  | accepted =>
    have same : s.accepted = some n := there
    rw [accepted] at same
    cases same
    exact lt_irrefl _ older
  | active => exact active there
  | target => exact target there

theorem within_refl (d : GenerationDir) : d.Within d :=
  ⟨fun _ own => own, fun _ own => own, fun _ own => own⟩

variable [DecidableEq ι]

/-- Every change keeps the invariant. -/
theorem Sound.change (sound : Sound s) (change : Change R torn settled c s t)
    (locked : t.generationLock = none → t.removing = none) : Sound t := by
  cases change with
  | calm source generationLock activationLock selecting idle =>
    exact sound.frame rfl (fun p => .inl (by cases p <;> rfl)) rfl locked
  | dies p whole => exact sound.frame rfl (fun p => .inl (by cases p <;> rfl)) rfl locked
  | creates m number current kind call newest passed =>
    have free : s.dir number = none := by
      cases there : s.dir number with
      | none => rfl
      | some d => exact absurd (newest number (by simp [there])) (lt_irrefl _)
    refine sound.dirs ?_ ?_ ?_ rfl locked
    · intro p g there
      refine ⟨by cases p <;> exact there, fun d here _ => ?_⟩
      have other : g ≠ number := by
        rintro rfl
        rw [free] at here
        cases here
      rw [Store.dir, dir_assign, if_neg other, here]
    · intro g d there
      rw [Store.dir, dir_assign] at there
      split_ifs at there with same
      · cases there
        refine .inr ⟨fun e ever => ?_, fun item own => ?_⟩
        · obtain ⟨g', present, le⟩ := sound.bounded e ever
          have := newest g' present
          omega
        · cases own
          exact same.symm
      · exact .inl ⟨d, there, within_refl d⟩
    · intro g present
      refine ⟨g, ?_, le_refl g⟩
      rw [Store.dir, dir_assign]
      split_ifs
      · rfl
      · exact present
  | accepts g d there complete own chosen call =>
    refine ⟨?_, sound.named, ?_, ?_, locked⟩
    · intro p n there'
      cases p with
      | accepted =>
        cases there'
        exact ⟨d, there, complete⟩
      | active => exact sound.pointers .active n there'
      | target => exact sound.pointers .target n there'
    · intro e ever
      rcases List.mem_cons.mp ever with rfl | ever
      · exact ⟨g, by simp [Store.dir] at there ⊢; simp [there], le_refl g⟩
      · exact sound.bounded e ever
    · intro e ever
      rcases List.mem_cons.mp ever with rfl | ever
      · refine ⟨d, there, complete, fun d' here => ?_⟩
        change s.dir g = some d' at here
        rw [there] at here
        cases here
        exact within_refl d
      · exact sound.recorded e ever
  | stages g holds =>
    refine sound.frame rfl (fun p => ?_) rfl locked
    cases p with
    | accepted => exact .inl rfl
    | active => exact .inl rfl
    | target => exact .inr fun g' same => by cases same; exact holds
  | unstages whole =>
    refine sound.frame rfl (fun p => ?_) rfl locked
    cases p with
    | accepted => exact .inl rfl
    | active => exact .inl rfl
    | target => exact .inr fun g' same => by cases same
  | resolves g text staged => exact sound.frame rfl (fun p => .inl (by cases p <;> rfl)) rfl locked
  | activates g d text staged there stored written =>
    refine sound.frame rfl (fun p => ?_) rfl locked
    cases p with
    | accepted => exact .inl rfl
    | active => exact .inr fun g' same => by cases same; exact sound.pointers .target g staged
    | target => exact .inl rfl
  | unlinks g newest file accepted older active target one =>
    refine sound.dirs ?_ ?_ ?_ ?_ locked
    · intro p n there
      rw [pointer_unlinkFile] at there
      refine ⟨there, fun d here _ => ?_⟩
      rw [dir_unlinkFile, if_neg (pointed_apart accepted older active target there), here]
    · intro n d there
      rw [dir_unlinkFile] at there
      split_ifs at there with same
      · obtain ⟨d', before, rfl⟩ := Option.map_eq_some_iff.mp there
        exact .inl ⟨d', same ▸ before, (within_refl d').unlink file⟩
      · exact .inl ⟨d, there, within_refl d⟩
    · intro n present
      refine ⟨n, ?_, le_refl n⟩
      rw [dir_unlinkFile]
      split_ifs with same
      · subst same
        simpa using present
      · exact present
    · unfold unlinkFile
      split <;> rfl
  | removes g newest accepted older active target one emptied =>
    refine sound.dirs ?_ ?_ ?_ rfl locked
    · intro p n there
      have there : s.pointer p = some n := by cases p <;> exact there
      refine ⟨there, fun d here _ => ?_⟩
      have apart := pointed_apart accepted older active target there
      rw [dir_removeDir, if_neg (fun both => apart both.1), here]
    · intro n d there
      rw [dir_removeDir] at there
      split_ifs at there
      exact .inl ⟨d, there, within_refl d⟩
    · intro n present
      by_cases same : n = g
      · obtain ⟨d, here, -⟩ := sound.pointers .accepted newest accepted
        refine ⟨newest, ?_, by omega⟩
        rw [dir_removeDir, if_neg (fun both => by omega), here]
        rfl
      · refine ⟨n, ?_, le_refl n⟩
        rw [dir_removeDir, if_neg (fun both => same both.1)]
        exact present

end RepoForge.ConfigStore
