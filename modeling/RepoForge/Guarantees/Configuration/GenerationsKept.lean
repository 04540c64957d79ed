import RepoForge.Guarantees.Configuration.PointersWhole

/-!
# Generations are immutable

A generation that has been stored is never written again, its number is never given to another one,
and the newest one stays. Between two points of a run a directory can lose files, or go.
-/
namespace RepoForge.ConfigStore

open Scripts PyDict Runs

section

variable {ι : Type} {R : Environment} {torn settled : Prop} {c : Call} {s t u : Store ι}

/-- What the generations of a store can become. -/
structure Later (s t : Store ι) : Prop where
  within : ∀ g d d', s.dir g = some d → t.dir g = some d' → d'.Within d
  fresh : ∀ g, (t.dir g).isSome = true →
    (s.dir g).isSome = true ∨ ∀ n, (s.dir n).isSome = true → n < g
  newest : ∀ g, (s.dir g).isSome = true → ∃ n, (t.dir n).isSome = true ∧ g ≤ n

theorem GenerationDir.Within.trans {d d' d'' : GenerationDir} (first : d.Within d')
    (next : d'.Within d'') : d.Within d'' :=
  ⟨fun item own => next.metadata item (first.metadata item own),
    fun text own => next.source text (first.source text own),
    fun text own => next.resolved text (first.resolved text own)⟩

theorem Later.trans (first : Later s t) (next : Later t u) : Later s u := by
  refine ⟨fun g d d'' before after => ?_, fun g there => ?_, fun g there => ?_⟩
  · rcases next.fresh g (by rw [after]; rfl) with present | greater
    · obtain ⟨d', here⟩ := Option.isSome_iff_exists.mp present
      exact (next.within g d' d'' here after).trans (first.within g d d' before here)
    · -- A number that came back would be less than one that is still there.
      obtain ⟨n, present, le⟩ := first.newest g (by rw [before]; rfl)
      exact absurd (greater n present) (not_lt.mpr le)
  · rcases next.fresh g there with present | greater
    · exact first.fresh g present
    · refine .inr fun n before => ?_
      obtain ⟨k, present, le⟩ := first.newest n before
      exact lt_of_le_of_lt le (greater k present)
  · obtain ⟨n, present, le⟩ := first.newest g there
    obtain ⟨k, present, le'⟩ := next.newest n present
    exact ⟨k, present, le.trans le'⟩

/-- The directories that there are afterwards were there, with as much in them. -/
theorem Later.shrinks
    (within : ∀ g d', t.dir g = some d' → ∃ d, s.dir g = some d ∧ d'.Within d)
    (newest : ∀ g, (s.dir g).isSome = true → ∃ n, (t.dir n).isSome = true ∧ g ≤ n) :
    Later s t := by
  refine ⟨fun g d d' before after => ?_, fun g there => .inl ?_, newest⟩
  · obtain ⟨d₀, here, smaller⟩ := within g d' after
    rw [before] at here
    cases here
    exact smaller
  · obtain ⟨d', after⟩ := Option.isSome_iff_exists.mp there
    obtain ⟨d, here, -⟩ := within g d' after
    rw [here]
    rfl

theorem Later.frame (same : t.generations = s.generations) : Later s t := by
  have dirs : ∀ g, t.dir g = s.dir g := fun g => by rw [Store.dir, same, Store.dir]
  refine .shrinks (fun g d there => ⟨d, by rw [← dirs, there], within_refl d⟩) fun g there => ?_
  exact ⟨g, by rwa [dirs], le_refl g⟩

variable [DecidableEq ι]

theorem later_change (sound : Sound s) (change : Change R torn settled c s t) : Later s t := by
  cases change with
  | creates m number current kind call newest passed =>
    refine ⟨fun g d d' before after => ?_, fun g there => ?_, fun g there => ⟨g, ?_, le_refl g⟩⟩
    · have older := newest g (by rw [before]; rfl)
      rw [Store.dir, dir_assign, if_neg older.ne, before] at after
      cases after
      exact within_refl d
    · rw [Store.dir, dir_assign] at there
      split_ifs at there with same
      · exact .inr (same ▸ newest)
      · exact .inl there
    · rwa [Store.dir, dir_assign, if_neg (newest g there).ne]
  | unlinks g newest file accepted older active target one =>
    refine .shrinks (fun n d' after => ?_) fun n there => ⟨n, ?_, le_refl n⟩
    · rw [dir_unlinkFile] at after
      split_ifs at after with same
      · obtain ⟨d, before, rfl⟩ := Option.map_eq_some_iff.mp after
        exact ⟨d, same ▸ before, (within_refl d).unlink file⟩
      · exact ⟨d', after, within_refl d'⟩
    · rw [dir_unlinkFile]
      split_ifs with same
      · subst same
        rwa [Option.isSome_map]
      · exact there
  | removes g newest accepted older active target one emptied =>
    refine .shrinks (fun n d' after => ?_) fun n there => ?_
    · rw [dir_removeDir] at after
      split_ifs at after
      exact ⟨d', after, within_refl d'⟩
    · by_cases same : n = g
      · -- What is removed is older than the accepted generation, which is there.
        obtain ⟨d, here, -⟩ := sound.pointers .accepted newest accepted
        refine ⟨newest, ?_, by omega⟩
        rw [dir_removeDir, if_neg fun both => by omega, here]
        rfl
      · refine ⟨n, ?_, le_refl n⟩
        rwa [dir_removeDir, if_neg fun both => same both.1]
  | _ => exact .frame rfl

end

/-- Any calls by any processes, which may die at any operation: what is stored stays as it is. -/
theorem generations_immutable {ι : Type} [DecidableEq ι] {R : Environment} {source : Option Text}
    {labels : List (Event ι Call ConfigError)}
    (operates : Along (Machine.step (kernel R)) (Machine.Permitted operating) (newMachine source)
      labels)
    (removes : (∀ p : ι, Alone p) ∨
      Along (Machine.step (kernel R)) RemovesUnselected (newMachine source) labels) :
    ∀ before between after, labels = before ++ between ++ after →
      Later (run (Machine.step (kernel R)) (newMachine source) before).shared
        (run (Machine.step (kernel R)) (newMachine source) (before ++ between)).shared := by
  intro before between after split
  obtain ⟨along, kept⟩ := kept_run (fun _ => True) True False operates (fun _ _ _ => trivial)
    removes (fun none => none.elim) (.inl trivial)
  have steps := along.both kept.along
  rw [split] at steps
  rw [run_append]
  refine (steps.within.invariant (Q := fun m => Later (run (Machine.step (kernel R))
    (newMachine source) before).shared m.shared) (fun m l later step => ?_) (.frame rfl)).last
  obtain ⟨permitted, here, -⟩ := step
  rcases here.effect disciplined permitted with same | ⟨p, c, fault, script, -, -, good⟩
  · rwa [same]
  · rcases good with same | change
    · rwa [same]
    · exact later.trans (later_change here.inv change)

theorem generations_immutable_activated :
    Later
      (run (Machine.step (kernel sampleEnvironment)) (newMachine none)
        (((activatedStretches true).take 1).flatMap Machine.Stretch.labels)).shared
      (run (Machine.step (kernel sampleEnvironment)) (newMachine none)
        ((activatedStretches true).flatMap Machine.Stretch.labels)).shared := by
  have operates : Along (Machine.step (kernel sampleEnvironment)) (Machine.Permitted operating)
      (newMachine none) ((activatedStretches true).flatMap Machine.Stretch.labels) :=
    along_of_forall fun l inside m => activatedStretches_operate m l inside
  have later := generations_immutable operates (.inr activatedStretches_removes)
    (((activatedStretches true).take 1).flatMap Machine.Stretch.labels)
    (((activatedStretches true).drop 1).flatMap Machine.Stretch.labels) []
    (by rw [List.append_nil, ← List.flatMap_append, List.take_append_drop])
  rwa [← List.flatMap_append, List.take_append_drop] at later

end RepoForge.ConfigStore
