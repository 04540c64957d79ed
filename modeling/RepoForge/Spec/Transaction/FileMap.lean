import RepoForge.Source.Transaction.Journal

/-!
# What a plan means

The meaning of an action is a function on file maps: it says which file stands at each
path afterwards and nothing about staging, backups or directories. `levelFiles T actions m`
is the file map after the first `m` actions. `validatePlan_enabled` is the link to the
code: a plan that validation accepts is enabled action by action in this meaning.
-/
namespace RepoForge

abbrev FileMap := Path → Option File

namespace TransactionAction

def effect : TransactionAction Path → FileMap → FileMap
  | .writeFile path data preserveMode, files =>
    let mode := if preserveMode then (files path).elim stageMode File.mode else stageMode
    Function.update files path (some ⟨data, mode⟩)
  | .createFile path data mode, files => Function.update files path (some ⟨data, mode.toNat⟩)
  | .deleteFile path, files => Function.update files path none
  | .moveFile source destination, files =>
    Function.update (Function.update files source none) destination (files source)

/-- What validation promises about an action and the files it meets. -/
def Enabled (T : Tree) (files : FileMap) : TransactionAction Path → Prop
  | .writeFile path _ _ => files path ≠ none
  | .createFile path _ _ => files path = none ∧ ¬ T.IsDir path
  | .deleteFile path => files path ≠ none
  | .moveFile source destination =>
    source ≠ destination ∧ files source ≠ none ∧ files destination = none ∧ ¬ T.IsDir destination

/-- The path whose parents an action makes, where it makes any. -/
def target : TransactionAction Path → Option Path
  | .writeFile path _ _ | .createFile path _ _ => some path
  | .deleteFile _ => none
  | .moveFile _ destination => some destination

/-- The action takes the file away from `p`. -/
def Removes (p : Path) : TransactionAction Path → Prop
  | .writeFile _ _ _ | .createFile _ _ _ => False
  | .deleteFile path => path = p
  | .moveFile source _ => source = p

theorem effect_of_not_removed {T : Tree} {a : TransactionAction Path} {files : FileMap} {p : Path}
    (before : files p ≠ none) (kept : ¬ a.Removes p) (enabled : a.Enabled T files) :
    a.effect files p ≠ none := by
  cases a with
  | writeFile path data preserveMode =>
    by_cases h : p = path <;> simp [effect, h, before]
  | createFile path data mode =>
    by_cases h : p = path <;> simp [effect, h, before]
  | deleteFile path =>
    have h : p ≠ path := fun h => kept h.symm
    simpa [effect, Function.update_apply, h] using before
  | moveFile source destination =>
    have h : p ≠ source := fun h => kept h.symm
    by_cases hd : p = destination
    · subst hd
      exact absurd enabled.2.2.1 before
    · simpa [effect, Function.update_apply, h, hd] using before

end TransactionAction

/-- The file map after the first `m` actions. -/
def levelFiles (T : Tree) (actions : List (TransactionAction Path)) (m : Nat) : FileMap :=
  (actions.take m).foldl (fun files a => a.effect files) T.fileAt

/-- Every action of the plan is enabled where its turn comes. -/
def EnabledPlan (T : Tree) (actions : List (TransactionAction Path)) : Prop :=
  ∀ k (a : TransactionAction Path), actions[k]? = some a → a.Enabled T (levelFiles T actions k)

section Levels

variable {T : Tree} {actions : List (TransactionAction Path)}

@[simp] theorem levelFiles_zero : levelFiles T actions 0 = T.fileAt := by
  simp [levelFiles]

theorem levelFiles_succ {k : Nat} {a : TransactionAction Path} (h : actions[k]? = some a) :
    levelFiles T actions (k + 1) = a.effect (levelFiles T actions k) := by
  simp [levelFiles, List.take_add_one, h]

/-- A file that disappears between two levels was removed by an action in between. -/
theorem removed_between (enabled : EnabledPlan T actions) {k m : Nat} {p : Path} (le : k ≤ m)
    (bound : m ≤ actions.length) (before : levelFiles T actions k p ≠ none)
    (after : levelFiles T actions m p = none) :
    ∃ i a, k ≤ i ∧ i < m ∧ actions[i]? = some a ∧ a.Removes p := by
  induction m with
  | zero =>
    have : k = 0 := by omega
    exact absurd after (this ▸ before)
  | succ m ih =>
    obtain ⟨a, ha⟩ : ∃ a, actions[m]? = some a := ⟨_, List.getElem?_eq_getElem (by omega)⟩
    by_cases hk : k = m + 1
    · exact absurd after (hk ▸ before)
    · by_cases hm : levelFiles T actions m p = none
      · obtain ⟨i, b, hki, him, hb, hr⟩ := ih (by omega) (by omega) hm
        exact ⟨i, b, hki, by omega, hb, hr⟩
      · refine ⟨m, a, by omega, by omega, ha, ?_⟩
        by_contra kept
        rw [levelFiles_succ ha] at after
        exact TransactionAction.effect_of_not_removed hm kept (enabled m a ha) after

/-- Files of the plan never stand at directories of the start. -/
theorem level_not_dir {p : Path} (enabled : EnabledPlan T actions) :
    ∀ k, levelFiles T actions k p ≠ none → ¬ T.IsDir p := by
  intro k
  induction k with
  | zero =>
    intro h dir
    rw [levelFiles_zero, dir.fileAt] at h
    exact h rfl
  | succ k ih =>
    intro h
    cases ha : actions[k]? with
    | none =>
      refine ih ?_
      rw [levelFiles, List.take_add_one, ha] at h
      simpa [levelFiles] using h
    | some a =>
      have en := enabled k a ha
      rw [levelFiles_succ ha] at h
      by_cases before : levelFiles T actions k p = none
      · cases a with
        | writeFile path data preserveMode =>
          by_cases he : p = path
          · exact absurd before (he ▸ en)
          · simp [TransactionAction.effect, he, before] at h
        | createFile path data mode =>
          by_cases he : p = path
          · exact he ▸ en.2
          · simp [TransactionAction.effect, he, before] at h
        | deleteFile path =>
          by_cases he : p = path
          · simp [TransactionAction.effect, he] at h
          · simp [TransactionAction.effect, he, before] at h
        | moveFile s d =>
          by_cases he : p = d
          · exact he ▸ en.2.2.2
          · by_cases hs : p = s
            · subst hs
              simp [TransactionAction.effect, he] at h
            · simp [TransactionAction.effect, he, hs, before] at h
      · exact ih before

end Levels

theorem head_of_drop {α : Type} {l rest : List α} {a : α} {i : Nat} (h : l.drop i = a :: rest) :
    l[i]? = some a ∧ l.drop (i + 1) = rest := by
  constructor
  · have : (l.drop i)[0]? = some a := by simp [h]
    simpa using this
  · rw [← List.drop_drop, h]
    rfl

/-- What validation has recorded agrees with the files of the plan so far. -/
structure Tracks (T : Tree) (files : FileMap) (state : Virtual) : Prop where
  known : ∀ p, virtualExists T state p = true ↔ files p ≠ none ∨ T.IsDir p
  apart : ∀ p, files p ≠ none → ¬ T.IsDir p

namespace Tracks

variable {T : Tree} {files : FileMap} {state : Virtual}

theorem initial (T : Tree) : Tracks T T.fileAt ∅ where
  known p := by simpa [virtualExists] using Tree.present_iff
  apart p h := by
    obtain ⟨f, hf⟩ := Option.ne_none_iff_exists'.mp h
    exact Tree.not_isDir_of_fileAt hf

theorem virtualExists_insert (T : Tree) (state : Virtual) (p q : Path) (b : Bool) :
    virtualExists T (state.insert p b) q = if q = p then b else virtualExists T state q := by
  unfold virtualExists
  by_cases h : q = p
  · subst h
    simp
  · simp [AList.lookup_insert_ne h, h]

theorem insert (tracks : Tracks T files state) {p : Path} (off : ¬ T.IsDir p)
    (content : Option File) :
    Tracks T (Function.update files p content) (state.insert p content.isSome) where
  known q := by
    rw [virtualExists_insert]
    by_cases h : q = p
    · subst h
      simp [off, Option.isSome_iff_ne_none]
    · simpa [h] using tracks.known q
  apart q hq := by
    by_cases h : q = p
    · exact h ▸ off
    · exact tracks.apart q (by simpa [h] using hq)

theorem file_of_exists (tracks : Tracks T files state) {p : Path}
    (there : virtualExists T state p = true) (off : ¬ T.IsDir p) : files p ≠ none :=
  ((tracks.known p).mp there).resolve_right off

theorem free_of_not_exists (tracks : Tracks T files state) {p : Path}
    (gone : virtualExists T state p = false) : files p = none ∧ ¬ T.IsDir p := by
  have := (tracks.known p).not.mp (by simp [gone])
  simpa [not_or] using this

end Tracks

theorem assertRegularIfPresent_ok {T : Tree} {p : Path} {u : Unit}
    (h : assertRegularIfPresent T p = .ok u) : ¬ T.IsDir p := by
  unfold assertRegularIfPresent at h
  split at h
  · cases h
  · assumption

/-- One accepted action is enabled, and validation keeps track of its effect. -/
theorem validateAction_sound {T : Tree} {files : FileMap} {state next : Virtual} {index : Nat}
    {raw : TransactionAction Text} {a : TransactionAction Path} (tracks : Tracks T files state)
    (h : validateAction T index state raw = .ok (a, next)) :
    a.Enabled T files ∧ Tracks T (a.effect files) next := by
  cases raw with
  | writeFile rawPath data preserveMode =>
    obtain ⟨p, -, h⟩ := bind_ok h
    split at h
    · cases h
    · rename_i there
      obtain ⟨_, regular, h⟩ := bind_ok h
      cases h
      have off := assertRegularIfPresent_ok regular
      have there : virtualExists T state p = true := by simpa using there
      have exists_ := tracks.file_of_exists there off
      refine ⟨exists_, ⟨fun q => ?_, fun q hq => ?_⟩⟩
      · by_cases hq : q = p
        · subst hq
          simp [TransactionAction.effect, there]
        · simpa [TransactionAction.effect, hq] using tracks.known q
      · by_cases hqp : q = p
        · exact hqp ▸ off
        · exact tracks.apart q (by simpa [TransactionAction.effect, hqp] using hq)
  | createFile rawPath data mode =>
    obtain ⟨p, -, h⟩ := bind_ok h
    split at h
    · cases h
    · rename_i gone
      split at h
      · cases h
      · cases h
        have free := tracks.free_of_not_exists (by simpa using gone)
        exact ⟨free, tracks.insert free.2 _⟩
  | deleteFile rawPath =>
    obtain ⟨p, -, h⟩ := bind_ok h
    split at h
    · cases h
    · rename_i there
      obtain ⟨_, regular, h⟩ := bind_ok h
      cases h
      have off := assertRegularIfPresent_ok regular
      exact ⟨tracks.file_of_exists (by simpa using there) off, tracks.insert off none⟩
  | moveFile rawSource rawDestination =>
    obtain ⟨s, -, h⟩ := bind_ok h
    obtain ⟨d, -, h⟩ := bind_ok h
    split at h
    · cases h
    · rename_i differ
      split at h
      · cases h
      · rename_i there
        split at h
        · cases h
        · rename_i gone
          obtain ⟨_, regular, h⟩ := bind_ok h
          cases h
          have off := assertRegularIfPresent_ok regular
          have source := tracks.file_of_exists (by simpa using there) off
          have free := tracks.free_of_not_exists (by simpa using gone)
          obtain ⟨f, hf⟩ := Option.ne_none_iff_exists'.mp source
          refine ⟨⟨differ, source, free.1, free.2⟩, ?_⟩
          have moved := (tracks.insert off none).insert free.2 (files s)
          simpa [TransactionAction.effect, hf] using moved

theorem validateFrom_enabled {T : Tree} :
    ∀ (plan : List (TransactionAction Text)) (actions : List (TransactionAction Path))
      (index : Nat) (state : Virtual) (files : FileMap), Tracks T files state →
      validateFrom T index state plan = .ok actions →
      ∀ k (a : TransactionAction Path), actions[k]? = some a →
        a.Enabled T ((actions.take k).foldl (fun files a => a.effect files) files)
  | [], actions, _, _, _, _, h => by
    cases h
    simp
  | raw :: plan, actions, index, state, files, tracks, h => by
    obtain ⟨⟨first, next⟩, hfirst, h⟩ := bind_ok h
    obtain ⟨others, hothers, h⟩ := bind_ok h
    cases h
    obtain ⟨enabled, tracks⟩ := validateAction_sound tracks hfirst
    intro k a hk
    cases k with
    | zero =>
      cases hk
      exact enabled
    | succ k =>
      simpa using validateFrom_enabled plan others _ _ _ tracks hothers k a (by simpa using hk)

/-- A plan that validation accepts is enabled action by action. -/
theorem validatePlan_enabled {T : Tree} {allowEmpty : Bool}
    {plan : List (TransactionAction Text)} {actions : List (TransactionAction Path)}
    (accepted : validatePlan T allowEmpty plan = .ok actions) : EnabledPlan T actions := by
  unfold validatePlan at accepted
  split at accepted
  · cases accepted
  · split at accepted
    · cases accepted
    · exact validateFrom_enabled plan actions 0 ∅ T.fileAt (.initial T) accepted

end RepoForge
