import Mathlib.Data.List.Dedup
import RepoForge.Library.PyDict
import RepoForge.Library.SortedListing

/-!
# Overlays of dictionaries

A layer sets some keys and removes others. What it says of a key is all there is to it: layers are
merged and applied key by key (`mention_merge`, `get_apply`), and where the entries and the removed
keys are sorted and apart, two layers that say the same are the same (`Canonical.eq`). So the laws of
merging are those of `Option.or`.
-/
namespace RepoForge.Overlays

structure Layer (κ ν : Type) where
  sets : List (κ × ν)
  removes : List κ

variable {κ ν : Type} [DecidableEq κ]

/-- A dictionary after `d[key] = value` for each entry. -/
def assignAll (d sets : List (κ × ν)) : List (κ × ν) :=
  sets.foldl (fun d item => PyDict.assign d item.1 item.2) d

/-- A dictionary after `d.pop(key, None)` for each key. -/
def popAll (d : List (κ × ν)) (removes : List κ) : List (κ × ν) := removes.foldl PyDict.pop d

namespace Layer

/-- What a layer says of a key: nothing, that it is removed, or its value. -/
def mention (l : Layer κ ν) (k : κ) : Option (Option ν) :=
  match PyDict.get l.sets k with
  | some v => some (some v)
  | none => if k ∈ l.removes then some none else none

def apply (l : Layer κ ν) (d : List (κ × ν)) : List (κ × ν) := popAll (assignAll d l.sets) l.removes

/-- The second layer on top of the first. -/
def merge (p q : Layer κ ν) : Layer κ ν where
  sets := q.apply (PyDict.ofPairs p.sets)
  removes := (p.removes ++ q.removes).dedup.filter fun k =>
    decide (k ∉ (q.apply (PyDict.ofPairs p.sets)).map (·.1))

/-- No key is set twice, or set and removed. -/
structure Apart (l : Layer κ ν) : Prop where
  unique : (l.sets.map (·.1)).Nodup
  apart : ∀ k ∈ l.removes, k ∉ l.sets.map (·.1)

end Layer

open Layer

variable {l p q : Layer κ ν} {d : List (κ × ν)} {k : κ}

theorem get_assignAll {sets : List (κ × ν)} (unique : (sets.map (·.1)).Nodup) :
    PyDict.get (assignAll d sets) k = (PyDict.get sets k).or (PyDict.get d k) := by
  induction sets generalizing d with
  | nil => simp [assignAll, PyDict.get_nil]
  | cons item rest ih =>
    rw [List.map_cons, List.nodup_cons] at unique
    have step : assignAll d (item :: rest) = assignAll (PyDict.assign d item.1 item.2) rest := rfl
    rw [step, ih unique.2, PyDict.get_cons, PyDict.get_assign]
    by_cases here : item.1 = k
    · have absent : PyDict.get rest k = none := by
        rw [← Option.not_isSome_iff_eq_none, PyDict.get_isSome]
        exact here ▸ unique.1
      simp [here, absent]
    · have other : ¬ k = item.1 := fun same => here same.symm
      simp [here, other]

theorem get_popAll {removes : List κ} :
    PyDict.get (popAll d removes) k = if k ∈ removes then none else PyDict.get d k := by
  induction removes generalizing d with
  | nil => simp [popAll]
  | cons key rest ih =>
    have step : popAll d (key :: rest) = popAll (PyDict.pop d key) rest := rfl
    rw [step, ih, PyDict.get_pop]
    by_cases here : k = key
    · simp [here]
    · simp [here]

theorem mention_eq_some {v : ν} : l.mention k = some (some v) ↔ PyDict.get l.sets k = some v := by
  unfold mention
  split
  · rename_i found
    simp [found]
  · rename_i absent
    rw [absent]
    split_ifs <;> simp

theorem mention_eq_removed (apart : l.Apart) : l.mention k = some none ↔ k ∈ l.removes := by
  unfold mention
  split
  · rename_i v found
    simp only [Option.some.injEq, reduceCtorEq, false_iff]
    intro removed
    exact apart.apart k removed (PyDict.get_isSome.mp (by rw [found]; rfl))
  · split_ifs with removed
    · simp [removed]
    · simp [removed]

/-- A key of a dictionary after a layer is applied. -/
theorem get_apply (apart : l.Apart) :
    PyDict.get (l.apply d) k = (l.mention k).getD (PyDict.get d k) := by
  rw [Layer.apply, get_popAll, get_assignAll apart.unique]
  by_cases removed : k ∈ l.removes
  · rw [if_pos removed, (mention_eq_removed apart).mpr removed]
    rfl
  · rw [if_neg removed]
    cases found : PyDict.get l.sets k with
    | some v =>
      rw [mention_eq_some.mpr found]
      rfl
    | none => simp [mention, found, removed]

theorem assignAll_nodup {sets : List (κ × ν)} (unique : (d.map (·.1)).Nodup) :
    ((assignAll d sets).map (·.1)).Nodup := by
  induction sets generalizing d with
  | nil => exact unique
  | cons item rest ih => exact ih (PyDict.assign_nodup unique)

theorem popAll_nodup {removes : List κ} (unique : (d.map (·.1)).Nodup) :
    ((popAll d removes).map (·.1)).Nodup := by
  induction removes generalizing d with
  | nil => exact unique
  | cons key rest ih => exact ih (unique.sublist (List.filter_sublist.map _))

theorem merge_apart : (p.merge q).Apart where
  unique := popAll_nodup (assignAll_nodup (PyDict.ofPairs_nodup p.sets))
  apart k removed := by
    have kept := (List.mem_filter.mp removed).2
    simpa [Layer.merge] using kept

/-- The last layer that mentions a key decides. -/
theorem mention_merge (first : p.Apart) (second : q.Apart) :
    (p.merge q).mention k = (q.mention k).or (p.mention k) := by
  have sets : PyDict.get (p.merge q).sets k = (q.mention k).getD (PyDict.get p.sets k) := by
    rw [Layer.merge, get_apply second, PyDict.ofPairs_of_unique first.unique]
  have removes : PyDict.get (p.merge q).sets k = none →
      (k ∈ (p.merge q).removes ↔ k ∈ p.removes ∨ k ∈ q.removes) := by
    intro gone
    have unset : k ∉ (q.apply (PyDict.ofPairs p.sets)).map (·.1) := by
      rw [← PyDict.get_isSome]
      change ¬ (PyDict.get (p.merge q).sets k).isSome = true
      simp [gone]
    simp only [Layer.merge, List.mem_filter, List.mem_dedup, List.mem_append, decide_eq_true_eq]
    exact and_iff_left unset
  cases said : q.mention k with
  | none =>
    rw [said] at sets
    simp only [Option.getD_none, Option.none_or] at sets ⊢
    cases found : PyDict.get p.sets k with
    | some v =>
      rw [found] at sets
      rw [mention_eq_some.mpr sets, mention_eq_some.mpr found]
    | none =>
      rw [found] at sets
      have quiet : k ∉ q.removes := by
        intro removed
        rw [(mention_eq_removed second).mpr removed] at said
        cases said
      simp only [mention, sets, found, removes sets, quiet, or_false]
  | some value =>
    cases value with
    | some v =>
      rw [said] at sets
      rw [mention_eq_some.mpr sets]
      rfl
    | none =>
      rw [said] at sets
      have removed := (mention_eq_removed second).mp said
      rw [(mention_eq_removed merge_apart).mpr ((removes sets).mpr (.inr removed))]
      rfl

/-- A layer that mentions nothing. -/
theorem eq_empty_of_mention (apart : l.Apart) (none : ∀ k, l.mention k = none) : l = ⟨[], []⟩ := by
  have sets : l.sets = [] := by
    apply PyDict.eq_nil_of_get
    intro k
    rw [Option.eq_none_iff_forall_ne_some]
    intro v found
    rw [← mention_eq_some, none] at found
    cases found
  have removes : l.removes = [] := by
    rw [List.eq_nil_iff_forall_not_mem]
    intro k removed
    rw [← mention_eq_removed apart, none] at removed
    cases removed
  cases l
  simp only at sets removes
  rw [sets, removes]

/-- The layer with its values replaced. -/
def Layer.map {ν' : Type} (f : ν → ν') (l : Layer κ ν) : Layer κ ν' :=
  ⟨l.sets.map fun item => (item.1, f item.2), l.removes⟩

omit [DecidableEq κ] in
theorem Layer.Apart.map {ν' : Type} (f : ν → ν') (apart : l.Apart) : (l.map f).Apart where
  unique := by simpa [Layer.map, Function.comp_def] using apart.unique
  apart k removed := by simpa [Layer.map, Function.comp_def] using apart.apart k removed

theorem mention_map {ν' : Type} (f : ν → ν') :
    (l.map f).mention k = (l.mention k).map (Option.map f) := by
  have sets : PyDict.get (l.map f).sets k = (PyDict.get l.sets k).map f := by
    simp only [Layer.map, PyDict.get, List.find?_map, Option.map_map]
    rfl
  unfold mention
  rw [sets]
  cases PyDict.get l.sets k with
  | some v => rfl
  | none =>
    by_cases removed : k ∈ l.removes
    · simp [Layer.map, removed]
    · simp [Layer.map, removed]

theorem mem_merge {item : κ × ν} (first : p.Apart) (second : q.Apart)
    (here : item ∈ (p.merge q).sets) : item ∈ p.sets ∨ item ∈ q.sets := by
  have found := mention_eq_some.mpr (PyDict.get_of_mem merge_apart.unique here)
  rw [mention_merge first second] at found
  cases said : q.mention item.1 with
  | none =>
    rw [said, Option.none_or] at found
    exact .inl (PyDict.mem_of_get (mention_eq_some.mp found))
  | some value =>
    rw [said, Option.some_or] at found
    exact .inr (PyDict.mem_of_get (mention_eq_some.mp (said.trans found)))

theorem popAll_of_absent {removes : List κ} (absent : ∀ k ∈ removes, k ∉ d.map (·.1)) :
    popAll d removes = d := by
  induction removes with
  | nil => rfl
  | cons key rest ih =>
    have step : popAll d (key :: rest) = popAll (PyDict.pop d key) rest := rfl
    rw [step, PyDict.pop_of_absent (absent key (List.mem_cons_self ..)),
      ih fun k later => absent k (List.mem_cons_of_mem _ later)]

theorem kept_removes (apart : l.Apart) (unique : l.removes.Nodup) :
    (l.removes.dedup.filter fun k => decide (k ∉ l.sets.map (·.1))) = l.removes := by
  rw [List.dedup_eq_self.mpr unique, List.filter_eq_self]
  intro k removed
  exact decide_eq_true (apart.apart k removed)

theorem empty_merge (apart : l.Apart) (unique : l.removes.Nodup) :
    Layer.merge ⟨[], []⟩ l = l := by
  have sets : l.apply (PyDict.ofPairs []) = l.sets := by
    have assigned : assignAll [] l.sets = l.sets := PyDict.ofPairs_of_unique apart.unique
    change popAll (assignAll [] l.sets) l.removes = l.sets
    rw [assigned, popAll_of_absent apart.apart]
  simp only [Layer.merge, sets, List.nil_append, kept_removes apart unique]

theorem merge_empty (apart : l.Apart) (unique : l.removes.Nodup) :
    Layer.merge l ⟨[], []⟩ = l := by
  have sets : Layer.apply ⟨[], []⟩ (PyDict.ofPairs l.sets) = l.sets :=
    PyDict.ofPairs_of_unique apart.unique
  simp only [Layer.merge, sets, List.append_nil, kept_removes apart unique]

section Sorted

variable [LinearOrder κ]

/-- The entries and the removed keys in order, every key once. -/
def Layer.normalize (l : Layer κ ν) : Layer κ ν :=
  ⟨sortBy (·.1) l.sets, sortBy id l.removes.dedup⟩

structure Layer.Canonical (l : Layer κ ν) : Prop extends l.Apart where
  sets_sorted : l.sets.Pairwise fun a b => a.1 ≤ b.1
  removes_sorted : l.removes.Pairwise fun a b => a ≤ b
  removes_unique : l.removes.Nodup

theorem get_sortBy (unique : (d.map (·.1)).Nodup) : PyDict.get (sortBy (·.1) d) k = PyDict.get d k := by
  have unique' : ((sortBy (·.1) d).map (·.1)).Nodup := (perm_sortBy.map _).nodup_iff.mpr unique
  cases found : PyDict.get d k with
  | some v => exact PyDict.get_of_mem unique' (mem_sortBy.mpr (PyDict.mem_of_get found))
  | none =>
    rw [← Option.not_isSome_iff_eq_none, PyDict.get_isSome, (perm_sortBy.map _).mem_iff,
      ← PyDict.get_isSome, found]
    simp

theorem normalize_canonical (apart : l.Apart) : l.normalize.Canonical where
  unique := (perm_sortBy.map _).nodup_iff.mpr apart.unique
  apart k removed := by
    have listed : k ∈ l.removes := by simpa [Layer.normalize, mem_sortBy] using removed
    rw [Layer.normalize, (perm_sortBy.map _).mem_iff]
    exact apart.apart k listed
  sets_sorted := sortBy_sorted
  removes_sorted := sortBy_sorted
  removes_unique := perm_sortBy.nodup_iff.mpr (List.nodup_dedup _)

theorem mention_normalize (unique : (l.sets.map (·.1)).Nodup) :
    l.normalize.mention k = l.mention k := by
  simp only [mention, Layer.normalize, get_sortBy unique, mem_sortBy, List.mem_dedup]

/-- Sorted layers that say the same are the same. -/
theorem Layer.Canonical.eq (first : p.Canonical) (second : q.Canonical)
    (same : ∀ k, p.mention k = q.mention k) : p = q := by
  have gets : ∀ k, PyDict.get p.sets k = PyDict.get q.sets k := by
    intro k
    apply Option.ext
    intro v
    rw [← mention_eq_some, ← mention_eq_some, same]
  have sets : p.sets = q.sets := by
    apply eq_of_sorted first.unique first.sets_sorted second.sets_sorted
    apply (List.perm_ext_iff_of_nodup first.unique.of_map second.unique.of_map).mpr
    intro item
    constructor
    · intro here
      apply PyDict.mem_of_get
      rw [← gets, PyDict.get_of_mem first.unique here]
    · intro here
      apply PyDict.mem_of_get
      rw [gets, PyDict.get_of_mem second.unique here]
  have removes : p.removes = q.removes := by
    apply @eq_of_sorted κ κ _ id _ _ (by simpa using first.removes_unique) first.removes_sorted
      second.removes_sorted
    apply (List.perm_ext_iff_of_nodup first.removes_unique second.removes_unique).mpr
    intro k
    rw [← mention_eq_removed first.toApart, ← mention_eq_removed second.toApart, same]
  cases p
  cases q
  simp only at sets removes
  rw [sets, removes]

end Sorted

end RepoForge.Overlays
