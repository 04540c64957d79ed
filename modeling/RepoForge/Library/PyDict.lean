import Mathlib.Data.List.Nodup
import Mathlib.Data.List.Induction

/-!
# Dictionaries

A `dict` as the list of its items in the order in which their keys were first assigned; a key
assigned again keeps its place.
-/
namespace RepoForge.PyDict

variable {κ ν : Type} [DecidableEq κ] {items : List (κ × ν)} {k k' : κ} {v w : ν}

/-- `items[k] = v` -/
def assign : List (κ × ν) → κ → ν → List (κ × ν)
  | [], k, v => [(k, v)]
  | item :: rest, k, v => if item.1 = k then (k, v) :: rest else item :: assign rest k v

/-- `items.get(k)` -/
def get (items : List (κ × ν)) (k : κ) : Option ν :=
  (items.find? fun item => item.1 = k).map (·.2)

/-- `items.pop(k, None)` -/
def pop (items : List (κ × ν)) (k : κ) : List (κ × ν) := items.filter fun item => item.1 ≠ k

/-- `dict(pairs)` -/
def ofPairs (pairs : List (κ × ν)) : List (κ × ν) :=
  pairs.foldl (fun items pair => assign items pair.1 pair.2) []

/-- The items that have a value. -/
def present (parts : List (κ × Option ν)) : List (κ × ν) :=
  parts.filterMap fun part => part.2.map fun v => (part.1, v)

theorem get_nil : get ([] : List (κ × ν)) k = none := rfl

theorem get_cons {item : κ × ν} :
    get (item :: items) k = if item.1 = k then some item.2 else get items k := by
  simp only [get, List.find?_cons]
  split_ifs with here
  · simp [here]
  · simp [here]

theorem get_isSome : (get items k).isSome = true ↔ k ∈ items.map (·.1) := by
  simp [get]

omit [DecidableEq κ] in
theorem keys_present {parts : List (κ × Option ν)} (here : k ∈ (present parts).map (·.1)) :
    k ∈ parts.map (·.1) := by
  obtain ⟨item, made, rfl⟩ := List.mem_map.mp here
  obtain ⟨part, given, same⟩ := List.mem_filterMap.mp made
  obtain ⟨v, -, rfl⟩ := Option.map_eq_some_iff.mp same
  exact List.mem_map_of_mem (f := (·.1)) given

theorem get_present {parts : List (κ × Option ν)} (unique : (parts.map (·.1)).Nodup) :
    get (present parts) k = (get parts k).join := by
  induction parts with
  | nil => rfl
  | cons part rest ih =>
    obtain ⟨key, value⟩ := part
    rw [List.map_cons, List.nodup_cons] at unique
    cases value with
    | none =>
      have skipped : present ((key, none) :: rest) = present rest := rfl
      rw [skipped, ih unique.2, get_cons]
      split_ifs with here
      · have absent : get rest k = none := by
          rw [← Option.not_isSome_iff_eq_none, get_isSome]
          exact here ▸ unique.1
        rw [absent]
        rfl
      · rfl
    | some v =>
      have kept : present ((key, some v) :: rest) = (key, v) :: present rest := rfl
      rw [kept, get_cons, get_cons, ih unique.2]
      split_ifs <;> rfl

theorem get_assign : get (assign items k v) k' = if k' = k then some v else get items k' := by
  induction items with
  | nil => simp [assign, get_cons, get_nil, eq_comm]
  | cons item rest ih =>
    by_cases here : item.1 = k
    · by_cases same : k' = k
      · simp [assign, here, get_cons, same]
      · have other : ¬ k = k' := fun h => same h.symm
        simp [assign, here, get_cons, same, other]
    · by_cases same : k' = k
      · subst same
        simp [assign, here, get_cons, ih]
      · simp [assign, here, get_cons, ih, same]

theorem get_pop : get (pop items k) k' = if k' = k then none else get items k' := by
  induction items with
  | nil => simp [pop, get_nil]
  | cons item rest ih =>
    by_cases here : item.1 = k
    · by_cases same : k' = k
      · simpa [pop, here, same] using ih
      · have other : ¬ k = k' := fun h => same h.symm
        simpa [pop, here, same, get_cons, other] using ih
    · by_cases same : k' = k
      · subst same
        simpa [pop, here, get_cons] using ih
      · simp only [pop, ne_eq, here, not_false_eq_true, decide_true, List.filter_cons_of_pos,
          get_cons] at ih ⊢
        rw [ih]
        simp [same]

theorem assign_ne_nil : assign items k v ≠ [] := by
  cases items with
  | nil => simp [assign]
  | cons item rest =>
    unfold assign
    split_ifs <;> simp

theorem eq_nil_of_get (none : ∀ k, get items k = none) : items = [] := by
  cases items with
  | nil => rfl
  | cons item rest =>
    have first := none item.1
    simp [get_cons] at first

theorem mem_of_get (found : get items k = some v) : (k, v) ∈ items := by
  obtain ⟨item, here, rfl⟩ := Option.map_eq_some_iff.mp found
  have same := List.find?_some here
  have inside := List.mem_of_find?_eq_some here
  simp only [decide_eq_true_eq] at same
  rwa [← same]

theorem get_of_mem (unique : (items.map (·.1)).Nodup) (here : (k, v) ∈ items) :
    get items k = some v := by
  induction items with
  | nil => cases here
  | cons item rest ih =>
    rw [List.map_cons, List.nodup_cons] at unique
    rw [get_cons]
    rcases List.mem_cons.mp here with rfl | later
    · simp
    · have other : item.1 ≠ k := fun same =>
        unique.1 (same ▸ List.mem_map_of_mem (f := (·.1)) later)
      rw [if_neg other]
      exact ih unique.2 later

theorem keys_assign : (assign items k v).map (·.1) =
    if k ∈ items.map (·.1) then items.map (·.1) else items.map (·.1) ++ [k] := by
  induction items with
  | nil => simp [assign]
  | cons item rest ih =>
    by_cases here : item.1 = k
    · simp [assign, here]
    · have other : ¬ k = item.1 := fun same => here same.symm
      simp only [assign, here, if_false, List.map_cons, ih, List.mem_cons, other, false_or]
      split_ifs <;> simp

theorem assign_nodup (unique : (items.map (·.1)).Nodup) :
    ((assign items k v).map (·.1)).Nodup := by
  rw [keys_assign]
  split_ifs with here
  · exact unique
  · rw [← List.concat_eq_append]
    exact List.Nodup.concat here unique

theorem get_ofPairs (pairs : List (κ × ν)) :
    get (ofPairs pairs) k = (pairs.reverse.find? fun pair => pair.1 = k).map (·.2) := by
  induction pairs using List.reverseRecOn with
  | nil => rfl
  | append_singleton pairs pair ih =>
    rw [ofPairs, List.foldl_concat, ← ofPairs, get_assign, ih, List.reverse_append,
      List.reverse_singleton, List.singleton_append, List.find?_cons]
    by_cases same : pair.1 = k
    · simp [same]
    · have other : ¬ k = pair.1 := fun h => same h.symm
      simp [same, other]

theorem ofPairs_nodup (pairs : List (κ × ν)) : ((ofPairs pairs).map (·.1)).Nodup := by
  induction pairs using List.reverseRecOn with
  | nil => exact List.nodup_nil
  | append_singleton pairs pair ih =>
    rw [ofPairs, List.foldl_concat]
    exact assign_nodup ih

theorem assign_of_absent (absent : k ∉ items.map (·.1)) : assign items k v = items ++ [(k, v)] := by
  induction items with
  | nil => rfl
  | cons item rest ih =>
    rw [List.map_cons, List.mem_cons, not_or] at absent
    rw [assign, if_neg fun same => absent.1 same.symm, ih absent.2, List.cons_append]

/-- A dictionary of its own items. -/
theorem ofPairs_of_unique (unique : (items.map (·.1)).Nodup) : ofPairs items = items := by
  induction items using List.reverseRecOn with
  | nil => rfl
  | append_singleton items item ih =>
    rw [List.map_append, List.nodup_append] at unique
    have absent : item.1 ∉ items.map (·.1) := by
      intro here
      exact unique.2.2 item.1 here item.1 (by simp) rfl
    rw [ofPairs, List.foldl_concat, ← ofPairs, ih unique.1, assign_of_absent absent]

theorem pop_of_absent (absent : k ∉ items.map (·.1)) : pop items k = items := by
  rw [pop, List.filter_eq_self]
  intro item here
  have other : item.1 ≠ k := fun same => absent (same ▸ List.mem_map_of_mem (f := (·.1)) here)
  exact decide_eq_true other

end RepoForge.PyDict
