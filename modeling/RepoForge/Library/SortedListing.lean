import Mathlib.Data.List.Count
import Mathlib.Data.List.Lex
import Mathlib.Data.List.Sort
import Mathlib.Data.Prod.Lex
import Mathlib.Data.List.Nodup
import Mathlib.Data.List.TakeDrop

/-!
# Sorting by a key

`sorted(items, key=...)` is stable; where no two items have the same key it depends only on which
items there are (`sortBy_perm`).
-/
namespace RepoForge

variable {α β : Type} [LinearOrder β] (key : α → β)

def sortBy (items : List α) : List α := items.insertionSort fun a b => key a ≤ key b

variable {key} {items items' : List α}

theorem perm_sortBy : (sortBy key items).Perm items := List.perm_insertionSort _ items

theorem mem_sortBy {x : α} : x ∈ sortBy key items ↔ x ∈ items := perm_sortBy.mem_iff

theorem sortBy_sorted : (sortBy key items).Pairwise fun a b => key a ≤ key b :=
  List.pairwise_insertionSort _ items

/-- Two lists in the order of their keys, with the same items, are the same. -/
theorem eq_of_sorted (unique : (items.map key).Nodup)
    (sorted : items.Pairwise fun a b => key a ≤ key b)
    (sorted' : items'.Pairwise fun a b => key a ≤ key b) (perm : items.Perm items') :
    items = items' := by
  refine List.Perm.eq_of_pairwise (fun a b here there below above => ?_) sorted sorted' perm
  have same : key a = key b := le_antisymm below above
  exact List.inj_on_of_nodup_map unique here (perm.mem_iff.mpr there) same

theorem sortBy_perm (unique : (items.map key).Nodup) (perm : items.Perm items') :
    sortBy key items = sortBy key items' := by
  refine eq_of_sorted ?_ sortBy_sorted sortBy_sorted
    (perm_sortBy.trans (perm.trans perm_sortBy.symm))
  exact (perm_sortBy.map key).nodup_iff.mpr unique

theorem sortBy_of_sorted (sorted : items.Pairwise fun a b => key a ≤ key b) :
    sortBy key items = items := sorted.insertionSort_eq

theorem sortBy_map {γ : Type} {f : α → γ} {key' : γ → β} (same : ∀ x, key' (f x) = key x) :
    sortBy key' (items.map f) = (sortBy key items).map f := by
  symm
  apply List.map_insertionSort
  intro a _ b _
  rw [same, same]

end RepoForge

/-!
# Positions in a sorted listing

A directory is listed sorted by a key, and read in pages by position. The position of an entry
is the number of entries with a smaller key (`position`), whatever the order in which they are
kept; an insertion can only raise it, and a removal lowers it by one where the removed entry
comes before. `mem_page`: a page holds exactly the entries whose position lies in it.
-/
namespace RepoForge.SortedListing

variable {α β : Type} [LinearOrder β] (key : α → β)

def position (x : α) (entries : List α) : Nat := entries.countP fun y => key y < key x

variable {key} {x y : α} {entries : List α}

theorem position_perm {l l' : List α} (h : l.Perm l') : position key x l = position key x l' :=
  h.countP_eq _

theorem position_lt (h : x ∈ entries) : position key x entries < entries.length := by
  exact List.countP_lt_length_iff.mpr ⟨x, h, by simp⟩

theorem position_cons_le : position key x entries ≤ position key x (y :: entries) := by
  unfold position
  rw [List.countP_cons]
  omega

/-- An entry with a smaller key has a smaller position. -/
theorem position_lt_position (less : key y < key x) (h : y ∈ entries) :
    position key y entries < position key x entries := by
  induction entries with
  | nil => cases h
  | cons a entries ih =>
    have tail : position key y entries ≤ position key x entries :=
      List.countP_mono_left fun b _ below => by
        simp only [decide_eq_true_eq] at below ⊢
        exact below.trans less
    have head : key a < key y → key a < key x := fun below => below.trans less
    rcases List.mem_cons.mp h with rfl | later
    · simp only [position, List.countP_cons, lt_irrefl, less] at tail ⊢
      simpa using Nat.lt_succ_of_le tail
    · have strict := ih later
      simp only [position, List.countP_cons] at strict ⊢
      by_cases below : key a < key y
      · simp only [below, head below, decide_true, if_true]
        omega
      · simp only [below, decide_false, Bool.false_eq_true, if_false]
        omega

/-- Where an entry at or after `n` is removed, the others stay at or after `n`. -/
theorem le_position_removed {n : Nat} {rest : List α} (removed : entries.Perm (y :: rest))
    (h : n ≤ position key x entries) (after : n ≤ position key y entries) :
    n ≤ position key x rest := by
  rw [position_perm removed] at h after
  by_cases less : key y < key x
  · have strict : position key y (y :: rest) < position key x (y :: rest) :=
      position_lt_position less List.mem_cons_self
    have one : position key x (y :: rest) = position key x rest + 1 := by
      simp [position, less]
    omega
  · have same : position key x (y :: rest) = position key x rest := by
      simp [position, less]
    omega

/-- An entry stands at its position. -/
theorem getElem_position (sorted : entries.Pairwise fun a b => key a < key b) (h : x ∈ entries) :
    entries[position key x entries]? = some x := by
  induction entries with
  | nil => cases h
  | cons a entries ih =>
    obtain ⟨first, rest⟩ := List.pairwise_cons.mp sorted
    rcases List.mem_cons.mp h with rfl | later
    · have none : entries.countP (fun y => decide (key y < key x)) = 0 := by
        rw [List.countP_eq_zero]
        intro y member
        simpa using (first y member).le
      have zero : position key x (x :: entries) = 0 := by
        simp [position, none]
      rw [zero]
      rfl
    · have one : position key x (a :: entries) = position key x entries + 1 := by
        simp [position, first x later]
      rw [one, List.getElem?_cons_succ]
      exact ih rest later

/-- The entries sorted by their key. -/
theorem sorted_strict [DecidableRel fun a b => key a ≤ key b] (injective : Function.Injective key)
    (nodup : entries.Nodup) :
    (entries.insertionSort fun a b => key a ≤ key b).Pairwise fun a b => key a < key b := by
  have trans : IsTrans α fun a b => key a ≤ key b := ⟨fun _ _ _ => le_trans⟩
  have total : Std.Total fun a b : α => key a ≤ key b := ⟨fun a b => le_total (key a) (key b)⟩
  have sorted := List.pairwise_insertionSort (fun a b : α => key a ≤ key b) entries
  have distinct : (entries.insertionSort fun a b => key a ≤ key b).Nodup :=
    (List.perm_insertionSort _ entries).nodup_iff.mpr nodup
  refine (sorted.and distinct).imp ?_
  rintro a b ⟨le, ne⟩
  exact lt_of_le_of_ne le fun same => ne (injective same)

/-- A page of the sorted listing holds the entries whose position lies in it. -/
theorem mem_page [DecidableRel fun a b => key a ≤ key b] (injective : Function.Injective key)
    (nodup : entries.Nodup) (h : x ∈ entries) {offset count : Nat} :
    x ∈ ((entries.insertionSort fun a b => key a ≤ key b).drop offset).take count ↔
      offset ≤ position key x entries ∧ position key x entries < offset + count := by
  have perm := List.perm_insertionSort (fun a b : α => key a ≤ key b) entries
  have there := getElem_position (sorted_strict injective nodup) (perm.mem_iff.mpr h)
  rw [position_perm perm] at there
  constructor
  · intro member
    obtain ⟨i, small, found⟩ := List.mem_take_iff_getElem.mp member
    have small : i < count := (Nat.lt_min.mp small).1
    have at_i : (entries.insertionSort fun a b => key a ≤ key b)[offset + i]? = some x := by
      rw [List.getElem_drop] at found
      rw [← found, List.getElem?_eq_getElem]
    have same : position key x entries = offset + i :=
      (List.getElem?_inj (List.getElem?_eq_some_iff.mp there).1 (perm.nodup_iff.mpr nodup)).mp
        (there.trans at_i.symm)
    omega
  · rintro ⟨low, high⟩
    apply List.mem_of_getElem? (i := position key x entries - offset)
    rw [List.getElem?_take_of_lt (by omega), List.getElem?_drop, Nat.add_sub_cancel' low]
    exact there

end RepoForge.SortedListing

/-!
## Removing the first free items

Items have distinct keys, and some are free to go. `Front` says of a set of keys that it has the
keys of the first `n` free items, no others; the item to go next is then the free item at `n`
(`Front.find`). All such sets are determined by `n`, and so is what they leave (`leave`).
-/
namespace RepoForge.OldestFirst

variable {α κ : Type} [DecidableEq κ] (key : α → κ) (free : α → Bool) (items : List α)

/-- The first `n` free items. -/
def front (n : Nat) : List α := (items.filter free).take n

/-- What is left without them. -/
def leave (n : Nat) : List α :=
  items.filter fun x => decide (key x ∉ (front free items n).map key)

variable {key free items}

/-- The keys of a part of a list find this part again. -/
theorem filter_mem_keys {part whole : List α} (sub : part.Sublist whole)
    (distinct : (whole.map key).Nodup) :
    whole.filter (fun x => decide (key x ∈ part.map key)) = part := by
  induction sub with
  | slnil => rfl
  | @cons part whole x sub ih =>
    rw [List.map_cons, List.nodup_cons] at distinct
    have absent : key x ∉ part.map key := fun here => distinct.1 ((sub.map key).subset here)
    rw [List.filter_cons_of_neg (by simpa using absent), ih distinct.2]
  | @cons_cons part whole x sub ih =>
    rw [List.map_cons, List.nodup_cons] at distinct
    rw [List.filter_cons_of_pos (by simp)]
    congr 1
    rw [← ih distinct.2]
    apply List.filter_congr
    intro y here
    have other : key y ≠ key x := fun same => distinct.1 (same ▸ List.mem_map_of_mem here)
    rw [ih distinct.2]
    simp [other]

/-- Without the keys of its first part a list is its second. -/
theorem filter_not_mem_keys {first second : List α} (distinct : ((first ++ second).map key).Nodup) :
    (first ++ second).filter (fun x => decide (key x ∉ first.map key)) = second := by
  rw [List.map_append, List.nodup_append] at distinct
  rw [List.filter_append, List.filter_eq_nil_iff.mpr, List.nil_append, List.filter_eq_self]
  · intro x here
    have apart : key x ∉ first.map key :=
      fun there => distinct.2.2 _ there _ (List.mem_map_of_mem here) rfl
    exact decide_eq_true apart
  · intro x here
    simpa using ⟨x, here, rfl⟩

variable (distinct : (items.map key).Nodup)
include distinct

theorem filter_front (n : Nat) :
    items.filter (fun x => decide (key x ∈ (front free items n).map key)) = front free items n :=
  filter_mem_keys ((List.take_sublist n _).trans List.filter_sublist) distinct

theorem leave_free (n : Nat) : (leave key free items n).filter free = (items.filter free).drop n := by
  have parts : front free items n ++ (items.filter free).drop n = items.filter free :=
    List.take_append_drop n _
  have own : ((front free items n ++ (items.filter free).drop n).map key).Nodup := by
    rw [parts]
    exact distinct.sublist (List.filter_sublist.map key)
  rw [leave, List.filter_comm]
  conv_lhs => rw [← parts]
  exact filter_not_mem_keys own

/-- The free item that is left and comes first. -/
theorem find_leave (n : Nat) : (leave key free items n).find? free = (items.filter free)[n]? := by
  rw [← List.head?_filter, leave_free distinct, List.head?_drop]

omit distinct

theorem leave_sublist {m n : Nat} (le : m ≤ n) :
    (leave key free items n).Sublist (leave key free items m) := by
  apply List.monotone_filter_right
  intro x here
  simp only [decide_eq_true_eq] at here ⊢
  exact fun there => here (((List.take_sublist_take_left le).map key).subset there)

/-- Where all free items are gone, what is left is not free. -/
theorem leave_all {n : Nat} (all : (items.filter free).length ≤ n) {x : α}
    (here : x ∈ leave key free items n) : free x = false := by
  obtain ⟨listed, absent⟩ := List.mem_filter.mp here
  rw [front, List.take_of_length_le all] at absent
  rw [Bool.eq_false_iff]
  intro isFree
  exact of_decide_eq_true absent (List.mem_map_of_mem (List.mem_filter.mpr ⟨listed, isFree⟩))

theorem front_succ {n : Nat} {x : α} (next : (items.filter free)[n]? = some x) :
    front free items (n + 1) = front free items n ++ [x] := by
  rw [front, front, List.take_add_one, next]
  rfl

end RepoForge.OldestFirst
