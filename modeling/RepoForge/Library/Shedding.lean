import Mathlib.Data.List.Basic
import Mathlib.Data.List.Perm.Basic

/-!
# Shedding in order

Items go one after another, in an order that is given, until what is left of them fits. The number
that goes is the least for which the rest fits (`fits_count`, `not_fits_of_lt`), and it does not
grow where more fits (`count_le_of_imp`).
-/
namespace RepoForge.Shedding

variable {α : Type} [BEq α]

/-- How many items go. -/
def count (fits : List α → Bool) : List α → List α → Nat
  | _, [] => 0
  | items, next :: order => if fits items then 0 else count fits (items.erase next) order + 1

/-- What is left after the first `n` went. -/
def left (items order : List α) (n : Nat) : List α := items.diff (order.take n)

variable {fits fits' : List α → Bool} {items order more : List α} {n : Nat} {x : α}

@[simp] theorem left_zero : left items order 0 = items := rfl

theorem count_cons : count fits items (x :: order) =
    if fits items then 0 else count fits (items.erase x) order + 1 := rfl

theorem count_le : count fits items order ≤ order.length := by
  induction order generalizing items with
  | nil => exact Nat.le_refl _
  | cons x order ih =>
    rw [count_cons]
    split
    · exact Nat.zero_le _
    · exact Nat.succ_le_succ ih

theorem count_append_of_lt (stopped : count fits items order < order.length) :
    count fits items (order ++ more) = count fits items order := by
  induction order generalizing items with
  | nil => exact absurd stopped (Nat.not_lt_zero _)
  | cons x order ih =>
    rw [List.cons_append, count_cons, count_cons]
    split
    · rfl
    · rename_i full
      rw [count_cons, if_neg full] at stopped
      rw [ih (Nat.lt_of_succ_lt_succ stopped)]

theorem left_append_of_le (within : n ≤ order.length) :
    left items (order ++ more) n = left items order n := by
  rw [left, left, List.take_append_of_le_length within]

variable [LawfulBEq α]

theorem left_succ : left items (x :: order) (n + 1) = left (items.erase x) order n := by
  rw [left, left, List.take_succ_cons, List.diff_cons]

theorem fits_of_count_lt (stopped : count fits items order < order.length) :
    fits (left items order (count fits items order)) = true := by
  induction order generalizing items with
  | nil => exact absurd stopped (Nat.not_lt_zero _)
  | cons x order ih =>
    rw [count_cons] at stopped ⊢
    split
    · assumption
    · rename_i full
      rw [if_neg full] at stopped
      rw [left_succ]
      exact ih (Nat.lt_of_succ_lt_succ stopped)

theorem fits_count (all : fits (items.diff order) = true) :
    fits (left items order (count fits items order)) = true := by
  induction order generalizing items with
  | nil => exact all
  | cons x order ih =>
    rw [count_cons]
    split
    · assumption
    · rw [left_succ]
      exact ih (by rwa [List.diff_cons] at all)

theorem not_fits_of_lt (below : n < count fits items order) :
    fits (left items order n) = false := by
  induction order generalizing items n with
  | nil => exact absurd below (Nat.not_lt_zero _)
  | cons x order ih =>
    rw [count_cons] at below
    split at below
    · exact absurd below (Nat.not_lt_zero _)
    · rename_i full
      cases n with
      | zero => simpa using full
      | succ n =>
        rw [left_succ]
        exact ih (Nat.lt_of_succ_lt_succ below)

/-- The least number is the one that `count` finds. -/
theorem count_le_of_fits (enough : fits (left items order n) = true) :
    count fits items order ≤ n := by
  by_contra more
  rw [not_fits_of_lt (Nat.lt_of_not_le more)] at enough
  cases enough

theorem count_le_of_imp (wider : ∀ items, fits items = true → fits' items = true)
    (all : fits (items.diff order) = true) :
    count fits' items order ≤ count fits items order :=
  count_le_of_fits (wider _ (fits_count all))

theorem left_sublist_left {m : Nat} (le : m ≤ n) :
    (left items order n).Sublist (left items order m) := by
  obtain ⟨more, rfl⟩ := Nat.exists_eq_add_of_le le
  rw [left, List.take_add, List.diff_append]
  exact List.diff_sublist ..

theorem count_append_of_eq (through : count fits items order = order.length) :
    count fits items (order ++ more) = order.length + count fits (items.diff order) more := by
  induction order generalizing items with
  | nil => simp
  | cons x order ih =>
    rw [count_cons] at through
    split at through
    · cases through
    · rename_i full
      rw [List.cons_append, count_cons, if_neg full, ih (Nat.succ.inj through), List.diff_cons,
        List.length_cons]
      omega

theorem left_append_length :
    left items (order ++ more) (order.length + n) = left (items.diff order) more n := by
  rw [left, left, List.take_length_add_append, List.diff_append]

/-- What is left and what went are the items. -/
theorem left_append_perm (perm : order.Perm items) :
    (left items order n ++ order.take n).Perm items := by
  have sub : (order.take n).Subperm items :=
    (List.take_sublist n order).subperm.trans perm.subperm
  exact List.perm_append_comm.trans (List.subperm_append_diff_self_of_count_le
    (List.subperm_ext_iff.mp sub))

end RepoForge.Shedding
