import Mathlib.Algebra.Order.BigOperators.Group.List
import Mathlib.Algebra.Order.Group.Defs
import Mathlib.Data.List.Induction
import Mathlib.Order.Basic
import Mathlib.Tactic.Abel

/-!
# Sliding windows

Events have a time and a count. A paced list admits each event only where the counts of the
window that ends with it leave room (`Paced`); then no window of that length, wherever it lies,
holds more than the limit (`Paced.total_within_le`).
-/
namespace RepoForge.SlidingWindow

variable {α T C : Type} [LinearOrder T] [AddCommMonoid C] (time : α → T) (count : α → C)

def total (events : List α) : C := (events.map count).sum

/-- The events that are not over by the time `from`. -/
def since (start : T) (events : List α) : List α := events.filter fun e => decide (start ≤ time e)

def within (start stop : T) (events : List α) : List α :=
  events.filter fun e => decide (start ≤ time e ∧ time e ≤ stop)

/-- Events in the order of their admission. -/
inductive Paced [Sub T] [LE C] (width : T) (limit : C) : List α → Prop where
  | nil : Paced width limit []
  | snoc {events : List α} {e : α} (earlier : Paced width limit events)
      (ordered : ∀ y ∈ events, time y ≤ time e)
      (room : total count (since time (time e - width) events) + count e ≤ limit) :
      Paced width limit (events ++ [e])

variable {time count} {start stop : T} {events more : List α}

theorem total_append : total count (events ++ more) = total count events + total count more := by
  simp [total]

theorem total_singleton {e : α} : total count [e] = count e := by simp [total]

theorem total_le_of_sublist [LinearOrder C] [IsOrderedAddMonoid C] (nonneg : ∀ e ∈ more, 0 ≤ count e) (sub : events.Sublist more) :
    total count events ≤ total count more := by
  induction sub with
  | slnil => exact le_refl _
  | cons x _ ih =>
    have rest := ih fun e here => nonneg e (List.mem_cons_of_mem _ here)
    simpa [total] using add_le_add (nonneg x (by simp)) rest
  | cons_cons x _ ih =>
    have rest := ih fun e here => nonneg e (List.mem_cons_of_mem _ here)
    simpa [total] using add_le_add_right rest (count x)

theorem since_append : since time start (events ++ more) =
    since time start events ++ since time start more := List.filter_append ..

theorem within_append : within time start stop (events ++ more) =
    within time start stop events ++ within time start stop more := List.filter_append ..

/-- A later start keeps no more. -/
theorem since_since {later : T} (after : start ≤ later) :
    since time later (since time start events) = since time later events := by
  simp only [since, List.filter_filter]
  apply List.filter_congr
  intro e _
  by_cases kept : later ≤ time e
  · simp [kept, after.trans kept]
  · simp [kept]

theorem within_sublist_since {later : T} (after : later ≤ start) :
    (within time start stop events).Sublist (since time later events) := by
  apply List.monotone_filter_right
  intro e here
  simp only [decide_eq_true_eq] at here ⊢
  exact after.trans here.1

/-- No window of the width holds more than the limit. -/
theorem Paced.total_within_le [AddCommGroup T] [IsOrderedAddMonoid T] [LinearOrder C]
    [IsOrderedAddMonoid C] {width : T} {limit : C} (paced : Paced time count width limit events) (positive : 0 ≤ limit)
    (nonneg : ∀ e ∈ events, 0 ≤ count e) (stop : T) :
    total count (within time (stop - width) stop events) ≤ limit := by
  induction paced with
  | nil => simpa [total, within] using positive
  | @snoc events e earlier ordered room ih =>
    have before : ∀ y ∈ events, 0 ≤ count y := fun y here => nonneg y (by simp [here])
    rw [within_append]
    by_cases inside : stop - width ≤ time e ∧ time e ≤ stop
    · have new : within time (stop - width) stop [e] = [e] :=
        List.filter_cons_of_pos (decide_eq_true inside)
      have sub : (within time (stop - width) stop events).Sublist
          (since time (time e - width) events) :=
        within_sublist_since (sub_le_sub_right inside.2 width)
      have counted : ∀ y ∈ since time (time e - width) events, 0 ≤ count y :=
        fun y here => before y (List.mem_of_mem_filter here)
      calc total count (within time (stop - width) stop events ++ within time (stop - width) stop [e])
          = total count (within time (stop - width) stop events) + count e := by
            rw [new, total_append, total_singleton]
        _ ≤ total count (since time (time e - width) events) + count e :=
            add_le_add (total_le_of_sublist counted sub) le_rfl
        _ ≤ limit := room
    · have new : within time (stop - width) stop [e] = [] :=
        List.filter_cons_of_neg (by simpa using inside)
      rw [new, List.append_nil]
      exact ih before

end RepoForge.SlidingWindow
