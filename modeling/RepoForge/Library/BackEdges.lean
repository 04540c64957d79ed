import Mathlib.Data.List.TakeWhile
import Mathlib.Logic.Relation
import RepoForge.Library.Topological

/-!
# Depth-first searches that record their back edges

A search with three marks: a node is new, on the stack, or done with. Where it meets a node that
is on the stack it records the part of the stack from there on; a node that is done with it
passes by. `arrivals` is a log of the nodes that it enters, each with the stack and the nodes
done with at that moment.

What is recorded is not every node on a cycle: `mem_found` says which ones are. A node is
recorded exactly if from it, through nodes that were new when the search entered it, one
comes back to it or to a node that was on the stack.
-/
namespace RepoForge.BackEdges
open Topological

variable {α : Type}

/-- A node that the search enters. -/
structure Arrival (α : Type) where
  node : α
  stack : List α
  done : List α
  deriving DecidableEq

/-- The stack has its top first. -/
structure Search (α : Type) where
  stack : List α
  done : List α
  found : List α
  arrivals : List (Arrival α)
  deriving DecidableEq

variable [DecidableEq α] (next : α → List α)

/-- The part of the stack from `x` on, the top first. -/
def slice (x : α) (stack : List α) : List α := stack.takeWhile (· ≠ x) ++ [x]

def visit : Nat → α → Search α → Search α
  | 0, _, s => s
  | fuel + 1, x, s =>
    if x ∈ s.done then s
    else if x ∈ s.stack then { s with found := slice x s.stack ++ s.found }
    else
      let after := (next x).foldl (fun s y => visit fuel y s)
        { s with
          stack := x :: s.stack
          arrivals := ⟨x, s.stack, s.done⟩ :: s.arrivals }
      { after with
        stack := s.stack
        done := x :: after.done }

/-- Every node is visited, in this order. -/
def search (nodes : List α) : Search α :=
  nodes.foldl (fun s x => visit next (nodes.length + 1) x s) ⟨[], [], [], []⟩

section Paths

omit [DecidableEq α]

def Leads (x y : α) : Prop := y ∈ next x

/-- A step to a node that was not met. -/
def New (met : List α) (x y : α) : Prop := y ∈ next x ∧ y ∉ met

/-- `x` was not met, and leads to `y` through nodes that were not. -/
def Opens (met : List α) (x y : α) : Prop := x ∉ met ∧ Relation.ReflTransGen (New next met) x y

/-- `x` leads to `w`, through nodes that were not met. -/
def Hits (met : List α) (x w : α) : Prop := x = w ∨ ∃ u, Opens next met x u ∧ w ∈ next u

/-- From the node that is entered, through nodes that are new then, one comes back to it or to
the stack. -/
def Arrival.Returns (a : Arrival α) : Prop :=
  ∃ w ∈ a.node :: a.stack, ∃ u,
    Relation.ReflTransGen (New next (a.node :: a.stack ++ a.done)) a.node u ∧ w ∈ next u

end Paths

section Paths

omit [DecidableEq α]

variable {next} {met met' : List α} {x y z w : α}

theorem New.mono (h : New next met' x y) (subset : met ⊆ met') : New next met x y :=
  ⟨h.1, fun old => h.2 (subset old)⟩

theorem Opens.mono (h : Opens next met' x y) (subset : met ⊆ met') : Opens next met x y :=
  ⟨fun old => h.1 (subset old), h.2.lift id fun _ _ step => step.mono subset⟩

theorem Hits.mono (h : Hits next met' x w) (subset : met ⊆ met') : Hits next met x w := by
  rcases h with same | ⟨u, opens, hit⟩
  · exact .inl same
  · exact .inr ⟨u, opens.mono subset, hit⟩

theorem Opens.tail (h : Opens next met x y) (step : New next met y z) : Opens next met x z :=
  ⟨h.1, h.2.tail step⟩

theorem Opens.not_mem (h : Opens next met x y) : y ∉ met := by
  obtain ⟨new, path⟩ := h
  cases path with
  | refl => exact new
  | tail _ last => exact last.2

/-- A path that does not come back to its first node. -/
theorem opens_iff : Opens next met x y ↔
    x ∉ met ∧ (y = x ∨ ∃ c ∈ next x, Opens next (x :: met) c y) := by
  constructor
  · rintro ⟨new, path⟩
    refine ⟨new, ?_⟩
    induction path with
    | refl => exact .inl rfl
    | @tail y z _ step ih =>
      by_cases back : z = x
      · exact .inl back
      · have fresh : z ∉ x :: met := by simp [back, step.2]
        rcases ih with rfl | ⟨c, child, opens⟩
        · exact .inr ⟨z, step.1, fresh, .refl⟩
        · exact .inr ⟨c, child, opens.tail ⟨step.1, fresh⟩⟩
  · rintro ⟨new, rfl | ⟨c, child, opens⟩⟩
    · exact ⟨new, .refl⟩
    · have first : New next met x c := ⟨child, fun old => opens.1 (List.mem_cons_of_mem _ old)⟩
      exact ⟨new, .head first (opens.mono (List.subset_cons_self x met)).2⟩

theorem hits_iff (new : x ∉ met) (hit : w ∈ met) :
    Hits next met x w ↔ ∃ c ∈ next x, Hits next (x :: met) c w := by
  constructor
  · rintro (rfl | ⟨u, opens, last⟩)
    · exact absurd hit new
    · obtain ⟨-, rfl | ⟨c, child, opens⟩⟩ := opens_iff.mp opens
      · exact ⟨w, last, .inl rfl⟩
      · exact ⟨c, child, .inr ⟨u, opens, last⟩⟩
  · rintro ⟨c, child, rfl | ⟨u, opens, last⟩⟩
    · exact .inr ⟨x, ⟨new, .refl⟩, child⟩
    · exact .inr ⟨u, opens_iff.mpr ⟨new, .inr ⟨c, child, opens⟩⟩, last⟩

/-- Where all that `x` opens has been met too, nothing is lost for the next one. -/
theorem Opens.after (grown : ∀ z, z ∈ met' ↔ z ∈ met ∨ Opens next met x z)
    (h : Opens next met y z) : Opens next met' y z ∨ Opens next met x z := by
  obtain ⟨new, path⟩ := h
  induction path with
  | refl =>
    by_cases reached : Opens next met x y
    · exact .inr reached
    · refine .inl ⟨?_, .refl⟩
      rw [grown]
      simp [new, reached]
  | @tail u z _ step ih =>
    rcases ih with opens | opens
    · by_cases reached : Opens next met x z
      · exact .inr reached
      · refine .inl (opens.tail ⟨step.1, ?_⟩)
        rw [grown]
        simp [step.2, reached]
    · exact .inr (opens.tail step)

theorem Hits.after (grown : ∀ z, z ∈ met' ↔ z ∈ met ∨ Opens next met x z)
    (h : Hits next met y w) : Hits next met' y w ∨ Hits next met x w := by
  rcases h with same | ⟨u, opens, hit⟩
  · exact .inl (.inl same)
  · rcases opens.after grown with opens | opens
    · exact .inl (.inr ⟨u, opens, hit⟩)
    · exact .inr (.inr ⟨u, opens, hit⟩)

end Paths

section Slices

variable {x y : α} {stack : List α}

/-- The stack from `x` on is that part of it above or at `x`. -/
theorem mem_slice (nodup : stack.Nodup) (here : x ∈ stack) :
    y ∈ slice x stack ↔ x ∈ stack.dropWhile (· ≠ y) := by
  induction stack with
  | nil => cases here
  | cons z rest ih =>
    obtain ⟨new, nodup⟩ := List.nodup_cons.mp nodup
    by_cases top : x = z
    · subst top
      have gone : x ∉ rest.dropWhile (· ≠ y) := fun later =>
        new ((List.dropWhile_suffix _).subset later)
      by_cases same : x = y
      · simp [slice, same]
      · simpa [slice, List.dropWhile_cons, same, Ne.symm same] using gone
    · have there : x ∈ rest := (List.mem_cons.mp here).resolve_left top
      have step : slice x (z :: rest) = z :: slice x rest := by
        simp [slice, Ne.symm top]
      by_cases same : z = y
      · subst same
        rw [step, List.dropWhile_cons_of_neg (by simp)]
        simp [there]
      · rw [step, List.mem_cons, or_iff_right (Ne.symm same), ih nodup there]
        simp [same]

theorem mem_of_dropWhile (h : x ∈ stack.dropWhile (· ≠ y)) : x ∈ stack :=
  (List.dropWhile_suffix _).subset h

theorem dropWhile_of_not_mem (h : y ∉ stack) : stack.dropWhile (· ≠ y) = [] := by
  apply List.dropWhile_eq_nil_iff.mpr
  intro x here
  have other : x ≠ y := fun same => h (same ▸ here)
  simpa using other

end Slices

section Visits

variable {next} {nodes xs : List α} {x : α} {s s' : Search α} {fresh : List (Arrival α)}

/-- What visits of `xs` leave behind; `fresh` are the nodes that they enter. -/
structure Visited (next : α → List α) (xs : List α) (s s' : Search α) (fresh : List (Arrival α)) :
    Prop where
  stack : s'.stack = s.stack
  arrivals : s'.arrivals = fresh ++ s.arrivals
  done : ∀ y, y ∈ s'.done ↔ y ∈ s.done ∨ ∃ x ∈ xs, Opens next (s.stack ++ s.done) x y
  entered : ∀ y, (∃ a ∈ fresh, a.node = y) ↔ ∃ x ∈ xs, Opens next (s.stack ++ s.done) x y
  found : ∀ y, y ∈ s'.found ↔ y ∈ s.found ∨
    (∃ x ∈ xs, ∃ w ∈ s.stack.dropWhile (· ≠ y), Hits next (s.stack ++ s.done) x w) ∨
    ∃ a ∈ fresh, a.node = y ∧ a.Returns next
  leads : ∀ a ∈ fresh, ∀ w ∈ a.stack, Relation.TransGen (Leads next) w a.node

/-- What a visit finds. -/
structure Ready (next : α → List α) (nodes : List α) (s : Search α) (x : α) : Prop where
  nodup : s.stack.Nodup
  subset : s.stack ⊆ nodes
  apart : ∀ y ∈ s.stack, y ∉ s.done
  leads : ∀ w ∈ s.stack, Relation.TransGen (Leads next) w x

omit [DecidableEq α] in
theorem grown_of {x : α} {D D' stack : List α}
    (done : ∀ y, y ∈ D' ↔ y ∈ D ∨ ∃ z ∈ [x], Opens next (stack ++ D) z y) (z : α) :
    z ∈ stack ++ D' ↔ z ∈ stack ++ D ∨ Opens next (stack ++ D) x z := by
  simp only [List.mem_append, done, List.mem_singleton, exists_eq_left, or_assoc]

/-- Visits one after the other. -/
theorem Visited.append {s'' : Search α} {later : List (Arrival α)}
    (h : Visited next [x] s s' fresh) (h' : Visited next xs s' s'' later) :
    Visited next (x :: xs) s s'' (later ++ fresh) := by
  have grown := grown_of h.done
  have old : s.stack ++ s.done ⊆ s.stack ++ s'.done := by
    intro z here
    exact (grown z).mpr (.inl here)
  have opens : ∀ y, (Opens next (s.stack ++ s.done) x y ∨
      ∃ z ∈ xs, Opens next (s'.stack ++ s'.done) z y) ↔
      ∃ z ∈ x :: xs, Opens next (s.stack ++ s.done) z y := by
    intro y
    rw [h.stack]
    constructor
    · rintro (here | ⟨z, member, there⟩)
      · exact ⟨x, List.mem_cons_self, here⟩
      · exact ⟨z, List.mem_cons_of_mem _ member, there.mono old⟩
    · rintro ⟨z, member, there⟩
      rcases List.mem_cons.mp member with rfl | member
      · exact .inl there
      · rcases there.after grown with there | here
        · exact .inr ⟨z, member, there⟩
        · exact .inl here
  have hits : ∀ y, ((∃ w ∈ s.stack.dropWhile (· ≠ y), Hits next (s.stack ++ s.done) x w) ∨
      ∃ z ∈ xs, ∃ w ∈ s'.stack.dropWhile (· ≠ y), Hits next (s'.stack ++ s'.done) z w) ↔
      ∃ z ∈ x :: xs, ∃ w ∈ s.stack.dropWhile (· ≠ y), Hits next (s.stack ++ s.done) z w := by
    intro y
    rw [h.stack]
    constructor
    · rintro (⟨w, below, here⟩ | ⟨z, member, w, below, there⟩)
      · exact ⟨x, List.mem_cons_self, w, below, here⟩
      · exact ⟨z, List.mem_cons_of_mem _ member, w, below, there.mono old⟩
    · rintro ⟨z, member, w, below, there⟩
      rcases List.mem_cons.mp member with rfl | member
      · exact .inl ⟨w, below, there⟩
      · rcases there.after grown with there | here
        · exact .inr ⟨z, member, w, below, there⟩
        · exact .inl ⟨w, below, here⟩
  refine ⟨h'.stack.trans h.stack, ?_, ?_, ?_, ?_, ?_⟩
  · rw [h'.arrivals, h.arrivals, List.append_assoc]
  · intro y
    rw [h'.done, h.done, or_assoc, ← opens]
    simp
  · intro y
    rw [← opens, ← h'.entered]
    have first := h.entered y
    simp only [List.mem_singleton, exists_eq_left] at first
    rw [← first]
    simp only [List.mem_append, or_and_right, exists_or]
    exact or_comm
  · intro y
    rw [h'.found, h.found, ← hits]
    simp only [List.mem_append, or_and_right, exists_or, List.mem_singleton, exists_eq_left]
    have shuffle : ∀ a b c d e : Prop,
        (a ∨ b ∨ c) ∨ d ∨ e ↔ a ∨ (b ∨ d) ∨ e ∨ c := by tauto
    exact shuffle _ _ _ _ _
  · intro a member
    rcases List.mem_append.mp member with later | early
    · exact h'.leads a later
    · exact h.leads a early

theorem Visited.nil : Visited next [] s s [] := by
  refine ⟨rfl, rfl, ?_, ?_, ?_, ?_⟩
  · simp
  · simp
  · simp
  · simp

omit [DecidableEq α] in
theorem hits_of_mem {met : List α} {w : α} (old : x ∈ met) : Hits next met x w ↔ x = w := by
  constructor
  · rintro (same | ⟨u, opens, -⟩)
    · exact same
    · exact absurd old opens.1
  · exact .inl

/-- A node that was met is not entered. -/
theorem Visited.passed (old : x ∈ s.stack ++ s.done) (stack : s'.stack = s.stack)
    (done : s'.done = s.done) (arrivals : s'.arrivals = s.arrivals)
    (found : ∀ y, y ∈ s'.found ↔ y ∈ s.found ∨ x ∈ s.stack.dropWhile (· ≠ y)) :
    Visited next [x] s s' [] := by
  have unopened : ∀ y, ¬ Opens next (s.stack ++ s.done) x y := fun y opens => opens.1 old
  refine ⟨stack, arrivals, ?_, ?_, ?_, ?_⟩
  · simp [done, unopened]
  · simp [unopened]
  · intro y
    simp [found, hits_of_mem old]
  · simp

omit [DecidableEq α] in
theorem Ready.enter (h : Ready next nodes s x) (node : x ∈ nodes) (closed_ : x ∉ s.stack)
    (new : x ∉ s.done) {y : α} (child : y ∈ next x) : Ready next nodes { s with
      stack := x :: s.stack
      arrivals := ⟨x, s.stack, s.done⟩ :: s.arrivals } y := by
  refine ⟨List.nodup_cons.mpr ⟨closed_, h.nodup⟩, List.cons_subset.mpr ⟨node, h.subset⟩, ?_, ?_⟩
  · intro z here
    rcases List.mem_cons.mp here with rfl | here
    · exact new
    · exact h.apart z here
  · intro w here
    rcases List.mem_cons.mp here with rfl | here
    · exact .single child
    · exact (h.leads w here).tail child

omit [DecidableEq α] in
theorem returns_iff {stack done : List α} : Arrival.Returns next ⟨x, stack, done⟩ ↔
    ∃ c ∈ next x, ∃ w ∈ x :: stack, Hits next (x :: (stack ++ done)) c w := by
  constructor
  · rintro ⟨w, here, u, path, last⟩
    rcases Relation.ReflTransGen.cases_head path with rfl | ⟨c, step, path⟩
    · exact ⟨w, last, w, here, .inl rfl⟩
    · exact ⟨c, step.1, w, here, .inr ⟨u, ⟨step.2, path⟩, last⟩⟩
  · rintro ⟨c, child, w, here, rfl | ⟨u, ⟨new, path⟩, last⟩⟩
    · exact ⟨c, here, x, .refl, child⟩
    · exact ⟨w, here, u, .head ⟨child, new⟩ path, last⟩

/-- A new node is entered, and all that it leads to is visited. -/
theorem Visited.enter {after : Search α} (h : Visited next (next x) { s with
      stack := x :: s.stack
      arrivals := ⟨x, s.stack, s.done⟩ :: s.arrivals } after fresh)
    (closed_ : x ∉ s.stack) (new : x ∉ s.done) (leads : ∀ w ∈ s.stack,
      Relation.TransGen (Leads next) w x) :
    Visited next [x] s { after with
      stack := s.stack
      done := x :: after.done } (fresh ++ [⟨x, s.stack, s.done⟩]) := by
  have unmet : x ∉ s.stack ++ s.done := by simp [closed_, new]
  have opens : ∀ y, Opens next (s.stack ++ s.done) x y ↔
      y = x ∨ ∃ c ∈ next x, Opens next (x :: s.stack ++ s.done) c y := by
    intro y
    rw [opens_iff, and_iff_right unmet, List.cons_append]
  refine ⟨rfl, ?_, ?_, ?_, ?_, ?_⟩
  · simp [h.arrivals]
  · intro y
    rw [List.mem_cons, h.done]
    simp only [List.mem_singleton, exists_eq_left, opens]
    exact or_left_comm
  · intro y
    have first := h.entered y
    simp only [List.mem_append, or_and_right, exists_or, List.mem_singleton, exists_eq_left, first,
      opens]
    rw [or_comm, eq_comm]
  · intro y
    rw [h.found]
    simp only [List.mem_append, or_and_right, exists_or, List.mem_singleton, exists_eq_left]
    by_cases own : x = y
    · subst own
      rw [dropWhile_of_not_mem closed_, List.dropWhile_cons_of_neg (by simp), List.cons_append,
        ← returns_iff]
      simp only [List.not_mem_nil, false_and, exists_false, false_or, true_and]
      rw [or_comm (b := Arrival.Returns next _)]
    · have below : ∀ w ∈ s.stack.dropWhile (· ≠ y), Hits next (s.stack ++ s.done) x w ↔
          ∃ c ∈ next x, Hits next (x :: s.stack ++ s.done) c w := fun w here =>
        hits_iff unmet (List.mem_append_left _ (mem_of_dropWhile here))
      have hits : (∃ c ∈ next x, ∃ w ∈ (x :: s.stack).dropWhile (· ≠ y),
          Hits next (x :: s.stack ++ s.done) c w) ↔
          ∃ w ∈ s.stack.dropWhile (· ≠ y), Hits next (s.stack ++ s.done) x w := by
        rw [List.dropWhile_cons_of_pos (by simpa using own)]
        constructor
        · rintro ⟨c, child, w, here, hit⟩
          exact ⟨w, here, (below w here).mpr ⟨c, child, hit⟩⟩
        · rintro ⟨w, here, hit⟩
          obtain ⟨c, child, hit⟩ := (below w here).mp hit
          exact ⟨c, child, w, here, hit⟩
      rw [hits]
      simp only [own, false_and, or_false]
  · intro a member
    rcases List.mem_append.mp member with later | own
    · exact h.leads a later
    · obtain rfl : a = ⟨x, s.stack, s.done⟩ := by simpa using own
      exact leads

theorem foldl_visited {f : Search α → α → Search α} {stack : List α}
    (each : ∀ x ∈ xs, ∀ s : Search α, s.stack = stack → Ready next nodes s x →
      ∃ fresh, Visited next [x] s (f s x) fresh)
    (here : s.stack = stack) (ready : ∀ x ∈ xs, Ready next nodes s x) :
    ∃ fresh, Visited next xs s (xs.foldl f s) fresh := by
  induction xs generalizing s with
  | nil => exact ⟨[], Visited.nil⟩
  | cons x rest ih =>
    obtain ⟨fresh, first⟩ := each x List.mem_cons_self s here (ready x List.mem_cons_self)
    have readied : ∀ y ∈ rest, Ready next nodes (f s x) y := by
      intro y member
      obtain ⟨nodup, subset, apart, leads⟩ := ready y (List.mem_cons_of_mem _ member)
      refine ⟨first.stack ▸ nodup, first.stack ▸ subset, ?_, first.stack ▸ leads⟩
      intro z here done
      rw [first.stack] at here
      rcases (first.done z).mp done with old | ⟨u, -, opens⟩
      · exact apart z here old
      · exact opens.not_mem (List.mem_append_left _ here)
    obtain ⟨later, rest⟩ := ih (fun y member => each y (List.mem_cons_of_mem _ member))
      (first.stack.trans here) readied
    exact ⟨later ++ fresh, first.append rest⟩

theorem visit_spec (closed : ∀ x ∈ nodes, next x ⊆ nodes) {fuel : Nat}
    (enough : nodes.length < fuel + s.stack.length) (node : x ∈ nodes)
    (ready : Ready next nodes s x) : ∃ fresh, Visited next [x] s (visit next fuel x s) fresh := by
  induction fuel generalizing x s with
  | zero =>
    have few := DepthFirst.length_le_of_nodup ready.nodup ready.subset
    omega
  | succ fuel ih =>
    by_cases done : x ∈ s.done
    · refine ⟨[], ?_⟩
      have same : visit next (fuel + 1) x s = s := by simp [visit, done]
      rw [same]
      refine Visited.passed (List.mem_append_right _ done) rfl rfl rfl fun y => ?_
      refine ⟨.inl, fun h => h.resolve_right fun here => ?_⟩
      exact ready.apart x (mem_of_dropWhile here) done
    · by_cases open_ : x ∈ s.stack
      · refine ⟨[], ?_⟩
        have same : visit next (fuel + 1) x s = { s with found := slice x s.stack ++ s.found } := by
          simp [visit, done, open_]
        rw [same]
        refine Visited.passed (List.mem_append_left _ open_) rfl rfl rfl fun y => ?_
        rw [List.mem_append, mem_slice ready.nodup open_]
        exact or_comm
      · have children : ∀ y ∈ next x, Ready next nodes { s with
            stack := x :: s.stack
            arrivals := ⟨x, s.stack, s.done⟩ :: s.arrivals } y := fun y child =>
          ready.enter node open_ done child
        obtain ⟨fresh, inner⟩ := @foldl_visited _ _ _ nodes _ _ (fun s y => visit next fuel y s) _
          (fun y child s' same ready' => ih (by rw [same, List.length_cons]; omega)
            (closed x node child) ready') rfl children
        have entered : visit next (fuel + 1) x s = { (next x).foldl (fun s y => visit next fuel y s)
            { s with
              stack := x :: s.stack
              arrivals := ⟨x, s.stack, s.done⟩ :: s.arrivals } with
            stack := s.stack
            done := x :: ((next x).foldl (fun s y => visit next fuel y s)
              { s with
                stack := x :: s.stack
                arrivals := ⟨x, s.stack, s.done⟩ :: s.arrivals }).done } := by
          simp [visit, done, open_]
        rw [entered]
        exact ⟨_, inner.enter open_ done ready.leads⟩

end Visits

section Searches

variable {next} {nodes : List α} {x : α}

theorem search_visited (closed : ∀ x ∈ nodes, next x ⊆ nodes) :
    Visited next nodes ⟨[], [], [], []⟩ (search next nodes) (search next nodes).arrivals := by
  have each : ∀ x ∈ nodes, ∀ s : Search α, s.stack = [] → Ready next nodes s x →
      ∃ fresh, Visited next [x] s (visit next (nodes.length + 1) x s) fresh := by
    intro x node s empty ready
    refine visit_spec closed ?_ node ready
    simp [empty]
  obtain ⟨fresh, visited⟩ := @foldl_visited _ _ _ nodes nodes
    ⟨[], [], [], []⟩ _ _ each rfl fun x _ => ⟨List.nodup_nil, by simp, by simp, by simp⟩
  have all : (search next nodes).arrivals = fresh := visited.arrivals.trans (List.append_nil _)
  rw [all]
  exact visited

/-- The nodes that the search records. -/
theorem mem_found (closed : ∀ x ∈ nodes, next x ⊆ nodes) : x ∈ (search next nodes).found ↔
    ∃ a ∈ (search next nodes).arrivals, a.node = x ∧ a.Returns next := by
  simpa using (search_visited closed).found x

/-- What is recorded lies on a cycle. -/
theorem Arrival.Returns.cyclic (closed : ∀ x ∈ nodes, next x ⊆ nodes) {a : Arrival α}
    (member : a ∈ (search next nodes).arrivals) (h : a.Returns next) :
    Relation.TransGen (Leads next) a.node a.node := by
  obtain ⟨w, here, u, path, last⟩ := h
  have round : Relation.TransGen (Leads next) a.node w :=
    .tail' (path.lift id fun _ _ step => step.1) last
  rcases List.mem_cons.mp here with rfl | below
  · exact round
  · exact round.trans ((search_visited closed).leads a member w below)

/-- Exactly the nodes on cycles are recorded where each of them leads back to the stack that it
was entered with, or to itself, through nodes that were new then. -/
theorem found_exact_iff (closed : ∀ x ∈ nodes, next x ⊆ nodes) :
    (∀ x, x ∈ (search next nodes).found ↔ Relation.TransGen (Leads next) x x) ↔
      ∀ x, Relation.TransGen (Leads next) x x →
        ∃ a ∈ (search next nodes).arrivals, a.node = x ∧ a.Returns next := by
  constructor
  · intro exact_ x cyclic
    exact (mem_found closed).mp ((exact_ x).mpr cyclic)
  · intro returns x
    rw [mem_found closed]
    constructor
    · rintro ⟨a, member, rfl, back⟩
      exact back.cyclic closed member
    · exact returns x

end Searches

end RepoForge.BackEdges
