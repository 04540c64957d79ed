import Mathlib.Data.Fintype.List
import Mathlib.Data.List.Infix
import Mathlib.Data.List.Perm.Subperm
import Mathlib.Logic.Relation
import Mathlib.Order.Preorder.Finite
import Mathlib.Order.WellFounded

/-!
# Orders of a dependency relation

`deps x` are the things that must come before `x`. An order in which they do
(`DependenciesFirst`) exists exactly where the relation has no cycle, since then some member of
every nonempty list has no dependency left in it (`exists_ready`). Of all such orders the least one
(`Least`) takes, at every place, the smallest of what is ready; it is determined by the members
and their dependencies alone (`Least.unique`) and stops early exactly on a cycle
(`Least.complete_iff`).
-/
namespace RepoForge.Topological

variable {α : Type} (deps : α → List α)

/-- `d` comes before `x`. -/
def Needs (d x : α) : Prop := d ∈ deps x

def Cyclic : Prop := ∃ x, Relation.TransGen (Needs deps) x x

def DependenciesFirst (order : List α) : Prop :=
  ∀ before x after, order = before ++ x :: after → ∀ d ∈ deps x, d ∈ before

variable {deps} {order : List α} {x y : α}

theorem dependenciesFirst_nil : DependenciesFirst deps [] := by
  intro before x after split
  simp at split

theorem dependenciesFirst_concat : DependenciesFirst deps (order ++ [x]) ↔
    DependenciesFirst deps order ∧ ∀ d ∈ deps x, d ∈ order := by
  constructor
  · intro h
    constructor
    · intro before y after split
      exact h before y (after ++ [x]) (by simp [split])
    · exact h order x [] rfl
  · intro h before y after split
    rcases List.eq_nil_or_concat after with rfl | ⟨after, z, rfl⟩
    · obtain ⟨rfl, same⟩ := List.append_inj' split rfl
      obtain rfl : x = y := by simpa using same
      exact h.2
    · rw [List.concat_eq_append, ← List.cons_append, ← List.append_assoc] at split
      exact h.1 before y after (List.append_inj' split rfl).1

/-- A layer of members whose dependencies have all come. -/
theorem DependenciesFirst.append {layer : List α} (h : DependenciesFirst deps order)
    (met : ∀ x ∈ layer, ∀ d ∈ deps x, d ∈ order) : DependenciesFirst deps (order ++ layer) := by
  induction layer generalizing order with
  | nil => simpa using h
  | cons x rest ih =>
    rw [List.append_cons]
    refine ih (dependenciesFirst_concat.mpr ⟨h, met x (by simp)⟩) fun y here d needed => ?_
    exact List.mem_append_left _ (met y (by simp [here]) d needed)

theorem DependenciesFirst.acc (h : DependenciesFirst deps order) (here : x ∈ order) :
    Acc (Needs deps) x := by
  induction order using List.reverseRecOn generalizing x with
  | nil => cases here
  | append_singleton order last ih =>
    obtain ⟨earlier, met⟩ := dependenciesFirst_concat.mp h
    rcases List.mem_append.mp here with here | here
    · exact ih earlier here
    · obtain rfl : x = last := by simpa using here
      exact ⟨x, fun d needed => ih earlier (met d needed)⟩

theorem not_cyclic_of_acc (h : ∀ x, Acc (Needs deps) x) : ¬ Cyclic deps := by
  rintro ⟨x, round⟩
  have founded : WellFounded (Relation.TransGen (Needs deps)) := (WellFounded.intro h).transGen
  exact founded.irrefl.irrefl x round

/-- Where the order has every member with dependencies, there is no cycle. -/
theorem DependenciesFirst.not_cyclic (h : DependenciesFirst deps order)
    (complete : ∀ x, deps x ≠ [] → x ∈ order) : ¬ Cyclic deps := by
  refine not_cyclic_of_acc fun x => ?_
  by_cases none : deps x = []
  · exact ⟨x, fun d needed => by simp [Needs, none] at needed⟩
  · exact h.acc (complete x none)

/-- A relation without a cycle has a least member in every nonempty list. -/
theorem exists_least {r : α → α → Prop} (acyclic : ∀ x, ¬ Relation.TransGen r x x) {left : List α}
    (some : left ≠ []) : ∃ x ∈ left, ∀ y ∈ left, ¬ r y x := by
  let below (y x : { x // x ∈ left }) : Prop := Relation.TransGen r y.1 x.1
  have transitive : IsTrans { x // x ∈ left } below :=
    ⟨fun _ _ _ first second => first.trans second⟩
  have irreflexive : Std.Irrefl below := ⟨fun x round => acyclic x.1 round⟩
  have finite : Finite { x // x ∈ left } := List.finite_toSet left
  have founded : WellFounded below := Finite.wellFounded_of_trans_of_irrefl below
  obtain ⟨first, here⟩ := List.exists_mem_of_ne_nil left some
  obtain ⟨least, -, minimal⟩ := founded.has_min Set.univ ⟨⟨first, here⟩, trivial⟩
  exact ⟨least.1, least.2, fun y inside under => minimal ⟨y, inside⟩ trivial (.single under)⟩

/-- Without a cycle, some member of a nonempty list has no dependency in it. -/
theorem exists_ready (acyclic : ¬ Cyclic deps) {left : List α} (some : left ≠ []) :
    ∃ x ∈ left, ∀ d ∈ deps x, d ∉ left := by
  obtain ⟨x, here, least⟩ := exists_least (fun x round => acyclic ⟨x, round⟩) some
  exact ⟨x, here, fun d needed inside => least d inside needed⟩

/-- Where everything but one member is needed by some member, that one needs all the others. -/
theorem reaches_of_needed (acyclic : ¬ Cyclic deps) {nodes : List α} {top : α}
    (needed : ∀ x ∈ nodes, x ≠ top → ∃ y ∈ nodes, x ∈ deps y) :
    ∀ x ∈ nodes, x ≠ top → Relation.TransGen (Needs deps) x top := by
  classical
  let stray (x : α) : Prop := x ≠ top ∧ ¬ Relation.TransGen (Needs deps) x top
  by_contra! h
  obtain ⟨x, here, other, apart⟩ := h
  have acyclic' : ∀ x, ¬ Relation.TransGen (Function.swap (Needs deps)) x x :=
    fun x round => acyclic ⟨x, Relation.transGen_swap.mp round⟩
  have some : nodes.filter stray ≠ [] :=
    List.ne_nil_of_mem (List.mem_filter.mpr ⟨here, by simp [stray, other, apart]⟩)
  obtain ⟨last, inside, greatest⟩ := exists_least acyclic' some
  obtain ⟨node, strays⟩ := List.mem_filter.mp inside
  obtain ⟨distinct, unreached⟩ : stray last := by simpa using strays
  obtain ⟨y, member, needs⟩ := needed last node distinct
  -- What needs a stray member is stray itself: it is not the top, and does not reach it.
  have next : stray y := by
    constructor
    · rintro rfl
      exact unreached (.single needs)
    · intro reached
      exact unreached (.head needs reached)
  exact greatest y (List.mem_filter.mpr ⟨member, by simpa using next⟩) needs

/-- What a member needs, however far, is needed by some member. -/
theorem needed_of_reaches {top : α} (h : Relation.TransGen (Needs deps) x top) :
    ∃ y, x ∈ deps y ∧ Relation.ReflTransGen (Needs deps) y top := by
  obtain ⟨y, first, rest⟩ := Relation.TransGen.head'_iff.mp h
  exact ⟨y, first, rest⟩

/-! ### The least order -/

section Least

variable (deps) (nodes : List α)

/-- `x` may come after `before`. -/
structure Ready (before : List α) (x : α) : Prop where
  node : x ∈ nodes
  fresh : x ∉ before
  met : ∀ d ∈ deps x, d ∈ before

/-- At every place the smallest of what is ready. -/
def Greedy [LE α] (order : List α) : Prop :=
  ∀ before x after, order = before ++ x :: after →
    Ready deps nodes before x ∧ ∀ y, Ready deps nodes before y → x ≤ y

/-- And it goes on until nothing is. -/
structure Least [LE α] (order : List α) : Prop where
  greedy : Greedy deps nodes order
  ended : ∀ x, ¬ Ready deps nodes order x

variable {deps nodes} {nodes' order' before : List α}

theorem Ready.congr (same : ∀ x, x ∈ nodes ↔ x ∈ nodes') (h : Ready deps nodes before x) :
    Ready deps nodes' before x :=
  ⟨(same x).mp h.node, h.fresh, h.met⟩

theorem Least.congr [LE α] (same : ∀ x, x ∈ nodes ↔ x ∈ nodes') (h : Least deps nodes order) :
    Least deps nodes' order := by
  have back : ∀ x, x ∈ nodes' ↔ x ∈ nodes := fun x => (same x).symm
  refine ⟨fun before x after split => ?_, fun x ready => h.ended x (ready.congr back)⟩
  obtain ⟨ready, least⟩ := h.greedy before x after split
  exact ⟨ready.congr same, fun y other => least y (other.congr back)⟩

theorem Greedy.concat [LE α] (h : Greedy deps nodes order) (ready : Ready deps nodes order x)
    (least : ∀ y, Ready deps nodes order y → x ≤ y) : Greedy deps nodes (order ++ [x]) := by
  intro before y after split
  rcases List.eq_nil_or_concat after with rfl | ⟨after, z, rfl⟩
  · obtain ⟨rfl, same⟩ := List.append_inj' split rfl
    obtain rfl : x = y := by simpa using same
    exact ⟨ready, least⟩
  · rw [List.concat_eq_append, ← List.cons_append, ← List.append_assoc] at split
    exact h before y after (List.append_inj' split rfl).1

theorem Greedy.dependenciesFirst [LE α] (h : Greedy deps nodes order) :
    DependenciesFirst deps order :=
  fun before x after split => (h before x after split).1.met

theorem Greedy.subset [LE α] (h : Greedy deps nodes order) : order ⊆ nodes := by
  intro x here
  obtain ⟨before, after, split⟩ := List.append_of_mem here
  exact (h before x after split).1.node

theorem Greedy.nodup [LE α] (h : Greedy deps nodes order) : order.Nodup := by
  rw [List.nodup_iff_sublist]
  intro x twice
  obtain ⟨before, rest, split, first, later⟩ := List.cons_sublist_iff.mp twice
  obtain ⟨middle, after, rfl⟩ := List.append_of_mem (List.singleton_sublist.mp later)
  exact (h (before ++ middle) x after (by simp [split])).1.fresh (List.mem_append_left _ first)

/-- What needs something that has not come has not come. -/
theorem DependenciesFirst.absent (h : DependenciesFirst deps order) {d : α} (needed : d ∈ deps x)
    (fresh : d ∉ order) : x ∉ order := by
  intro here
  obtain ⟨before, after, split⟩ := List.append_of_mem here
  exact fresh (split ▸ List.mem_append_left _ (h before x after split d needed))

/-- The members and their dependencies determine it. -/
theorem Least.unique [PartialOrder α] (h : Least deps nodes order)
    (h' : Least deps nodes order') : order = order' := by
  suffices ∀ before rest rest', order = before ++ rest → order' = before ++ rest' →
      rest = rest' by
    exact this [] order order' rfl rfl
  intro before rest
  induction rest generalizing before with
  | nil =>
    intro rest' split split'
    cases rest' with
    | nil => rfl
    | cons y rest' =>
      have ready := (h'.greedy before y rest' split').1
      rw [← List.append_nil before, ← split] at ready
      exact absurd ready (h.ended y)
  | cons x rest ih =>
    intro rest' split split'
    obtain ⟨ready, least⟩ := h.greedy before x rest split
    cases rest' with
    | nil =>
      rw [← List.append_nil before, ← split'] at ready
      exact absurd ready (h'.ended x)
    | cons y rest' =>
      obtain ⟨ready', least'⟩ := h'.greedy before y rest' split'
      obtain rfl : x = y := le_antisymm (least y ready') (least' x ready)
      rw [ih (before ++ [x]) rest' (by simp [split]) (by simp [split'])]

/-- It stops early exactly on a cycle. -/
theorem Least.complete_iff [LE α] (h : Least deps nodes order)
    (declared : ∀ x, deps x ≠ [] → x ∈ nodes) (known : ∀ x, ∀ d ∈ deps x, d ∈ nodes) :
    (∀ x ∈ nodes, x ∈ order) ↔ ¬ Cyclic deps := by
  classical
  constructor
  · intro complete
    exact h.greedy.dependenciesFirst.not_cyclic fun x some => complete x (declared x some)
  · intro acyclic
    by_contra! missing
    obtain ⟨y, node, absent⟩ := missing
    have some : nodes.filter (· ∉ order) ≠ [] :=
      List.ne_nil_of_mem (List.mem_filter.mpr ⟨node, by simpa using absent⟩)
    obtain ⟨x, left, ready⟩ := exists_ready acyclic some
    obtain ⟨member, outside⟩ := List.mem_filter.mp left
    refine h.ended x ⟨member, by simpa using outside, fun d needed => ?_⟩
    by_contra absent
    exact ready d needed (List.mem_filter.mpr ⟨known x d needed, by simpa using absent⟩)

end Least

end RepoForge.Topological

/-!
# Depth-first searches

`visit` looks for a cycle with two marks, the members being visited and those done with; a member
met again while it is being visited closes a cycle. `collect` gathers what a member needs, however
far. Both recurse along `deps`, with one unit of fuel more than there are members, which is
enough (`visits_spec`, `mem_collect`).
-/
namespace RepoForge.DepthFirst
open Topological

variable {α : Type}

structure Marks (α : Type) where
  visiting : List α
  visited : List α

/-- `any` of the visits, which stops at the first that meets a cycle. -/
def anyVisit (visit : α → Marks α → Option (Bool × Marks α)) :
    List α → Marks α → Option (Bool × Marks α)
  | [], marks => some (false, marks)
  | x :: rest, marks => do
    let (found, marks) ← visit x marks
    if found then some (true, marks) else anyVisit visit rest marks

variable (deps : α → List α)

section Searches

variable [DecidableEq α]

def visit : Nat → α → Marks α → Option (Bool × Marks α)
  | 0, _, _ => none
  | fuel + 1, x, marks =>
    if x ∈ marks.visiting then some (true, marks)
    else if x ∈ marks.visited then some (false, marks)
    else do
      let (found, marks) ←
        anyVisit (visit fuel) (deps x) { marks with visiting := x :: marks.visiting }
      some (found, { visiting := marks.visiting.erase x, visited := marks.visited ++ [x] })

/-- Whether one of the visits meets a cycle. -/
def visits (nodes : List α) : Option Bool :=
  (anyVisit (visit deps (nodes.length + 1)) nodes ⟨[], []⟩).map Prod.fst

/-- Adds what `x` needs, however far, to what is found already. -/
def collect : Nat → α → List α → List α
  | 0, _, found => found
  | fuel + 1, x, found =>
    (deps x).foldl (fun found d => if d ∈ found then found else collect fuel d (found ++ [d])) found

end Searches

/-! ### Cycles -/

/-- What visits of `xs` leave behind. -/
structure Visited (xs : List α) (marks : Marks α) (result : Bool × Marks α) : Prop where
  visiting : result.2.visiting = marks.visiting
  grows : marks.visited ⊆ result.2.visited
  cyclic : result.1 = true → Cyclic deps
  ordered : result.1 = false → DependenciesFirst deps marks.visited →
    DependenciesFirst deps result.2.visited
  done : result.1 = false → ∀ x ∈ xs, x ∈ result.2.visited

/-- The members being visited lead to `x`. -/
structure Trail (nodes visiting : List α) (x : α) : Prop where
  nodup : visiting.Nodup
  subset : visiting ⊆ nodes
  leads : ∀ y ∈ visiting, Relation.TransGen (Needs deps) x y

variable {deps} {nodes visiting found : List α} {x : α} {marks : Marks α}

theorem length_le_of_nodup {xs : List α} (nodup : xs.Nodup) (subset : xs ⊆ nodes) :
    xs.length ≤ nodes.length :=
  (List.subperm_of_subset nodup subset).length_le

theorem anyVisit_spec {f : α → Marks α → Option (Bool × Marks α)} {xs : List α}
    (each : ∀ x ∈ xs, ∀ marks : Marks α, marks.visiting = visiting →
      ∃ result, f x marks = some result ∧ Visited deps [x] marks result)
    (here : marks.visiting = visiting) :
    ∃ result, anyVisit f xs marks = some result ∧ Visited deps xs marks result := by
  induction xs generalizing marks with
  | nil =>
    refine ⟨(false, marks), rfl, rfl, fun _ h => h, by simp, fun _ h => h, by simp⟩
  | cons x rest ih =>
    obtain ⟨⟨found, after⟩, visited, first⟩ := each x (by simp) marks here
    cases found with
    | true =>
      refine ⟨(true, after), by simp [anyVisit, visited], first.visiting, first.grows,
        fun _ => first.cyclic rfl, ?_, ?_⟩ <;> simp
    | false =>
      obtain ⟨result, rest_visited, later⟩ := ih (fun y inside => each y (by simp [inside]))
        (first.visiting.trans here)
      refine ⟨result, by simp [anyVisit, visited, rest_visited],
        later.visiting.trans first.visiting, List.Subset.trans first.grows later.grows,
        later.cyclic, ?_, ?_⟩
      · intro none before
        exact later.ordered none (first.ordered rfl before)
      · intro none y inside
        rcases List.mem_cons.mp inside with rfl | inside
        · exact later.grows (first.done rfl y (by simp))
        · exact later.done none y inside

theorem Trail.next (trail : Trail deps nodes visiting x) (node : x ∈ nodes) (fresh : x ∉ visiting)
    {y : α} (child : y ∈ deps x) : Trail deps nodes (x :: visiting) y := by
  refine ⟨List.nodup_cons.mpr ⟨fresh, trail.nodup⟩, by simp [node, trail.subset], ?_⟩
  intro z inside
  rcases List.mem_cons.mp inside with rfl | inside
  · exact .single child
  · exact .head child (trail.leads z inside)

variable [DecidableEq α]

theorem visit_spec (closed : ∀ x ∈ nodes, ∀ d ∈ deps x, d ∈ nodes) {fuel : Nat}
    (enough : nodes.length < fuel + marks.visiting.length) (node : x ∈ nodes)
    (trail : Trail deps nodes marks.visiting x) :
    ∃ result, visit deps fuel x marks = some result ∧ Visited deps [x] marks result := by
  induction fuel generalizing x marks with
  | zero =>
    have few := length_le_of_nodup trail.nodup trail.subset
    omega
  | succ fuel ih =>
    by_cases open_ : x ∈ marks.visiting
    · refine ⟨(true, marks), by simp [visit, open_], rfl, fun _ h => h, fun _ => ?_, ?_, ?_⟩
      · exact ⟨x, trail.leads x open_⟩
      · simp
      · simp
    · by_cases done : x ∈ marks.visited
      · refine ⟨(false, marks), by simp [visit, open_, done], rfl, fun _ h => h, by simp,
          fun _ h => h, by simp [done]⟩
      · have children : ∀ y ∈ deps x, ∀ marks' : Marks α,
            marks'.visiting = x :: marks.visiting →
            ∃ result, visit deps fuel y marks' = some result ∧ Visited deps [y] marks' result := by
          intro y child marks' same
          refine ih ?_ (closed x node y child) ?_
          · rw [same, List.length_cons]
            omega
          · rw [same]
            exact trail.next node open_ child
        obtain ⟨⟨found, after⟩, visited, inner⟩ := anyVisit_spec children
          (show Marks.visiting { marks with visiting := x :: marks.visiting } = _ from rfl)
        refine ⟨(found, ⟨after.visiting.erase x, after.visited ++ [x]⟩),
          by simp [visit, open_, done, visited], ?_, ?_, inner.cyclic, ?_, ?_⟩
        · have kept : after.visiting = x :: marks.visiting := inner.visiting
          simp [kept]
        · exact fun y inside => List.mem_append_left _ (inner.grows inside)
        · intro none before
          exact dependenciesFirst_concat.mpr ⟨inner.ordered none before, inner.done none⟩
        · simp

/-- The visits of all members meet a cycle exactly where there is one. -/
theorem visits_spec (closed : ∀ x ∈ nodes, ∀ d ∈ deps x, d ∈ nodes)
    (declared : ∀ x, deps x ≠ [] → x ∈ nodes) :
    ∃ found, visits deps nodes = some found ∧ (found = true ↔ Cyclic deps) := by
  have each : ∀ x ∈ nodes, ∀ marks : Marks α, marks.visiting = [] →
      ∃ result, visit deps (nodes.length + 1) x marks = some result ∧
        Visited deps [x] marks result := by
    intro x node marks same
    refine visit_spec closed ?_ node ?_
    · simp [same]
    · rw [same]
      exact ⟨List.nodup_nil, by simp, by simp⟩
  obtain ⟨⟨found, after⟩, visited, all⟩ :=
    anyVisit_spec each (show Marks.visiting ⟨[], []⟩ = _ from rfl)
  refine ⟨found, by simp [visits, visited], all.cyclic, fun cyclic => ?_⟩
  by_contra none
  have none : found = false := by simpa using none
  exact (all.ordered none dependenciesFirst_nil).not_cyclic
    (fun x some => all.done none x (declared x some)) cyclic

/-! ### What a member needs -/

/-- What is found once `xs` and all they need are added. -/
structure Collected (deps : α → List α) (nodes found xs result : List α) : Prop where
  grows : found ⊆ result
  nodup : result.Nodup
  nodes : result ⊆ nodes
  given : xs ⊆ result
  closed : ∀ y ∈ result, y ∉ found → deps y ⊆ result
  needed : ∀ y ∈ result, y ∈ found ∨ ∃ x ∈ xs, Relation.ReflTransGen (Needs deps) y x

omit [DecidableEq α] in
theorem foldl_collected {f : List α → α → List α} {xs : List α} (nodup : found.Nodup)
    (subset : found ⊆ nodes)
    (each : ∀ d ∈ xs, ∀ found', found ⊆ found' → found'.Nodup → found' ⊆ nodes →
      Collected deps nodes found' [d] (f found' d)) :
    Collected deps nodes found xs (xs.foldl f found) := by
  induction xs generalizing found with
  | nil => exact ⟨fun _ h => h, nodup, subset, by simp, fun _ here new => absurd here new,
      fun _ here => .inl here⟩
  | cons d rest ih =>
    have first := each d (by simp) found (fun _ h => h) nodup subset
    have later := ih first.nodup first.nodes fun e inside found' grown =>
      each e (by simp [inside]) found' (List.Subset.trans first.grows grown)
    rw [List.foldl_cons]
    refine ⟨List.Subset.trans first.grows later.grows, later.nodup, later.nodes, ?_, ?_, ?_⟩
    · exact List.cons_subset.mpr ⟨later.grows (first.given (by simp)), later.given⟩
    · intro y here new
      by_cases early : y ∈ f found d
      · exact List.Subset.trans (first.closed y early new) later.grows
      · exact later.closed y here early
    · intro y here
      rcases later.needed y here with early | ⟨x, inside, path⟩
      · rcases first.needed y early with old | ⟨x, inside, path⟩
        · exact .inl old
        · exact .inr ⟨x, by simp_all, path⟩
      · exact .inr ⟨x, by simp [inside], path⟩

omit [DecidableEq α] in
/-- A member is added and then what it needs. -/
theorem Collected.head {d : α} {result : List α}
    (h : Collected deps nodes (found ++ [d]) (deps d) result) :
    Collected deps nodes found [d] result := by
  refine ⟨fun y here => h.grows (by simp [here]), h.nodup, h.nodes,
    by simpa using h.grows (by simp : d ∈ found ++ [d]), ?_, ?_⟩
  · intro y here new
    by_cases same : y = d
    · exact same ▸ h.given
    · exact h.closed y here (by simp [new, same])
  · intro y here
    rcases h.needed y here with early | ⟨x, inside, path⟩
    · rcases List.mem_append.mp early with old | here
      · exact .inl old
      · obtain rfl : y = d := by simpa using here
        exact .inr ⟨y, by simp, .refl⟩
    · exact .inr ⟨d, by simp, path.tail inside⟩

theorem collect_spec (closed : ∀ x ∈ nodes, ∀ d ∈ deps x, d ∈ nodes) {fuel : Nat}
    (enough : nodes.length < fuel + found.length) (node : x ∈ nodes)
    (nodup : found.Nodup) (subset : found ⊆ nodes) :
    Collected deps nodes found (deps x) (collect deps fuel x found) := by
  induction fuel generalizing x found with
  | zero =>
    have few := length_le_of_nodup nodup subset
    omega
  | succ fuel ih =>
    refine foldl_collected nodup subset fun d needed found' grown nodup' subset' => ?_
    have longer := (List.subperm_of_subset nodup grown).length_le
    by_cases known : d ∈ found'
    · rw [if_pos known]
      exact ⟨fun _ h => h, nodup', subset', by simpa using known,
        fun _ here new => absurd here new, fun _ here => .inl here⟩
    · rw [if_neg known]
      have node' : d ∈ nodes := closed x node d needed
      refine (ih ?_ node' ?_ ?_).head
      · rw [List.length_append, List.length_singleton]
        omega
      · simpa using nodup'.concat known
      · exact List.append_subset.mpr ⟨subset', by simpa using node'⟩

theorem mem_collect (closed : ∀ x ∈ nodes, ∀ d ∈ deps x, d ∈ nodes) (node : x ∈ nodes) {y : α} :
    y ∈ collect deps (nodes.length + 1) x [] ↔ Relation.TransGen (Needs deps) y x := by
  have enough : nodes.length < nodes.length + 1 + ([] : List α).length := by simp
  have spec := collect_spec closed enough node List.nodup_nil (List.nil_subset nodes)
  constructor
  · intro here
    obtain ⟨d, needed, path⟩ := (spec.needed y here).resolve_left (by simp)
    exact .tail' path needed
  · intro path
    induction path using Relation.TransGen.head_induction_on with
    | single needed => exact spec.given needed
    | head needed _ inside => exact spec.closed _ inside (by simp) needed

end RepoForge.DepthFirst
