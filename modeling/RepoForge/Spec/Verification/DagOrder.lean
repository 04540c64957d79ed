import RepoForge.Source.Verification.VerificationDag

/-!
# The order of a verification DAG

The loop of `_topological` ends with the least order of the ids (`topological_least`): its counters
hold, for every stage, the number of dependencies still to come, so that the queue is exactly what
is ready.
-/
namespace RepoForge.Verification
open PyStr (sortedDistinct_eq_nil)
open Topological

theorem require_ok {condition : Prop} [Decidable condition] {message : String}
    (h : require condition message = .ok ()) : condition := by
  unfold require at h
  split at h
  · assumption
  · cases h

variable {stages : List VerificationDagStage} {x : PyStr}

theorem VerificationDagStage.dependencies_nodup (stage : VerificationDagStage) :
    stage.dependencies.Nodup := by
  have h := stage.constructed
  unfold DagStageFields.postInit at h
  iterate 11 obtain ⟨_, -, h⟩ := bind_ok h
  obtain ⟨_, unique, -⟩ := bind_ok h
  exact (require_ok unique).2

theorem byId_mem {stage : VerificationDagStage} (unique : (stageIds stages).Nodup)
    (here : stage ∈ stages) : byId stages stage.stageId = some stage :=
  find_of_key unique here

theorem byId_some {stage : VerificationDagStage} (h : byId stages x = some stage) :
    stage ∈ stages ∧ stage.stageId = x :=
  ⟨List.mem_of_find?_eq_some h, by simpa using List.find?_some h⟩

theorem byId_perm {stages' : List VerificationDagStage} (unique : (stageIds stages).Nodup)
    (perm : stages.Perm stages') : byId stages = byId stages' := by
  have unique' : (stageIds stages').Nodup := (perm.map _).nodup_iff.mp unique
  funext x
  cases h : byId stages' x with
  | some stage =>
    obtain ⟨here, rfl⟩ := byId_some h
    exact byId_mem unique (perm.mem_iff.mpr here)
  | none =>
    have absent := List.find?_eq_none.mp h
    exact List.find?_eq_none.mpr fun stage here => absent stage (perm.mem_iff.mp here)

theorem dependencies_mem {stage : VerificationDagStage} (unique : (stageIds stages).Nodup)
    (here : stage ∈ stages) : dependencies stages stage.stageId = stage.dependencies := by
  simp [dependencies, byId_mem unique here]

theorem dependencies_declared {d : PyStr} (h : d ∈ dependencies stages x) :
    ∃ stage ∈ stages, stage.stageId = x ∧ d ∈ stage.dependencies := by
  unfold dependencies at h
  cases found : byId stages x with
  | none => simp [found] at h
  | some stage =>
    obtain ⟨here, same⟩ := byId_some found
    exact ⟨stage, here, same, by simpa [found] using h⟩

theorem dependencies_nodup : (dependencies stages x).Nodup := by
  unfold dependencies
  cases byId stages x with
  | none => exact List.nodup_nil
  | some stage => exact stage.dependencies_nodup

theorem dependencies_node (h : dependencies stages x ≠ []) : x ∈ stageIds stages := by
  obtain ⟨d, here⟩ := List.exists_mem_of_ne_nil _ h
  obtain ⟨stage, member, rfl, -⟩ := dependencies_declared here
  exact List.mem_map_of_mem member

/-! ### One round of the loop -/

theorem children_eq (id : PyStr) : children stages id =
    (stages.filter fun stage => decide (id ∈ stage.dependencies)).map (·.stageId) := by
  unfold children
  induction stages with
  | nil => rfl
  | cons stage rest ih =>
    have one : (stage.dependencies.filter (· = id)).map (fun _ => stage.stageId) =
        if id ∈ stage.dependencies then [stage.stageId] else [] := by
      rw [List.filter_eq]
      split
      · rename_i named
        rw [List.count_eq_one_of_mem stage.dependencies_nodup named]
        rfl
      · rename_i named
        rw [List.count_eq_zero_of_not_mem named]
        rfl
    rw [List.flatMap_cons, ih, one, List.filter_cons]
    by_cases named : id ∈ stage.dependencies
    · simp [named]
    · simp [named]

theorem mem_children (unique : (stageIds stages).Nodup) {id : PyStr} :
    x ∈ children stages id ↔ id ∈ dependencies stages x := by
  rw [children_eq]
  constructor
  · intro h
    obtain ⟨stage, named, rfl⟩ := List.mem_map.mp h
    obtain ⟨here, named⟩ := List.mem_filter.mp named
    rw [dependencies_mem unique here]
    simpa using named
  · intro h
    obtain ⟨stage, here, rfl, named⟩ := dependencies_declared h
    exact List.mem_map_of_mem (List.mem_filter.mpr ⟨here, by simpa using named⟩)

theorem children_nodup (unique : (stageIds stages).Nodup) {id : PyStr} :
    (children stages id).Nodup := by
  rw [children_eq]
  exact unique.sublist (List.filter_sublist.map _)

section Release

variable (queue : Queue) (child : PyStr)

@[simp] theorem release_ordered : (release queue child).ordered = queue.ordered := by
  simp only [release]
  split <;> rfl

@[simp] theorem release_indegree : (release queue child).indegree =
    Function.update queue.indegree child (queue.indegree child - 1) := by
  simp only [release]
  split <;> rfl

theorem release_ready : (release queue child).ready.Perm
    (queue.ready ++ if queue.indegree child = 1 then [child] else []) := by
  have last : queue.indegree child - 1 = 0 ↔ queue.indegree child = 1 := by omega
  simp only [release, last]
  split
  · exact List.perm_insertionSort _ _
  · simp

theorem release_sorted (sorted : queue.ready.Pairwise (· ≤ ·)) :
    (release queue child).ready.Pairwise (· ≤ ·) := by
  simp only [release]
  split
  · exact List.pairwise_insertionSort _ _
  · exact sorted

end Release

/-- The children of a stage, one after the other. -/
structure Released (queue : Queue) (ids : List PyStr) (after : Queue) : Prop where
  ordered : after.ordered = queue.ordered
  indegree : ∀ y, after.indegree y = queue.indegree y - if y ∈ ids then 1 else 0
  ready : after.ready.Perm (queue.ready ++ ids.filter fun y => queue.indegree y = 1)
  sorted : queue.ready.Pairwise (· ≤ ·) → after.ready.Pairwise (· ≤ ·)

theorem release_all (queue : Queue) {ids : List PyStr} (distinct : ids.Nodup) :
    Released queue ids (ids.foldl release queue) := by
  induction ids generalizing queue with
  | nil => exact ⟨rfl, by simp, by simp, fun h => h⟩
  | cons id rest ih =>
    obtain ⟨fresh, distinct⟩ := List.nodup_cons.mp distinct
    have later := ih (release queue id) distinct
    have others : ∀ y, y ≠ id → (release queue id).indegree y = queue.indegree y := by
      intro y other
      simp [other]
    rw [List.foldl_cons]
    refine ⟨by simp [later.ordered], ?_, ?_, fun h => later.sorted (release_sorted queue id h)⟩
    · intro y
      rw [later.indegree]
      by_cases same : y = id
      · subst same
        simp [fresh]
      · simp [same]
    · have same : rest.filter (fun y => (release queue id).indegree y = 1) =
          rest.filter fun y => queue.indegree y = 1 := by
        refine List.filter_congr fun y here => ?_
        rw [others y fun same => fresh (same ▸ here)]
      have queued := later.ready
      rw [same] at queued
      refine (queued.trans ((release_ready queue id).append_right _)).trans ?_
      rw [List.filter_cons]
      by_cases last : queue.indegree id = 1
      · simp [last]
      · simp [last]

/-! ### The whole loop -/

/-- What the loop keeps: the queue is what is ready, the smallest first. -/
structure Draining (stages : List VerificationDagStage) (queue : Queue) : Prop where
  sorted : queue.ready.Pairwise (· ≤ ·)
  nodup : queue.ready.Nodup
  ready : ∀ y, y ∈ queue.ready ↔ Topological.Ready (dependencies stages) (stageIds stages) queue.ordered y
  indegree : ∀ y, queue.indegree y = ((dependencies stages y).countP (· ∉ queue.ordered) : Nat)
  greedy : Greedy (dependencies stages) (stageIds stages) queue.ordered

theorem draining_initial (unique : (stageIds stages).Nodup) :
    Draining stages (initialQueue stages) := by
  have perm : (initialQueue stages).ready.Perm ((stageIds stages).filter fun id =>
      ((dependencies stages id).length : Int) = 0) := List.perm_insertionSort _ _
  refine ⟨List.pairwise_insertionSort _ _, ?_, ?_, ?_, ?_⟩
  · exact perm.nodup_iff.mpr (unique.filter _)
  · intro y
    rw [perm.mem_iff, List.mem_filter]
    constructor
    · intro h
      have none : dependencies stages y = [] := by simpa using h.2
      exact ⟨h.1, by simp [initialQueue], by simp [none]⟩
    · intro h
      refine ⟨h.node, ?_⟩
      have none : dependencies stages y = [] :=
        List.eq_nil_iff_forall_not_mem.mpr fun d here => by simpa [initialQueue] using h.met d here
      simp [none]
  · intro y
    simp [initialQueue]
  · intro before y after split
    simp [initialQueue] at split

/-- A dependency that comes is counted once. -/
theorem countP_concat {deps ordered : List PyStr} {id : PyStr} (unique : deps.Nodup)
    (fresh : id ∉ ordered) :
    ((deps.countP (· ∉ ordered ++ [id]) : Nat) : Int) =
      (deps.countP (· ∉ ordered) : Nat) - if id ∈ deps then 1 else 0 := by
  induction deps with
  | nil => simp
  | cons d rest ih =>
    obtain ⟨new, unique⟩ := List.nodup_cons.mp unique
    rw [List.countP_cons, List.countP_cons]
    have tail := ih unique
    by_cases same : d = id
    · subst same
      have now : decide (d ∉ ordered ++ [d]) = false := by simp
      have before : decide (d ∉ ordered) = true := by simp [fresh]
      simp only [new, if_false] at tail
      simp only [now, before, List.mem_cons_self, Bool.false_eq_true, if_false, if_true]
      omega
    · have kept : decide (d ∉ ordered ++ [id]) = decide (d ∉ ordered) := by simp [same]
      have other : id ∈ d :: rest ↔ id ∈ rest := by
        rw [List.mem_cons]
        exact or_iff_right (Ne.symm same)
      simp only [kept, other]
      push_cast
      omega

theorem Draining.step (unique : (stageIds stages).Nodup) {queue : Queue} {id : PyStr}
    {rest : List PyStr} (h : Draining stages queue) (first : queue.ready = id :: rest) :
    Draining stages (((children stages id).insertionSort (· ≤ ·)).foldl release
      { queue with ready := rest, ordered := queue.ordered ++ [id] }) := by
  have perm : ((children stages id).insertionSort (· ≤ ·)).Perm (children stages id) :=
    List.perm_insertionSort _ _
  have released := release_all { queue with ready := rest, ordered := queue.ordered ++ [id] }
    (perm.nodup_iff.mpr (children_nodup unique))
  have child : ∀ y, y ∈ (children stages id).insertionSort (· ≤ ·) ↔
      id ∈ dependencies stages y := fun y => perm.mem_iff.trans (mem_children unique)
  have sorted := h.sorted
  have nodup := h.nodup
  rw [first] at sorted nodup
  obtain ⟨least, sorted⟩ := List.pairwise_cons.mp sorted
  obtain ⟨single, nodup⟩ := List.nodup_cons.mp nodup
  have ready : Topological.Ready (dependencies stages) (stageIds stages) queue.ordered id :=
    (h.ready id).mp (by simp [first])
  have absent : ∀ y, id ∈ dependencies stages y → y ∉ queue.ordered := fun y needed =>
    h.greedy.dependenciesFirst.absent needed ready.fresh
  -- Of the stages that need `id`, those that need nothing else become ready.
  have last : ∀ y, id ∈ dependencies stages y → (queue.indegree y = 1 ↔
      ∀ d ∈ dependencies stages y, d ∈ queue.ordered ++ [id]) := by
    intro y needed
    have count := countP_concat (dependencies_nodup : (dependencies stages y).Nodup) ready.fresh
    rw [← h.indegree y, if_pos needed] at count
    rw [show queue.indegree y = 1 ↔
      (dependencies stages y).countP (· ∉ queue.ordered ++ [id]) = 0 by omega,
      List.countP_eq_zero]
    simp [or_iff_not_imp_left]
  generalize hafter : ((children stages id).insertionSort (· ≤ ·)).foldl release _ = after
    at released ⊢
  refine ⟨released.sorted sorted, ?_, ?_, ?_, ?_⟩
  · rw [released.ready.nodup_iff, List.nodup_append]
    refine ⟨nodup, (perm.nodup_iff.mpr (children_nodup unique)).filter _, ?_⟩
    intro y here z new same
    subst same
    have needed := (child y).mp (List.mem_filter.mp new).1
    have before := (h.ready y).mp (by simp [first, here])
    exact ready.fresh (before.met id needed)
  · intro y
    rw [released.ready.mem_iff, List.mem_append, List.mem_filter, released.ordered, child]
    constructor
    · intro here
      rcases here with here | ⟨needed, one⟩
      · have before := (h.ready y).mp (by simp [first, here])
        have other : y ≠ id := fun same => single (same ▸ here)
        exact ⟨before.node, by simp [before.fresh, other],
          fun d needed => List.mem_append_left _ (before.met d needed)⟩
      · have met := (last y needed).mp (by simpa using one)
        have other : y ≠ id := fun same => ready.fresh (ready.met id (same ▸ needed))
        refine ⟨dependencies_node (List.ne_nil_of_mem needed), ?_, met⟩
        simp [absent y needed, other]
    · intro now
      by_cases needed : id ∈ dependencies stages y
      · exact .inr ⟨needed, by simpa using (last y needed).mpr now.met⟩
      · left
        have before : Topological.Ready (dependencies stages) (stageIds stages) queue.ordered y := by
          refine ⟨now.node, fun h => now.fresh (by simp [h]), fun d here => ?_⟩
          rcases List.mem_append.mp (now.met d here) with come | come
          · exact come
          · exact absurd (by simpa using come : d = id) fun same => needed (same ▸ here)
        have queued := (h.ready y).mpr before
        rw [first] at queued
        exact (List.mem_cons.mp queued).resolve_left fun same => now.fresh (by simp [same])
  · intro y
    rw [released.indegree, released.ordered]
    simp only [child]
    rw [countP_concat dependencies_nodup ready.fresh, h.indegree]
  · rw [released.ordered]
    refine h.greedy.concat ready fun y other => ?_
    have queued := (h.ready y).mpr other
    rw [first] at queued
    rcases List.mem_cons.mp queued with rfl | queued
    · exact le_refl y
    · exact least y queued

theorem drain_least (unique : (stageIds stages).Nodup) {rounds : Nat} {queue : Queue}
    (h : Draining stages queue) (enough : stages.length ≤ rounds + queue.ordered.length) :
    Least (dependencies stages) (stageIds stages) (drain stages rounds queue).ordered := by
  induction rounds generalizing queue with
  | zero =>
    refine ⟨h.greedy, fun y ready => ?_⟩
    -- Every stage has come.
    have few : (stageIds stages).length ≤ queue.ordered.length := by simpa [stageIds] using enough
    have all := (List.subperm_of_subset h.greedy.nodup h.greedy.subset).perm_of_length_le few
    exact ready.fresh (all.mem_iff.mpr ready.node)
  | succ rounds ih =>
    rw [drain]
    cases first : queue.ready with
    | nil =>
      refine ⟨h.greedy, fun y ready => ?_⟩
      have queued := (h.ready y).mpr ready
      simp [first] at queued
    | cons id rest =>
      refine ih (h.step unique first) ?_
      rw [(release_all _ ((List.perm_insertionSort _ _).nodup_iff.mpr
        (children_nodup unique))).ordered]
      simp only [List.length_append, List.length_singleton]
      omega

/-! ### The result -/

/-- The lists that `_topological` refuses for no other reason than a cycle. -/
structure Admissible (stages : List VerificationDagStage) : Prop where
  sized : stages ≠ [] ∧ stages.length ≤ 128
  unique : (stageIds stages).Nodup
  known : ∀ stage ∈ stages, ∀ d ∈ stage.dependencies, d ∈ stageIds stages

theorem Admissible.known_id (h : Admissible stages) :
    ∀ y, ∀ d ∈ dependencies stages y, d ∈ stageIds stages := by
  intro y d needed
  obtain ⟨stage, here, -, named⟩ := dependencies_declared needed
  exact h.known stage here d named

theorem checkKnown_ok {stage : VerificationDagStage} :
    checkKnown stages stage = .ok () ↔ ∀ d ∈ stage.dependencies, d ∈ stageIds stages := by
  simp only [checkKnown, ne_eq, sortedDistinct_eq_nil, List.filter_eq_nil_iff]
  by_cases h : ∀ d ∈ stage.dependencies, d ∈ stageIds stages
  · simp
  · simp

theorem forM_ok {α : Type} {f : α → Except Rejection Unit} {xs : List α} :
    xs.forM f = .ok () ↔ ∀ x ∈ xs, f x = .ok () := by
  induction xs with
  | nil => simp [pure, Except.pure]
  | cons x rest ih =>
    have step : (x :: rest).forM f = (f x >>= fun _ => rest.forM f) := rfl
    rw [step]
    constructor
    · intro h
      obtain ⟨_, first, h⟩ := bind_ok h
      exact List.forall_mem_cons.mpr ⟨first, ih.mp h⟩
    · intro h
      rw [h x (by simp)]
      exact ih.mpr fun y here => h y (by simp [here])

theorem require_of {condition : Prop} [Decidable condition] {message : String} (h : condition) :
    require condition message = .ok () :=
  if_pos h

theorem Least.length_eq (h : Admissible stages) {order : List PyStr}
    (least : Least (dependencies stages) (stageIds stages) order) :
    order.length = stages.length ↔ ¬ Cyclic (dependencies stages) := by
  rw [← least.complete_iff (fun y some => dependencies_node some) h.known_id]
  have inside := List.subperm_of_subset least.greedy.nodup least.greedy.subset
  constructor
  · intro same y node
    exact (inside.perm_of_length_le (by simp [stageIds, same])).mem_iff.mpr node
  · intro complete
    have outside := List.subperm_of_subset h.unique complete
    simpa [stageIds] using le_antisymm inside.length_le outside.length_le

theorem topological_eq (h : Admissible stages) {order : List PyStr}
    (least : Least (dependencies stages) (stageIds stages) order) :
    topological stages = if order.length = stages.length then .ok (order.filterMap (byId stages))
      else .error (.invalid "Verification DAG contains a dependency cycle") := by
  have same : (drain stages stages.length (initialQueue stages)).ordered = order :=
    (drain_least h.unique (draining_initial h.unique) (by omega)).unique least
  have known : stages.forM (checkKnown stages) = .ok () :=
    forM_ok.mpr fun stage here => checkKnown_ok.mpr (h.known stage here)
  simp only [topological, require_of h.sized, require_of h.unique, known, same, bind, Except.bind]
  by_cases whole : order.length = stages.length
  · simp [require, whole]
  · simp [require, whole]

theorem admissible_of_topological {ordered : List VerificationDagStage}
    (h : topological stages = .ok ordered) : Admissible stages := by
  obtain ⟨_, sized, h⟩ := bind_ok h
  obtain ⟨_, unique, h⟩ := bind_ok h
  obtain ⟨_, known, -⟩ := bind_ok h
  exact ⟨require_ok sized, require_ok unique,
    fun stage here => checkKnown_ok.mp (forM_ok.mp known stage here)⟩

theorem exists_least (unique : (stageIds stages).Nodup) :
    ∃ order, Least (dependencies stages) (stageIds stages) order :=
  ⟨_, drain_least unique (draining_initial unique) (Nat.le_add_right stages.length 0)⟩

/-- What `_topological` returns: the stages in the least order of their ids. -/
structure Sorted (stages ordered : List VerificationDagStage) : Prop where
  admissible : Admissible stages
  acyclic : ¬ Cyclic (dependencies stages)
  least : Least (dependencies stages) (stageIds stages) (stageIds ordered)
  perm : ordered.Perm stages

theorem filterMap_byId (h : Admissible stages) {order : List PyStr}
    (inside : order ⊆ stageIds stages) : stageIds (order.filterMap (byId stages)) = order := by
  induction order with
  | nil => rfl
  | cons id rest ih =>
    obtain ⟨node, others⟩ := List.cons_subset.mp inside
    obtain ⟨stage, here, rfl⟩ := List.mem_map.mp node
    rw [List.filterMap_cons, byId_mem h.unique here]
    exact congrArg (stage.stageId :: ·) (ih others)

theorem topological_sorted {ordered : List VerificationDagStage} :
    topological stages = .ok ordered ↔ Sorted stages ordered := by
  constructor
  · intro success
    have h := admissible_of_topological success
    obtain ⟨order, least⟩ := exists_least h.unique
    rw [topological_eq h least] at success
    split at success
    · rename_i whole
      obtain rfl := Except.ok.inj success
      have ids := filterMap_byId h least.greedy.subset
      refine ⟨h, (Least.length_eq h least).mp whole, by rw [ids]; exact least, ?_⟩
      have inside : order.filterMap (byId stages) ⊆ stages := by
        intro stage here
        obtain ⟨id, -, found⟩ := List.mem_filterMap.mp here
        exact (byId_some found).1
      have distinct : (order.filterMap (byId stages)).Nodup :=
        List.Nodup.of_map (·.stageId) (by rw [← stageIds, ids]; exact least.greedy.nodup)
      refine (List.subperm_of_subset distinct inside).perm_of_length_le ?_
      have count : (stageIds (order.filterMap (byId stages))).length = order.length :=
        congrArg List.length ids
      simp only [stageIds, List.length_map] at count
      omega
    · cases success
  · intro h
    rw [topological_eq h.admissible h.least, if_pos (by simp [stageIds, h.perm.length_eq])]
    congr 1
    have found : ∀ some : List VerificationDagStage, some ⊆ stages →
        (stageIds some).filterMap (byId stages) = some := by
      intro some inside
      induction some with
      | nil => rfl
      | cons stage rest ih =>
        obtain ⟨here, inside⟩ := List.cons_subset.mp inside
        rw [stageIds, List.map_cons, List.filterMap_cons, byId_mem h.admissible.unique here]
        exact congrArg _ (ih inside)
    exact found ordered h.perm.subset

theorem exists_sorted (h : Admissible stages) (acyclic : ¬ Cyclic (dependencies stages)) :
    ∃ ordered, Sorted stages ordered := by
  obtain ⟨order, least⟩ := exists_least h.unique
  have success := topological_eq h least
  rw [if_pos ((Least.length_eq h least).mpr acyclic)] at success
  exact ⟨_, topological_sorted.mp success⟩

end RepoForge.Verification
