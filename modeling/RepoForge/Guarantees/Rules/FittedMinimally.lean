import Mathlib.Data.List.Nodup
import RepoForge.Library.Shedding
import RepoForge.Source.Rules.Budget

/-!
# A fitted pack is minimal and monotone

The parts go in one order, whatever the budgets are: kind by kind as `dropOrder` has it, and the
later parts of a kind first (`dropSequence`). The two loops of `fitToBudgets` shed that order until
both budgets are met.
-/
namespace RepoForge.PackBudget
open Shedding

/-- A part with its place among the parts that were given. -/
abbrev Placed := PackPart × Nat

def ofKind (kind : PackPartKind) (items : List Placed) : List Placed :=
  items.filter fun item => item.1.kind = kind

def sequenceOf (kinds : List PackPartKind) (items : List Placed) : List Placed :=
  kinds.flatMap fun kind => (ofKind kind items).reverse

/-- The parts with their places, in the order in which they go. -/
def dropSequence (parts : List PackPart) : List Placed := sequenceOf dropOrder parts.zipIdx

/-- The parts that stay where the first `n` go. -/
def keptAfter (parts : List PackPart) (n : Nat) : List PackPart :=
  (parts.zipIdx.filter fun item => item ∉ (dropSequence parts).take n).map (·.1)

/-- The first `n` that go. -/
def droppedFirst (parts : List PackPart) (n : Nat) : List PackPart :=
  ((dropSequence parts).take n).map (·.1)

/-- What an omission says of its part. -/
def OmittedPart.names (omitted : OmittedPart) : PackPartKind × Text :=
  (omitted.kind, omitted.identifier)

def PackPart.names (part : PackPart) : PackPartKind × Text := (part.kind, part.identifier)

section Places

variable {kind other : PackPartKind} {items before after : List Placed} {x : Placed}

theorem droppable_append {first second : List PackPart} :
    droppable kind (first ++ second) =
      droppable kind first ++ (droppable kind second).map (· + first.length) := by
  rw [droppable, droppable, droppable, List.zipIdx_append, List.filter_append, List.map_append,
    Nat.zero_add, List.zipIdx_eq_map_add (l := second) (i := first.length), List.filter_map,
    List.map_map, List.map_map]
  congr 2
  funext item
  exact Nat.add_comm ..

theorem droppable_eq_nil {parts : List PackPart} (absent : ∀ p ∈ parts, p.kind ≠ kind) :
    droppable kind parts = [] := by
  rw [droppable, List.map_eq_nil_iff, List.filter_eq_nil_iff]
  rintro ⟨p, i⟩ here
  simpa using absent p (List.fst_mem_of_mem_zipIdx here)

/-- The last place of a kind, and the places before it. -/
theorem droppable_split (last : x.1.kind = kind) (absent : ∀ y ∈ after, y.1.kind ≠ kind) :
    droppable kind ((before ++ x :: after).map (·.1)) =
      droppable kind ((before ++ after).map (·.1)) ++ [before.length] := by
  have rest : droppable kind (after.map (·.1)) = [] := by
    apply droppable_eq_nil
    rintro p here
    obtain ⟨y, among, rfl⟩ := List.mem_map.mp here
    exact absent y among
  have head : droppable kind (x.1 :: after.map (·.1)) = [0] := by
    have := @droppable_append kind [x.1] (after.map (·.1))
    rw [List.singleton_append, rest] at this
    rw [this]
    simp [droppable, last]
  rw [List.map_append, List.map_append, droppable_append, droppable_append, rest, List.map_cons,
    head]
  simp

theorem exists_last (present : ofKind kind items ≠ []) :
    ∃ before x after, items = before ++ x :: after ∧ x.1.kind = kind ∧
      ∀ y ∈ after, y.1.kind ≠ kind := by
  induction items with
  | nil => exact absurd rfl present
  | cons y rest ih =>
    by_cases later : ofKind kind rest = []
    · refine ⟨[], y, rest, rfl, ?_, ?_⟩
      · by_contra other
        exact present (by simpa [ofKind, other] using later)
      · intro z here
        simpa using List.filter_eq_nil_iff.mp later z here
    · obtain ⟨before, x, after, rfl, last, absent⟩ := ih later
      exact ⟨y :: before, x, after, rfl, last, absent⟩

theorem ofKind_split (last : x.1.kind = kind) (absent : ∀ y ∈ after, y.1.kind ≠ kind) :
    (ofKind kind (before ++ x :: after)).reverse = x :: (ofKind kind (before ++ after)).reverse := by
  have rest : ofKind kind after = [] :=
    List.filter_eq_nil_iff.mpr fun y here => by simpa using absent y here
  simp only [ofKind] at rest ⊢
  simp [List.filter_append, last, rest]

theorem ofKind_diff (unique : items.Nodup) (different : other ≠ kind) :
    ofKind other (items.diff (ofKind kind items).reverse) = ofKind other items := by
  rw [List.Nodup.sdiff_eq_filter unique, ofKind, List.filter_filter]
  apply List.filter_congr
  intro y here
  by_cases same : y.1.kind = other
  · simp [same, ofKind, different]
  · simp [same]

end Places

section Loops

variable {tokenBudget byteBudget : Int} {kind : PackPartKind} {kinds : List PackPartKind}
  {items : List Placed} {omitted : List OmittedPart}

/-- The budgets, for parts with their places. -/
def fitsPlaced (tokenBudget byteBudget : Int) (items : List Placed) : Bool :=
  fits tokenBudget byteBudget (items.map (·.1))

/-- How many parts go. -/
def dropCount (tokenBudget byteBudget : Int) (items order : List Placed) : Nat :=
  count (fitsPlaced tokenBudget byteBudget) items order

/-- What a loop leaves that sheds the first `n` of an order. -/
def Sheds (items order : List Placed) (omitted : List OmittedPart) (n : Nat)
    (result : Except BudgetError (List PackPart × List OmittedPart)) : Prop :=
  ∃ more, result = .ok ((left items order n).map (·.1), omitted ++ more) ∧
    more.map OmittedPart.names = (order.take n).map fun item => item.1.names

theorem Sheds.stop {order : List Placed} :
    Sheds items order omitted 0 (.ok (items.map (·.1), omitted)) :=
  ⟨[], by simp, rfl⟩

/-- The inner loop sheds the parts of its kind, the last first. -/
theorem dropAt_sheds (unique : items.Nodup) :
    Sheds items (ofKind kind items).reverse omitted
      (dropCount tokenBudget byteBudget items (ofKind kind items).reverse)
      (dropAt tokenBudget byteBudget (droppable kind (items.map (·.1))).reverse
        (items.map (·.1)) omitted) := by
  generalize size : (ofKind kind items).length = n
  induction n generalizing items omitted with
  | zero =>
    have absent : ofKind kind items = [] := List.length_eq_zero_iff.mp size
    have places : droppable kind (items.map (·.1)) = [] := by
      apply droppable_eq_nil
      intro p here
      obtain ⟨y, among, rfl⟩ := List.mem_map.mp here
      simpa using List.filter_eq_nil_iff.mp absent y among
    rw [places, absent]
    exact .stop
  | succ n ih =>
    obtain ⟨before, x, after, rfl, last, absent⟩ :=
      exists_last (List.ne_nil_of_length_eq_add_one size)
    rw [ofKind_split last absent, droppable_split last absent, List.reverse_concat, dropAt, dropCount,
      count]
    by_cases fit : fitsPlaced tokenBudget byteBudget (before ++ x :: after) = true
    · rw [if_pos fit, if_pos (show fits _ _ _ = true from fit)]
      exact .stop
    · have victim : ((before ++ x :: after).map (·.1))[before.length]? = some x.1 := by simp
      have gone : ((before ++ x :: after).map (·.1)).eraseIdx before.length =
          (before ++ after).map (·.1) := by
        simp [List.eraseIdx_append_of_length_le]
      have erased : (before ++ x :: after).erase x = before ++ after := by
        have fresh : x ∉ before := fun here =>
          (List.nodup_append.mp unique).2.2 x here x (List.mem_cons_self ..) rfl
        rw [List.erase_append_right _ fresh, List.erase_cons_head]
      have smaller : (ofKind kind (before ++ after)).length = n := by
        have := congrArg List.length (@ofKind_split kind before after x last absent)
        simp only [List.length_reverse, List.length_cons] at this
        omega
      obtain ⟨more, result, names⟩ := @ih (before ++ after)
        (omitted ++ [omission tokenBudget byteBudget ((before ++ x :: after).map (·.1)) x.1])
        (unique.sublist (by simp)) smaller
      rw [if_neg fit, if_neg (show ¬ fits _ _ _ = true from fit), victim, erased]
      refine ⟨omission tokenBudget byteBudget ((before ++ x :: after).map (·.1)) x.1 :: more, ?_, ?_⟩
      · rw [left_succ, erased]
        dsimp only
        rw [gone, result, List.append_assoc]
        rfl
      · rw [List.take_succ_cons, List.map_cons, List.map_cons]
        exact congrArg _ names

theorem dropKinds_of_fits {kept : List PackPart}
    (fit : fits tokenBudget byteBudget kept = true) :
    dropKinds tokenBudget byteBudget kinds kept omitted = .ok (kept, omitted) := by
  cases kinds with
  | nil => rfl
  | cons kind kinds => rw [dropKinds, if_pos fit]

theorem sequenceOf_diff (unique : items.Nodup) (fresh : kind ∉ kinds) :
    sequenceOf kinds (items.diff (ofKind kind items).reverse) = sequenceOf kinds items := by
  apply List.flatMap_congr
  intro other here
  rw [ofKind_diff unique (ne_of_mem_of_not_mem here fresh)]

/-- The loop over the kinds sheds the whole order. -/
theorem dropKinds_sheds (unique : items.Nodup) (distinct : kinds.Nodup) :
    Sheds items (sequenceOf kinds items) omitted
      (dropCount tokenBudget byteBudget items (sequenceOf kinds items))
      (dropKinds tokenBudget byteBudget kinds (items.map (·.1)) omitted) := by
  induction kinds generalizing items omitted with
  | nil => exact .stop
  | cons kind kinds ih =>
    rw [dropKinds]
    by_cases fit : fitsPlaced tokenBudget byteBudget items = true
    · have none : dropCount tokenBudget byteBudget items (sequenceOf (kind :: kinds) items) = 0 :=
        Nat.le_zero.mp (count_le_of_fits fit)
      rw [none, if_pos (show fits _ _ _ = true from fit)]
      exact .stop
    · obtain ⟨fresh, distinct⟩ := List.nodup_cons.mp distinct
      obtain ⟨first, dropped, names⟩ :=
        @dropAt_sheds tokenBudget byteBudget kind items omitted unique
      rw [if_neg (show ¬ fits _ _ _ = true from fit), dropped, ok_bind, sequenceOf,
        List.flatMap_cons, ← sequenceOf]
      generalize ofOrder : (ofKind kind items).reverse = order at dropped names ⊢
      have most : count (fitsPlaced tokenBudget byteBudget) items order ≤ order.length := count_le
      rcases Nat.lt_or_eq_of_le most with early | through
      · -- the budgets are met within this kind
        rw [dropCount, count_append_of_lt early]
        refine ⟨first, ?_, ?_⟩
        · rw [left_append_of_le early.le]
          exact dropKinds_of_fits (fits_of_count_lt early)
        · rw [List.take_append_of_le_length early.le]
          exact names
      · have others : sequenceOf kinds (items.diff order) = sequenceOf kinds items := by
          rw [← ofOrder, sequenceOf_diff unique fresh]
        obtain ⟨later, result, laterNames⟩ := @ih (items.diff order)
          (omitted ++ first) (unique.sublist (List.diff_sublist ..)) distinct
        rw [others] at result laterNames
        have all : dropCount tokenBudget byteBudget items order = order.length := through
        rw [all, List.take_length] at names
        rw [all, left, List.take_length, dropCount, count_append_of_eq through]
        refine ⟨first ++ later, ?_, ?_⟩
        · rw [left_append_length, ← List.append_assoc]
          exact result
        · rw [List.take_length_add_append, List.map_append, List.map_append, names]
          exact congrArg _ laterNames

end Loops

section Sequence

variable {parts : List PackPart} {n : Nat}

theorem mem_sequenceOf {kinds : List PackPartKind} {items : List Placed} {item : Placed} :
    item ∈ sequenceOf kinds items ↔ item.1.kind ∈ kinds ∧ item ∈ items := by
  simp [sequenceOf, ofKind, and_comm]

theorem nodup_sequenceOf {kinds : List PackPartKind} {items : List Placed} (unique : items.Nodup)
    (distinct : kinds.Nodup) : (sequenceOf kinds items).Nodup := by
  rw [sequenceOf, List.nodup_flatMap]
  refine ⟨fun kind _ => List.nodup_reverse.mpr (unique.filter _), distinct.imp ?_⟩
  intro first second different item here there
  simp only [ofKind, List.mem_reverse, List.mem_filter, decide_eq_true_eq] at here there
  exact different (here.2.symm.trans there.2)

theorem nodup_zipIdx (parts : List PackPart) : parts.zipIdx.Nodup := by
  have places : (parts.zipIdx.map Prod.snd).Nodup := by
    rw [List.zipIdx_map_snd]
    exact List.nodup_range'
  exact places.of_map _

theorem dropSequence_perm (parts : List PackPart) :
    (dropSequence parts).Perm parts.zipIdx := by
  rw [dropSequence, List.perm_ext_iff_of_nodup (nodup_sequenceOf (nodup_zipIdx parts) (by decide))
    (nodup_zipIdx parts)]
  intro item
  rw [mem_sequenceOf, and_iff_right]
  cases item.1.kind <;> decide

theorem keptAfter_eq : keptAfter parts n = (left parts.zipIdx (dropSequence parts) n).map (·.1) := by
  rw [keptAfter, left, List.Nodup.sdiff_eq_filter (nodup_zipIdx parts)]

theorem keptAfter_append_perm : (keptAfter parts n ++ droppedFirst parts n).Perm parts := by
  rw [keptAfter_eq, droppedFirst, ← List.map_append]
  have := (left_append_perm (n := n) (dropSequence_perm parts)).map Prod.fst
  rwa [List.zipIdx_map_fst] at this

theorem keptAfter_sublist : (keptAfter parts n).Sublist parts := by
  have := (List.filter_sublist (p := fun item => item ∉ (dropSequence parts).take n)
    (l := parts.zipIdx)).map Prod.fst
  rwa [List.zipIdx_map_fst] at this

theorem keptAfter_sublist_keptAfter {m : Nat} (le : m ≤ n) :
    (keptAfter parts n).Sublist (keptAfter parts m) := by
  rw [keptAfter_eq, keptAfter_eq]
  exact (left_sublist_left le).map _

/-- A rule goes only after everything else. -/
theorem only_rules_left (gone : ∃ p ∈ droppedFirst parts n, p.kind = .rules) :
    ∀ p ∈ keptAfter parts n, p.kind = .rules := by
  obtain ⟨p, gone, rule⟩ := gone
  obtain ⟨item, taken, rfl⟩ := List.mem_map.mp gone
  let earlier : List PackPartKind := [.examples, .skillCatalog, .advisory, .taskDecisions]
  have split : dropSequence parts =
      sequenceOf earlier parts.zipIdx ++ sequenceOf [.rules] parts.zipIdx := by
    rw [sequenceOf, sequenceOf, ← List.flatMap_append]
    rfl
  have past : (sequenceOf earlier parts.zipIdx).length < n := by
    by_contra short
    rw [split, List.take_append_of_le_length (Nat.le_of_not_lt short)] at taken
    have := (mem_sequenceOf.mp (List.mem_of_mem_take taken)).1
    rw [rule] at this
    exact absurd this (by decide)
  intro q here
  obtain ⟨other, stays, rfl⟩ := List.mem_map.mp here
  obtain ⟨there, notTaken⟩ := List.mem_filter.mp stays
  by_contra different
  refine (of_decide_eq_true notTaken) ?_
  rw [split, List.take_append, List.take_of_length_le past.le]
  refine List.mem_append_left _ (mem_sequenceOf.mpr ⟨?_, there⟩)
  revert different
  cases other.1.kind <;> decide

end Sequence

section Fitted

variable {tokenBudget byteBudget : Int} {parts : List PackPart}

/-- How many parts the budgets drop. -/
def droppedCount (tokenBudget byteBudget : Int) (parts : List PackPart) : Nat :=
  dropCount tokenBudget byteBudget parts.zipIdx (dropSequence parts)

theorem fits_wider {tokenBudget' byteBudget' : Int} (tokens : tokenBudget ≤ tokenBudget')
    (bytes : byteBudget ≤ byteBudget') {items : List PackPart}
    (fit : fits tokenBudget byteBudget items = true) :
    fits tokenBudget' byteBudget' items = true := by
  simp only [fits, overTokens, overBytes, Bool.not_eq_true', Bool.or_eq_false_iff,
    decide_eq_false_iff_not] at fit ⊢
  omega

/-- Nothing at all fits. -/
theorem fits_diff (tokens : 1 ≤ tokenBudget) (bytes : 1 ≤ byteBudget) :
    fitsPlaced tokenBudget byteBudget (parts.zipIdx.diff (dropSequence parts)) = true := by
  have none : parts.zipIdx.diff (dropSequence parts) = [] := by
    rw [List.Nodup.sdiff_eq_filter (nodup_zipIdx parts), List.filter_eq_nil_iff]
    intro item here
    simpa using (dropSequence_perm parts).mem_iff.mpr here
  rw [none]
  simp [fitsPlaced, fits, overTokens, overBytes, tokenTotal, byteTotal]
  omega

theorem fits_keptAfter : fits tokenBudget byteBudget (keptAfter parts n) =
    fitsPlaced tokenBudget byteBudget (left parts.zipIdx (dropSequence parts) n) := by
  rw [keptAfter_eq, fitsPlaced]

theorem fitToBudgets_returns (parts : List PackPart) (tokens : 1 ≤ tokenBudget)
    (bytes : 1 ≤ byteBudget) :
    ∃ outcome, fitToBudgets tokenBudget byteBudget parts = .ok outcome ∧
      outcome.kept = keptAfter parts (droppedCount tokenBudget byteBudget parts) ∧
      outcome.omitted.map OmittedPart.names =
        (droppedFirst parts (droppedCount tokenBudget byteBudget parts)).map PackPart.names := by
  obtain ⟨omitted, result, names⟩ := @dropKinds_sheds tokenBudget byteBudget dropOrder parts.zipIdx []
    (nodup_zipIdx parts) (by decide)
  rw [List.zipIdx_map_fst, List.nil_append] at result
  simp only [fitToBudgets, positive, if_neg (Int.not_lt.mpr tokens), if_neg (Int.not_lt.mpr bytes),
    ok_bind, result]
  refine ⟨_, rfl, keptAfter_eq.symm, ?_⟩
  rw [droppedFirst, List.map_map]
  exact names

/-- The parts that stay and those that are omitted are the given ones, the former in their order
and within both budgets; those omitted are the shortest beginning of `dropSequence` that has to
go, so a rule goes only after everything else; and higher budgets keep whatever was kept. -/
theorem fitted_minimally (parts : List PackPart) (tokenBudget byteBudget : Int)
    (tokens : 1 ≤ tokenBudget) (bytes : 1 ≤ byteBudget) :
    ∃ outcome n, fitToBudgets tokenBudget byteBudget parts = .ok outcome ∧
      outcome.kept = keptAfter parts n ∧
      outcome.omitted.map OmittedPart.names = (droppedFirst parts n).map PackPart.names ∧
      (outcome.kept ++ droppedFirst parts n).Perm parts ∧ outcome.kept.Sublist parts ∧
      fits tokenBudget byteBudget outcome.kept = true ∧
      (∀ m < n, fits tokenBudget byteBudget (keptAfter parts m) = false) ∧
      ((∃ p ∈ droppedFirst parts n, p.kind = .rules) → ∀ p ∈ outcome.kept, p.kind = .rules) ∧
      ∀ tokenBudget' byteBudget', tokenBudget ≤ tokenBudget' → byteBudget ≤ byteBudget' →
        ∃ outcome' n', fitToBudgets tokenBudget' byteBudget' parts = .ok outcome' ∧
          n' ≤ n ∧ outcome'.kept = keptAfter parts n' ∧ outcome.kept.Sublist outcome'.kept := by
  obtain ⟨outcome, result, kept, omitted⟩ := fitToBudgets_returns parts tokens bytes
  refine ⟨outcome, droppedCount tokenBudget byteBudget parts, result, kept, omitted, ?_, ?_, ?_,
    ?_, ?_, ?_⟩
  · rw [kept]
    exact keptAfter_append_perm
  · rw [kept]
    exact keptAfter_sublist
  · rw [kept, fits_keptAfter]
    exact fits_count (fits_diff tokens bytes)
  · intro m below
    rw [fits_keptAfter]
    exact not_fits_of_lt below
  · rw [kept]
    exact only_rules_left
  · intro tokenBudget' byteBudget' moreTokens moreBytes
    obtain ⟨outcome', result', kept', -⟩ :=
      fitToBudgets_returns parts (Int.le_trans tokens moreTokens)
        (Int.le_trans bytes moreBytes)
    have fewer : droppedCount tokenBudget' byteBudget' parts ≤
        droppedCount tokenBudget byteBudget parts :=
      count_le_of_imp (fun _ => fits_wider moreTokens moreBytes) (fits_diff tokens bytes)
    refine ⟨outcome', _, result', fewer, kept', ?_⟩
    rw [kept, kept']
    exact keptAfter_sublist_keptAfter fewer

/-- A rule, two pieces of advice and an example in a budget for two tokens. -/
def fourParts : List PackPart :=
  [⟨.advisory, ['a'], 1, 0, by decide⟩, ⟨.rules, ['r'], 1, 9, by decide⟩,
    ⟨.advisory, ['b'], 1, 0, by decide⟩, ⟨.examples, ['e'], 0, 0, by decide⟩]

theorem fitted_minimally_four : ∃ outcome n, fitToBudgets 2 9 fourParts = .ok outcome ∧
    outcome.kept = keptAfter fourParts n ∧ (∀ m < n, fits 2 9 (keptAfter fourParts m) = false) := by
  obtain ⟨outcome, n, result, kept, -, -, -, -, least, -⟩ :=
    fitted_minimally fourParts 2 9 (by decide) (by decide)
  exact ⟨outcome, n, result, kept, least⟩

example : (fitToBudgets 2 9 fourParts).toOption.map
    (fun o => (o.kept.map (·.identifier), o.omitted.map (·.identifier))) =
      some ([['a'], ['r']], [['e'], ['b']]) := by
  decide +kernel

end Fitted

end RepoForge.PackBudget
