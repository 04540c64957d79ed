import Mathlib.Algebra.GroupWithZero.Nat
import RepoForge.Spec.Retrieval.Cursors

/-!
# Pages lose and repeat nothing

Whoever follows the cursors from page to page gets each item once and in order.
-/
namespace RepoForge.Retrieval

section Selecting

variable {α : Type} {shape : ItemShape α} {maxItems byteBudget index : Nat}

def used (shape : ItemShape α) (items : List α) : Nat := (items.map shape.bytes).sum

theorem used_concat (items : List α) (item : α) :
    used shape (items ++ [item]) = used shape items + shape.bytes item := by
  simp [used]

/-- A selection within the limits. -/
structure Within (shape : ItemShape α) (maxItems byteBudget : Nat) (items : List α) : Prop where
  count : items.length ≤ maxItems
  bytes : used shape items ≤ byteBudget

/-- What the loop adds to a selection is the next items; to an empty one it adds some. -/
structure Selected (shape : ItemShape α) (maxItems byteBudget index : Nat) (selected rest : List α)
    (result : List α × Nat × Option TruncationReason) : Prop where
  items : result.1 = selected ++ rest.take (result.2.1 - index)
  forward : index ≤ result.2.1
  inside : result.2.1 ≤ index + rest.length
  within : Within shape maxItems byteBudget result.1
  progress : selected = [] → rest ≠ [] → index < result.2.1

theorem Selected.stop {selected rest : List α} {reason : Option TruncationReason}
    (within : Within shape maxItems byteBudget selected) (going : selected = [] → rest = []) :
    Selected shape maxItems byteBudget index selected rest (selected, index, reason) where
  items := by simp
  forward := Nat.le_refl _
  inside := Nat.le_add_right _ _
  within := within
  progress := fun empty more => absurd (going empty) more

/-- One more item is selected, whatever comes after it. -/
theorem Selected.step {selected rest : List α} {item : α}
    {result : List α × Nat × Option TruncationReason}
    (later : Selected shape maxItems byteBudget (index + 1) (selected ++ [item]) rest result) :
    Selected shape maxItems byteBudget index selected (item :: rest) result where
  items := by
    have forward := later.forward
    have more : result.2.1 - index = result.2.1 - (index + 1) + 1 := by omega
    rw [later.items, more, List.take_succ_cons, List.append_assoc]
    rfl
  forward := by
    have forward := later.forward
    omega
  inside := by
    have inside := later.inside
    rw [List.length_cons]
    omega
  within := later.within
  progress := by
    have forward := later.forward
    intros
    omega

theorem pageFrom_selected {selected rest : List α} (some : 0 < maxItems)
    (within : Within shape maxItems byteBudget selected)
    (fit : ∀ item ∈ rest, shape.bytes item ≤ byteBudget) :
    ∃ result, pageFrom shape maxItems byteBudget index selected (used shape selected) rest =
        .ok result ∧ Selected shape maxItems byteBudget index selected rest result := by
  induction rest generalizing index selected with
  | nil => exact ⟨_, rfl, .stop within fun _ => rfl⟩
  | cons item rest ih =>
    have here := fit item (List.mem_cons_self ..)
    rw [pageFrom]
    by_cases full : maxItems ≤ selected.length
    · refine ⟨_, if_pos full, .stop within fun empty => ?_⟩
      rw [empty, List.length_nil] at full
      omega
    rw [if_neg full, if_neg (fun large => by omega)]
    by_cases full : selected ≠ [] ∧ byteBudget < used shape selected + shape.bytes item
    · exact ⟨_, if_pos full, .stop within fun empty => absurd empty full.1⟩
    rw [if_neg full]
    have bytes : used shape (selected ++ [item]) ≤ byteBudget := by
      rw [used_concat]
      by_cases empty : selected = []
      · rw [empty, used, List.map_nil, List.sum_nil, Nat.zero_add]
        exact here
      · by_contra large
        exact full ⟨empty, by omega⟩
    have larger : Within shape maxItems byteBudget (selected ++ [item]) :=
      ⟨by rw [List.length_append, List.length_singleton]; omega, bytes⟩
    by_cases last : byteBudget ≤ used shape selected + shape.bytes item
    · exact ⟨_, if_pos last, .step (.stop larger fun empty => absurd empty (by simp))⟩
    · rw [if_neg last, ← used_concat]
      obtain ⟨result, run, more⟩ := ih larger
        fun other among => fit other (List.mem_cons_of_mem _ among)
      exact ⟨result, run, more.step⟩

end Selecting

section Following

variable {α : Type} (R : Runtime) (shape : ItemShape α) (items : List α) (query : Query)
  (maxItems byteBudget : Int)

/-- The pages from a cursor on, the last without a next cursor. -/
inductive Followed : Option Text → List (Page α) → Prop where
  | last {cursor : Option Text} {page : Page α}
      (read : paginate R shape items query maxItems byteBudget cursor = .ok page)
      (done : page.nextCursor = none) : Followed cursor [page]
  | next {cursor : Option Text} {page : Page α} {following : Text} {pages : List (Page α)}
      (read : paginate R shape items query maxItems byteBudget cursor = .ok page)
      (more : page.nextCursor = some following) (rest : Followed (some following) pages) :
      Followed cursor (page :: pages)

end Following

section Whole

variable {α : Type} {R : Runtime} {shape : ItemShape α} {items : List α} {query : Query}
  {maxItems byteBudget : Int} {cursor : Option Text}

theorem requestBinding_hex (query : Query) :
    (requestBinding query).length = 64 ∧ (requestBinding query).all lowerHex = true :=
  Sha256.hexdigest_hex _

/-- The page that ends at an index. -/
def pageOf (items : List α) (binding : Text) (selected : List α) (index : Nat)
    (reason : Option TruncationReason) : Page α :=
  let nextCursor := if index < items.length then some (encodeCursor binding index) else none
  { items := selected
    nextCursor := nextCursor
    omittedCount := items.length - index
    truncated := nextCursor.isSome
    truncationReason := if nextCursor.isSome then reason else none }

/-- What `paginate` gives at a position it was sent to. -/
theorem paginate_read (sizes : 1 ≤ maxItems ∧ maxItems ≤ 2000)
    (budgets : 1 ≤ byteBudget ∧ byteBudget ≤ 120000)
    (fit : ∀ item ∈ items, (shape.bytes item : Int) ≤ byteBudget) {start : Nat}
    (inside : start ≤ items.length)
    (at_start : decodeCursor R cursor (requestBinding query) items.length = .ok start) :
    ∃ page index, paginate R shape items query maxItems byteBudget cursor = .ok page ∧
      page.nextCursor =
        (if index < items.length then some (encodeCursor (requestBinding query) index) else none) ∧
      page.items = (items.drop start).take (index - start) ∧ start ≤ index ∧
      index ≤ items.length ∧ (start < items.length → start < index) ∧
      Within shape maxItems.toNat byteBudget.toNat page.items := by
  have rest : ∀ item ∈ items.drop start, shape.bytes item ≤ byteBudget.toNat := by
    intro item here
    have := fit item (List.mem_of_mem_drop here)
    omega
  obtain ⟨⟨selected, index, reason⟩, run, selection⟩ :=
    @pageFrom_selected α shape maxItems.toNat byteBudget.toNat start [] (items.drop start) (by omega)
      ⟨Nat.zero_le _, Nat.zero_le _⟩ rest
  have width : index ≤ start + (items.drop start).length := selection.inside
  rw [List.length_drop] at width
  have limits : Within shape maxItems.toNat byteBudget.toNat selected := selection.within
  refine ⟨pageOf items (requestBinding query) selected index reason, index, ?_, rfl,
    selection.items, selection.forward, by omega, ?_, limits⟩
  · rw [paginate, if_neg (by simpa using sizes), if_neg (by simpa using budgets)]
    dsimp only
    rw [at_start, ok_bind]
    exact (congrArg (· >>= _) run).trans ok_bind
  · intro more
    exact selection.progress rfl (List.ne_nil_of_length_pos (by rw [List.length_drop]; omega))

theorem followed_whole (sizes : 1 ≤ maxItems ∧ maxItems ≤ 2000)
    (budgets : 1 ≤ byteBudget ∧ byteBudget ≤ 120000)
    (fit : ∀ item ∈ items, (shape.bytes item : Int) ≤ byteBudget)
    (size : items.length ≤ maxSize) {left start : Nat} (remaining : items.length - start ≤ left)
    (inside : start ≤ items.length)
    (at_start : decodeCursor R cursor (requestBinding query) items.length = .ok start) :
    ∃ pages, Followed R shape items query maxItems byteBudget cursor pages ∧
      pages.flatMap Page.items = items.drop start ∧
      ∀ page ∈ pages, Within shape maxItems.toNat byteBudget.toNat page.items := by
  -- every page but an empty list's advances, so the items left bound the pages
  induction left generalizing start cursor with
  | zero =>
    obtain ⟨page, index, read, next, chosen, forward, within, -, limits⟩ :=
      paginate_read sizes budgets fit inside at_start
    rw [if_neg (by omega)] at next
    refine ⟨[page], .last read next, ?_, by simpa using limits⟩
    rw [List.flatMap_singleton, chosen, List.drop_of_length_le (by omega), List.take_nil]
  | succ left ih =>
    obtain ⟨page, index, read, next, chosen, forward, within, progress, limits⟩ :=
      paginate_read sizes budgets fit inside at_start
    by_cases more : index < items.length
    · rw [if_pos more] at next
      obtain ⟨wide, hex⟩ := requestBinding_hex query
      have again : decodeCursor R (some (encodeCursor (requestBinding query) index))
          (requestBinding query) items.length = .ok index :=
        (decode_encode hex wide (within.trans size) ..).trans ((if_pos rfl).trans (if_pos within))
      obtain ⟨pages, rest, whole, each⟩ := ih (show items.length - index ≤ left by omega) within again
      refine ⟨page :: pages, .next read next rest, ?_, ?_⟩
      · have joined : (items.drop start).drop (index - start) = items.drop index := by
          rw [List.drop_drop, Nat.add_sub_of_le forward]
        rw [List.flatMap_cons, chosen, whole, ← joined, List.take_append_drop]
      · intro other among
        cases among with
        | head => exact limits
        | tail _ among => exact each other among
    · rw [if_neg more] at next
      refine ⟨[page], .last read next, ?_, by simpa using limits⟩
      rw [List.flatMap_singleton, chosen,
        List.take_of_length_le (by rw [List.length_drop]; omega)]

/-- A cursor comes with the binding of what it was issued for. -/
theorem issued (size : items.length ≤ maxSize) {page : Page α} {following : Text}
    (read : paginate R shape items query maxItems byteBudget cursor = .ok page)
    (more : page.nextCursor = some following) :
    ∃ index, following = encodeCursor (requestBinding query) index ∧ index ≤ maxSize := by
  unfold paginate at read
  split at read
  · cases read
  split at read
  · cases read
  obtain ⟨start, -, read⟩ := bind_ok read
  obtain ⟨⟨selected, index, reason⟩, -, read⟩ := bind_ok read
  cases read
  dsimp only at more
  split at more
  · exact ⟨index, (Option.some.inj more).symm, (Nat.le_of_lt ‹_›).trans size⟩
  · cases more

/-- Whoever follows the next cursors comes to an end with every item once and in order, and no page
is over its limits; no cursor is taken for what it was not issued for. -/
theorem pages_whole (R : Runtime) (shape : ItemShape α) (items : List α) (query : Query)
    (maxItems byteBudget : Int) (size : items.length ≤ maxSize)
    (sizes : 1 ≤ maxItems ∧ maxItems ≤ 2000) (budgets : 1 ≤ byteBudget ∧ byteBudget ≤ 120000)
    (fit : ∀ item ∈ items, (shape.bytes item : Int) ≤ byteBudget) :
    (∃ pages, Followed R shape items query maxItems byteBudget none pages ∧
      pages.flatMap Page.items = items ∧
      ∀ page ∈ pages, page.items.length ≤ maxItems ∧
        ((page.items.map shape.bytes).sum : Int) ≤ byteBudget) ∧
    ∀ {β : Type} (shape' : ItemShape β) (others : List β) (other : Query)
      (maxItems' byteBudget' : Int) (cursor : Option Text) (page : Page β) (following : Text),
      others.length ≤ maxSize → requestBinding other ≠ requestBinding query →
      paginate R shape' others other maxItems' byteBudget' cursor = .ok page →
      page.nextCursor = some following →
      paginate R shape items query maxItems byteBudget (some following) =
        .error (.value "cursor does not match the exact request or scope") := by
  constructor
  · obtain ⟨pages, followed, whole, each⟩ :=
      @followed_whole α R shape items query maxItems byteBudget none sizes budgets fit size _ _
        (Nat.le_refl _) (Nat.zero_le _) rfl
    refine ⟨pages, followed, whole, fun page among => ?_⟩
    obtain ⟨count, bytes⟩ := each page among
    rw [used] at bytes
    omega
  · intro β shape' others other maxItems' byteBudget' cursor page following size' different read more
    obtain ⟨index, same, small⟩ := issued size' read more
    obtain ⟨wide, hex⟩ := requestBinding_hex other
    have rejected : decodeCursor R (some following) (requestBinding query) items.length =
        .error (.value "cursor does not match the exact request or scope") := by
      rw [same]
      exact (decode_encode hex wide small ..).trans (if_neg different)
    rw [paginate, if_neg (by simpa using sizes), if_neg (by simpa using budgets)]
    dsimp only
    rw [rejected]
    rfl

end Whole

section Witness

def onAscii : Runtime where
  loads _ := .error .decode
  int _ := .typeError
  isOne _ := false
  depth := 994
  depth_pos := sampleDepth_pos

def sized : ItemShape Nat where
  bytes n := n
  path _ := none

def treeOf (scope : String) : Query where
  kind := "tree".toList
  scope := scope.toList
  request := .dict [(PyStr.lit "path", .str (PyStr.lit "src"))]
  clean := by decide

/-- Four items go on three pages, and the cursor of another scope is refused. -/
theorem pages_whole_four :
    (∃ pages, Followed onAscii sized [5, 7, 4, 10] (treeOf "ws-1") 2 11 none pages ∧
      pages.flatMap Page.items = [5, 7, 4, 10]) ∧
    paginate onAscii sized [5, 7, 4, 10] (treeOf "ws-1") 2 11
        (some (encodeCursor (requestBinding (treeOf "ws-2")) 1)) =
      .error (.value "cursor does not match the exact request or scope") := by
  have whole := pages_whole onAscii sized [5, 7, 4, 10] (treeOf "ws-1") 2 11
    (by rw [maxSize]; decide) (by decide) (by decide) (by decide)
  obtain ⟨⟨pages, followed, all, -⟩, refused⟩ := whole
  have different : requestBinding (treeOf "ws-2") ≠ requestBinding (treeOf "ws-1") := by
    decide +kernel
  have issuing : paginate onAscii sized [3, 3] (treeOf "ws-2") 1 100 none =
      .ok (pageOf [3, 3] (requestBinding (treeOf "ws-2")) [3] 1 (some .resultCountLimit)) := rfl
  exact ⟨⟨pages, followed, all⟩,
    refused sized [3, 3] (treeOf "ws-2") 1 100 none _ _ (by rw [maxSize]; decide) different issuing rfl⟩

end Witness

end RepoForge.Retrieval
