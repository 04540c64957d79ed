import Mathlib.Data.List.Infix

/-!
# Spans of a list

Where a pattern occurs in a list, how blocks that overlap are merged, and what a list still shows
once its blocks are replaced by marks: a pattern that shares nothing with the marks and shows in
the result occurs in the list outside every block (`replace_exposes`).
-/
namespace RepoForge.Spans

variable {α β : Type}

section Infixes

variable {s a m b : List α}

theorem infix_drop_of_infix {i : Nat} (h : s <:+: a.drop i) : s <:+: a :=
  h.trans (List.drop_suffix i a).isInfix

theorem exists_drop_of_infix (h : s <:+: a) : ∃ i, s <+: a.drop i := by
  obtain ⟨before, after, rfl⟩ := h
  refine ⟨before.length, after, ?_⟩
  simp

theorem infix_of_prefix_drop {i : Nat} (h : s <+: a.drop i) : s <:+: a :=
  infix_drop_of_infix h.isInfix

/-- A mark has no part in a pattern that shares nothing with it. -/
theorem infix_after_mark (nonempty : s ≠ []) (apart : ∀ x ∈ s, x ∉ m) (h : s <:+: m ++ b) :
    s <:+: b := by
  induction m with
  | nil => exact h
  | cons x m ih =>
    have apart' : ∀ y ∈ s, y ∉ m := fun y here there => apart y here (List.mem_cons_of_mem _ there)
    rw [List.cons_append, List.infix_cons_iff] at h
    rcases h with first | later
    · cases s with
      | nil => exact absurd rfl nonempty
      | cons y s =>
        rw [List.cons_prefix_cons] at first
        exact absurd (by simp [first.1]) (apart y (by simp))
    · exact ih apart' later

/-- A pattern that shares nothing with a mark lies on one side of it. -/
theorem infix_beside_mark (nonempty : s ≠ []) (marked : m ≠ []) (apart : ∀ x ∈ s, x ∉ m)
    (h : s <:+: a ++ (m ++ b)) : s <:+: a ∨ s <:+: b := by
  induction a with
  | nil => exact .inr (infix_after_mark nonempty apart h)
  | cons x a ih =>
    rw [List.cons_append, List.infix_cons_iff] at h
    rcases h with first | later
    · left
      rw [← List.cons_append] at first
      rcases List.prefix_or_prefix_of_prefix first (List.prefix_append (x :: a) (m ++ b)) with
        short | long
      · exact short.isInfix
      · obtain ⟨rest, rfl⟩ := long
        rw [List.prefix_append_right_inj] at first
        cases rest with
        | nil => simp
        | cons y rest =>
          cases m with
          | nil => exact absurd rfl marked
          | cons z m =>
            rw [List.cons_append, List.cons_prefix_cons] at first
            exact absurd (by simp [first.1]) (apart y (by simp))
    · exact (ih later).imp List.infix_cons id

end Infixes

section Occurrences

variable [DecidableEq α]

/-- The occurrences from left to right, each search going on behind the last find; `skip`
elements are passed over first. -/
def occurrencesFrom (s : List α) : List α → Nat → Nat → List Nat
  | [], _, _ => []
  | x :: xs, position, 0 =>
    if s.isPrefixOf (x :: xs) then position :: occurrencesFrom s xs (position + 1) (s.length - 1)
    else occurrencesFrom s xs (position + 1) 0
  | _ :: xs, position, skip + 1 => occurrencesFrom s xs (position + 1) skip

def occurrences (s xs : List α) : List Nat := occurrencesFrom s xs 0 0

variable {s : List α}

theorem occurrencesFrom_cover (nonempty : s ≠ []) : ∀ (xs : List α) (position skip i : Nat),
    s <+: xs.drop i → i < skip ∨
      ∃ j ∈ occurrencesFrom s xs position skip, j ≤ position + i ∧ position + i < j + s.length
  | [], _, _, i, here => by
    rw [List.drop_nil, List.prefix_nil] at here
    exact absurd here nonempty
  | x :: xs, position, 0, i, here => by
    have long : 0 < s.length := List.length_pos_iff.mpr nonempty
    right
    rw [occurrencesFrom]
    split
    · by_cases near : i < s.length
      · exact ⟨position, by simp, by omega, by omega⟩
      · obtain ⟨i, rfl⟩ : ∃ k, i = k + 1 := ⟨i - 1, by omega⟩
        rcases occurrencesFrom_cover nonempty xs (position + 1) (s.length - 1) i here with
          passed | ⟨j, found, low, high⟩
        · omega
        · exact ⟨j, List.mem_cons_of_mem _ found, by omega, by omega⟩
    · rename_i away
      cases i with
      | zero => exact absurd (List.isPrefixOf_iff_prefix.mpr here) away
      | succ i =>
        rcases occurrencesFrom_cover nonempty xs (position + 1) 0 i here with
          passed | ⟨j, found, low, high⟩
        · omega
        · exact ⟨j, found, by omega, by omega⟩
  | x :: xs, position, skip + 1, i, here => by
    cases i with
    | zero => exact .inl (by omega)
    | succ i =>
      rcases occurrencesFrom_cover nonempty xs (position + 1) skip i here with
        passed | ⟨j, found, low, high⟩
      · exact .inl (by omega)
      · exact .inr ⟨j, found, by omega, by omega⟩

/-- An occurrence that the search has passed over overlaps one that it has found. -/
theorem occurrences_cover {xs : List α} {i : Nat} (nonempty : s ≠ []) (here : s <+: xs.drop i) :
    ∃ j ∈ occurrences s xs, j ≤ i ∧ i < j + s.length := by
  rcases occurrencesFrom_cover nonempty xs 0 0 i here with passed | ⟨j, found, low, high⟩
  · omega
  · exact ⟨j, found, by omega, by omega⟩

theorem occurrencesFrom_sound : ∀ (xs : List α) (position skip j : Nat),
    j ∈ occurrencesFrom s xs position skip → position ≤ j ∧ s <+: xs.drop (j - position)
  | [], _, _, _, found => absurd found List.not_mem_nil
  | x :: xs, position, 0, j, found => by
    have later : ∀ skip, j ∈ occurrencesFrom s xs (position + 1) skip →
        position ≤ j ∧ s <+: (x :: xs).drop (j - position) := by
      intro skip found
      obtain ⟨low, here⟩ := occurrencesFrom_sound xs (position + 1) skip j found
      rw [show j - position = (j - (position + 1)) + 1 by omega]
      exact ⟨by omega, here⟩
    rw [occurrencesFrom] at found
    split at found
    · rename_i first
      rcases List.mem_cons.mp found with rfl | found
      · exact ⟨Nat.le_refl _, by simpa using List.isPrefixOf_iff_prefix.mp first⟩
      · exact later _ found
    · exact later _ found
  | x :: xs, position, skip + 1, j, found => by
    obtain ⟨low, here⟩ := occurrencesFrom_sound xs (position + 1) skip j found
    rw [show j - position = (j - (position + 1)) + 1 by omega]
    exact ⟨by omega, here⟩

theorem occurrences_sound {xs : List α} {j : Nat} (found : j ∈ occurrences s xs) :
    s <+: xs.drop j :=
  (occurrencesFrom_sound xs 0 0 j found).2

end Occurrences

/-- The places from `start` to before `stop`. -/
structure Block (β : Type) where
  start : Nat
  stop : Nat
  label : β

section Merging

variable (combine : β → β → β)

def mergeFrom (current : Block β) : List (Block β) → List (Block β)
  | [] => [current]
  | item :: rest =>
    if current.stop ≤ item.start then current :: mergeFrom item rest
    else mergeFrom ⟨current.start, max current.stop item.stop,
      combine current.label item.label⟩ rest

/-- Blocks that overlap become one. -/
def merge : List (Block β) → List (Block β)
  | [] => []
  | item :: rest => mergeFrom combine item rest

/-- The blocks are not empty and follow one another from `low` on. -/
def Chained : Nat → List (Block β) → Prop
  | _, [] => True
  | low, block :: rest => low ≤ block.start ∧ block.start < block.stop ∧ Chained block.stop rest

variable {combine}

theorem mergeFrom_chained : ∀ (items : List (Block β)) (current : Block β) (low : Nat),
    low ≤ current.start → current.start < current.stop →
    (∀ item ∈ items, item.start < item.stop) → items.Pairwise (fun a b => a.start ≤ b.start) →
    (∀ item ∈ items, current.start ≤ item.start) → Chained low (mergeFrom combine current items)
  | [], _, _, above, proper, _, _, _ => ⟨above, proper, trivial⟩
  | item :: rest, current, low, above, proper, each, sorted, after => by
    obtain ⟨first, sorted⟩ := List.pairwise_cons.mp sorted
    have proper' := each item (by simp)
    have each' : ∀ other ∈ rest, other.start < other.stop :=
      fun other here => each other (List.mem_cons_of_mem _ here)
    rw [mergeFrom]
    split
    · rename_i apart
      exact ⟨above, proper, mergeFrom_chained rest item current.stop apart proper' each' sorted first⟩
    · refine mergeFrom_chained rest _ low above ?_ each' sorted
        fun other here => after other (List.mem_cons_of_mem _ here)
      change current.start < max current.stop item.stop
      omega

theorem merge_chained {items : List (Block β)} (each : ∀ item ∈ items, item.start < item.stop)
    (sorted : items.Pairwise fun a b => a.start ≤ b.start) : Chained 0 (merge combine items) := by
  cases items with
  | nil => trivial
  | cons item rest =>
    obtain ⟨first, sorted⟩ := List.pairwise_cons.mp sorted
    exact mergeFrom_chained rest item 0 (Nat.zero_le _) (each item (by simp))
      (fun other here => each other (List.mem_cons_of_mem _ here)) sorted first

/-- The second block is inside the first. -/
def Block.Holds (block item : Block β) : Prop :=
  block.start ≤ item.start ∧ item.stop ≤ block.stop

theorem mergeFrom_covers : ∀ (items : List (Block β)) (current : Block β),
    (∀ item ∈ items, current.start ≤ item.start) → items.Pairwise (fun a b => a.start ≤ b.start) →
    ∀ inner : Block β, current.Holds inner ∨ inner ∈ items →
    ∃ block ∈ mergeFrom combine current items, block.Holds inner
  | [], current, _, _, inner, here => by
    refine ⟨current, by simp [mergeFrom], ?_⟩
    simpa using here
  | item :: rest, current, after, sorted, inner, here => by
    obtain ⟨first, sorted⟩ := List.pairwise_cons.mp sorted
    rw [mergeFrom]
    split
    · rcases here with within | listed
      · exact ⟨current, by simp, within⟩
      · have inside : item.Holds inner ∨ inner ∈ rest := by
          rcases List.mem_cons.mp listed with rfl | listed
          · exact .inl ⟨Nat.le_refl _, Nat.le_refl _⟩
          · exact .inr listed
        obtain ⟨block, there, holds⟩ := mergeFrom_covers rest item first sorted inner inside
        exact ⟨block, List.mem_cons_of_mem _ there, holds⟩
    · let joined : Block β :=
        ⟨current.start, max current.stop item.stop, combine current.label item.label⟩
      refine mergeFrom_covers rest joined
        (fun other there => after other (List.mem_cons_of_mem _ there)) sorted inner ?_
      rcases here with within | listed
      · exact .inl ⟨within.1, within.2.trans (Nat.le_max_left _ _)⟩
      · rcases List.mem_cons.mp listed with rfl | listed
        · exact .inl ⟨after inner (by simp), Nat.le_max_right _ _⟩
        · exact .inr listed

theorem merge_covers (combine : β → β → β) {items : List (Block β)} {inner : Block β}
    (sorted : items.Pairwise fun a b => a.start ≤ b.start) (here : inner ∈ items) :
    ∃ block ∈ merge combine items, block.Holds inner := by
  cases items with
  | nil => cases here
  | cons item rest =>
    obtain ⟨first, sorted⟩ := List.pairwise_cons.mp sorted
    refine mergeFrom_covers rest item first sorted inner ?_
    rcases List.mem_cons.mp here with rfl | here
    · exact .inl ⟨Nat.le_refl _, Nat.le_refl _⟩
    · exact .inr here

theorem chained_map {γ : Type} {f : Block β → Block γ} (starts : ∀ b, (f b).start = b.start)
    (stops : ∀ b, (f b).stop = b.stop) {low : Nat} {blocks : List (Block β)}
    (chained : Chained low blocks) : Chained low (blocks.map f) := by
  induction blocks generalizing low with
  | nil => trivial
  | cons block rest ih =>
    obtain ⟨above, proper, chained⟩ := chained
    refine ⟨?_, ?_, ?_⟩
    · rw [starts]
      exact above
    · rw [starts, stops]
      exact proper
    · rw [stops]
      exact ih chained

end Merging

section Replacing

variable {mark : Block β → List α} {xs s : List α}

/-- What lies between the blocks, from `cursor` on, with a mark for each block. -/
def replace (mark : Block β → List α) (xs : List α) : Nat → List (Block β) → List α
  | cursor, [] => xs.drop cursor
  | cursor, block :: rest =>
    (xs.drop cursor).take (block.start - cursor) ++ (mark block ++ replace mark xs block.stop rest)

theorem Chained.low_le {low : Nat} {blocks : List (Block β)} (chained : Chained low blocks) :
    ∀ block ∈ blocks, low ≤ block.start := by
  induction blocks generalizing low with
  | nil =>
    intro block here
    cases here
  | cons first rest ih =>
    intro block here
    rcases List.mem_cons.mp here with rfl | here
    · exact chained.1
    · have := ih chained.2.2 block here
      have := chained.1
      have := chained.2.1
      omega

theorem replace_exposes (nonempty : s ≠ []) (marked : ∀ block, mark block ≠ []) :
    ∀ (blocks : List (Block β)) (cursor : Nat), (∀ block ∈ blocks, ∀ x ∈ s, x ∉ mark block) →
    Chained cursor blocks → s <:+: replace mark xs cursor blocks →
    ∃ i, cursor ≤ i ∧ s <+: xs.drop i ∧
      ∀ block ∈ blocks, i + s.length ≤ block.start ∨ block.stop ≤ i
  | [], cursor, _, _, here => by
    obtain ⟨i, there⟩ := exists_drop_of_infix here
    rw [replace, List.drop_drop] at there
    exact ⟨cursor + i, Nat.le_add_right _ _, there, fun _ none => absurd none List.not_mem_nil⟩
  | block :: rest, cursor, apart, chained, here => by
    obtain ⟨above, proper, chained⟩ := chained
    rcases infix_beside_mark nonempty (marked block) (apart block (by simp)) here with gap | later
    · obtain ⟨before, after, eq⟩ := gap
      have total := congrArg List.length eq
      simp only [List.length_append, List.length_take, List.length_drop] at total
      have short : before.length + s.length ≤ block.start - cursor := by omega
      refine ⟨cursor + before.length, Nat.le_add_right _ _, ?_, ?_⟩
      · have inside : before ++ s <+: xs.drop cursor :=
          (List.prefix_append _ after).trans (eq ▸ List.take_prefix _ _)
        obtain ⟨rest, whole⟩ := inside
        refine ⟨rest, ?_⟩
        rw [← List.drop_drop, ← whole]
        simp
      · intro other there
        left
        rcases List.mem_cons.mp there with rfl | there
        · omega
        · have := chained.low_le other there
          omega
    · obtain ⟨i, low, there, clear⟩ :=
        replace_exposes nonempty marked rest block.stop
          (fun other listed => apart other (List.mem_cons_of_mem _ listed)) chained later
      refine ⟨i, by omega, there, ?_⟩
      intro other listed
      rcases List.mem_cons.mp listed with rfl | listed
      · exact .inr low
      · exact clear other listed

/-- A pattern is hidden if each of its occurrences meets a block. -/
theorem replace_hides {blocks : List (Block β)}
    (nonempty : s ≠ []) (marked : ∀ block, mark block ≠ [])
    (apart : ∀ block ∈ blocks, ∀ x ∈ s, x ∉ mark block) (chained : Chained 0 blocks)
    (met : ∀ i, s <+: xs.drop i → ∃ block ∈ blocks, block.start < i + s.length ∧ i < block.stop) :
    ¬ s <:+: replace mark xs 0 blocks := by
  intro here
  obtain ⟨i, _, there, clear⟩ := replace_exposes nonempty marked blocks 0 apart chained here
  obtain ⟨block, listed, low, high⟩ := met i there
  have := clear block listed
  omega

end Replacing

end RepoForge.Spans
