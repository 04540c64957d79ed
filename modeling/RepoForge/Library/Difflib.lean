import RepoForge.Library.PyText

/-!
# Unified diffs

The part of Python's `difflib` behind `unified_diff`. An opcode carries the two runs of lines it
relates instead of their bounds; the bounds are the lengths of what stands before.
`SequenceMatcher` is any comparison whose opcodes tile both sequences. `groupedOpcodes` and the
rendering follow `get_grouped_opcodes` and `unified_diff`.
-/
namespace RepoForge.Difflib

section Groups

variable {α : Type}

inductive Opcode (α : Type) where
  | equal (lines : List α)
  /-- `replace`, or `delete` or `insert` where one side is empty. -/
  | change (old new : List α)
  deriving DecidableEq, Repr

namespace Opcode

def old : Opcode α → List α
  | equal lines => lines
  | change old _ => old

def new : Opcode α → List α
  | equal lines => lines
  | change _ new => new

def removed : Opcode α → List α
  | equal _ => []
  | change old _ => old

def added : Opcode α → List α
  | equal _ => []
  | change _ new => new

end Opcode

def oldLines (codes : List (Opcode α)) : List α := codes.flatMap Opcode.old
def newLines (codes : List (Opcode α)) : List α := codes.flatMap Opcode.new

structure SequenceMatcher (α : Type) where
  opcodes : List α → List α → List (Opcode α)
  old : ∀ a b, oldLines (opcodes a b) = a
  new : ∀ a b, newLines (opcodes a b) = b

/-- The matcher that finds no line in common. -/
def wholeMatcher : SequenceMatcher α where
  opcodes a b := [.change a b]
  old _ _ := List.flatMap_singleton Opcode.old _
  new _ _ := List.flatMap_singleton Opcode.new _

structure HunkGroup (α : Type) where
  oldStart : Nat
  newStart : Nat
  codes : List (Opcode α)
  deriving Repr

/-- The last group, unless it shows no change. -/
def closeGroup (oldStart newStart : Nat) : List (Opcode α) → List (HunkGroup α)
  | [] | [.equal _] => []
  | codes => [⟨oldStart, newStart, codes⟩]

/-- The loop of `get_grouped_opcodes`: `codes` are those of the group under way. -/
def groupFrom (n oldStart newStart : Nat) (codes : List (Opcode α)) :
    List (Opcode α) → List (HunkGroup α)
  | [] => closeGroup oldStart newStart codes
  | .equal lines :: rest =>
    if n + n < lines.length then
      ⟨oldStart, newStart, codes ++ [.equal (lines.take n)]⟩ ::
        groupFrom n (oldStart + (oldLines codes).length + (lines.length - n))
          (newStart + (newLines codes).length + (lines.length - n))
          [.equal (lines.drop (lines.length - n))] rest
    else groupFrom n oldStart newStart (codes ++ [.equal lines]) rest
  | .change old new :: rest => groupFrom n oldStart newStart (codes ++ [.change old new]) rest

/-- The lines that the first opcode loses. -/
def leading (n : Nat) : List (Opcode α) → Nat
  | .equal lines :: _ => lines.length - n
  | _ => 0

def trimFirst (n : Nat) : List (Opcode α) → List (Opcode α)
  | .equal lines :: rest => .equal (lines.drop (lines.length - n)) :: rest
  | codes => codes

def trimLast (n : Nat) : List (Opcode α) → List (Opcode α)
  | [] => []
  | [.equal lines] => [.equal (lines.take n)]
  | [.change old new] => [.change old new]
  | code :: next :: rest => code :: trimLast n (next :: rest)

def groupedOpcodes (n : Nat) (codes : List (Opcode α)) : List (HunkGroup α) :=
  groupFrom n (leading n codes) (leading n codes) [] (trimLast n (trimFirst n codes))

/-- The lines of one list of opcodes are among those of another. -/
def Within (codes whole : List (Opcode α)) : Prop :=
  oldLines codes ⊆ oldLines whole ∧ newLines codes ⊆ newLines whole

theorem within_refl (codes : List (Opcode α)) : Within codes codes :=
  ⟨List.Subset.refl _, List.Subset.refl _⟩

theorem Within.trans {codes part whole : List (Opcode α)} (first : Within codes part)
    (second : Within part whole) : Within codes whole :=
  ⟨List.Subset.trans first.1 second.1, List.Subset.trans first.2 second.2⟩

theorem Within.append {codes codes' whole whole' : List (Opcode α)} (first : Within codes whole)
    (second : Within codes' whole') : Within (codes ++ codes') (whole ++ whole') := by
  simp only [Within, oldLines, newLines, List.flatMap_append, List.append_subset] at *
  exact ⟨⟨List.subset_append_of_subset_left _ first.1,
      List.subset_append_of_subset_right _ second.1⟩,
    List.subset_append_of_subset_left _ first.2, List.subset_append_of_subset_right _ second.2⟩

theorem within_left (codes rest : List (Opcode α)) : Within codes (codes ++ rest) := by
  simp [Within, oldLines, newLines]

theorem within_right (codes whole : List (Opcode α)) : Within whole (codes ++ whole) := by
  simp [Within, oldLines, newLines]

theorem within_cut {lines part : List α} (cut : part ⊆ lines) :
    Within [.equal part] [.equal lines] := by
  simpa [Within, oldLines, newLines, Opcode.old, Opcode.new] using cut

theorem trimFirst_within (n : Nat) (codes : List (Opcode α)) : Within (trimFirst n codes) codes := by
  unfold trimFirst
  split
  · exact (within_cut (List.drop_subset _ _)).append (within_refl _)
  · exact within_refl _

theorem trimLast_within (n : Nat) : ∀ codes : List (Opcode α), Within (trimLast n codes) codes
  | [] => within_refl _
  | [.equal _] => within_cut (List.take_subset _ _)
  | [.change _ _] => within_refl _
  | code :: next :: rest => by
    rw [trimLast]
    exact (within_refl [code]).append (trimLast_within n (next :: rest))

theorem groupFrom_within {n oldStart newStart : Nat} {codes rest : List (Opcode α)}
    {group : HunkGroup α} (here : group ∈ groupFrom n oldStart newStart codes rest) :
    Within group.codes (codes ++ rest) := by
  induction rest generalizing codes oldStart newStart with
  | nil =>
    rw [List.append_nil]
    unfold groupFrom closeGroup at here
    split at here
    · cases here
    · cases here
    · rw [List.mem_singleton.mp here]
      exact within_refl _
  | cons code rest ih =>
    cases code with
    | change old new =>
      have inside := ih here
      rwa [List.append_assoc] at inside
    | equal lines =>
      rw [groupFrom] at here
      split at here
      · rcases List.mem_cons.mp here with rfl | later
        · have front := (within_refl codes).append (within_cut (List.take_subset n lines))
          have whole := front.trans (within_left _ rest)
          rwa [List.append_assoc] at whole
        · have cut := within_cut (List.drop_subset (lines.length - n) lines)
          exact ((ih later).trans (cut.append (within_refl rest))).trans (within_right _ _)
      · have inside := ih here
        rwa [List.append_assoc] at inside

/-- A group shows lines of the two sequences only. -/
theorem groupedOpcodes_within {n : Nat} {codes : List (Opcode α)} {group : HunkGroup α}
    (here : group ∈ groupedOpcodes n codes) : Within group.codes codes :=
  (groupFrom_within here).trans ((trimLast_within n _).trans (trimFirst_within n codes))

end Groups

section Rendering

variable {α : Type}

/-- `_format_range_unified`, from the start and the length of the range. -/
def formatRange (start length : Nat) : Text :=
  if length = 1 then Nat.toDigits 10 (start + 1)
  else Nat.toDigits 10 (if length = 0 then start else start + 1) ++ ',' :: Nat.toDigits 10 length

def Opcode.render : Opcode Text → List Text
  | .equal lines => lines.map (' ' :: ·)
  | .change old new => old.map ('-' :: ·) ++ new.map ('+' :: ·)

theorem Opcode.mem_render {code : Opcode Text} {line : Text} (here : line ∈ code.render) :
    (∃ l ∈ code.old, line = ' ' :: l) ∨ (∃ l ∈ code.removed, line = '-' :: l) ∨
      ∃ l ∈ code.added, line = '+' :: l := by
  cases code with
  | equal lines =>
    obtain ⟨l, inside, rfl⟩ := List.mem_map.mp here
    exact .inl ⟨l, inside, rfl⟩
  | change old new =>
    rcases List.mem_append.mp here with gone | fresh
    · obtain ⟨l, inside, rfl⟩ := List.mem_map.mp gone
      exact .inr (.inl ⟨l, inside, rfl⟩)
    · obtain ⟨l, inside, rfl⟩ := List.mem_map.mp fresh
      exact .inr (.inr ⟨l, inside, rfl⟩)

theorem Opcode.removed_subset (code : Opcode α) : code.removed ⊆ code.old := by
  cases code <;> simp [removed, old]

theorem Opcode.added_subset (code : Opcode α) : code.added ⊆ code.new := by
  cases code <;> simp [added, new]

def HunkGroup.header (group : HunkGroup Text) : Text :=
  "@@ -".toList ++ formatRange group.oldStart (oldLines group.codes).length ++ " +".toList ++
    formatRange group.newStart (newLines group.codes).length ++ " @@".toList

def HunkGroup.render (group : HunkGroup Text) : List Text :=
  group.header :: group.codes.flatMap Opcode.render

def unifiedDiff (matcher : SequenceMatcher Text) (a b : List Text) (fromfile tofile : Text)
    (n : Nat) : List Text :=
  match groupedOpcodes n (matcher.opcodes a b) with
  | [] => []
  | groups => ("--- ".toList ++ fromfile) :: ("+++ ".toList ++ tofile) ::
      groups.flatMap HunkGroup.render

end Rendering

end RepoForge.Difflib
