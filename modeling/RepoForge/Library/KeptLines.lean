import RepoForge.Library.PyStr

/-!
# Kept lines

`splitlines(keepends=True)` of texts that are joined, and texts that differ whatever follows them.
-/
namespace RepoForge.PyStr

section Lines

def newline : PyStr := [.scalar '\n']

/-- A line that was begun goes on with the first line. -/
theorem linesKeptFrom_begun {current s : PyStr} (some : s ≠ []) :
    ∃ first later, linesKept s = first :: later ∧
      linesKeptFrom current s = (current.reverse ++ first) :: later := by
  induction s generalizing current with
  | nil => exact absurd rfl some
  | cons c rest ih =>
    rw [linesKept, linesKeptFrom, linesKeptFrom]
    by_cases empty : rest = []
    · rw [empty]
      refine ⟨[c], [], ?_, ?_⟩
      · simp [linesKeptFrom]
      · simp [linesKeptFrom]
    split
    · obtain ⟨first, later, lines, begun⟩ := @ih (c :: current) empty
      obtain ⟨first', later', lines', alone⟩ := @ih [c] empty
      rw [lines] at lines'
      obtain ⟨rfl, rfl⟩ := List.cons.inj lines'
      exact ⟨_, _, alone, by rw [begun]; simp⟩
    split
    · exact ⟨[c], linesKeptFrom [] rest, rfl, by simp⟩
    · obtain ⟨first, later, lines, begun⟩ := @ih (c :: current) empty
      obtain ⟨first', later', lines', alone⟩ := @ih [c] empty
      rw [lines] at lines'
      obtain ⟨rfl, rfl⟩ := List.cons.inj lines'
      exact ⟨_, _, alone, by rw [begun]; simp⟩

theorem linesKeptFrom_newline (current s t : PyStr) :
    linesKeptFrom current (s ++ newline ++ t) =
      linesKeptFrom current (s ++ newline) ++ linesKept t := by
  induction s generalizing current with
  | nil =>
    have ended : ∀ u, linesKeptFrom current (.scalar '\n' :: u) =
        (.scalar '\n' :: current).reverse :: linesKeptFrom [] u := by
      intro u
      have other : ¬ (CodePoint.scalar '\n' = .scalar '\r' ∧ u.head? = some (.scalar '\n')) :=
        fun both => absurd both.1 (by decide)
      rw [linesKeptFrom, if_neg other]
      exact if_pos rfl
    rw [List.nil_append, newline, List.singleton_append, ended, ended]
    rfl
  | cons c rest ih =>
    have same : (rest ++ newline ++ t).head? = (rest ++ newline).head? := by
      cases rest <;> rfl
    rw [List.cons_append, List.cons_append, linesKeptFrom, linesKeptFrom, same]
    split
    · exact ih _
    split
    · rw [ih, List.cons_append]
    · exact ih _

/-- Texts that end with a newline are split apart. -/
theorem linesKept_flatMap (texts : List PyStr) :
    linesKept (texts.flatMap (· ++ newline)) = texts.flatMap fun s => linesKept (s ++ newline) := by
  induction texts with
  | nil => rfl
  | cons s texts ih => rw [List.flatMap_cons, linesKept, linesKeptFrom_newline, ih, List.flatMap_cons,
      linesKept]

theorem linesKeptFrom_unbroken {current s : PyStr} {t : PyStr}
    (unbroken : ∀ c ∈ s, c.within PyText.isLineBreak = false) :
    linesKeptFrom current (s ++ t) = linesKeptFrom (s.reverse ++ current) t := by
  induction s generalizing current with
  | nil => rfl
  | cons c rest ih =>
    have plain := unbroken c List.mem_cons_self
    have other : c ≠ .scalar '\r' := by
      rintro rfl
      cases plain
    rw [List.cons_append, linesKeptFrom, if_neg (fun both => other both.1), plain,
      if_neg Bool.false_ne_true, ih fun d here => unbroken d (List.mem_cons_of_mem c here)]
    simp

/-- What is put before the first line. -/
theorem linesKept_unbroken {s t : PyStr} (unbroken : ∀ c ∈ s, c.within PyText.isLineBreak = false)
    (some : t ≠ []) : ∃ first later, linesKept t = first :: later ∧
      linesKept (s ++ t) = (s ++ first) :: later := by
  obtain ⟨first, later, lines, begun⟩ := @linesKeptFrom_begun s.reverse _ some
  refine ⟨first, later, lines, ?_⟩
  rw [linesKept, linesKeptFrom_unbroken unbroken, List.append_nil, begun, List.reverse_reverse]

theorem join_newline {texts : List PyStr} (some : texts ≠ []) :
    join newline texts ++ newline = texts.flatMap (· ++ newline) := by
  induction texts with
  | nil => exact absurd rfl some
  | cons s texts ih =>
    cases texts with
    | nil => simp [join]
    | cons t texts =>
      have apart : join newline (s :: t :: texts) = s ++ newline ++ join newline (t :: texts) := by
        simp [join, List.intercalate, List.intersperse]
      rw [apart, List.append_assoc, ih (List.cons_ne_nil t texts)]
      rfl

end Lines

section Differing

/-- The texts differ before either ends. -/
def Differs (s t : PyStr) : Prop :=
  ∃ front c d after other, s = front ++ c :: after ∧ t = front ++ d :: other ∧ c ≠ d

variable {s t : PyStr}

theorem Differs.symm (differs : Differs s t) : Differs t s := by
  obtain ⟨front, c, d, after, other, rfl, rfl, different⟩ := differs
  exact ⟨front, d, c, other, after, rfl, rfl, different.symm⟩

theorem Differs.after (differs : Differs s t) (front : PyStr) :
    Differs (front ++ s) (front ++ t) := by
  obtain ⟨before, c, d, after, other, rfl, rfl, different⟩ := differs
  exact ⟨front ++ before, c, d, after, other, by simp, by simp, different⟩

theorem Differs.before (differs : Differs s t) (u v : PyStr) : Differs (s ++ u) (t ++ v) := by
  obtain ⟨front, c, d, after, other, rfl, rfl, different⟩ := differs
  exact ⟨front, c, d, after ++ u, other ++ v, by simp, by simp, different⟩

theorem Differs.ne (differs : Differs s t) : s ≠ t := by
  obtain ⟨front, c, d, after, other, rfl, rfl, different⟩ := differs
  intro same
  exact different (List.cons.inj (List.append_cancel_left same)).1

/-- Lines that agree or differ, one of which differs. -/
theorem Differs.flatten {α : Type} {f g : α → PyStr} {items : List α}
    (apart : ∀ x ∈ items, f x = g x ∨ Differs (f x) (g x)) (one : ∃ x ∈ items, f x ≠ g x) :
    Differs (items.map f).flatten (items.map g).flatten := by
  induction items with
  | nil =>
    obtain ⟨x, here, -⟩ := one
    cases here
  | cons x items ih =>
    rw [List.map_cons, List.map_cons, List.flatten_cons, List.flatten_cons]
    rcases apart x List.mem_cons_self with same | differs
    · rw [same]
      refine (ih (fun y here => apart y (List.mem_cons_of_mem x here)) ?_).after _
      obtain ⟨y, here, other⟩ := one
      rcases List.mem_cons.mp here with rfl | here
      · exact absurd same other
      · exact ⟨y, here, other⟩
    · exact differs.before _ _

end Differing

end RepoForge.PyStr
