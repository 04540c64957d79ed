import RepoForge.Library.PyJson

/-!
# Shell patterns

`fnmatch.fnmatchcase`: a pattern is a list of items, each of which stands for one character or, if
it is a star, for any number of them. `escape` writes a text as a pattern that only the text itself
matches.
-/
namespace RepoForge.Fnmatch

inductive Item where
  /-- `*` -/
  | star
  /-- `?` -/
  | any
  /-- `[a-z]`, `[!a-z]`: ranges of code points. -/
  | set (negated : Bool) (ranges : List (CodePoint × CodePoint))
  | char (c : CodePoint)
  deriving DecidableEq

/-- The ranges between two brackets; a single code point is a range. -/
def ranges : PyStr → List (CodePoint × CodePoint)
  | [] => []
  | [c] => [(c, c)]
  | [c, d] => [(c, c), (d, d)]
  | c :: d :: e :: rest =>
    if d = .scalar '-' then (c, e) :: ranges rest else (c, c) :: ranges (d :: e :: rest)

/-- What stands before the bracket that closes the set, and after it. A bracket right at the start
does not close. -/
def closing (text : PyStr) : Option (PyStr × PyStr) :=
  let start := if text.head? = some (.scalar '!') then 1 else 0
  let first := if text[start]? = some (.scalar ']') then start + 1 else start
  let length := ((text.drop first).takeWhile (· ≠ .scalar ']')).length
  if first + length < text.length then
    some (text.take (first + length), text.drop (first + length + 1))
  else none

def setOf (body : PyStr) : Item :=
  if body.head? = some (.scalar '!') then .set true (ranges body.tail) else .set false (ranges body)

/-- The items of a pattern; a bracket that is not closed stands for itself. -/
def itemsFrom : Nat → PyStr → List Item
  | 0, _ => []
  | _ + 1, [] => []
  | n + 1, c :: rest =>
    if c = .scalar '*' then .star :: itemsFrom n rest
    else if c = .scalar '?' then .any :: itemsFrom n rest
    else if c = .scalar '[' then
      match closing rest with
      | some (body, after) => setOf body :: itemsFrom n after
      | none => .char c :: itemsFrom n rest
    else .char c :: itemsFrom n rest

def items (pattern : PyStr) : List Item := itemsFrom pattern.length pattern

def Item.accepts (c : CodePoint) : Item → Bool
  | .star => true
  | .any => true
  | .set negated ranges =>
    ranges.any (fun range => decide (range.1.value ≤ c.value ∧ c.value ≤ range.2.value)) != negated
  | .char d => decide (c = d)

def accepts : List Item → PyStr → Bool
  | [], text => text.isEmpty
  | .star :: rest, text => text.tails.any (accepts rest)
  | item :: rest, text =>
    match text with
    | [] => false
    | c :: text => item.accepts c && accepts rest text

def fnmatchcase (text pattern : PyStr) : Bool := accepts (items pattern) text

/-! ### Texts as patterns -/

/-- Whether a code point must be bracketed to stand for itself. -/
def special (c : CodePoint) : Bool :=
  decide (c = .scalar '*' ∨ c = .scalar '?' ∨ c = .scalar '[' ∨ c = .scalar '.')

/-- A pattern for a text; dots are bracketed too, so that it has no component `.`. -/
def escape (text : PyStr) : PyStr :=
  text.flatMap fun c => if special c then [.scalar '[', c, .scalar ']'] else [c]

/-- The item that stands for one code point in `escape`. -/
def literal (c : CodePoint) : Item := if special c then .set false [(c, c)] else .char c

theorem closing_one {c : CodePoint} {rest : PyStr} (bang : c ≠ .scalar '!')
    (bracket : c ≠ .scalar ']') : closing (c :: .scalar ']' :: rest) = some ([c], rest) := by
  unfold closing
  simp [bang, bracket]

theorem itemsFrom_escape (text : PyStr) {n : Nat} (enough : (escape text).length ≤ n) :
    itemsFrom n (escape text) = text.map literal := by
  induction text generalizing n with
  | nil => cases n <;> rfl
  | cons c rest ih =>
    unfold escape at enough ⊢
    rw [List.flatMap_cons] at enough ⊢
    by_cases bracketed : special c = true
    · rw [if_pos bracketed] at enough ⊢
      obtain ⟨m, rfl⟩ : ∃ m, n = m + 1 := ⟨n - 1, by simp at enough; omega⟩
      have later : (escape rest).length ≤ m := by
        simp only [escape, List.length_append, List.length_cons, List.length_nil] at enough ⊢
        omega
      have choice := of_decide_eq_true bracketed
      have body : closing (c :: .scalar ']' :: escape rest) = some ([c], escape rest) := by
        apply closing_one <;> rintro rfl <;> simp at choice
      have one : setOf [c] = .set false [(c, c)] := by
        unfold setOf
        rw [if_neg]
        · rfl
        · rintro ⟨⟩
          simp at choice
      rw [List.map_cons, literal, if_pos bracketed, ← ih later, ← one]
      change itemsFrom (m + 1) (.scalar '[' :: (c :: .scalar ']' :: escape rest)) = _
      rw [itemsFrom, if_neg (by decide), if_neg (by decide), if_pos rfl, body]
    · rw [if_neg bracketed] at enough ⊢
      obtain ⟨m, rfl⟩ : ∃ m, n = m + 1 := ⟨n - 1, by simp at enough; omega⟩
      have later : (escape rest).length ≤ m := by
        simp only [escape, List.length_append, List.length_cons, List.length_nil] at enough ⊢
        omega
      have choice : ¬ (c = .scalar '*' ∨ c = .scalar '?' ∨ c = .scalar '[' ∨ c = .scalar '.') :=
        fun h => bracketed (decide_eq_true h)
      simp only [not_or] at choice
      rw [List.map_cons, literal, if_neg bracketed, ← ih later]
      change itemsFrom (m + 1) (c :: escape rest) = _
      rw [itemsFrom, if_neg choice.1, if_neg choice.2.1, if_neg choice.2.2.1]

theorem accepts_literal {c d : CodePoint} : (literal d).accepts c = true ↔ c = d := by
  unfold literal
  split
  · have between : (Item.set false [(d, d)]).accepts c =
        decide (d.value ≤ c.value ∧ c.value ≤ d.value) := by simp [Item.accepts]
    rw [between, decide_eq_true_iff]
    constructor
    · intro between
      exact CodePoint.value_injective (le_antisymm between.2 between.1)
    · rintro rfl
      exact ⟨le_refl _, le_refl _⟩
  · simp [Item.accepts]

theorem accepts_literal_cons {c : CodePoint} {rest : List Item} {other : PyStr} :
    accepts (literal c :: rest) other = true ↔
      ∃ tail, other = c :: tail ∧ accepts rest tail = true := by
  have shape : accepts (literal c :: rest) other = match other with
      | [] => false
      | d :: tail => (literal c).accepts d && accepts rest tail := by
    unfold literal
    split <;> cases other <;> rfl
  rw [shape]
  cases other with
  | nil => simp
  | cons d tail =>
    rw [Bool.and_eq_true, accepts_literal]
    constructor
    · rintro ⟨rfl, later⟩
      exact ⟨tail, rfl, later⟩
    · rintro ⟨_, ⟨⟩, later⟩
      exact ⟨rfl, later⟩

theorem accepts_literals {text other : PyStr} :
    accepts (text.map literal) other = true ↔ other = text := by
  induction text generalizing other with
  | nil => simp [accepts]
  | cons c rest ih =>
    rw [List.map_cons, accepts_literal_cons]
    constructor
    · rintro ⟨tail, rfl, later⟩
      rw [ih.mp later]
    · rintro rfl
      exact ⟨rest, rfl, ih.mpr rfl⟩

/-- Only the text itself matches the pattern for it. -/
theorem fnmatchcase_escape {text other : PyStr} :
    fnmatchcase other (escape text) = true ↔ other = text := by
  unfold fnmatchcase items
  rw [itemsFrom_escape text (Nat.le_refl _)]
  exact accepts_literals

end RepoForge.Fnmatch

/-!
# Pure POSIX paths

`PurePosixPath`: a path is whether it is absolute and its parts, without empty parts and dots.
-/
namespace RepoForge.PurePath

def slash : CodePoint := .scalar '/'
def dot : PyStr := [.scalar '.']
def dots : PyStr := [.scalar '.', .scalar '.']

/-- `parts` of a relative path; of an absolute one, those after the root. -/
def parts (path : PyStr) : List PyStr :=
  (path.splitOn slash).filter fun part => !part.isEmpty && decide (part ≠ dot)

def isAbsolute (path : PyStr) : Bool := path.head? = some slash

/-- `as_posix` of a relative path. -/
def asPosix (parts : List PyStr) : PyStr :=
  if parts = [] then dot else PyStr.join [slash] parts

/-- A part of a path: no name has a slash, and neither an empty name nor a dot is a part. -/
def IsPart (part : PyStr) : Prop := part ≠ [] ∧ part ≠ dot ∧ slash ∉ part

/-- The parts of `path` from the right, each matched by a part of the pattern. -/
def matchesParts (path pattern : List PyStr) : Bool :=
  decide (pattern.length ≤ path.length) &&
    (path.reverse.zip pattern.reverse).all fun pair => Fnmatch.fnmatchcase pair.1 pair.2

/-- `match` of a relative path; `none` where the pattern is empty, which is an error. -/
def «match» (path pattern : PyStr) : Option Bool :=
  if isAbsolute pattern then some false
  else if parts pattern = [] then none
  else some (matchesParts (parts path) (parts pattern))

theorem not_mem_splitOn {α : Type} [DecidableEq α] {sep : α} {text part : List α}
    (inside : part ∈ text.splitOn sep) : sep ∉ part := by
  induction text generalizing part with
  | nil =>
    rw [List.splitOn_nil, List.mem_singleton] at inside
    rw [inside]
    exact List.not_mem_nil
  | cons c rest ih =>
    rw [List.splitOn_cons_eq_if_modifyHead] at inside
    split at inside
    · rcases List.mem_cons.mp inside with rfl | inside
      · exact List.not_mem_nil
      · exact ih inside
    · rename_i other
      cases split : rest.splitOn sep with
      | nil => exact absurd split (List.splitOn_ne_nil sep rest)
      | cons first others =>
        rw [split, List.modifyHead_cons] at inside
        rcases List.mem_cons.mp inside with rfl | inside
        · intro there
          rcases List.mem_cons.mp there with rfl | there
          · simp at other
          · exact ih (by rw [split]; exact List.mem_cons_self) there
        · exact ih (by rw [split]; exact List.mem_cons_of_mem first inside)

theorem mem_of_mem_splitOn {α : Type} [DecidableEq α] {sep c : α} {text part : List α}
    (there : part ∈ text.splitOn sep) (inside : c ∈ part) : c ∈ text := by
  induction text generalizing part with
  | nil =>
    rw [List.splitOn_nil, List.mem_singleton] at there
    rw [there] at inside
    cases inside
  | cons d rest ih =>
    rw [List.splitOn_cons_eq_if_modifyHead] at there
    split at there
    · rcases List.mem_cons.mp there with rfl | there
      · cases inside
      · exact List.mem_cons_of_mem d (ih there inside)
    · cases split : rest.splitOn sep with
      | nil => exact absurd split (List.splitOn_ne_nil sep rest)
      | cons first others =>
        rw [split, List.modifyHead_cons] at there
        rcases List.mem_cons.mp there with rfl | there
        · rcases List.mem_cons.mp inside with rfl | inside
          · exact List.mem_cons_self
          · exact List.mem_cons_of_mem d (ih (by rw [split]; exact List.mem_cons_self) inside)
        · exact List.mem_cons_of_mem d
            (ih (by rw [split]; exact List.mem_cons_of_mem first there) inside)

theorem isPart_parts {path part : PyStr} (inside : part ∈ parts path) : IsPart part := by
  unfold parts at inside
  rw [List.mem_filter, Bool.and_eq_true, decide_eq_true_iff] at inside
  obtain ⟨split, full, other⟩ := inside
  exact ⟨by simpa using full, other, not_mem_splitOn split⟩

/-- The code points of a joined path. -/
theorem mem_asPosix {names : List PyStr} {c : CodePoint} (inside : c ∈ asPosix names) :
    c = .scalar '.' ∨ c = slash ∨ ∃ name ∈ names, c ∈ name := by
  unfold asPosix at inside
  split at inside
  · exact .inl (List.mem_singleton.mp inside)
  · right
    rename_i full
    clear full
    unfold PyStr.join at inside
    induction names with
    | nil => cases inside
    | cons first rest ih =>
      cases rest with
      | nil =>
        rw [List.intercalate_singleton] at inside
        exact .inr ⟨first, List.mem_cons_self, inside⟩
      | cons second rest =>
        rw [List.intercalate_cons_cons, List.append_assoc, List.mem_append,
          List.singleton_append, List.mem_cons] at inside
        rcases inside with inside | rfl | inside
        · exact .inr ⟨first, List.mem_cons_self, inside⟩
        · exact .inl rfl
        · rcases ih inside with same | ⟨part, there, inside⟩
          · exact .inl same
          · exact .inr ⟨part, List.mem_cons_of_mem first there, inside⟩

theorem filter_parts {names : List PyStr} (all : ∀ name ∈ names, IsPart name) :
    names.filter (fun part => !part.isEmpty && decide (part ≠ dot)) = names := by
  rw [List.filter_eq_self]
  intro name inside
  obtain ⟨full, other, -⟩ := all name inside
  simp [full, other]

/-- The parts of a joined path. -/
theorem parts_asPosix {names : List PyStr} (all : ∀ name ∈ names, IsPart name) :
    parts (asPosix names) = names := by
  unfold asPosix
  split
  · rename_i empty
    rw [empty]
    decide
  · rename_i full
    unfold parts PyStr.join
    rw [List.splitOn_intercalate slash (fun name inside => (all name inside).2.2) full]
    exact filter_parts all

theorem asPosix_ne_nil {names : List PyStr} (all : ∀ name ∈ names, IsPart name) :
    asPosix names ≠ [] := by
  intro empty
  have none : parts (asPosix names) = [] := by
    rw [empty]
    decide
  rw [parts_asPosix all] at none
  rw [none] at empty
  exact absurd empty (by decide)

/-- A joined path is relative. -/
theorem isAbsolute_asPosix {names : List PyStr} (all : ∀ name ∈ names, IsPart name) :
    isAbsolute (asPosix names) = false := by
  unfold asPosix isAbsolute
  split
  · decide
  · rename_i full
    obtain ⟨first, rest, rfl⟩ := List.exists_cons_of_ne_nil full
    obtain ⟨nonempty, -, free⟩ := all first List.mem_cons_self
    obtain ⟨c, tail, rfl⟩ := List.exists_cons_of_ne_nil nonempty
    have other : c ≠ slash := fun same => free (same ▸ List.mem_cons_self)
    have head : (PyStr.join [slash] ((c :: tail) :: rest)).head? = some c := by
      unfold PyStr.join
      cases rest with
      | nil => simp
      | cons second rest => simp [List.intercalate_cons_cons]
    rw [head]
    simpa using other

/-! ### Split and joined -/

/-- Splitting gives back what was joined just when the separator is in no part. -/
theorem splitOn_join_iff {values : List PyStr} {c : CodePoint} (full : values ≠ []) :
    (PyStr.join [c] values).splitOn c = values ↔ ∀ value ∈ values, c ∉ value := by
  constructor
  · intro same value there
    rw [← same] at there
    exact not_mem_splitOn there
  · exact fun free => List.splitOn_intercalate c free full

theorem mem_splitOn_of_mem {α : Type} [DecidableEq α] {sep c : α} {text : List α}
    (inside : c ∈ text) (other : c ≠ sep) : ∃ part ∈ text.splitOn sep, c ∈ part := by
  induction text with
  | nil => cases inside
  | cons d rest ih =>
    rw [List.splitOn_cons_eq_if_modifyHead]
    by_cases same : d = sep
    · have inside : c ∈ rest := by
        rcases List.mem_cons.mp inside with rfl | inside
        · exact absurd same other
        · exact inside
      obtain ⟨part, there, inside⟩ := ih inside
      exact ⟨part, by simp [same, there], inside⟩
    · cases split : rest.splitOn sep with
      | nil => exact absurd split (List.splitOn_ne_nil sep rest)
      | cons first others =>
        simp only [beq_iff_eq, same, if_false, List.modifyHead_cons, List.mem_cons,
          exists_eq_or_imp]
        rcases List.mem_cons.mp inside with rfl | inside
        · simp
        · obtain ⟨part, there, inside⟩ := ih inside
          rw [split] at there
          rcases List.mem_cons.mp there with rfl | there
          · simp [inside]
          · exact .inr ⟨part, there, inside⟩

/-- Only slashes and dots come and go. -/
theorem mem_asPosix_parts {path : PyStr} {c : CodePoint} (noSlash : c ≠ slash) (noDot : c ≠ .scalar '.') :
    c ∈ asPosix (parts path) ↔ c ∈ path := by
  constructor
  · intro inside
    rcases mem_asPosix inside with same | same | ⟨name, there, inside⟩
    · exact absurd same noDot
    · exact absurd same noSlash
    · exact mem_of_mem_splitOn (List.mem_of_mem_filter there) inside
  · intro inside
    obtain ⟨part, there, inside⟩ := mem_splitOn_of_mem inside noSlash
    have other : part ≠ dot := by
      intro same
      rw [same] at inside
      exact noDot (List.mem_singleton.mp inside)
    have there : part ∈ parts path := by
      unfold parts
      rw [List.mem_filter]
      exact ⟨there, by simp [List.ne_nil_of_mem inside, other]⟩
    unfold asPosix
    rw [if_neg (List.ne_nil_of_mem there)]
    exact PyStr.mem_join_of there inside

theorem head_asPosix {names : List PyStr} (all : ∀ name ∈ names, IsPart name) :
    (asPosix names).head? = (names.head?.getD dot).head? := by
  unfold asPosix
  cases names with
  | nil => rfl
  | cons first rest =>
    rw [if_neg (List.cons_ne_nil first rest), PyStr.head_join (all first List.mem_cons_self).1]
    rfl

/-! ### Patterns for paths -/

theorem escape_ne_nil {part : PyStr} (full : part ≠ []) : Fnmatch.escape part ≠ [] := by
  obtain ⟨c, rest, rfl⟩ := List.exists_cons_of_ne_nil full
  unfold Fnmatch.escape
  rw [List.flatMap_cons]
  split <;> simp

theorem mem_escape {part : PyStr} {c : CodePoint} (inside : c ∈ Fnmatch.escape part) :
    c ∈ part ∨ c = .scalar '[' ∨ c = .scalar ']' := by
  unfold Fnmatch.escape at inside
  obtain ⟨d, there, inside⟩ := List.mem_flatMap.mp inside
  split at inside
  · simp only [List.mem_cons, List.not_mem_nil, or_false] at inside
    rcases inside with rfl | rfl | rfl
    · exact .inr (.inl rfl)
    · exact .inl there
    · exact .inr (.inr rfl)
  · rw [List.mem_singleton] at inside
    exact .inl (inside ▸ there)

theorem isPart_escape {part : PyStr} (ok : part ≠ [] ∧ slash ∉ part) :
    IsPart (Fnmatch.escape part) := by
  refine ⟨escape_ne_nil ok.1, ?_, ?_⟩
  · obtain ⟨c, rest, rfl⟩ := List.exists_cons_of_ne_nil ok.1
    unfold Fnmatch.escape
    rw [List.flatMap_cons]
    split
    · rintro ⟨⟩
    · rename_i plain
      intro same
      have first : c = .scalar '.' := (List.cons.inj same).1
      exact plain (by rw [first]; decide)
  · intro inside
    rcases mem_escape inside with inside | other | other
    · exact ok.2 inside
    · cases other
    · cases other

theorem escape_join (names : List PyStr) :
    Fnmatch.escape (PyStr.join [slash] names) = PyStr.join [slash] (names.map Fnmatch.escape) := by
  have sep : Fnmatch.escape [slash] = [slash] := by decide
  have append : ∀ s t, Fnmatch.escape (s ++ t) = Fnmatch.escape s ++ Fnmatch.escape t :=
    fun s t => List.flatMap_append
  unfold PyStr.join
  induction names with
  | nil => rfl
  | cons first rest ih =>
    cases rest with
    | nil => simp
    | cons second rest =>
      rw [List.map_cons, List.map_cons, List.intercalate_cons_cons, List.intercalate_cons_cons,
        append, append, sep, ih, List.map_cons]

theorem zip_escape {names path : List PyStr} (fits : names.length ≤ path.length) :
    ((path.zip (names.map Fnmatch.escape)).all fun pair =>
      Fnmatch.fnmatchcase pair.1 pair.2) = true ↔ names <+: path := by
  induction names generalizing path with
  | nil => simp
  | cons first rest ih =>
    cases path with
    | nil => simp at fits
    | cons name path =>
      rw [List.map_cons, List.zip_cons_cons, List.all_cons, Bool.and_eq_true,
        Fnmatch.fnmatchcase_escape, ih (by simpa using fits), List.cons_prefix_cons, eq_comm]

theorem matchesParts_escape {names path : List PyStr} :
    matchesParts path (names.map Fnmatch.escape) = true ↔ names <:+ path := by
  unfold matchesParts
  rw [Bool.and_eq_true, decide_eq_true_iff, List.length_map, ← List.map_reverse,
    ← List.reverse_prefix]
  constructor
  · rintro ⟨fits, all⟩
    exact (zip_escape (by simpa using fits)).mp all
  · intro initial
    have fits : names.reverse.length ≤ path.reverse.length := initial.length_le
    exact ⟨by simpa using fits, (zip_escape fits).mpr initial⟩

/-- The pattern for a path matches, from the right, the paths that end with it. -/
theorem match_escape {names path : List PyStr} (all : ∀ name ∈ names, IsPart name)
    (all' : ∀ name ∈ path, IsPart name) :
    PurePath.match (asPosix path) (Fnmatch.escape (asPosix names)) =
      some (decide (names ≠ [] ∧ names <:+ path)) := by
  by_cases empty : names = []
  · subst empty
    have parts_dot : parts (Fnmatch.escape (asPosix [])) = [Fnmatch.escape dot] := by decide
    have relative : isAbsolute (Fnmatch.escape (asPosix [])) = false := by decide
    have never : ¬ matchesParts path [Fnmatch.escape dot] = true := by
      intro found
      have last : [dot] <:+ path := matchesParts_escape.mp found
      exact (all' dot (last.mem List.mem_cons_self)).2.1 rfl
    unfold PurePath.match
    rw [relative, parts_dot, parts_asPosix all']
    simpa using never
  · have form : Fnmatch.escape (asPosix names) = asPosix (names.map Fnmatch.escape) := by
      unfold asPosix
      rw [if_neg empty, if_neg (by simpa using empty), escape_join]
    have escaped : ∀ name ∈ names.map Fnmatch.escape, IsPart name := by
      intro name inside
      obtain ⟨part, there, rfl⟩ := List.mem_map.mp inside
      exact isPart_escape ⟨(all part there).1, (all part there).2.2⟩
    unfold PurePath.match
    rw [form, isAbsolute_asPosix escaped, parts_asPosix escaped, parts_asPosix all',
      if_neg (by simp), if_neg (by simpa using empty)]
    congr 1
    rw [Bool.eq_iff_iff, matchesParts_escape, decide_eq_true_iff]
    exact ⟨fun suffix => ⟨empty, suffix⟩, And.right⟩

end RepoForge.PurePath
