import RepoForge.Library.PyText

/-!
# Python strings with lone surrogates

A `str` is a list of code points; those from U+D800 to U+DFFF are no characters, cannot be encoded
as UTF-8, and are written `?` by the error handler `replace`.
-/
namespace RepoForge

inductive CodePoint where
  | scalar (c : Char)
  /-- U+D800 and so many -/
  | surrogate (n : Fin 2048)
  deriving DecidableEq, Repr

abbrev PyStr := List CodePoint

instance : LawfulBEq PyStr := inferInstance

namespace CodePoint

def value : CodePoint → Nat
  | scalar c => c.toNat
  | surrogate n => 0xD800 + n

def isSurrogate : CodePoint → Bool
  | scalar _ => false
  | surrogate _ => true

/-- A class of characters, to which no surrogate belongs. -/
def within (p : Char → Bool) : CodePoint → Bool
  | scalar c => p c
  | surrogate _ => false

/-- What the handler `replace` makes of it. -/
def replaced : CodePoint → Char
  | scalar c => c
  | surrogate _ => '?'

end CodePoint

namespace PyStr

def ofText (t : Text) : PyStr := t.map .scalar

/-- A literal of the source. -/
def lit (s : String) : PyStr := ofText s.toList

/-- `str` of a natural number. -/
def ofNat (n : Nat) : PyStr := ofText (Nat.toDigits 10 n)

/-- `encode("utf-8")` does not raise. -/
def encodable (s : PyStr) : Bool := s.all fun c => !c.isSurrogate

/-- The characters that `encode("utf-8", errors="replace")` encodes. -/
def replaced (s : PyStr) : Text := s.map CodePoint.replaced

/-- `encode("utf-8")` of characters. -/
def utf8 (t : Text) : Bytes := t.flatMap String.utf8EncodeChar

/-- `decode("utf-8", errors="strict")`. -/
def decode (b : Bytes) : Option Text := b.toByteArray.utf8Decode?.map (·.toList)

def strip (s : PyStr) : PyStr :=
  (s.dropWhile (CodePoint.within PyText.isSpace)).rdropWhile (CodePoint.within PyText.isSpace)

def replaceChar (old new : Char) (s : PyStr) : PyStr :=
  s.map fun c => if c = .scalar old then .scalar new else c

def join (separator : PyStr) (parts : List PyStr) : PyStr := separator.intercalate parts

/-- `partition`: what is before the first separator, whether there is one, and what is after it. -/
def partition (separator : PyStr) : PyStr → PyStr × Bool × PyStr
  | [] => ([], false, [])
  | c :: rest =>
    if separator.isPrefixOf (c :: rest) then ([], true, (c :: rest).drop separator.length)
    else
      let (before, found, after) := partition separator rest
      (c :: before, found, after)

/-- `sub in s` -/
def contains (s sub : PyStr) : Bool := s.tails.any sub.isPrefixOf

/-- One character of `first`, then at most `most` of `others`. -/
def firstThen (first others : Char → Bool) (most : Nat) : PyStr → Bool
  | [] => false
  | c :: rest => c.within first && rest.all (·.within others) && decide (rest.length ≤ most)

/-- `^[0-9a-f]{n}$` -/
def isHex (n : Nat) (s : PyStr) : Bool := decide (s.length = n) && s.all (·.within lowerHex)

/-- `splitlines(keepends=True)` with the code points of the current line, the last first. -/
def linesKeptFrom (current : PyStr) : PyStr → List PyStr
  | [] => if current = [] then [] else [current.reverse]
  | c :: rest =>
    if c = .scalar '\r' ∧ rest.head? = some (.scalar '\n') then linesKeptFrom (c :: current) rest
    else if c.within PyText.isLineBreak then (c :: current).reverse :: linesKeptFrom [] rest
    else linesKeptFrom (c :: current) rest

def linesKept (s : PyStr) : List PyStr := linesKeptFrom [] s

theorem firstThen_mono {first others first' others' : Char → Bool} {most most' : Nat} {s : PyStr}
    (head : ∀ c, first c = true → first' c = true) (tail : ∀ c, others c = true → others' c = true)
    (bound : most ≤ most') (h : firstThen first others most s = true) :
    firstThen first' others' most' s = true := by
  have within : ∀ (p q : Char → Bool), (∀ c, p c = true → q c = true) →
      ∀ c : CodePoint, c.within p = true → c.within q = true := by
    intro p q implies c inside
    cases c with
    | scalar c => exact implies c inside
    | surrogate n => cases inside
  cases s with
  | nil => cases h
  | cons c rest =>
    simp only [firstThen, Bool.and_eq_true, List.all_eq_true, decide_eq_true_eq] at h ⊢
    exact ⟨⟨within _ _ head c h.1.1, fun d here => within _ _ tail d (h.1.2 d here)⟩, by omega⟩

theorem encodable_of_within {p : Char → Bool} {s : PyStr} (h : s.all (·.within p) = true) :
    s.encodable = true := by
  simp only [encodable, List.all_eq_true] at h ⊢
  intro c here
  cases c with
  | scalar c => rfl
  | surrogate n => cases h _ here

theorem isHex_encodable {n : Nat} {s : PyStr} (h : isHex n s = true) : s.encodable = true := by
  simp only [isHex, Bool.and_eq_true] at h
  exact encodable_of_within h.2

theorem firstThen_encodable {first others : Char → Bool} {most : Nat} {s : PyStr}
    (h : firstThen first others most s = true) : s.encodable = true := by
  cases s with
  | nil => cases h
  | cons c rest =>
    simp only [firstThen, Bool.and_eq_true] at h
    cases c with
    | scalar c =>
      have plain := encodable_of_within h.1.2
      simpa [encodable, CodePoint.isSurrogate] using plain
    | surrogate n => cases h.1.1

theorem decode_utf8 (t : Text) : decode (utf8 t) = some t := by
  have whole : (utf8 t).toByteArray.utf8Decode? = some t.toArray := List.utf8Decode?_utf8Encode
  simp [decode, whole]

theorem linesKeptFrom_flatten (s current : PyStr) :
    (linesKeptFrom current s).flatten = current.reverse ++ s := by
  induction s generalizing current with
  | nil =>
    rw [linesKeptFrom]
    split
    · rename_i empty
      simp [empty]
    · simp
  | cons c rest ih =>
    rw [linesKeptFrom]
    split
    · rw [ih]
      simp
    · split
      · rw [List.flatten_cons, ih]
        simp
      · rw [ih]
        simp

theorem linesKept_flatten (s : PyStr) : (linesKept s).flatten = s := linesKeptFrom_flatten s []

theorem length_ofText_replaced (s : PyStr) : (ofText (replaced s)).length = s.length := by
  simp [ofText, replaced]

/-- A string that can be encoded occurs where it did before the surrogates were replaced. -/
theorem prefix_drop_replaced {sub s : PyStr} {i : Nat} (clean : encodable sub = true)
    (here : sub <+: s.drop i) : sub <+: (ofText (replaced s)).drop i := by
  have same : sub.map (CodePoint.scalar ∘ CodePoint.replaced) = sub := by
    refine (List.map_congr_left ?_).trans (List.map_id sub)
    intro c listed
    have scalar := List.all_eq_true.mp clean c listed
    cases c with
    | scalar c => rfl
    | surrogate n => cases scalar
  have mapped := here.map (CodePoint.scalar ∘ CodePoint.replaced)
  rw [same, List.map_drop] at mapped
  simpa [ofText, replaced] using mapped

theorem ofText_replaced {s : PyStr} (clean : encodable s = true) : ofText (replaced s) = s := by
  have whole := prefix_drop_replaced clean (s := s) (i := 0) (by simp)
  exact (whole.eq_of_length (by simp [length_ofText_replaced])).symm

theorem replaced_ofText (t : Text) : replaced (ofText t) = t := by
  induction t with
  | nil => rfl
  | cons c t ih => exact congrArg (c :: ·) ih

theorem ofText_encodable (t : Text) : encodable (ofText t) = true := by
  simp [encodable, ofText, CodePoint.isSurrogate]

theorem ofNat_digits {n : Nat} {c : CodePoint} (h : c ∈ ofNat n) :
    ∃ d : Char, c = .scalar d ∧ d.isDigit = true := by
  obtain ⟨d, listed, rfl⟩ := List.mem_map.mp h
  exact ⟨d, rfl, Nat.isDigit_of_mem_toDigits (by decide) (by decide) listed⟩

theorem mem_join {separator : PyStr} {parts : List PyStr} {c : CodePoint}
    (h : c ∈ join separator parts) : c ∈ separator ∨ ∃ part ∈ parts, c ∈ part := by
  induction parts with
  | nil => simp [join] at h
  | cons part rest ih =>
    cases rest with
    | nil =>
      simp [join] at h
      exact .inr ⟨part, by simp, h⟩
    | cons next rest =>
      have split : join separator (part :: next :: rest) =
          part ++ separator ++ join separator (next :: rest) := by
        simp [join, List.intercalate, List.intersperse]
      rw [split, List.mem_append, List.mem_append] at h
      rcases h with (here | here) | here
      · exact .inr ⟨part, by simp, here⟩
      · exact .inl here
      · refine (ih here).imp id fun there => ?_
        obtain ⟨other, listed, inside⟩ := there
        exact ⟨other, List.mem_cons_of_mem _ listed, inside⟩

theorem lit_inj {a b : String} : lit a = lit b ↔ a = b := by
  constructor
  · intro same
    have scalars : Function.Injective CodePoint.scalar := fun _ _ same => CodePoint.scalar.inj same
    exact String.toList_inj.mp (List.map_injective_iff.mpr scalars same)
  · rintro rfl
    rfl

theorem partition_eq {separator text : PyStr} :
    text = (partition separator text).1 ++ (if (partition separator text).2.1 = true then
      separator ++ (partition separator text).2.2 else []) := by
  induction text with
  | nil => rfl
  | cons c rest ih =>
    unfold partition
    by_cases here : separator.isPrefixOf (c :: rest) = true
    · obtain ⟨tail, same⟩ := List.isPrefixOf_iff_prefix.mp here
      simp [← same]
    · simp only [here]
      exact congrArg (c :: ·) ih

theorem partition_at {separator : CodePoint} {before after : PyStr} (absent : separator ∉ before) :
    partition [separator] (before ++ separator :: after) = (before, true, after) := by
  induction before with
  | nil => simp [partition]
  | cons c before ih =>
    rw [List.mem_cons, not_or] at absent
    have here : [separator].isPrefixOf (c :: (before ++ separator :: after)) = false := by
      rw [List.isPrefixOf_cons_cons, beq_false_of_ne absent.1, Bool.false_and]
    rw [List.cons_append, partition, here, ih absent.2]
    rfl

theorem partition_absent {c : CodePoint} {separator text : PyStr} (absent : c ∉ text) :
    partition (c :: separator) text = (text, false, []) := by
  induction text with
  | nil => rfl
  | cons first rest ih =>
    rw [List.mem_cons, not_or] at absent
    have here : ((c :: separator).isPrefixOf (first :: rest)) = false := by
      rw [List.isPrefixOf_cons_cons, beq_false_of_ne absent.1, Bool.false_and]
    rw [partition, here, ih absent.2]
    rfl

section Join

variable {separator first : PyStr} {values rest : List PyStr} {c : CodePoint}

theorem join_cons : ∃ tail, join separator (first :: rest) = first ++ tail := by
  cases rest with
  | nil => exact ⟨[], by simp [join]⟩
  | cons next rest =>
    exact ⟨separator ++ join separator (next :: rest), by
      simp [join, List.intercalate_cons_cons]⟩

theorem mem_join_of {value : PyStr} (there : value ∈ values) (inside : c ∈ value) :
    c ∈ join separator values := by
  induction values with
  | nil => cases there
  | cons first rest ih =>
    rcases List.mem_cons.mp there with rfl | there
    · obtain ⟨tail, same⟩ := @join_cons separator value rest
      simp [same, inside]
    · have full : rest ≠ [] := List.ne_nil_of_mem there
      have inside := ih there
      unfold join at inside ⊢
      rw [List.intercalate_cons_of_ne_nil full]
      simp [inside]

theorem head_join (full : first ≠ []) :
    (join separator (first :: rest)).head? = first.head? := by
  obtain ⟨tail, same⟩ := @join_cons separator first rest
  rw [same, List.head?_append_of_ne_nil _ full]

end Join

end PyStr

end RepoForge
