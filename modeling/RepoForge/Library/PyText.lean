import Mathlib.Data.Char
import Mathlib.Data.List.DropRight
import Mathlib.Data.List.Infix
import Mathlib.Data.List.Lex

/-!
# Python text

Texts are lists of characters, with the methods of Python's `str` on them: `splitlines`
breaks at ten characters and at `\r\n`, `split()` and `strip()` go by Unicode white space,
and `\d` and `int` take every Unicode decimal digit. A function that may raise returns in
`Except`.
-/
namespace RepoForge

abbrev Text := List Char
abbrev Bytes := List UInt8

/-- `[a-f0-9]`. -/
def lowerHex (c : Char) : Bool := c.isDigit || ('a' ≤ c && c ≤ 'f')

theorem ok_bind {ε α β : Type} {a : α} {f : α → Except ε β} : (Except.ok a >>= f) = f a := rfl

/-- What a computation that may raise went through to return. -/
theorem bind_ok {ε α β : Type} {x : Except ε α} {f : α → Except ε β} {b : β}
    (h : (x >>= f) = .ok b) : ∃ a, x = .ok a ∧ f a = .ok b := by
  cases x with
  | error e => cases h
  | ok a => exact ⟨a, rfl, h⟩

theorem bind_eq_ok_iff {ε α β : Type} {x : Except ε α} {f : α → Except ε β} {b : β} :
    (x >>= f) = .ok b ↔ ∃ a, x = .ok a ∧ f a = .ok b := by
  constructor
  · exact bind_ok
  · rintro ⟨a, rfl, run⟩
    exact run

theorem ok_of_map {ε α β : Type} {x : Except ε α} {f : α → β} {b : β}
    (h : x.toOption.map f = some b) : ∃ a, x = .ok a ∧ f a = b := by
  cases x with
  | ok a => exact ⟨a, rfl, Option.some.inj h⟩
  | error e => cases h

theorem ok_of_isSome {ε α : Type} {x : Except ε α} (h : x.toOption.isSome = true) :
    ∃ a, x = .ok a := by
  cases x with
  | ok a => exact ⟨a, rfl⟩
  | error e => cases h

theorem bind_error {ε α β : Type} {x : Except ε α} {f : α → Except ε β} {e : ε}
    (h : (x >>= f) = .error e) : x = .error e ∨ ∃ a, x = .ok a ∧ f a = .error e := by
  cases x with
  | error e' =>
    cases h
    exact .inl rfl
  | ok a => exact .inr ⟨a, rfl, h⟩

/-- The same for a loop that makes a list. -/
theorem mapM_ok {ε α β : Type} {f : α → Except ε β} {xs : List α} {ys : List β}
    (h : xs.mapM f = .ok ys) : List.Forall₂ (fun x y => f x = .ok y) xs ys := by
  induction xs generalizing ys with
  | nil =>
    cases h
    exact .nil
  | cons x rest ih =>
    rw [List.mapM_cons] at h
    obtain ⟨y, first, h⟩ := bind_ok h
    obtain ⟨later, others, h⟩ := bind_ok h
    cases h
    exact .cons first (ih others)

theorem mapM_of_ok {ε α β : Type} {f : α → Except ε β} {g : α → β} {xs : List α}
    (each : ∀ x ∈ xs, f x = .ok (g x)) : xs.mapM f = .ok (xs.map g) := by
  induction xs with
  | nil => rfl
  | cons x rest ih =>
    rw [List.mapM_cons, each x (List.mem_cons_self ..),
      ih fun y later => each y (List.mem_cons_of_mem _ later)]
    rfl

/-- A loop over the items and their places. -/
theorem mapM_zipIdx {ε α β : Type} {f : α → Nat → Except ε β} {g : α → β} {xs : List α} {n : Nat}
    (each : ∀ x ∈ xs, ∀ i, f x i = .ok (g x)) :
    (xs.zipIdx n).mapM (fun item => f item.1 item.2) = .ok (xs.map g) := by
  induction xs generalizing n with
  | nil => rfl
  | cons x rest ih =>
    rw [List.zipIdx_cons, List.mapM_cons, each x (List.mem_cons_self ..) n,
      ih fun y later => each y (List.mem_cons_of_mem _ later)]
    rfl

theorem zipIdx_mapM_ok {ε α β : Type} {f : α → Nat → Except ε β} {xs : List α} {ys : List β}
    {n : Nat} (h : (xs.zipIdx n).mapM (fun item => f item.1 item.2) = .ok ys) :
    List.Forall₂ (fun x y => ∃ i, f x i = .ok y) xs ys := by
  induction xs generalizing n ys with
  | nil =>
    cases h
    exact .nil
  | cons x rest ih =>
    rw [List.zipIdx_cons, List.mapM_cons] at h
    obtain ⟨y, first, h⟩ := bind_ok h
    obtain ⟨later, others, h⟩ := bind_ok h
    cases h
    exact .cons ⟨n, first⟩ (ih others)

theorem mapM_some {α β : Type} {f : α → Option β} {xs : List α} {ys : List β}
    (h : xs.mapM f = some ys) : List.Forall₂ (fun x y => f x = some y) xs ys := by
  induction xs generalizing ys with
  | nil =>
    cases h
    exact .nil
  | cons x rest ih =>
    rw [List.mapM_cons] at h
    obtain ⟨y, first, h⟩ := Option.bind_eq_some_iff.mp h
    obtain ⟨later, others, h⟩ := Option.bind_eq_some_iff.mp h
    cases h
    exact .cons first (ih others)

/-- Each member of the first list has one of the second. -/
theorem forall₂_mem {α β : Type} {rel : α → β → Prop} {xs : List α} {ys : List β}
    (all : List.Forall₂ rel xs ys) {x : α} (here : x ∈ xs) : ∃ y ∈ ys, rel x y := by
  induction all with
  | nil => cases here
  | @cons x' y xs ys first _ ih =>
    rcases List.mem_cons.mp here with rfl | here
    · exact ⟨y, by simp, first⟩
    · obtain ⟨y', there, related⟩ := ih here
      exact ⟨y', List.mem_cons_of_mem _ there, related⟩

/-- A dictionary of the items by their key, where no two have the same. -/
theorem find_of_key {α β : Type} [DecidableEq β] {key : α → β} {xs : List α} {x : α}
    (unique : (xs.map key).Nodup) (here : x ∈ xs) : (xs.find? fun y => key y = key x) = some x := by
  induction xs with
  | nil => cases here
  | cons y rest ih =>
    obtain ⟨fresh, unique⟩ := List.nodup_cons.mp unique
    rcases List.mem_cons.mp here with rfl | here
    · simp
    · have other : key y ≠ key x := fun same => fresh (same ▸ List.mem_map_of_mem here)
      rw [List.find?_cons_of_neg (by simpa using other)]
      exact ih unique here

namespace PyText

/-- `str.isspace` for one character. -/
def isSpace (c : Char) : Bool :=
  [9, 10, 11, 12, 13, 28, 29, 30, 31, 32, 0x85, 0xA0, 0x1680, 0x2000, 0x2001, 0x2002, 0x2003,
    0x2004, 0x2005, 0x2006, 0x2007, 0x2008, 0x2009, 0x200A, 0x2028, 0x2029, 0x202F, 0x205F,
    0x3000].contains c.toNat

def isLineBreak (c : Char) : Bool :=
  [10, 11, 12, 13, 28, 29, 30, 0x85, 0x2028, 0x2029].contains c.toNat

/-- The zeros of the runs of ten decimal digits. -/
def digitZeros : List Nat :=
  [0x30, 0x660, 0x6F0, 0x7C0, 0x966, 0x9E6, 0xA66, 0xAE6, 0xB66, 0xBE6, 0xC66, 0xCE6, 0xD66,
    0xDE6, 0xE50, 0xED0, 0xF20, 0x1040, 0x1090, 0x17E0, 0x1810, 0x1946, 0x19D0, 0x1A80, 0x1A90,
    0x1B50, 0x1BB0, 0x1C40, 0x1C50, 0xA620, 0xA8D0, 0xA900, 0xA9D0, 0xA9F0, 0xAA50, 0xABF0,
    0xFF10, 0x104A0, 0x10D30, 0x11066, 0x110F0, 0x11136, 0x111D0, 0x112F0, 0x11450, 0x114D0,
    0x11650, 0x116C0, 0x11730, 0x118E0, 0x11950, 0x11C50, 0x11D50, 0x11DA0, 0x11F50, 0x16A60,
    0x16AC0, 0x16B50, 0x1D7CE, 0x1D7D8, 0x1D7E2, 0x1D7EC, 0x1D7F6, 0x1E140, 0x1E2F0, 0x1E4F0,
    0x1E950, 0x1FBF0]

/-- The value of a decimal digit. -/
def decimal (c : Char) : Option Nat :=
  (digitZeros.find? fun first => first ≤ c.toNat && c.toNat < first + 10).map (c.toNat - ·)

def isDecimal (c : Char) : Bool := (decimal c).isSome

/-- `int` of a text of decimal digits. -/
def toInt (digits : Text) : Nat := digits.foldl (fun n c => 10 * n + (decimal c).getD 0) 0

def strip (t : Text) : Text := (t.dropWhile isSpace).rdropWhile isSpace

def startsWith (t start : Text) : Bool := start.isPrefixOf t
def endsWith (t stop : Text) : Bool := stop.isSuffixOf t

/-- `splitlines` with the characters of the current line, the last first. -/
def linesFrom (current : Text) : Text → List Text
  | [] => if current = [] then [] else [current.reverse]
  | c :: rest =>
    if c = '\r' ∧ rest.head? = some '\n' then linesFrom current rest
    else if isLineBreak c then current.reverse :: linesFrom [] rest
    else linesFrom (c :: current) rest

def splitlines (t : Text) : List Text := linesFrom [] t

/-- `split()` with the characters of the current word, the last first. -/
def wordsFrom (current : Text) : Text → List Text
  | [] => if current = [] then [] else [current.reverse]
  | c :: rest =>
    if isSpace c then
      if current = [] then wordsFrom [] rest else current.reverse :: wordsFrom [] rest
    else wordsFrom (c :: current) rest

def split (t : Text) : List Text := wordsFrom [] t

def join (separator : Text) (parts : List Text) : Text := separator.intercalate parts

/-- What text mode makes of the line ends that it reads. -/
def universalNewlines : Text → Text
  | '\r' :: '\n' :: rest => '\n' :: universalNewlines rest
  | '\r' :: rest => '\n' :: universalNewlines rest
  | c :: rest => c :: universalNewlines rest
  | [] => []

theorem universalNewlines_of_clean {t : Text} (clean : '\r' ∉ t) : universalNewlines t = t := by
  induction t with
  | nil => rfl
  | cons c rest ih =>
    obtain ⟨first, later⟩ : ¬ '\r' = c ∧ '\r' ∉ rest := by simpa using clean
    rw [universalNewlines, ih later]
    · intro _ same
      exact absurd same.symm first
    · intro same
      exact absurd same.symm first

/-- Each line with its newline. -/
def unlines (lines : List Text) : Text := lines.flatMap fun line => line ++ ['\n']

/-- No line break in the text. -/
def OneLine (t : Text) : Prop := ∀ c ∈ t, isLineBreak c = false

instance (t : Text) : Decidable (OneLine t) :=
  decidable_of_iff (t.all (fun c => isLineBreak c = false) = true) (by simp [OneLine])

section Lines

theorem isSpace_of_isLineBreak {c : Char} (h : isLineBreak c = true) : isSpace c = true := by
  unfold isLineBreak at h
  unfold isSpace
  rw [List.contains_iff_mem] at h ⊢
  revert h
  generalize c.toNat = n
  intro h
  simp only [List.mem_cons, List.not_mem_nil, or_false] at h
  rcases h with rfl | rfl | rfl | rfl | rfl | rfl | rfl | rfl | rfl | rfl <;> decide

theorem oneLine_tail {c : Char} {t : Text} (h : OneLine (c :: t)) : OneLine t :=
  fun d hd => h d (List.mem_cons_of_mem _ hd)

theorem oneLine_nil : OneLine [] := fun _ hc => absurd hc List.not_mem_nil

theorem ne_of_isLineBreak {c d : Char} (h : isLineBreak c = false) (hd : isLineBreak d = true) :
    c ≠ d := by
  rintro rfl
  rw [h] at hd
  cases hd

theorem linesFrom_line : ∀ (line current rest : Text), OneLine line →
    linesFrom current (line ++ '\n' :: rest) = (current.reverse ++ line) :: linesFrom [] rest
  | [], current, rest, _ => by simp [linesFrom, isLineBreak]
  | c :: line, current, rest, h => by
    have hc := h c (by simp)
    have not_cr : c ≠ '\r' := ne_of_isLineBreak hc (by decide)
    rw [List.cons_append, linesFrom, if_neg (fun both => not_cr both.1), hc, if_neg (by simp),
      linesFrom_line line (c :: current) rest fun d hd => h d (List.mem_cons_of_mem _ hd)]
    simp

theorem linesFrom_oneLine : ∀ (t current : Text), OneLine current →
    ∀ l ∈ linesFrom current t, OneLine l
  | [], current, h => by
    unfold linesFrom
    split
    · simp
    · intro l hl
      obtain rfl := List.mem_singleton.mp hl
      exact fun c hc => h c (List.mem_reverse.mp hc)
  | c :: rest, current, h => by
    rw [linesFrom]
    split
    · exact linesFrom_oneLine rest current h
    · split
      · intro l hl
        rcases List.mem_cons.mp hl with rfl | hl
        · exact fun c hc => h c (List.mem_reverse.mp hc)
        · exact linesFrom_oneLine rest [] (fun c hc => absurd hc List.not_mem_nil) l hl
      · rename_i inside
        refine linesFrom_oneLine rest (c :: current) fun d hd => ?_
        rcases List.mem_cons.mp hd with rfl | hd
        · simpa using inside
        · exact h d hd

theorem splitlines_oneLine (t : Text) : ∀ l ∈ splitlines t, OneLine l :=
  linesFrom_oneLine t [] fun _ h => absurd h List.not_mem_nil

/-- A text without a line break is the last line. -/
theorem linesFrom_rest {current rest : Text} (plain : OneLine rest) :
    linesFrom current rest =
      if current.reverse ++ rest = [] then [] else [current.reverse ++ rest] := by
  induction rest generalizing current with
  | nil => simp [linesFrom]
  | cons c rest ih =>
    have here := plain c List.mem_cons_self
    have other : c ≠ '\r' := ne_of_isLineBreak here (by decide)
    rw [linesFrom, if_neg (fun both => other both.1), here, if_neg (by simp),
      ih (oneLine_tail plain)]
    simp

/-- Lines in whole, and what is left of the next. -/
theorem splitlines_cut {lines : List Text} {rest : Text} (each : ∀ line ∈ lines, OneLine line)
    (cut : OneLine rest) :
    splitlines (unlines lines ++ rest) = lines ++ if rest = [] then [] else [rest] := by
  induction lines with
  | nil =>
    have last := @linesFrom_rest [] rest cut
    by_cases empty : rest = []
    · simpa [unlines, splitlines, empty] using last
    · simpa [unlines, splitlines, empty] using last
  | cons line lines ih =>
    have later := ih fun l there => each l (List.mem_cons_of_mem _ there)
    have here := each line List.mem_cons_self
    unfold splitlines unlines at later ⊢
    rw [List.flatMap_cons, List.append_assoc, List.append_assoc, List.singleton_append,
      linesFrom_line line [] _ here, later]
    simp

theorem join_newline : ∀ lines : List Text, lines ≠ [] →
    join ['\n'] lines ++ ['\n'] = unlines lines
  | [line], _ => by simp [join, unlines]
  | line :: next :: lines, _ => by
    have ih := join_newline (next :: lines) (by simp)
    simp only [join, List.intercalate, unlines] at ih ⊢
    simp only [List.intersperse_cons_cons, List.flatMap_cons, List.flatten_cons,
      List.append_assoc] at ih ⊢
    rw [ih]

end Lines

end PyText

end RepoForge
