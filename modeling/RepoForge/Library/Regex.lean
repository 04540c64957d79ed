import Mathlib.Data.List.Infix

/-!
# Regular expressions

Patterns as the module `re` matches them: `run` gives the ways in which a pattern matches at a
place, in the order in which a backtracking engine tries them, so that the first is the match.
Repetition is of one class of characters, which is what the patterns here need.
-/
namespace RepoForge.Regex

variable {α : Type}

inductive Pattern (α : Type) where
  | nothing
  | one (accepts : α → Bool)
  | many (accepts : α → Bool) (least : Nat) (most : Option Nat) (lazily : Bool)
  | next (first second : Pattern α)
  | either (first second : Pattern α)
  /-- `(?!...)` of one class. -/
  | notAhead (refused : α → Bool)
  /-- `(?<!...)` of one class. -/
  | notBehind (refused : α → Bool)
  /-- `\b` -/
  | boundary (word : α → Bool)
  | group (number : Nat) (body : Pattern α)

/-- A place in a text, and the spans of the groups so far. -/
structure Cursor (α : Type) where
  before : Option α
  rest : List α
  position : Nat
  groups : List (Nat × Nat × Nat)

def Cursor.ahead (c : Cursor α) (n : Nat) : Cursor α :=
  { c with
    before := if n = 0 then c.before else (c.rest.take n).getLast?
    rest := c.rest.drop n
    position := c.position + n }

namespace Pattern

def run : Pattern α → Cursor α → List (Cursor α)
  | nothing, c => [c]
  | one accepts, c => if c.rest.head?.any accepts then [c.ahead 1] else []
  | many accepts least most lazily, c =>
    let run := (c.rest.takeWhile accepts).length
    let longest := most.elim run (min run)
    let counts := List.range' least (longest + 1 - least)
    (if lazily then counts else counts.reverse).map c.ahead
  | next first second, c => (first.run c).flatMap second.run
  | either first second, c => first.run c ++ second.run c
  | notAhead refused, c => if c.rest.head?.any refused then [] else [c]
  | notBehind refused, c => if c.before.any refused then [] else [c]
  | boundary word, c => if c.before.any word ≠ c.rest.head?.any word then [c] else []
  | group number body, c => (body.run c).map fun d =>
    { d with groups := (number, c.position, d.position) :: d.groups }

def sequence (parts : List (Pattern α)) : Pattern α := parts.foldr next nothing

def anyOf (parts : List (Pattern α)) : Pattern α :=
  match parts with
  | [] => one fun _ => false
  | [part] => part
  | part :: rest => either part (anyOf rest)

/-- `(...)?` -/
def optional (body : Pattern α) : Pattern α := either body nothing

/-- `*` of a class. -/
def star (accepts : α → Bool) : Pattern α := many accepts 0 none false

/-- `+` of a class. -/
def plus (accepts : α → Bool) : Pattern α := many accepts 1 none false

/-- `{least,}` of a class. -/
def atLeast (least : Nat) (accepts : α → Bool) : Pattern α := many accepts least none false

/-- `{count}` of a class. -/
def times (count : Nat) (accepts : α → Bool) : Pattern α := many accepts count (some count) false

end Pattern

structure Match where
  start : Nat
  stop : Nat
  groups : List (Nat × Nat × Nat)

/-- `match.span(number)` of a group that took part in the match. -/
def Match.span (m : Match) (number : Nat) : Nat × Nat :=
  ((m.groups.find? (·.1 = number)).map (·.2)).getD (0, 0)

/-- `finditer` of a pattern that takes one character at least; `skip` more belong to the last
match. -/
def finditerFrom (pattern : Pattern α) : Option α → List α → Nat → Nat → List Match
  | _, [], _, _ => []
  | before, x :: rest, position, 0 =>
    match (pattern.run ⟨before, x :: rest, position, []⟩).head? with
    | some d => ⟨position, d.position, d.groups⟩ ::
        finditerFrom pattern (some x) rest (position + 1) (d.position - position - 1)
    | none => finditerFrom pattern (some x) rest (position + 1) 0
  | _, x :: rest, position, skip + 1 => finditerFrom pattern (some x) rest (position + 1) skip

def finditer (pattern : Pattern α) (text : List α) : List Match :=
  finditerFrom pattern none text 0 0

def fullmatch (pattern : Pattern α) (text : List α) : Bool :=
  (pattern.run ⟨none, text, 0, []⟩).any (·.rest.isEmpty)

/-- What a pattern that begins with a class matches begins with a member of it. -/
theorem fullmatch_next_one {accepts : α → Bool} {rest : Pattern α} {text : List α}
    (h : fullmatch (.next (.one accepts) rest) text = true) :
    text.head?.any accepts = true := by
  by_contra away
  simp [fullmatch, Pattern.run, away] at h

end RepoForge.Regex
