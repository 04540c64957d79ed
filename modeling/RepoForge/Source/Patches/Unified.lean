import RepoForge.Library.PyText

/-!
# Hunks of unified patches

Source: `domain/patches.py`: hunks and their application, `_apply_hunks`. The `safe_next_action` of
an error is left out; its code and the data of its message are kept.
-/
namespace RepoForge

open PyText

inductive PatchErrorCode where
  | parseFailed | contextNotFound | contextAmbiguous
  deriving DecidableEq, Repr

inductive PatchError where
  | contextNotFound (path : Text) (ordinal : Nat) (header : Text)
  | contextAmbiguous (path : Text) (ordinal : Nat) (header : Text) (candidates : Nat)
  | malformedHunkLine (path : Text) (ordinal : Nat) (line : Text)
  deriving DecidableEq, Repr

namespace PatchError

def code : PatchError → PatchErrorCode
  | contextNotFound _ _ _ => .contextNotFound
  | contextAmbiguous _ _ _ _ => .contextAmbiguous
  | malformedHunkLine _ _ _ => .parseFailed

end PatchError

structure Hunk where
  header : Text
  oldStart : Nat
  oldCount : Nat
  newStart : Nat
  newCount : Nat
  lines : List Text
  deriving DecidableEq, Repr

inductive Repair where
  | whitespaceNormalizedContext | relocatedHunks | recountedHunks
  deriving DecidableEq, Repr

def joinText (lines : List Text) (trailingNewline : Bool) : Text :=
  if lines = [] then [] else join ['\n'] lines ++ if trailingNewline then ['\n'] else []

def normalizedLine (value : Text) : Text := join [' '] (split value)

def candidateStarts (content pattern : List Text) (whitespace : Bool) : List Nat :=
  if pattern = [] then [0]
  else
    let comparable := if whitespace then normalizedLine else id
    (List.range (content.length + 1 - pattern.length)).filter fun index =>
      ((content.drop index).take pattern.length).map comparable = pattern.map comparable

/-- The lines of a hunk that stand in the old file. -/
def Hunk.oldPattern (hunk : Hunk) : List Text :=
  hunk.lines.filterMap fun line => match line with
    | ' ' :: value | '-' :: value => some value
    | _ => none

def Hunk.actualOldCount (hunk : Hunk) : Nat :=
  hunk.lines.countP fun line => line.head? = some ' ' || line.head? = some '-'

def Hunk.actualNewCount (hunk : Hunk) : Nat :=
  hunk.lines.countP fun line => line.head? = some ' ' || line.head? = some '+'

/-- Where a hunk goes, and whether its context matched only up to white space. -/
def locate (path : Text) (ordinal : Nat) (hunk : Hunk) (content : List Text) :
    Except PatchError (Nat × Bool) :=
  match candidateStarts content hunk.oldPattern false with
  | [start] => .ok (start, false)
  | [] => match candidateStarts content hunk.oldPattern true with
    | [start] => .ok (start, true)
    | [] => .error (.contextNotFound path ordinal hunk.header)
    | candidates => .error (.contextAmbiguous path ordinal hunk.header candidates.length)
  | candidates => .error (.contextAmbiguous path ordinal hunk.header candidates.length)

/-- The lines that replace the matched ones. -/
def replacement (path : Text) (ordinal : Nat) (whitespace : Bool) :
    List Text → List Text → Except PatchError (List Text)
  | _, [] => .ok []
  | matched, line :: rest => match line with
    | ' ' :: value => do
      let others ← replacement path ordinal whitespace (matched.drop 1) rest
      .ok ((if whitespace then matched.headD [] else value) :: others)
    | '-' :: _ => replacement path ordinal whitespace (matched.drop 1) rest
    | '+' :: value => do
      let others ← replacement path ordinal whitespace matched rest
      .ok (value :: others)
    | '\\' :: _ => replacement path ordinal whitespace matched rest
    | line => .error (.malformedHunkLine path ordinal line)

def hunkRepairs (hunk : Hunk) (start : Nat) (whitespace : Bool) (displacement : Int) :
    List Repair :=
  (if whitespace then [.whitespaceNormalizedContext] else []) ++
    (if (start : Int) ≠ max 0 ((hunk.oldStart : Int) - 1 + displacement) then [.relocatedHunks]
      else []) ++
    (if hunk.actualOldCount ≠ hunk.oldCount ∨ hunk.actualNewCount ≠ hunk.newCount then
      [.recountedHunks] else [])

/-- The loop of `_apply_hunks`. -/
def applyHunksFrom (path : Text) : Nat → Int → List Text → List Hunk →
    Except PatchError (List Text × List Repair)
  | _, _, content, [] => .ok (content, [])
  | ordinal, displacement, content, hunk :: rest => do
    let (start, whitespace) ← locate path ordinal hunk content
    let size := hunk.oldPattern.length
    let lines ← replacement path ordinal whitespace ((content.drop start).take size) hunk.lines
    let (result, repairs) ← applyHunksFrom path (ordinal + 1)
      (displacement + lines.length - size)
      (content.take start ++ lines ++ content.drop (start + size)) rest
    .ok (result, hunkRepairs hunk start whitespace displacement ++ repairs)

def applyHunks (path original : Text) (hunks : List Hunk) :
    Except PatchError (Text × List Repair) := do
  let (content, repairs) ← applyHunksFrom path 1 0 (splitlines original) hunks
  .ok (joinText content (endsWith original ['\n'] || content ≠ []), repairs)

end RepoForge
