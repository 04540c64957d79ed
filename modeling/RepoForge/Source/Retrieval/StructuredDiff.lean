import RepoForge.Library.Difflib
import RepoForge.Library.PyStr

/-!
# Structured diffs

`build_diff_file` and `parse_unified_diff` of `application/retrieval.py`, and `shlex.split` as they
call it.
-/
namespace RepoForge.StructuredDiff
open Difflib (SequenceMatcher unifiedDiff)
open PyText (isDecimal toInt splitlines startsWith)

inductive Status where
  | added | deleted | modified | renamed
  deriving DecidableEq, Repr

inductive LineKind where
  | add | delete | context
  deriving DecidableEq, Repr

structure StructuredDiffLine where
  kind : LineKind
  oldLine : Option Nat
  newLine : Option Nat
  text : Text
  deriving DecidableEq, Repr

structure StructuredDiffHunk where
  header : Text
  lines : List StructuredDiffLine
  deriving DecidableEq, Repr

structure StructuredDiffFile where
  path : Text
  status : Status
  additions : Nat
  deletions : Nat
  hunks : List StructuredDiffHunk
  deriving DecidableEq, Repr

section HunkHeader

def after (start line : Text) : Option Text :=
  if startsWith line start then some (line.drop start.length) else none

/-- `\d+` -/
def digits (line : Text) : Option (Text × Text) :=
  let read := line.takeWhile isDecimal
  if read = [] then none else some (read, line.drop read.length)

/-- `(?:,\d+)?` -/
def afterCount : Text → Text
  | ',' :: rest => (digits rest).elim (',' :: rest) Prod.snd
  | line => line

/-- `_HUNK_HEADER.match`: the groups `old` and `new`. -/
def hunkHeader (line : Text) : Option (Nat × Nat) := do
  let (old, line) ← digits (← after "@@ -".toList line)
  let (new, line) ← digits (← after " +".toList (afterCount line))
  let _ ← after " @@".toList (afterCount line)
  return (toInt old, toInt new)

end HunkHeader

section Hunks

/-- The locals of the two loops over the lines. -/
structure Reading where
  hunks : List StructuredDiffHunk
  current : Option StructuredDiffHunk
  oldLine : Nat
  newLine : Nat
  additions : Nat
  deletions : Nat

def Reading.start : Reading := ⟨[], none, 0, 0, 0, 0⟩

def Reading.closed (r : Reading) : List StructuredDiffHunk := r.hunks ++ r.current.toList

def Reading.file (r : Reading) (path : Text) (status : Status) : StructuredDiffFile :=
  ⟨path, status, r.additions, r.deletions, r.closed⟩

/-- The line of a hunk, by its marker. -/
def Reading.marked (r : Reading) (hunk : StructuredDiffHunk) (marker : Char) (text : Text) :
    Reading :=
  let put (kind : LineKind) (old new : Option Nat) : Option StructuredDiffHunk :=
    some { hunk with lines := hunk.lines ++ [⟨kind, old, new, text.take 10000⟩] }
  if marker = '+' then
    { r with
      current := put .add none r.newLine
      newLine := r.newLine + 1
      additions := r.additions + 1 }
  else if marker = '-' then
    { r with
      current := put .delete r.oldLine none
      oldLine := r.oldLine + 1
      deletions := r.deletions + 1 }
  else if marker = ' ' then
    { r with
      current := put .context r.oldLine r.newLine
      oldLine := r.oldLine + 1
      newLine := r.newLine + 1 }
  else r

/-- One pass of the loop: `cut` is what is kept of a header, and lines that are skipped are none of
the hunk's. -/
def Reading.line (cut : Text → Text) (skipped : Text → Bool) (r : Reading) (line : Text) : Reading :=
  match hunkHeader line with
  | some (old, new) =>
    { r with hunks := r.closed, current := some ⟨cut line, []⟩, oldLine := old, newLine := new }
  | none =>
    match r.current, line with
    | some hunk, marker :: text => if skipped line then r else r.marked hunk marker text
    | _, _ => r

/-- The loop of `build_diff_file`. -/
def buildLine : Reading → Text → Reading := Reading.line id fun _ => false

/-- The second loop of `parse_unified_diff`. -/
def parseLine : Reading → Text → Reading :=
  Reading.line (·.take 500) (startsWith · "\\ No newline".toList)

end Hunks

def buildDiffFile (matcher : SequenceMatcher Text) (path : Text) (before after : Option Bytes) :
    Option StructuredDiffFile :=
  if before = after then none
  else
    let status := if before = none then .added else if after = none then .deleted else .modified
    if before.any (·.contains 0) || after.any (·.contains 0) then some ⟨path, status, 0, 0, []⟩
    else
      match PyStr.decode (before.getD []), PyStr.decode (after.getD []) with
      | some beforeText, some afterText =>
        let unified := unifiedDiff matcher (splitlines beforeText) (splitlines afterText)
          ("a/".toList ++ path) ("b/".toList ++ path) 3
        some (((unified.drop 2).foldl buildLine .start).file path status)
      | _, _ => some ⟨path, status, 0, 0, []⟩

section Shlex

/-- What `shlex` is in: between words, in a word, in quotes, or after a backslash in either. The
characters of the word come the last first. -/
inductive ShlexState where
  | space
  | word (token : Text)
  | quoted (quote : Char) (token : Text)
  | escaped (quote : Option Char) (token : Text)

def shlexFrom : ShlexState → Text → Except String (List Text)
  | .space, [] => .ok []
  | .word token, [] => .ok [token.reverse]
  | .quoted _ _, [] => .error "No closing quotation"
  | .escaped _ _, [] => .error "No escaped character"
  | .space, c :: rest =>
    if c ∈ [' ', '\t', '\r', '\n'] then shlexFrom .space rest
    else if c = '\\' then shlexFrom (.escaped none []) rest
    else if c = '\'' ∨ c = '"' then shlexFrom (.quoted c []) rest
    else shlexFrom (.word [c]) rest
  | .word token, c :: rest =>
    if c ∈ [' ', '\t', '\r', '\n'] then (token.reverse :: ·) <$> shlexFrom .space rest
    else if c = '\'' ∨ c = '"' then shlexFrom (.quoted c token) rest
    else if c = '\\' then shlexFrom (.escaped none token) rest
    else shlexFrom (.word (c :: token)) rest
  | .quoted quote token, c :: rest =>
    if c = quote then shlexFrom (.word token) rest
    else if c = '\\' ∧ quote = '"' then shlexFrom (.escaped (some quote) token) rest
    else shlexFrom (.quoted quote (c :: token)) rest
  | .escaped none token, c :: rest => shlexFrom (.word (c :: token)) rest
  | .escaped (some quote) token, c :: rest =>
    if c = '\\' ∨ c = quote then shlexFrom (.quoted quote (c :: token)) rest
    else shlexFrom (.quoted quote (c :: '\\' :: token)) rest

/-- `shlex.split` -/
def shlexSplit (t : Text) : Except String (List Text) := shlexFrom .space t

end Shlex

section Parse

/-- `re.split(r"(?=^diff --git )", text, flags=re.MULTILINE)`, with the characters of the current
chunk, the last first, and whether a line starts here. -/
def chunksFrom (current : Text) (atStart : Bool) : Text → List Text
  | [] => [current.reverse]
  | c :: rest =>
    if atStart && startsWith (c :: rest) "diff --git ".toList then
      current.reverse :: chunksFrom [c] (c = '\n') rest
    else chunksFrom (c :: current) (c = '\n') rest

def chunks (text : Text) : List Text := chunksFrom [] true text

def cleanPath (raw : Text) : Text :=
  if raw = "/dev/null".toList ∨ raw = "dev/null".toList then raw
  else if startsWith raw "a/".toList ∨ startsWith raw "b/".toList then raw.drop 2
  else raw

/-- The first loop of `parse_unified_diff`. -/
def headerLine (s : Status × Text) (line : Text) : Except String (Status × Text) :=
  if startsWith line "new file mode ".toList ∨ line = "--- /dev/null".toList then .ok (.added, s.2)
  else if startsWith line "deleted file mode ".toList ∨ line = "+++ /dev/null".toList then
    .ok (.deleted, s.2)
  else if startsWith line "rename to ".toList then
    match shlexSplit (line.drop 10) with
    | .error reason => .error ("Invalid unified diff rename path: " ++ reason)
    | .ok [renamed] => .ok (.renamed, cleanPath renamed)
    | .ok _ => .error "Invalid unified diff rename path"
  else if startsWith line "+++ ".toList ∧ line ≠ "+++ /dev/null".toList then
    match shlexSplit (line.drop 4) with
    | .ok [parsed] => .ok (s.1, cleanPath parsed)
    | _ => .ok s
  else .ok s

def parseChunk (chunk : Text) : Except String (Option StructuredDiffFile) :=
  match splitlines chunk with
  | [] => .ok none
  | first :: lines =>
    if startsWith first "diff --git ".toList then
      match shlexSplit first with
      | .error reason => .error ("Invalid unified diff file header: " ++ reason)
      | .ok [_, _, _, name] => do
        let (status, path) ← lines.foldlM headerLine (.modified, cleanPath name)
        return some ((lines.foldl parseLine .start).file path status)
      | .ok _ => .error "Invalid unified diff file header"
    else .ok none

def parseUnifiedDiff (text : Text) : Except String (List StructuredDiffFile) :=
  List.reduceOption <$> (chunks text).mapM parseChunk

end Parse

end RepoForge.StructuredDiff
