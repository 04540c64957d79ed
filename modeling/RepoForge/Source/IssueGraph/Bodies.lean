import RepoForge.Source.IssueGraph.Planning

/-!
# Materialised issue bodies

`materialize_issue_graph_body` of `domain/issue_graph_publication.py`: the numbers of issues in
place of references, in the lines from the last heading of a graph intent on. What `sub` does with
a regular expression is a scan; `skip` more code points belong to the last match.
-/
namespace RepoForge.IssueGraph
open PyStr (lit linesKept sortedDistinct)

/-- `mapping.get` -/
abbrev Numbers := PyStr → Option Int

def graphIntentHeading : PyStr := lit "## RepoForge graph intent"

def lineEnd (c : CodePoint) : Bool := c = .scalar '\r' || c = .scalar '\n'

/-- `line.rstrip("\r\n")` -/
def content (line : PyStr) : PyStr := line.rdropWhile lineEnd

/-- `line[len(content):]` -/
def ending (line : PyStr) : PyStr := line.drop (content line).length

def isHeading (line : PyStr) : Bool := content line = graphIntentHeading

section References

def refChar (c : CodePoint) : Bool := c.within fun c => c.isAlphanum || "._-".toList.contains c

/-- What `_MANAGED_REFERENCE` matches here. -/
def tickedRef (tick : CodePoint) (rest : PyStr) : Option PyStr :=
  let ref := rest.takeWhile refChar
  if tick = .scalar '\x60' ∧ isSafeRef ref = true ∧
      (rest.drop ref.length).head? = some (.scalar '\x60') then some ref
  else none

def tickedRefs (skip : Nat) : PyStr → List PyStr
  | [] => []
  | c :: rest =>
    match skip with
    | skip + 1 => tickedRefs skip rest
    | 0 =>
      match tickedRef c rest with
      | some ref => ref :: tickedRefs (ref.length + 1) rest
      | none => tickedRefs 0 rest

/-- `_MANAGED_REFERENCE.sub` -/
def subTicked (number : PyStr → PyStr) (skip : Nat) : PyStr → PyStr
  | [] => []
  | c :: rest =>
    match skip with
    | skip + 1 => subTicked number skip rest
    | 0 =>
      match tickedRef c rest with
      | some ref => number ref ++ subTicked number (ref.length + 1) rest
      | none => c :: subTicked number 0 rest

/-- `_MANAGED_REFERENCE_LINE.match` -/
def isReferenceLine (content : PyStr) : Bool :=
  [lit "Parent: ", lit "Blocked by: ", lit "Relates: ", lit "Supersedes: "].any
    (·.isPrefixOf content)

def itemMark : PyStr := lit "- [ ] "

/-- The reference that `_CHECKLIST_REFERENCE.match` finds. -/
def checklistRef (content : PyStr) : Option PyStr :=
  let rest := content.drop itemMark.length
  let ref := rest.takeWhile refChar
  if itemMark.isPrefixOf content = true ∧ isSafeRef ref = true ∧
      (lit " — ").isPrefixOf (rest.drop ref.length) = true then some ref
  else none

/-- The references that a managed line holds. -/
def managedRefs (content : PyStr) : List PyStr :=
  if isReferenceLine content then tickedRefs 0 content else (checklistRef content).toList

def withNumbers (number : PyStr → PyStr) (content : PyStr) : PyStr :=
  if isReferenceLine content then subTicked number 0 content
  else
    match checklistRef content with
    | some ref => itemMark ++ number ref ++ content.drop (itemMark.length + ref.length)
    | none => content

end References

/-- A managed line with numbers in it. -/
def managedLine (number : PyStr → PyStr) (line : PyStr) : PyStr :=
  withNumbers number (content line) ++ ending line

/-- The last heading, or the end. -/
def managedFrom (lines : List PyStr) : Nat :=
  match lines.reverse.findIdx? isHeading with
  | some after => lines.length - 1 - after
  | none => lines.length

def issueNumber (mapping : Numbers) (ref : PyStr) : Option Int := (mapping ref).filter (0 < ·)

/-- `number` -/
def numberOf (mapping : Numbers) (ref : PyStr) : PyStr :=
  match issueNumber mapping ref with
  | some n => lit "#" ++ Json.ofInt n
  | none => ref

/-- A `RepoForgeError` with the code `PROPOSAL_BLOCKED`. -/
structure UnresolvedReferences where
  message : String := "Issue graph body contains unresolved publication references"
  unresolvedRefs : List PyStr
  stepId : Option PyStr
  safeNextAction : String :=
    "Resume publication after the referenced issues have durable number mappings."
  deriving DecidableEq

def materializeIssueGraphBody (body : PyStr) (mapping : Numbers) (stepId : Option PyStr) :
    Except UnresolvedReferences PyStr :=
  let lines := linesKept body
  let managed := lines.drop (managedFrom lines)
  let unresolved := (managed.flatMap fun line => managedRefs (content line)).filter
    fun ref => issueNumber mapping ref = none
  if unresolved ≠ [] then
    .error { unresolvedRefs := sortedDistinct unresolved, stepId := stepId }
  else .ok ((lines.take (managedFrom lines)).flatten ++
    (managed.map (managedLine (numberOf mapping))).flatten)

end RepoForge.IssueGraph
