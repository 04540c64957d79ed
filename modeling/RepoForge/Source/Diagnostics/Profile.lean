import Mathlib.Algebra.Ring.Int.Defs
import RepoForge.Library.PurePath
import RepoForge.Library.PyJson
import RepoForge.Library.PyDict
import RepoForge.Source.Workspace.PathPolicy

/-!
# Reviewed diagnostics

`domain/diagnostics.py`: the profile of a diagnostic and `validate_diagnostic_profile`. An error of
the source names its check, and that of a selector also the position of the selector.
-/
namespace RepoForge.Diagnostics
open PurePath
open PyStr (lit firstThen)

inductive DiagnosticSelectorKind where
  | none | trackedPath | pytestNode | packageName | enum | checkId | token
  deriving DecidableEq

inductive DiagnosticMutability where
  | readOnly | artifacts
  deriving DecidableEq

structure DiagnosticSelectorConfig where
  kind : DiagnosticSelectorKind
  name : PyStr := lit "selector"
  values : List PyStr := []
  charClasses : List PyStr := []
  maxLength : Int := 128
  prefixText : Option PyStr := none
  suffixText : Option PyStr := none
  maxValues : Int := 1
  expansion : PyStr := lit "repeat"
  separator : Option PyStr := none
  allowLeadingDash : Bool := false
  deriving DecidableEq

structure DiagnosticProfileConfig where
  diagnosticId : PyStr
  summary : PyStr
  argvTemplate : List PyStr
  selector : DiagnosticSelectorConfig
  workingDirectory : Option PyStr
  timeoutSeconds : Int
  mutability : DiagnosticMutability
  outputLimit : Int
  artifactPaths : List PyStr := []
  selector2 : Option DiagnosticSelectorConfig := none
  deriving DecidableEq

def DiagnosticProfileConfig.selectors (profile : DiagnosticProfileConfig) :
    List DiagnosticSelectorConfig :=
  profile.selector :: profile.selector2.toList

/-- The checks of one selector, in the order of the source. -/
inductive SelectorCheck where
  | name | maxValues | expansion | joinMaxValues | separator | separatorUnused | noneMaxValues
  | charClassesEmpty
  | charClassesUnknown (unknown : List PyStr)
  | charClassesDuplicate | maxLength | prefixText | suffixText | charClassesUnused | literalsUnused
  | valuesEmpty | valuesDuplicate | valuesInvalid | valuesUnused | allowLeadingDash
  deriving DecidableEq

inductive ProfileError where
  | diagnosticId | summary | argv | argument | unknownPlaceholder | partialPlaceholder
  | duplicateNames | tooManySelectors
  | selector (index : Nat) (check : SelectorCheck)
  | placeholders (found declared : List PyStr)
  | placeholderCount (name : PyStr)
  | leadingDash (name : PyStr)
  | workingDirectory | timeoutSeconds | outputLimit | artifactsRequired | artifactsUnused
  | artifactPaths | argvBound
  deriving DecidableEq

def ensure (ok : Prop) [Decidable ok] (error : ProfileError) : Except ProfileError Unit :=
  if ok then .ok () else .error error

def isControl (c : CodePoint) : Bool := decide (c.value < 32)

/-! ### Placeholders -/

def nameChar (c : Char) : Bool := c.isLower || c.isDigit || c == '_'

/-- `^[a-z][a-z0-9_]{0,31}$` -/
def isSelectorName : PyStr → Bool := firstThen Char.isLower nameChar 31

/-- `\{selector(?::(?P<name>[a-z][a-z0-9_]{0,31}))?\}` at the start of a text: the name, where the
pattern has one, and the length of the match. The class of the name has no brace, so the name is all
that is before the first character outside of it. -/
def placeholderAt (text : PyStr) : Option (Option PyStr × Nat) :=
  let opening := lit "\x7bselector"
  if opening.isPrefixOf text then
    match text.drop opening.length with
    | [] => none
    | c :: rest =>
      if c = .scalar '\x7d' then some (none, opening.length + 1)
      else if c = .scalar ':' then
        let name := rest.takeWhile (CodePoint.within nameChar)
        if isSelectorName name ∧ (rest.drop name.length).head? = some (.scalar '\x7d') then
          some (some name, opening.length + name.length + 2)
        else none
      else none
  else none

structure PlaceholderMatch where
  /-- `group(0)` -/
  text : PyStr
  /-- `group("name") or "selector"` -/
  name : PyStr
  deriving DecidableEq

/-- `_PLACEHOLDER.finditer`; `skip` more characters belong to the last match. -/
def placeholdersFrom : Nat → PyStr → List PlaceholderMatch
  | _, [] => []
  | skip + 1, _ :: rest => placeholdersFrom skip rest
  | 0, c :: rest =>
    match placeholderAt (c :: rest) with
    | some (name, length) =>
      ⟨(c :: rest).take length, name.getD (lit "selector")⟩ :: placeholdersFrom (length - 1) rest
    | none => placeholdersFrom 0 rest

def placeholders (argument : PyStr) : List PlaceholderMatch := placeholdersFrom 0 argument

/-- `replace(sub, "", 1)` -/
def removeFirst (sub : PyStr) : PyStr → PyStr
  | [] => []
  | c :: rest =>
    if sub.isPrefixOf (c :: rest) then (c :: rest).drop sub.length else c :: removeFirst sub rest

def isBrace (c : CodePoint) : Bool := decide (c = .scalar '\x7b' ∨ c = .scalar '\x7d')

/-- One round of the loop of `_placeholder_names`. -/
def placeholderNamesOf (argument : PyStr) : Except ProfileError (List PyStr) :=
  let found := placeholders argument
  let remainder := found.foldl (fun text m => removeFirst m.text text) argument
  if remainder.any isBrace then .error .unknownPlaceholder
  else
    match found with
    | [] => .ok []
    | first :: more =>
      if argument ≠ first.text then .error .partialPlaceholder
      else if more ≠ [] then .error .partialPlaceholder
      else .ok [first.name]

/-- `_placeholder_names` -/
def placeholderNames : List PyStr → Except ProfileError (List PyStr)
  | [] => .ok []
  | argument :: rest => do
    let names ← placeholderNamesOf argument
    let more ← placeholderNames rest
    .ok (names ++ more)

/-- `_PLACEHOLDER.fullmatch`, and the name of the selector. -/
def placeholderName (argument : PyStr) : Option PyStr :=
  match placeholderAt argument with
  | some (name, length) =>
    if length = argument.length then some (name.getD (lit "selector")) else none
  | none => none

/-- `_placeholder_index` -/
def placeholderIndex (argvTemplate : List PyStr) (name : PyStr) : Option Nat :=
  argvTemplate.findIdx? fun argument => decide (placeholderName argument = some name)

/-! ### Character classes -/

def oneOf (chars : String) (c : Char) : Bool := chars.toList.contains c

/-- `_TOKEN_CHAR_CLASSES` -/
def tokenCharClasses : List (PyStr × (Char → Bool)) :=
  [(lit "alnum", Char.isAlphanum),
    (lit "underscore", oneOf "_"),
    (lit "path", oneOf "._:/-"),
    (lit "brackets", oneOf "[]"),
    (lit "space", oneOf " "),
    (lit "at", oneOf "@"),
    (lit "plus", oneOf "+")]

/-- `^[A-Za-z0-9][A-Za-z0-9._:/@+-]{0,127}$` -/
def isSafeIdentifier : PyStr → Bool :=
  firstThen Char.isAlphanum (fun c => c.isAlphanum || oneOf "._:/@+-" c) 127

/-- `_ALLOWED_SEPARATORS` -/
def allowedSeparators : List PyStr := [lit ",", lit "|", lit ":", lit ";"]

def maxSelectorValues : Int := 100

def maxArgvElements : Nat := 128

/-! ### Checks -/

/-- `_validate_literal` -/
def validLiteral (value : Option PyStr) (maxLength : Nat) : Prop :=
  ∀ text ∈ value, text ≠ [] ∧ text.length ≤ maxLength ∧ text.any isControl = false

instance (value : Option PyStr) (maxLength : Nat) : Decidable (validLiteral value maxLength) := by
  unfold validLiteral
  infer_instance

def joins (selector : DiagnosticSelectorConfig) : Bool := decide (selector.expansion = lit "join")

/-- `_validate_selector_shape` -/
def validateSelectorShape (index : Nat) (selector : DiagnosticSelectorConfig) :
    Except ProfileError Unit := do
  let check (ok : Prop) [Decidable ok] (which : SelectorCheck) := ensure ok (.selector index which)
  check (isSelectorName selector.name = true) .name
  check (1 ≤ selector.maxValues ∧ selector.maxValues ≤ maxSelectorValues) .maxValues
  check (selector.expansion ∈ [lit "repeat", lit "join"]) .expansion
  check (joins selector = true → ¬ selector.maxValues ≤ 1) .joinMaxValues
  check (joins selector = true → ∃ separator ∈ selector.separator, separator ∈ allowedSeparators)
    .separator
  check (joins selector = false → selector.separator = none) .separatorUnused
  check (¬ (1 < selector.maxValues ∧ selector.kind = .none)) .noneMaxValues
  let isToken := selector.kind = .token
  let unknown := PyStr.sortedDistinct (selector.charClasses.filter fun name =>
    decide (name ∉ tokenCharClasses.map (·.1)))
  check (isToken → selector.charClasses ≠ []) .charClassesEmpty
  check (isToken → unknown = []) (.charClassesUnknown unknown)
  check (isToken → selector.charClasses.Nodup) .charClassesDuplicate
  check (isToken → 1 ≤ selector.maxLength ∧ selector.maxLength ≤ 512) .maxLength
  check (isToken → validLiteral selector.prefixText 64) .prefixText
  check (isToken → validLiteral selector.suffixText 64) .suffixText
  check (¬ isToken → selector.charClasses = []) .charClassesUnused
  check (¬ isToken → selector.prefixText = none ∧ selector.suffixText = none) .literalsUnused
  let isEnum := selector.kind = .enum
  check (isEnum → selector.values ≠ []) .valuesEmpty
  check (isEnum → selector.values.Nodup) .valuesDuplicate
  check (isEnum → ∀ value ∈ selector.values, isSafeIdentifier value = true ∧
    value.head? ≠ some (.scalar '-')) .valuesInvalid
  check (¬ isEnum → selector.values = []) .valuesUnused
  check (selector.allowLeadingDash = true → selector.kind ∈ [.token, .checkId, .packageName])
    .allowLeadingDash

/-- `_validate_selector_shape` of each selector. -/
def validateShapes : Nat → List DiagnosticSelectorConfig → Except ProfileError Unit
  | _, [] => .ok ()
  | index, selector :: rest => do
    validateSelectorShape index selector
    validateShapes (index + 1) rest

/-- `_safe_relative` -/
def safeRelative (value : PyStr) (allowGlob : Bool) : Bool :=
  let raw := PyStr.replaceChar '\\' '/' value
  let normalized := raw.rdropWhile fun c => decide (c = slash)
  !value.isEmpty && decide (value.length ≤ 256) && !value.any isControl && !isAbsolute raw &&
    !(parts normalized).contains dots &&
    (allowGlob || !normalized.any (CodePoint.within (oneOf "*?[]")))

/-- `^[a-z][a-z0-9-]{0,63}$` -/
def isDiagnosticId : PyStr → Bool :=
  firstThen Char.isLower (fun c => c.isLower || c.isDigit || c == '-') 63

def doubleDash : PyStr := lit "--"

namespace DiagnosticProfileConfig

variable (profile : DiagnosticProfileConfig)

def activeSelectors : List DiagnosticSelectorConfig :=
  profile.selectors.filter fun selector => decide (selector.kind ≠ .none)

/-- A literal `--` directly before the placeholder of the selector. -/
def Terminated (name : PyStr) : Prop :=
  ∃ index ∈ placeholderIndex profile.argvTemplate name,
    index ≠ 0 ∧ profile.argvTemplate[index - 1]? = some doubleDash

instance (name : PyStr) : Decidable (profile.Terminated name) := by
  unfold Terminated
  infer_instance

/-- The loop over the active selectors. -/
def checkPlaceholders (names : List PyStr) :
    List DiagnosticSelectorConfig → Except ProfileError Unit
  | [] => .ok ()
  | selector :: rest => do
    ensure (names.count selector.name = 1) (.placeholderCount selector.name)
    ensure (selector.allowLeadingDash = true → profile.Terminated selector.name)
      (.leadingDash selector.name)
    checkPlaceholders names rest

/-- The most elements that the template can expand to. -/
def worstCase : Int :=
  profile.argvTemplate.length + (profile.activeSelectors.map fun selector =>
    if selector.expansion = lit "repeat" ∧ 1 < selector.maxValues then selector.maxValues - 1
    else 0).sum

end DiagnosticProfileConfig

def validateDiagnosticProfile (profile : DiagnosticProfileConfig) :
    Except ProfileError DiagnosticProfileConfig := do
  ensure (isDiagnosticId profile.diagnosticId = true) .diagnosticId
  ensure (PyStr.strip profile.summary ≠ [] ∧ profile.summary.length ≤ 256 ∧
    profile.summary.any isControl = false) .summary
  ensure (profile.argvTemplate ≠ [] ∧ profile.argvTemplate.length ≤ maxArgvElements) .argv
  ensure (∀ argument ∈ profile.argvTemplate, argument ≠ [] ∧ argument.length ≤ 512 ∧
    argument.any isControl = false) .argument
  let names ← placeholderNames profile.argvTemplate
  ensure (profile.selectors.map (·.name)).Nodup .duplicateNames
  ensure (profile.selectors.length ≤ 2) .tooManySelectors
  validateShapes 0 profile.selectors
  let declared := profile.activeSelectors.map (·.name)
  ensure ((∀ name ∈ names, name ∈ declared) ∧ ∀ name ∈ declared, name ∈ names)
    (.placeholders (PyStr.sortedDistinct names) (PyStr.sortedDistinct declared))
  profile.checkPlaceholders names profile.activeSelectors
  ensure (∀ path ∈ profile.workingDirectory, safeRelative path false = true) .workingDirectory
  ensure (1 ≤ profile.timeoutSeconds ∧ profile.timeoutSeconds ≤ 3600) .timeoutSeconds
  ensure (1 ≤ profile.outputLimit ∧ profile.outputLimit ≤ 120000) .outputLimit
  ensure (profile.mutability = .artifacts → profile.artifactPaths ≠ []) .artifactsRequired
  ensure (profile.mutability = .readOnly → profile.artifactPaths = []) .artifactsUnused
  ensure (∀ pattern ∈ profile.artifactPaths, safeRelative pattern true = true) .artifactPaths
  ensure (profile.worstCase ≤ maxArgvElements) .argvBound
  .ok profile

end RepoForge.Diagnostics

/-!
## Resolving diagnostic selectors

`application/workspace/diagnostic_selector.py`. Which files of the workspace are regular and no
links, and which Git tracks, is given with the disk.
-/
namespace RepoForge.Diagnostics
open PathPolicy (PolicyError RepositoryConfig)
open PyStr (lit)

structure Checkout where
  disk : Realpath.Disk
  fuel : Nat
  workspace : List PyStr
  repo : RepositoryConfig
  /-- `is_file` and not `is_symlink` -/
  regular : List PyStr → Bool
  /-- `git.is_tracked_path` -/
  tracked : PyStr → Bool

/-- The errors of the resolver; `raised` is none of the policy's own and is not translated. -/
inductive SelectorError where
  | unsafeValue | leadingDash
  | denied (error : PolicyError)
  | raised (error : PolicyError)
  | notRegular (path : PyStr)
  | notTracked (path : PyStr)
  | invalidNode | notListed | invalidIdentifier
  | maxLength (name : PyStr)
  | charClasses (name : PyStr)
  | prefixText (name : PyStr)
  | suffixText (name : PyStr)
  | unsupported | noSelector | noSecondSelector
  | required (name : PyStr)
  | maxValues (name : PyStr) (received : Nat)
  | joinedLength (name : PyStr)
  | noValue (name : PyStr)
  | unresolved | argvBound
  deriving DecidableEq

def shellMeta : String := ";&|`$<>"

abbrev SelectorInput := Option (PyStr ⊕ List PyStr)

/-- `_as_list` -/
def asList : SelectorInput → Option (List PyStr)
  | none => none
  | some (.inl text) => some [text]
  | some (.inr texts) => some texts

def startsWithDash (value : PyStr) : Bool := decide (value.head? = some (.scalar '-'))

/-- `_basic_value` -/
def basicValue (value : PyStr) (allowLeadingDash : Bool) : Except SelectorError PyStr :=
  if value = [] ∨ 512 < value.length ∨ value.any isControl = true ∨
      value.any (CodePoint.within (oneOf shellMeta)) = true then .error .unsafeValue
  else if startsWithDash value = true ∧ allowLeadingDash = false then .error .leadingDash
  else .ok value

/-- What becomes of an error of the policy. -/
def policyError : PolicyError → SelectorError
  | .emptyPattern => .raised .emptyPattern
  | .missingRoot => .raised .missingRoot
  | .symlinkLoop => .raised .symlinkLoop
  | e => .denied e

section Values

variable (checkout : Checkout)

/-- `_tracked_path` -/
def trackedPath (rawPath : PyStr) : Except SelectorError PyStr := do
  let normalized ← (PathPolicy.normalizeRelativePath rawPath).mapError policyError
  let allowed ← (PathPolicy.assertPathAllowed normalized checkout.repo).mapError policyError
  let candidate ← (PathPolicy.resolveWorkspacePath checkout.disk checkout.fuel checkout.workspace
    allowed checkout.repo).mapError policyError
  if checkout.regular candidate = false then .error (.notRegular allowed)
  else if checkout.tracked allowed = false then .error (.notTracked allowed)
  else .ok allowed

def pytestNode (value : PyStr) : Except SelectorError PyStr := do
  let (path, separator, node) := PyStr.partition (lit "::") value
  let normalized ← trackedPath checkout path
  if separator = true ∧ (node = [] ∨ PyStr.contains node (lit "..") = true ∨
      node.any (CodePoint.within (oneOf shellMeta)) = true) then .error .invalidNode
  else .ok (normalized ++ if separator then lit "::" ++ node else [])

/-- The classes that the selector composes. -/
def allowedChar (selector : DiagnosticSelectorConfig) (c : Char) : Bool :=
  selector.charClasses.any fun name => (PyDict.get tokenCharClasses name).any fun has => has c

/-- `_token_value` -/
def tokenValue (value : PyStr) (selector : DiagnosticSelectorConfig) : Except SelectorError PyStr :=
  if selector.maxLength < value.length then .error (.maxLength selector.name)
  else if value.any (fun c => !c.within (allowedChar selector)) then .error (.charClasses selector.name)
  else if selector.prefixText.any (fun text => !text.isPrefixOf value) then
    .error (.prefixText selector.name)
  else if selector.suffixText.any (fun text => !text.isSuffixOf value) then
    .error (.suffixText selector.name)
  else .ok value

/-- `_resolve_single` -/
def resolveSingle (selector : DiagnosticSelectorConfig) (rawValue : PyStr) :
    Except SelectorError PyStr := do
  let value ← basicValue rawValue selector.allowLeadingDash
  match selector.kind with
  | .trackedPath => trackedPath checkout value
  | .pytestNode => pytestNode checkout value
  | .enum => if value ∉ selector.values then .error .notListed else .ok value
  | .packageName | .checkId =>
    if isSafeIdentifier value = false ∨ PyStr.contains value (lit "..") = true then
      .error .invalidIdentifier
    else .ok value
  | .token => tokenValue value selector
  | .none => .error .unsupported

/-- `_resolve_values` -/
def resolveValues (selector : DiagnosticSelectorConfig) (raw : SelectorInput) :
    Except SelectorError (List PyStr) :=
  if selector.kind = .none then
    if raw ≠ none then .error .noSelector else .ok []
  else
    match asList raw with
    | none => .error (.required selector.name)
    | some values =>
      if values = [] then .error (.required selector.name)
      else if selector.maxValues < values.length then
        .error (.maxValues selector.name values.length)
      else values.mapM (resolveSingle checkout selector)

def maxJoinedLength : Nat := 512

/-- `_expand`; a join has a separator. -/
def expand (selector : DiagnosticSelectorConfig) (values : List PyStr) :
    Except SelectorError (List PyStr) :=
  if values = [] then .ok []
  else if joins selector then
    let joined := PyStr.join (selector.separator.getD []) values
    if maxJoinedLength < joined.length then .error (.joinedLength selector.name) else .ok [joined]
  else .ok values

/-- The loop over the declared selectors. -/
def resolveAll (inputs : List (PyStr × SelectorInput)) (selectors : List DiagnosticSelectorConfig) :
    Except SelectorError (List (PyStr × List PyStr)) :=
  selectors.mapM fun declared => do
    let values ← resolveValues checkout declared ((PyDict.get inputs declared.name).getD none)
    return (declared.name, values)

end Values

/-- The active selector that an element of the template addresses. -/
def matched (selectors : List DiagnosticSelectorConfig) (argument : PyStr) :
    Option DiagnosticSelectorConfig :=
  let byName := PyDict.ofPairs (selectors.map fun declared => (declared.name, declared))
  ((placeholderName argument).bind (PyDict.get byName)).filter fun declared =>
    decide (declared.kind ≠ .none)

/-- The loop over the template: the elements, and the names that are filled. -/
def fillTemplate (selectors : List DiagnosticSelectorConfig) (values : List (PyStr × List PyStr)) :
    List PyStr → Except SelectorError (List PyStr × List PyStr)
  | [] => .ok ([], [])
  | argument :: rest =>
    match matched selectors argument with
    | none => do
      let (argv, filled) ← fillTemplate selectors values rest
      .ok (argument :: argv, filled)
    | some selector => do
      let expanded ← expand selector ((PyDict.get values selector.name).getD [])
      if expanded = [] then .error (.noValue selector.name)
      else do
        let (argv, filled) ← fillTemplate selectors values rest
        .ok (expanded ++ argv, selector.name :: filled)

structure ResolvedDiagnosticSelector where
  value : Option PyStr
  values : List (PyStr × List PyStr)
  argv : List PyStr
  deriving DecidableEq

/-- `named_input` -/
def namedInput (profile : DiagnosticProfileConfig) (selector selector2 : SelectorInput) :
    Except SelectorError (List (PyStr × SelectorInput)) :=
  match profile.selector2 with
  | some second =>
    .ok (PyDict.ofPairs [(profile.selector.name, selector), (second.name, selector2)])
  | none =>
    if selector2 ≠ none then .error .noSecondSelector
    else .ok [(profile.selector.name, selector)]

def resolveDiagnosticSelector (checkout : Checkout) (profile : DiagnosticProfileConfig)
    (selector selector2 : SelectorInput) : Except SelectorError ResolvedDiagnosticSelector := do
  let inputs ← namedInput profile selector selector2
  let pairs ← resolveAll checkout inputs profile.selectors
  let values := PyDict.ofPairs pairs
  let (argv, filled) ← fillTemplate profile.selectors values profile.argvTemplate
  let expected := profile.activeSelectors.map (·.name)
  if ¬ ((∀ name ∈ filled, name ∈ expected) ∧ ∀ name ∈ expected, name ∈ filled) ∨
      argv.any (·.any isBrace) = true then .error .unresolved
  else if maxArgvElements < argv.length then .error .argvBound
  else
    let primary := (PyDict.get values profile.selector.name).getD []
    .ok {
      value := if primary.length = 1 then primary.head? else none
      values
      argv }

end RepoForge.Diagnostics
