import Mathlib.Data.List.Dedup
import Mathlib.Data.List.Sort
import Mathlib.Data.Prod.Lex
import RepoForge.Library.PyStr
import RepoForge.Library.Regex
import RepoForge.Library.Spans

/-!
# What counts as a secret

Source: `domain/egress.py`, the patterns, `_looks_high_entropy`, `_safe_candidate`,
`_add_candidate` and `_detect`.

Strings are strings of code points. What the detectors take from the Unicode database, from
`hashlib` and from floating point is given by a `Runtime`.
-/
namespace RepoForge.Egress

open Regex Pattern PyStr

structure Runtime where
  /-- `hashlib.sha256(data).hexdigest()` -/
  sha256 : Bytes → PyStr
  casefold : PyStr → PyStr
  isLower : CodePoint → Bool
  isUpper : CodePoint → Bool
  isDigit : CodePoint → Bool
  isAlnum : CodePoint → Bool
  /-- `entropy >= 4.5` for the entropy of the string in floating point. -/
  entropic : PyStr → Bool

section Classes

def oneOf (members : String) : CodePoint → Bool := CodePoint.within members.toList.contains

def noneOf (members : String) : CodePoint → Bool := fun c => !oneOf members c

/-- `[A-Za-z0-9]` and more. -/
def alnumOr (members : String) : CodePoint → Bool :=
  fun c => c.within Char.isAlphanum || oneOf members c

def isSpace : CodePoint → Bool := CodePoint.within PyText.isSpace

/-- `[a-fA-F0-9]` -/
def isHex : CodePoint → Bool := oneOf "0123456789abcdefABCDEF"

/-- The four characters beyond ASCII that `(?i)` gives to a letter of ASCII. -/
def foldsTo (c : Char) (x : Char) : Bool :=
  (c = 'i' && (x.toNat = 0x130 || x.toNat = 0x131)) || (c = 's' && x.toNat = 0x17F) ||
    (c = 'k' && x.toNat = 0x212A)

/-- One character under `(?i)`. -/
def sameLetter (c : Char) : CodePoint → Bool :=
  CodePoint.within fun x => x = c || x = c.toUpper || foldsTo c x

def word (s : String) : Pattern CodePoint := sequence (s.toList.map fun c => one (· = .scalar c))

/-- `word` under `(?i)`. -/
def anyCase (s : String) : Pattern CodePoint := sequence (s.toList.map fun c => one (sameLetter c))

end Classes

section Patterns

/-- `_PRIVATE_KEY` -/
def privateKey : Pattern CodePoint :=
  sequence [word "-----BEGIN ", star (noneOf "-\r\n"), word "PRIVATE KEY-----",
    many (fun _ => true) 0 none true, word "-----END ", star (noneOf "-\r\n"),
    word "PRIVATE KEY-----"]

/-- A token that no letter or digit touches. -/
def apart (body : Pattern CodePoint) : Pattern CodePoint :=
  sequence [notBehind (alnumOr ""), body, notAhead (alnumOr "")]

def upperOrDigit : CodePoint → Bool := CodePoint.within fun c => c.isUpper || c.isDigit

/-- `_PROVIDER_PATTERNS` -/
def providerPatterns : List (String × Pattern CodePoint) :=
  [("github", apart (sequence [word "gh", one (oneOf "pousr"), word "_", atLeast 20 (alnumOr "")])),
    ("openai", apart (sequence [word "sk-", optional (word "proj-"), atLeast 20 (alnumOr "_-")])),
    ("aws", sequence [notBehind upperOrDigit, word "AKIA", times 16 upperOrDigit,
      notAhead upperOrDigit]),
    ("slack", apart (sequence [word "xox", one (oneOf "baprs"), word "-",
      atLeast 16 (alnumOr "-")])),
    ("npm", apart (sequence [word "npm_", atLeast 20 (alnumOr "")]))]

section Word

variable (R : Runtime)

/-- `\w` -/
def isWord (c : CodePoint) : Bool := R.isAlnum c || c = .scalar '_'

def keyGroup : Nat := 1
def valueGroup : Nat := 2

/-- `_SECRET_ASSIGNMENT` -/
def secretAssignment : Pattern CodePoint :=
  let dash := many (oneOf "_-") 0 (some 1) false
  sequence [boundary (isWord R),
    group keyGroup (anyOf [anyCase "authorization", anyCase "control_plane_api_key",
      sequence [anyCase "api", dash, anyCase "key"],
      sequence [anyCase "access", dash, anyCase "token"], anyCase "token", anyCase "secret",
      anyCase "password", anyCase "passwd", anyCase "credential"]),
    boundary (isWord R), star isSpace, one (oneOf ":="), star isSpace,
    group valueGroup (plus fun c => !isSpace c && noneOf ",;" c)]

/-- `_BEARER` -/
def bearer : Pattern CodePoint :=
  sequence [boundary (isWord R), anyCase "bearer", plus isSpace,
    group valueGroup (plus fun c => alnumOr "._~+/=-" c ||
      c.within fun x => foldsTo 'i' x || foldsTo 's' x || foldsTo 'k' x)]

end Word

/-- `_URL_CREDENTIALS` -/
def urlCredentials : Pattern CodePoint :=
  sequence [anyCase "http", many (sameLetter 's') 0 (some 1) false, word "://",
    plus fun c => !isSpace c && noneOf "/@:" c, word ":",
    group valueGroup (plus fun c => !isSpace c && noneOf "@/" c), word "@"]

/-- `_TOKEN_CANDIDATE` -/
def tokenCandidate : Pattern CodePoint :=
  apart (group valueGroup (sequence [atLeast 32 (alnumOr "_./+-"),
    many (oneOf "=") 0 (some 2) false]))

/-- `_SHA_HEX` -/
def shaHex : Pattern CodePoint := anyOf [times 40 isHex, times 64 isHex]

/-- `_UUID` -/
def uuid : Pattern CodePoint :=
  sequence [times 8 isHex, word "-", times 4 isHex, word "-", one (oneOf "12345"), times 3 isHex,
    word "-", one (oneOf "89abAB"), times 3 isHex, word "-", times 12 isHex]

/-- `_INTEGRITY` -/
def integrity : Pattern CodePoint :=
  sequence [word "sha", anyOf [word "256", word "384", word "512"], word "-",
    atLeast 20 (alnumOr "+/=")]

/-- `_PUBLIC_URL_BODY` -/
def publicUrlBody : Pattern CodePoint :=
  sequence [plus (alnumOr ".-"), word ".", anyOf (["com", "org", "net", "io", "dev", "test",
    "local", "ai", "app"].map word),
    optional (sequence [word "/", star (alnumOr "._~!$&'()*+,;=:@%/-")])]

/-- `_SAFE_SELECTOR` -/
def safeSelector : Pattern CodePoint :=
  sequence [anyOf (["check-run", "operation", "task", "workspace", "restore", "backup"].map word),
    word "-", many (alnumOr ":._-") 1 (some 128) false]

/-- `_GENERATED_COMPOUND_ID` -/
def generatedCompoundId : Pattern CodePoint :=
  let lower := CodePoint.within fun c => c.isLower || c.isDigit
  sequence [one lower, many (fun c => lower c || c = .scalar '-') 0 (some 101) false, word "-",
    anyOf [times 10 (CodePoint.within lowerHex), times 24 (CodePoint.within lowerHex)]]

/-- `_SANITIZED_MARKER` -/
def sanitizedMarker : Pattern CodePoint :=
  next (one (· = .scalar '<')) (sequence [anyOf [
    sequence [word "redacted", optional (sequence [word ":", plus (alnumOr "_+.-")])],
    sequence [word "withheld:", plus (alnumOr "_+.-")],
    sequence [word "reject_result:", plus (noneOf "<>\r\n")]], word ">"])

end Patterns

inductive Category where
  | privateKey
  | providerToken
  | authorization
  | credentialUrl
  | password
  | sensitiveConfig
  | explicitSecret
  | highEntropy
  | sizeLimit
  | deniedSource
  | binaryData
  deriving DecidableEq, Repr

def Category.name : Category → PyStr
  | privateKey => lit "private_key"
  | providerToken => lit "provider_token"
  | authorization => lit "authorization"
  | credentialUrl => lit "credential_url"
  | password => lit "password"
  | sensitiveConfig => lit "sensitive_config"
  | explicitSecret => lit "explicit_secret"
  | highEntropy => lit "high_entropy"
  | sizeLimit => lit "size_limit"
  | deniedSource => lit "denied_source"
  | binaryData => lit "binary_data"

inductive Confidence where
  | high
  | medium
  deriving DecidableEq, Repr

def Confidence.name : Confidence → PyStr
  | high => lit "high"
  | medium => lit "medium"

/-- `_Candidate` -/
structure Candidate where
  start : Nat
  stop : Nat
  category : Category
  confidence : Confidence
  reason : PyStr
  deriving DecidableEq, Repr

section Detect

variable (R : Runtime) (secrets allowValues : List PyStr) (text : PyStr)

def looksHighEntropy (value : PyStr) : Bool :=
  let distinct := value.dedup.length
  let classes := [value.any R.isLower, value.any R.isUpper, value.any R.isDigit,
    value.any fun c => !R.isAlnum c].count true
  if value.length < 32 || distinct < 12 then false
  else if classes < 2 then false
  else R.entropic value && 3 * value.length ≤ 10 * distinct

def safeCandidate (value : PyStr) : Bool :=
  let urlBody := if (lit "//").isPrefixOf value then value.drop 2 else value
  allowValues.contains value || fullmatch shaHex value || fullmatch uuid value ||
    fullmatch integrity value || fullmatch publicUrlBody urlBody || fullmatch safeSelector value

/-- `text[start:stop]` -/
def slice (start stop : Nat) : PyStr := (text.drop start).take (stop - start)

/-- `_add_candidate`: what it appends. -/
def addCandidate (span : Nat × Nat) (category : Category) (confidence : Confidence)
    (reason : PyStr) : List Candidate :=
  if span.2 ≤ span.1 || text.length < span.2 then []
  else if allowValues.contains (slice text span.1 span.2) ||
      fullmatch sanitizedMarker (slice text span.1 span.2) then []
  else [⟨span.1, span.2, category, confidence, reason⟩]

def keyCategory (key : PyStr) : Category :=
  if key = lit "authorization" then .authorization
  else if key = lit "password" || key = lit "passwd" then .password
  else .sensitiveConfig

def assignmentCandidates : List Candidate :=
  (finditer (secretAssignment R) text).flatMap fun m =>
    let key := replaceChar '-' '_'
      (R.casefold (slice text (m.span keyGroup).1 (m.span keyGroup).2))
    addCandidate allowValues text (m.span valueGroup) (keyCategory key) .high
      (lit "sensitive assignment key: " ++ key)

/-- The loop over the explicit secrets. -/
def explicitCandidates : List Candidate :=
  (secrets.dedup.insertionSort fun a b => b.length ≤ a.length).flatMap fun secret =>
    if allowValues.contains secret then []
    else (Spans.occurrences secret text).flatMap fun index =>
      addCandidate allowValues text (index, index + secret.length) .explicitSecret .high
        (lit "caller-provided secret identity")

def entropyCandidates : List Candidate :=
  (finditer tokenCandidate text).flatMap fun m =>
    let candidate := slice text (m.span valueGroup).1 (m.span valueGroup).2
    if safeCandidate allowValues candidate || !looksHighEntropy R candidate then []
    else addCandidate allowValues text (m.span valueGroup) .highEntropy .medium
      (lit "contextual high-entropy token")

def foundCandidates : List Candidate :=
  ((finditer privateKey text).flatMap fun m =>
    addCandidate allowValues text (m.start, m.stop) .privateKey .high (lit "private-key marker")) ++
  (providerPatterns.flatMap fun provider =>
    (finditer provider.2 text).flatMap fun m =>
      addCandidate allowValues text (m.start, m.stop) .providerToken .high
        (lit "approved " ++ lit provider.1 ++ lit " token pattern")) ++
  ((finditer (bearer R) text).flatMap fun m =>
    addCandidate allowValues text (m.span valueGroup) .authorization .high
      (lit "bearer authorization value")) ++
  ((finditer urlCredentials text).flatMap fun m =>
    addCandidate allowValues text (m.span valueGroup) .credentialUrl .high
      (lit "credential-bearing URL")) ++
  assignmentCandidates R allowValues text ++ explicitCandidates secrets allowValues text ++
  entropyCandidates R allowValues text

/-- The key of the sort: start, stop, category and reason. -/
def Candidate.key (c : Candidate) : Nat ×ₗ Nat ×ₗ List Nat ×ₗ List Nat :=
  toLex (c.start, toLex (c.stop, toLex (c.category.name.map (·.value), c.reason.map (·.value))))

/-- `_detect` -/
def detect : List Candidate :=
  (foundCandidates R secrets allowValues text).dedup.insertionSort fun a b => a.key ≤ b.key

end Detect

end RepoForge.Egress

/-!
## Egress decisions

Source: `domain/egress.py`, from `EgressPolicy` to `evaluate_egress`, with the encoding UTF-8 that
a request has unless it is told otherwise. The class, the destination and the origin of the
content are left out: no decision reads them.
-/
namespace RepoForge.Egress

open PyStr

inductive EgressDecision where
  | allow
  | redactRanges
  | withholdSnippet
  | rejectResult
  deriving DecidableEq, Repr

def EgressDecision.value : EgressDecision → PyStr
  | allow => lit "allow"
  | redactRanges => lit "redact_ranges"
  | withholdSnippet => lit "withhold_snippet"
  | rejectResult => lit "reject_result"

structure EgressPolicy where
  maxInputBytes : Nat
  maxOutputChars : Nat
  maxOutputLines : Nat
  withholdPrivateKeys : Bool
  rejectBinary : Bool
  inputBounded : 1 ≤ maxInputBytes ∧ maxInputBytes ≤ 20000000
  charsBounded : 1 ≤ maxOutputChars ∧ maxOutputChars ≤ 1000000
  linesBounded : 1 ≤ maxOutputLines ∧ maxOutputLines ≤ 20000

/-- `EgressPolicy()` -/
def defaultPolicy : EgressPolicy where
  maxInputBytes := 1000000
  maxOutputChars := 8000
  maxOutputLines := 500
  withholdPrivateKeys := true
  rejectBinary := true
  inputBounded := by decide
  charsBounded := by decide
  linesBounded := by decide

inductive Content where
  | text (value : PyStr)
  | bytes (data : Bytes)

/-- At most 128 strings, none empty or longer than 16384. -/
def boundedStrings (values : List PyStr) : Bool :=
  values.length ≤ 128 && values.all fun item => !item.isEmpty && item.length ≤ 16384

structure EgressRequest where
  content : Content
  sourceDenied : Bool
  explicitSecrets : List PyStr
  allowValues : List PyStr
  policy : EgressPolicy
  secretsBounded : boundedStrings explicitSecrets = true
  allowBounded : boundedStrings allowValues = true

/-- The request, unless `__post_init__` raises. -/
def egressRequest (content : Content) (explicitSecrets allowValues : List PyStr)
    (policy : EgressPolicy) : Option EgressRequest :=
  if h : boundedStrings explicitSecrets = true ∧ boundedStrings allowValues = true then
    some ⟨content, false, explicitSecrets, allowValues, policy, h.1, h.2⟩
  else none

structure RangeLabel where
  category : PyStr
  findingId : PyStr
  deriving DecidableEq, Repr

abbrev EgressRange := Spans.Block RangeLabel

structure EgressFinding where
  findingId : PyStr
  category : Category
  confidence : Confidence
  span : Option (Nat × Nat)
  reason : PyStr
  deriving DecidableEq, Repr

structure EgressResult where
  decision : EgressDecision
  content : Option PyStr
  findings : List EgressFinding
  redactionRanges : List EgressRange
  redactionCount : Nat
  withheldLines : Nat
  truncated : Bool
  sourceDigest : PyStr
  reason : PyStr

/-- `_source_bytes` -/
def sourceBytes : Content → Bytes × Option PyStr
  | .bytes data => (data, none)
  | .text value =>
    if encodable value then (utf8 (replaced value), some value) else (utf8 (replaced value), none)

section Findings

variable (R : Runtime) (sourceDigest : PyStr)

/-- The first 24 digits of the digest of a text. -/
def shortDigest (identity : PyStr) : PyStr := (R.sha256 (utf8 (replaced identity))).take 24

def findingId (candidate : Candidate) : PyStr :=
  lit "secret-" ++ shortDigest R (join (lit ":") [sourceDigest, candidate.category.name,
    ofNat candidate.start, ofNat candidate.stop, candidate.confidence.name, candidate.reason])

def syntheticFinding (category : Category) (reason : PyStr) : EgressFinding :=
  ⟨lit "secret-" ++ shortDigest R (join (lit ":") [sourceDigest, category.name,
    Confidence.high.name, reason]), category, .high, none, reason⟩

def finding (candidate : Candidate) : EgressFinding :=
  ⟨findingId R sourceDigest candidate, candidate.category, candidate.confidence,
    some (candidate.start, candidate.stop), candidate.reason⟩

/-- The categories and the findings of a merged range. -/
abbrev Merged := Spans.Block (List Category × List PyStr)

def sorted (texts : List PyStr) : List PyStr :=
  texts.insertionSort fun a b => a.map (·.value) ≤ b.map (·.value)

def egressRange (merged : Merged) : EgressRange :=
  ⟨merged.start, merged.stop,
    ⟨join (lit "+") (sorted (merged.label.1.dedup.map (·.name))),
      shortDigest R (join (lit ":") (sorted merged.label.2))⟩⟩

def joinLabels (a b : List Category × List PyStr) : List Category × List PyStr :=
  (a.1 ++ b.1, a.2 ++ b.2)

/-- Each candidate with its category and its finding. -/
def markedCandidates (candidates : List Candidate) : List Merged :=
  candidates.map fun c => ⟨c.start, c.stop, ([c.category], [findingId R sourceDigest c])⟩

/-- `_merge_ranges` -/
def mergeRanges (candidates : List Candidate) : List EgressRange × List EgressFinding :=
  ((Spans.merge joinLabels (markedCandidates R sourceDigest candidates)).map (egressRange R),
    candidates.map (finding R sourceDigest))

end Findings

/-- The mark in place of a range. -/
def rangeMark (range : EgressRange) : PyStr := lit "<redacted:" ++ range.label.category ++ lit ">"

/-- `_redact` -/
def redact (text : PyStr) (ranges : List EgressRange) : PyStr :=
  if ranges.isEmpty then text else Spans.replace rangeMark text 0 ranges

/-- `value[-count:] if count else ""` -/
def lastOnes {A : Type} (value : List A) (count : Nat) : List A := value.drop (value.length - count)

/-- `_bound_lines` -/
def boundLines (value : PyStr) (maximum : Nat) : PyStr × Nat × Bool :=
  let lines := linesKept value
  if lines.length ≤ maximum then (value, 0, false)
  else
    let headCount := max 1 (maximum / 2)
    let tailCount := maximum - headCount - 1
    let omitted := lines.length - headCount - tailCount
    let marker := lit "... <" ++ ofNat omitted ++ lit " lines omitted> ...\n"
    ((lines.take headCount).flatten ++ (marker ++ (lastOnes lines tailCount).flatten), omitted,
      true)

/-- `_bound_chars` -/
def boundChars (value : PyStr) (maximum : Nat) : PyStr × Bool :=
  if value.length ≤ maximum then (value, false)
  else
    let marker := lit "... <characters omitted> ..."
    let available := maximum - marker.length
    let head := available / 2
    let tail := available - head
    ((value.take head ++ (marker ++ lastOnes value tail)).take maximum, true)

section Evaluate

variable (R : Runtime) (request : EgressRequest)

/-- A result without content for the reason of one finding. -/
def refused (decision : EgressDecision) (category : Category) (finding reason sourceDigest : PyStr) :
    EgressResult :=
  ⟨decision, none, [syntheticFinding R sourceDigest category finding], [], 0, 0, false,
    sourceDigest, reason⟩

/-- The part of `evaluate_egress` for a text. -/
def evaluateText (text sourceDigest : PyStr) : EgressResult :=
  let (ranges, findings) := mergeRanges R sourceDigest
    (detect R request.explicitSecrets request.allowValues text)
  if request.policy.withholdPrivateKeys && findings.any (·.category = .privateKey) then
    ⟨.withholdSnippet, none, findings, ranges, ranges.length,
      text.count (.scalar '\n') + 1, false, sourceDigest, lit "private-key material is withheld"⟩
  else
    let (lineBounded, withheldLines, linesTruncated) :=
      boundLines (redact text ranges) request.policy.maxOutputLines
    let (bounded, charsTruncated) := boundChars lineBounded request.policy.maxOutputChars
    ⟨if ranges.isEmpty then .allow else .redactRanges, some bounded, findings, ranges,
      ranges.length, withheldLines, linesTruncated || charsTruncated, sourceDigest,
      if ranges.isEmpty then lit "content allowed" else lit "secret ranges redacted"⟩

def binaryResult (sourceDigest : PyStr) : EgressResult :=
  refused R (if request.policy.rejectBinary then .rejectResult else .withholdSnippet) .binaryData
    (lit "content is binary or invalid for the declared encoding")
    (lit "binary or invalid encoding") sourceDigest

def evaluateEgress : EgressResult :=
  let (data, encodedText) := sourceBytes request.content
  let sourceDigest := R.sha256 data
  if request.policy.maxInputBytes < data.length then
    refused R .rejectResult .sizeLimit (lit "input exceeds the reviewed byte bound")
      (lit "input exceeds policy bound") sourceDigest
  else if request.sourceDenied then
    refused R .withholdSnippet .deniedSource (lit "source path is denied by repository policy")
      (lit "source is denied") sourceDigest
  else
    match encodedText.or ((decode data).map ofText) with
    | none => binaryResult R request sourceDigest
    | some text =>
      if CodePoint.scalar '\x00' ∈ text then binaryResult R request sourceDigest
      else evaluateText R request text sourceDigest

end Evaluate

section Fields

variable (R : Runtime)

def normalizedKey (value : PyStr) : PyStr := replaceChar '-' '_' (R.casefold (strip value))

/-- `_GENERATED_COMPOUND_ID_KEYS` -/
def generatedCompoundIdKeys : List PyStr :=
  ["acceptance_id", "failure_id", "operation_id", "plan_id", "receipt_id", "workspace_id"].map lit

/-- `_SENSITIVE_KEYS` -/
def sensitiveKeys : List PyStr :=
  ["authorization", "control_plane_api_key", "api_key", "apikey", "access_token", "token",
    "secret", "password", "passwd", "credential", "credentials"].map lit

/-- `_SAFE_IDENTITY_KEYS` -/
def safeIdentityKeys : List PyStr :=
  ["checksum", "digest", "fingerprint", "hash", "head_sha", "manifest_checksum", "oid",
    "plan_digest", "selector", "sha", "sha256", "source_digest", "tool_surface_hash",
    "workspace_fingerprint"].map lit

def endsWithAny (value : PyStr) (ends : List String) : Bool :=
  ends.any fun stop => (lit stop).isSuffixOf value

def safeIdentityField (key value : PyStr) : Bool :=
  if generatedCompoundIdKeys.contains key then Regex.fullmatch generatedCompoundId value
  else if !safeIdentityKeys.contains key && !endsWithAny key ["_sha", "_hash", "_digest", "_id"] then
    false
  else Regex.fullmatch shaHex value || Regex.fullmatch uuid value ||
    Regex.fullmatch integrity value || Regex.fullmatch publicUrlBody value ||
    Regex.fullmatch safeSelector value

def structuredPathField (key value : PyStr) : Bool :=
  (key = lit "path" || endsWithAny key ["_path", "_paths"]) &&
    0 < value.length && value.length ≤ 4096 && !(value.any fun c => c.value < 32) &&
    !PyStr.contains value (lit "://")

def entropyExemptField (key value : PyStr) : Bool :=
  let normalized := normalizedKey R key
  safeIdentityField normalized value || structuredPathField normalized value

end Fields

end RepoForge.Egress

/-!
# The two sanitizers

Source: `redact_text` of `domain/redaction.py` and `sanitize_egress_data` of `domain/egress.py`.
A call that raises `ValueError` gives `none`.
-/
namespace RepoForge.Egress

open PyStr

section RedactText

variable (R : Runtime)

/-- `_legacy_redaction` -/
def legacyRedaction (value : PyStr) (ranges : List EgressRange) : PyStr :=
  if ranges.isEmpty then value else Spans.replace (fun _ => lit "<redacted>") value 0 ranges

/-- `_bound_text` -/
def boundText (value : PyStr) (limit : Nat) : PyStr :=
  if value.length ≤ limit then value
  else
    let half := max 1 (limit / 2)
    let omitted := value.length - half * 2
    value.take half ++ (lit "\n... <" ++ ofNat omitted ++ lit " characters omitted> ...\n" ++
      lastOnes value half)

def encodedBytes (value : PyStr) : Nat := (utf8 (replaced value)).length

/-- The policy of `redact_text`. -/
def redactionPolicy (value : PyStr) (limit : Nat) (small : encodedBytes value ≤ 20000000) :
    EgressPolicy where
  maxInputBytes := max 1 (encodedBytes value)
  maxOutputChars := max 1 (min (max value.length limit) 1000000)
  maxOutputLines := 20000
  withholdPrivateKeys := false
  rejectBinary := true
  inputBounded := by omega
  charsBounded := by omega
  linesBounded := by decide

def onlyEntropy (findings : List EgressFinding) : Bool :=
  !findings.isEmpty && findings.all (·.category = .highEntropy)

/-- A limit that is not positive raises. -/
def redactText (value : PyStr) (secrets : List PyStr) (limit : Nat) (fieldKey : PyStr) :
    Option PyStr :=
  if limit = 0 then none
  else if small : encodedBytes value ≤ 20000000 then do
    let request ← egressRequest (.text value) (secrets.filter fun item => !item.isEmpty) []
      (redactionPolicy value limit small)
    let result := evaluateEgress R request
    if onlyEntropy result.findings && !fieldKey.isEmpty && entropyExemptField R fieldKey value then
      some (boundText value limit)
    else some (boundText (legacyRedaction value result.redactionRanges) limit)
  else some (lit "<redacted:oversized>")

end RedactText

/-- Data as it comes to the sanitizer; a mapping is given with `str` of its keys. -/
inductive PyData where
  | none
  | bool (value : Bool)
  | int (value : Int)
  | float (bits : UInt64)
  | str (value : PyStr)
  | bytes (value : Bytes)
  | list (items : List PyData)
  | tuple (items : List PyData)
  | dict (items : List (PyStr × PyData))
  /-- Any other object, with its `repr`. -/
  | other (repr : PyStr)

/-- `mapping[key] = value` -/
def assign (mapping : List (PyStr × PyData)) (key : PyStr) (value : PyData) :
    List (PyStr × PyData) :=
  if mapping.any (·.1 = key) then mapping.map fun item => if item.1 = key then (key, value) else item
  else mapping ++ [(key, value)]

structure SanitizerSettings where
  explicitSecrets : List PyStr
  allowValues : List PyStr
  policy : EgressPolicy

section Sanitize

variable (R : Runtime) (settings : SanitizerSettings)

/-- What stands for content that is not shown. -/
def shown (result : EgressResult) : PyStr :=
  result.content.getD (lit "<" ++ result.decision.value ++ lit ":" ++ result.reason ++ lit ">")

def evaluateValue (content : Content) : Option EgressResult := do
  let request ← egressRequest content settings.explicitSecrets settings.allowValues settings.policy
  some (evaluateEgress R request)

def sanitizeText (key value : PyStr) : Option PyData := do
  let result ← evaluateValue R settings (.text value)
  if onlyEntropy result.findings && entropyExemptField R key value then some (.str value)
  else some (.str (shown result))

/-- `sanitize_egress_data` with so many levels left; the first call has 17. -/
def sanitize : Nat → PyStr → PyData → Option PyData
  | 0, _, _ => some (.str (lit "<withheld:structure-depth>"))
  | levels + 1, key, value =>
    let elements := fun items : List PyData => do
      let sanitized ← (items.take 2000).mapM (sanitize levels key)
      some (.list sanitized)
    match value with
    | .dict items => do
      let sanitized ← (items.take 2000).mapM fun item =>
        let normalized := normalizedKey R item.1
        if sensitiveKeys.contains normalized then
          some (item.1, .str (lit "<redacted:sensitive_config>"))
        else (sanitize levels normalized item.2).map fun value => (item.1, value)
      let mapping := sanitized.foldl (fun mapping item => assign mapping item.1 item.2) []
      some (.dict (if 2000 < items.length then assign mapping (lit "items_truncated") (.bool true)
        else mapping))
    | .list items => elements items
    | .tuple items => elements items
    | .bytes data => do
      let result ← evaluateValue R settings (.bytes data)
      some (.str (shown result))
    | .str value => sanitizeText R settings key value
    | .none => some .none
    | .bool value => some (.bool value)
    | .int value => some (.int value)
    | .float bits => some (.float bits)
    | .other repr => sanitize levels key (.str repr)

def sanitizeEgressData (value : PyData) : Option PyData := sanitize R settings 17 [] value

end Sanitize

end RepoForge.Egress
