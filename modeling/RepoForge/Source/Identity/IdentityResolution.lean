import RepoForge.Library.PyText

/-!
# Which credential acts on a repository

`resolve_repository_identity` of `domain/repository_identity_resolution.py`, with what it uses of
`domain/repository_identity.py`. What the constructors of the source check is a field of the
structure, so a value that they refuse cannot be built.
-/
namespace RepoForge.Identity

open PyText

/-- Where a `ValueError` comes from. -/
inductive IdentityError where
  | selectedProfileId
  | canonicalName
  | repositoryPattern
  deriving DecidableEq

/-! ### Names -/

/-- `str.lower` of ASCII. -/
def lower (t : Text) : Text := t.map Char.toLower

/-- `^[A-Za-z0-9][A-Za-z0-9._:-]{0,127}$` -/
def isSafeId : Text → Bool
  | [] => false
  | c :: rest =>
    c.isAlphanum && decide (rest.length ≤ 127) &&
      rest.all fun c => c.isAlphanum || ['.', '_', ':', '-'].contains c

def hostEdge (c : Char) : Bool := c.isLower || c.isDigit

/-- `^[a-z0-9](?:[a-z0-9.-]{0,251}[a-z0-9])?$` -/
def isHost (t : Text) : Bool :=
  decide (t.length ≤ 253) && t.head?.any hostEdge && t.getLast?.any hostEdge &&
    t.all fun c => hostEdge c || ['.', '-'].contains c

/-- `^[A-Za-z0-9_.-]{1,100}$` -/
def isNamePart (t : Text) : Bool :=
  decide (t ≠ []) && decide (t.length ≤ 100) &&
    t.all fun c => c.isAlphanum || ['_', '.', '-'].contains c

/-- `^[a-f0-9]{64}$` -/
def isSha256 (t : Text) : Bool := decide (t.length = 64) && t.all lowerHex

/-- `_canonical_parts` -/
def canonicalParts (value : Text) : Except IdentityError (Text × Text × Text) :=
  if 304 < value.length then .error .canonicalName
  else
    match value.splitOn '/' with
    | [host, owner, repository] =>
      if isHost host && isNamePart owner && isNamePart repository then .ok (host, owner, repository)
      else .error .canonicalName
    | _ => .error .canonicalName

def boundaryOf (parts : Text × Text × Text) : Text := lower (parts.1 ++ '/' :: parts.2.1)

/-- `_owner_boundary` -/
def ownerBoundary (canonicalName : Text) : Except IdentityError Text :=
  (canonicalParts canonicalName).map boundaryOf

/-- `/*` -/
def wildcard : Text := ['/', '*']

/-- `_pattern_boundary` -/
def patternBoundary (pattern : Text) : Except IdentityError Text :=
  if pattern = [] ∨ 304 < pattern.length then .error .repositoryPattern
  else if endsWith pattern wildcard then
    let stem := pattern.take (pattern.length - 2)
    match stem.splitOn '/' with
    | [host, owner] =>
      if isHost host && isNamePart owner && !stem.contains '*' then .ok (lower stem)
      else .error .repositoryPattern
    | _ => .error .repositoryPattern
  else if pattern.contains '*' then .error .repositoryPattern
  else ownerBoundary pattern

/-- `_pattern_matches` -/
def patternMatches (pattern canonicalName : Text) : Bool :=
  if endsWith pattern wildcard then
    startsWith (lower canonicalName) (lower (pattern.take (pattern.length - 1)))
  else decide (lower canonicalName = lower pattern)

/-! ### The records -/

inductive RepositoryProvider where
  | github
  deriving DecidableEq

inductive ActorClass where
  | humanOperated
  | delegatedHuman
  | autonomousAgent
  deriving DecidableEq

inductive CredentialRole where
  | human
  | agent
  deriving DecidableEq

def roleAcceptsActorClass : CredentialRole → ActorClass → Bool
  | .agent, actor => actor = .autonomousAgent
  | .human, actor => actor = .humanOperated || actor = .delegatedHuman

inductive CredentialKind where
  | storedAccount
  | githubApp
  | workloadIdentity
  deriving DecidableEq

structure Revision where
  value : Int
  positive : 0 < value

theorem Revision.ext_iff {first second : Revision} : first.value = second.value ↔ first = second := by
  cases first
  cases second
  simp

instance : DecidableEq Revision := fun _ _ => decidable_of_iff _ Revision.ext_iff

structure CredentialProfile where
  profileId : Text
  provider : RepositoryProvider
  credentialKind : CredentialKind
  credentialRef : Text × Text
  actorClass : ActorClass
  expectedActorId : Option Text
  capabilityIds : List Text
  revision : Text
  safe : isSafeId profileId = true
  deriving DecidableEq

structure RepositoryIdentityObservation where
  provider : RepositoryProvider
  providerHost : Text
  repositoryId : Text
  canonicalName : Text
  exists_ : Bool
  configRevision : Text
  host : isHost providerHost = true
  safe : isSafeId repositoryId = true
  named : ∃ owner repository, canonicalParts canonicalName = .ok (providerHost, owner, repository)
  revision : isSha256 configRevision = true

structure RepositoryIdentityBinding where
  provider : RepositoryProvider
  repositoryId : Text
  canonicalName : Text
  humanProfileId : Option Text
  agentProfileId : Option Text
  configRevision : Text
  providerHost : Text
  host : isHost providerHost = true
  safe : isSafeId repositoryId = true
  /-- This name may be longer than that of an observation. -/
  named : ∃ owner repository, canonicalName.splitOn '/' = [providerHost, owner, repository] ∧
    isNamePart owner = true ∧ isNamePart repository = true
  safeProfiles : ∀ id ∈ humanProfileId.toList ++ agentProfileId.toList, isSafeId id = true
  bound : humanProfileId ≠ none ∨ agentProfileId ≠ none
  revision : isSha256 configRevision = true
  deriving DecidableEq

/-- The profile that is bound for the role. -/
def RepositoryIdentityBinding.profileId (b : RepositoryIdentityBinding) :
    CredentialRole → Option Text
  | .agent => b.agentProfileId
  | .human => b.humanProfileId

structure RepositoryBindingSnapshot where
  binding : RepositoryIdentityBinding
  revision : Revision
  deriving DecidableEq

structure CredentialProfileEligibility where
  profile : CredentialProfile
  enabled : Bool
  repositoryPatterns : List Text
  boundaryId : Text
  bounded : repositoryPatterns ≠ [] ∧ repositoryPatterns.length ≤ 64
  safe : isSafeId boundaryId = true
  oneBoundary : ∃ boundary, ∀ pattern ∈ repositoryPatterns, patternBoundary pattern = .ok boundary
  unique : repositoryPatterns.Nodup

/-- `CredentialProfileEligibility.matches` -/
def CredentialProfileEligibility.isMatch (e : CredentialProfileEligibility)
    (o : RepositoryIdentityObservation) : Bool :=
  decide (e.profile.provider = o.provider) &&
    e.repositoryPatterns.any fun pattern => patternMatches pattern o.canonicalName

inductive RepositoryAuthFailureCode where
  | profileNotFound
  | profileAmbiguous
  | profileNotAuthorized
  | repositoryBindingNotFound
  | bindingAmbiguous
  | bindingStale
  | bindingRepositoryMismatch
  deriving DecidableEq

inductive RecoveryActionKind where
  | reselectProfile
  | reauthorize
  | reconcileBinding
  deriving DecidableEq

structure RepositoryAuthFailure where
  code : RepositoryAuthFailureCode
  message : String
  retryable : Bool
  recoveryActions : List RecoveryActionKind
  deriving DecidableEq

/-- A repository that was renamed. -/
structure RepositoryReconciliationEvent where
  previousCanonicalName : Text
  currentCanonicalName : Text
  deriving DecidableEq

structure RepositoryBindingProposal where
  profileId : Text
  binding : RepositoryIdentityBinding
  deriving DecidableEq

inductive RepositoryResolutionOutcome where
  | resolved
  | proposalRequired
  | failed
  deriving DecidableEq

structure RepositoryResolutionEvidence where
  providerHost : Text
  repositoryId : Text
  canonicalName : Text
  profileId : Option Text
  bindingRevision : Option Revision
  outcome : RepositoryResolutionOutcome
  deriving DecidableEq

structure RepositoryIdentityResolution where
  outcome : RepositoryResolutionOutcome
  profile : Option CredentialProfile
  binding : Option RepositoryIdentityBinding
  bindingRevision : Option Revision
  proposal : Option RepositoryBindingProposal
  reconciliation : Option RepositoryReconciliationEvent
  failure : Option RepositoryAuthFailure
  evidence : RepositoryResolutionEvidence
  deriving DecidableEq

/-! ### The resolution -/

/-- How many items a tuple has, where only none, one and more matter. -/
inductive Found (α : Type) where
  | missing
  | unique (item : α)
  | ambiguous

def found {α : Type} : List α → Found α
  | [] => .missing
  | [item] => .unique item
  | _ :: _ :: _ => .ambiguous

section Resolution

variable (o : RepositoryIdentityObservation) (role : CredentialRole)

/-- `_evidence` -/
def evidence (outcome : RepositoryResolutionOutcome) (profileId : Option Text)
    (bindingRevision : Option Revision) : RepositoryResolutionEvidence where
  providerHost := o.providerHost
  repositoryId := o.repositoryId
  canonicalName := o.canonicalName
  profileId := profileId
  bindingRevision := bindingRevision
  outcome := outcome

/-- `_failed` -/
def failed (code : RepositoryAuthFailureCode) (message : String) (retryable : Bool)
    (action : RecoveryActionKind) (bindingRevision : Option Revision) :
    RepositoryIdentityResolution where
  outcome := .failed
  profile := none
  binding := none
  bindingRevision := bindingRevision
  proposal := none
  reconciliation := none
  failure := some ⟨code, message, retryable, [action]⟩
  evidence := evidence o .failed none bindingRevision

/-- `_profile_for_exact_binding` -/
def profileForExactBinding (binding : RepositoryIdentityBinding)
    (profiles : List CredentialProfileEligibility) (revision : Revision) :
    RepositoryIdentityResolution ⊕ CredentialProfile :=
  match binding.profileId role with
  | none =>
    .inl (failed o .profileNotFound
      "The repository binding has no profile for the requested actor role." false .reselectProfile
      (some revision))
  | some profileId =>
    match found (profiles.filter fun e => e.profile.profileId = profileId) with
    | .ambiguous =>
      .inl (failed o .profileAmbiguous "The bound credential profile is missing or non-unique."
        false .reselectProfile (some revision))
    | .missing =>
      .inl (failed o .profileNotFound "The bound credential profile is missing or non-unique."
        false .reselectProfile (some revision))
    | .unique eligibility =>
      if !eligibility.enabled then
        .inl (failed o .profileNotAuthorized "The bound credential profile is disabled." false
          .reauthorize (some revision))
      else if eligibility.profile.provider ≠ o.provider ∨
          !roleAcceptsActorClass role eligibility.profile.actorClass then
        .inl (failed o .profileNotAuthorized
          "The bound credential profile is incompatible with the requested provider or actor role."
          false .reselectProfile (some revision))
      else .inr eligibility.profile

/-- The answer for a bound repository, once its profile is chosen. -/
def resolved (snapshot : RepositoryBindingSnapshot)
    (reconciliation : Option RepositoryReconciliationEvent) (selected : CredentialProfile) :
    RepositoryIdentityResolution where
  outcome := .resolved
  profile := some selected
  binding := some snapshot.binding
  bindingRevision := some snapshot.revision
  proposal := none
  reconciliation := reconciliation
  failure := none
  evidence := evidence o .resolved (some selected.profileId) (some snapshot.revision)

/-- The end of the branch for a bound repository. -/
def resolveProfile (snapshot : RepositoryBindingSnapshot)
    (profiles : List CredentialProfileEligibility)
    (reconciliation : Option RepositoryReconciliationEvent) : RepositoryIdentityResolution :=
  match profileForExactBinding o role snapshot.binding profiles snapshot.revision with
  | .inl failure => failure
  | .inr selected => resolved o snapshot reconciliation selected

/-- The branch of `resolve_repository_identity` for a repository with one binding. -/
def resolveBound (snapshot : RepositoryBindingSnapshot)
    (profiles : List CredentialProfileEligibility) (expectedBindingRevision : Option Revision)
    (selectedProfileId : Option Text) : Except IdentityError RepositoryIdentityResolution :=
  if expectedBindingRevision.isSome ∧ some snapshot.revision ≠ expectedBindingRevision then
    return failed o .bindingStale "The repository binding revision changed after it was reviewed."
      true .reconcileBinding (some snapshot.revision)
  else if snapshot.binding.configRevision ≠ o.configRevision then
    return failed o .bindingStale
      "The repository binding belongs to a different configuration revision." true
      .reconcileBinding (some snapshot.revision)
  else if selectedProfileId.isSome ∧ snapshot.binding.profileId role ≠ selectedProfileId then
    return failed o .profileNotAuthorized
      "The explicit credential profile conflicts with the exact repository binding." false
      .reselectProfile (some snapshot.revision)
  else if snapshot.binding.canonicalName ≠ o.canonicalName then do
    let before ← ownerBoundary snapshot.binding.canonicalName
    let after ← ownerBoundary o.canonicalName
    if before ≠ after then
      return failed o .bindingRepositoryMismatch
        "The stable repository moved across an owner policy boundary." false .reconcileBinding
        (some snapshot.revision)
    else
      return resolveProfile o role snapshot profiles
        (some ⟨snapshot.binding.canonicalName, o.canonicalName⟩)
  else return resolveProfile o role snapshot profiles none

/-- A profile that an unbound repository may use, if it is enabled. -/
def fits (e : CredentialProfileEligibility) : Bool :=
  e.isMatch o && roleAcceptsActorClass role e.profile.actorClass

/-- The binding that is proposed. -/
def proposedBinding (profile : CredentialProfile) : RepositoryIdentityBinding where
  provider := o.provider
  repositoryId := o.repositoryId
  canonicalName := o.canonicalName
  humanProfileId := if role = .human then some profile.profileId else none
  agentProfileId := if role = .agent then some profile.profileId else none
  configRevision := o.configRevision
  providerHost := o.providerHost
  host := o.host
  safe := o.safe
  named := by
    obtain ⟨owner, repository, parts⟩ := o.named
    refine ⟨owner, repository, ?_⟩
    unfold canonicalParts at parts
    split at parts
    · cases parts
    · split at parts
      · rename_i split
        split at parts
        · rename_i valid
          cases parts
          simp only [Bool.and_eq_true] at valid
          exact ⟨split, valid.1.2, valid.2⟩
        · cases parts
      · cases parts
  safeProfiles := by
    intro id inside
    cases role <;> simp at inside <;> rw [inside] <;> exact profile.safe
  bound := by cases role <;> simp
  revision := o.revision

def proposalFor (profile : CredentialProfile) : RepositoryIdentityResolution where
  outcome := .proposalRequired
  profile := none
  binding := none
  bindingRevision := none
  proposal := some ⟨profile.profileId, proposedBinding o role profile⟩
  reconciliation := none
  failure := none
  evidence := evidence o .proposalRequired (some profile.profileId) none

/-- The end of the branch for an unbound repository, with the profiles that fit it. -/
def propose (fitting : List CredentialProfileEligibility) : RepositoryIdentityResolution :=
  match found (fitting.filter (·.enabled)) with
  | .ambiguous =>
    failed o .profileAmbiguous
      "More than one credential profile is eligible for the unbound repository." false
      .reselectProfile none
  | .missing =>
    failed o (if fitting = [] then .profileNotFound else .profileNotAuthorized)
      "No enabled credential profile is eligible for the unbound repository." false
      (if fitting = [] then .reselectProfile else .reauthorize) none
  | .unique eligibility => proposalFor o role eligibility.profile

/-- The branch of `resolve_repository_identity` for a repository without a binding. -/
def resolveUnbound (profiles : List CredentialProfileEligibility)
    (selectedProfileId : Option Text) : RepositoryIdentityResolution :=
  match selectedProfileId with
  | none => propose o role (profiles.filter (fits o role))
  | some id =>
    match found (profiles.filter fun e => e.profile.profileId = id) with
    | .ambiguous =>
      failed o .profileAmbiguous "The explicit credential profile is declared more than once." false
        .reselectProfile none
    | .missing =>
      failed o .profileNotFound "The explicit credential profile is not declared." false
        .reselectProfile none
    | .unique eligibility =>
      if !eligibility.enabled then
        failed o .profileNotAuthorized "The explicit credential profile is disabled." false
          .reauthorize none
      else if !fits o role eligibility then
        failed o .profileNotAuthorized
          "The explicit credential profile is incompatible with the repository or actor role."
          false .reselectProfile none
      else propose o role [eligibility]

/-- The binding is of the observed repository. -/
def carries (item : RepositoryBindingSnapshot) : Bool :=
  decide (item.binding.provider = o.provider ∧ item.binding.providerHost = o.providerHost ∧
    item.binding.repositoryId = o.repositoryId)

/-- The binding has the observed name, for another repository. -/
def collides (item : RepositoryBindingSnapshot) : Bool :=
  decide (item.binding.provider = o.provider ∧ item.binding.providerHost = o.providerHost ∧
    lower item.binding.canonicalName = lower o.canonicalName ∧
    item.binding.repositoryId ≠ o.repositoryId)

def resolveRepositoryIdentity (bindings : List RepositoryBindingSnapshot)
    (profiles : List CredentialProfileEligibility) (expectedBindingRevision : Option Revision)
    (selectedProfileId : Option Text) : Except IdentityError RepositoryIdentityResolution :=
  if selectedProfileId.any (fun id => !isSafeId id) then .error .selectedProfileId
  else if !o.exists_ then
    return failed o .repositoryBindingNotFound
      "The provider did not confirm that the target repository still exists." false
      .reconcileBinding none
  else
    match found (bindings.filter (carries o)) with
    | .ambiguous =>
      return failed o .bindingAmbiguous
        "More than one binding claims the same stable repository identity." false
        .reconcileBinding none
    | .unique snapshot =>
      resolveBound o role snapshot profiles expectedBindingRevision selectedProfileId
    | .missing =>
      if bindings.any (collides o) then
        return failed o .bindingRepositoryMismatch
          "The repository name now resolves to a different stable repository ID." false
          .reconcileBinding none
      else return resolveUnbound o role profiles selectedProfileId

end Resolution

end RepoForge.Identity
