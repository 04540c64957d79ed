import RepoForge.Spec.Identity.Boundaries

/-!
# Identity resolution is sound, and converges

Every branch of `resolve_repository_identity` that does not fail has passed all its guards, over all
bindings and profiles. The answer does not depend on their order; and a proposal, once it is bound,
is resolved to the profile it proposed and changes nothing for other repositories.
-/
namespace RepoForge.Identity

variable {o o' : RepositoryIdentityObservation} {role : CredentialRole}
  {bindings bindings' : List RepositoryBindingSnapshot}
  {profiles profiles' : List CredentialProfileEligibility} {expected : Option Revision}
  {selected : Option Text} {result : RepositoryIdentityResolution}
  {snapshot : RepositoryBindingSnapshot}

section Found

variable {α : Type} {items items' : List α} {item : α}

theorem found_unique : found items = .unique item ↔ items = [item] := by
  cases items with
  | nil => simp [found]
  | cons first rest => cases rest <;> simp [found]

theorem found_missing : found items = .missing ↔ items = [] := by
  cases items with
  | nil => simp [found]
  | cons first rest => cases rest <;> simp [found]

theorem found_ambiguous : found items = .ambiguous ↔ 2 ≤ items.length := by
  cases items with
  | nil => simp [found]
  | cons first rest => cases rest <;> simp [found]

theorem found_perm (perm : items.Perm items') : found items = found items' := by
  cases here : found items' with
  | missing =>
    rw [found_missing] at here
    subst here
    rw [found_missing]
    exact perm.eq_nil
  | unique item =>
    rw [found_unique] at here
    subst here
    rw [found_unique]
    exact List.perm_singleton.mp perm
  | ambiguous =>
    rw [found_ambiguous] at here
    rw [found_ambiguous, perm.length_eq]
    exact here

end Found

/-! ### Soundness -/

/-- What a resolved answer has passed. -/
structure ResolvedBy (o : RepositoryIdentityObservation) (role : CredentialRole)
    (bindings : List RepositoryBindingSnapshot) (profiles : List CredentialProfileEligibility)
    (expected : Option Revision) (selected : Option Text)
    (result : RepositoryIdentityResolution) (snapshot : RepositoryBindingSnapshot)
    (eligibility : CredentialProfileEligibility) : Prop where
  only : bindings.filter (carries o) = [snapshot]
  config : snapshot.binding.configRevision = o.configRevision
  reviewed : ∀ revision, expected = some revision → snapshot.revision = revision
  owner : ∃ boundary, ownerBoundary o.canonicalName = .ok boundary ∧
    ownerBoundary snapshot.binding.canonicalName = .ok boundary
  bound : snapshot.binding.profileId role = some eligibility.profile.profileId
  one : profiles.filter (fun e => e.profile.profileId = eligibility.profile.profileId) =
    [eligibility]
  enabled : eligibility.enabled = true
  provider : eligibility.profile.provider = o.provider
  actor : roleAcceptsActorClass role eligibility.profile.actorClass = true
  chosen : ∀ id, selected = some id → id = eligibility.profile.profileId
  profile : result.profile = some eligibility.profile
  binding : result.binding = some snapshot.binding

/-- The profile may be used for the unbound repository. -/
structure Eligible (o : RepositoryIdentityObservation) (role : CredentialRole)
    (e : CredentialProfileEligibility) : Prop where
  enabled : e.enabled = true
  isMatch : e.isMatch o = true
  actor : roleAcceptsActorClass role e.profile.actorClass = true

instance (o : RepositoryIdentityObservation) (role : CredentialRole)
    (e : CredentialProfileEligibility) : Decidable (Eligible o role e) :=
  decidable_of_iff (e.enabled = true ∧ e.isMatch o = true ∧
      roleAcceptsActorClass role e.profile.actorClass = true)
    ⟨fun h => ⟨h.1, h.2.1, h.2.2⟩, fun h => ⟨h.enabled, h.isMatch, h.actor⟩⟩

/-- What an answer with a proposal has passed. -/
structure ProposedBy (o : RepositoryIdentityObservation) (role : CredentialRole)
    (bindings : List RepositoryBindingSnapshot) (profiles : List CredentialProfileEligibility)
    (selected : Option Text) (result : RepositoryIdentityResolution)
    (eligibility : CredentialProfileEligibility) : Prop where
  unclaimed : ∀ item ∈ bindings, ¬ carries o item = true ∧
    lower item.binding.canonicalName ≠ lower o.canonicalName
  eligible : Eligible o role eligibility
  one : selected = none → profiles.filter (fun e => decide (Eligible o role e)) = [eligibility]
  chosen : ∀ id, selected = some id → eligibility.profile.profileId = id ∧
    profiles.filter (fun e => e.profile.profileId = id) = [eligibility]
  owner : ∃ boundary, ownerBoundary o.canonicalName = .ok boundary ∧
    ∀ pattern ∈ eligibility.repositoryPatterns, patternBoundary pattern = .ok boundary
  proposal : result.proposal = some ⟨eligibility.profile.profileId,
    proposedBinding o role eligibility.profile⟩

/-- All patterns of a profile that fits lie in the owner boundary of the observed name. -/
theorem isMatch_boundary {e : CredentialProfileEligibility} (fits : e.isMatch o = true) :
    ∃ boundary, ownerBoundary o.canonicalName = .ok boundary ∧
      ∀ pattern ∈ e.repositoryPatterns, patternBoundary pattern = .ok boundary := by
  unfold CredentialProfileEligibility.isMatch at fits
  rw [Bool.and_eq_true, List.any_eq_true] at fits
  obtain ⟨-, pattern, inside, fits⟩ := fits
  obtain ⟨boundary, all⟩ := e.oneBoundary
  obtain ⟨owner, repository, parts⟩ := o.named
  exact ⟨boundary, patternMatches_boundary (all pattern inside) parts fits, all⟩

theorem profileForExactBinding_inr {binding : RepositoryIdentityBinding} {revision : Revision}
    {profile : CredentialProfile}
    (found : profileForExactBinding o role binding profiles revision = .inr profile) :
    ∃ eligibility, profile = eligibility.profile ∧
      binding.profileId role = some eligibility.profile.profileId ∧
      profiles.filter (fun e => e.profile.profileId = eligibility.profile.profileId) =
        [eligibility] ∧
      eligibility.enabled = true ∧ eligibility.profile.provider = o.provider ∧
      roleAcceptsActorClass role eligibility.profile.actorClass = true := by
  unfold profileForExactBinding at found
  split at found
  · cases found
  · rename_i id bound
    split at found
    · cases found
    · cases found
    · rename_i eligibility one
      rw [found_unique] at one
      have inside : eligibility ∈ profiles.filter fun e => e.profile.profileId = id := by
        rw [one]
        exact List.mem_singleton_self _
      have named : eligibility.profile.profileId = id := by simpa using (List.mem_filter.mp inside).2
      split at found
      · cases found
      · rename_i enabled
        split at found
        · cases found
        · rename_i fits
          cases found
          have provider : eligibility.profile.provider = o.provider :=
            of_not_not fun other => fits (.inl other)
          have actor : roleAcceptsActorClass role eligibility.profile.actorClass = true := by
            simpa using fun other => fits (.inr other)
          exact ⟨eligibility, rfl, by rw [named, bound], by rw [named]; exact one,
            by simpa using enabled, provider, actor⟩

theorem profileForExactBinding_inl {binding : RepositoryIdentityBinding} {revision : Revision}
    (found : profileForExactBinding o role binding profiles revision = .inl result) :
    result.outcome = .failed := by
  unfold profileForExactBinding at found
  repeat' split at found
  all_goals cases found
  all_goals rfl

/-- The end of the branch for a bound repository. -/
theorem resolveProfile_resolved {reconciliation : Option RepositoryReconciliationEvent}
    (outcome : (resolveProfile o role snapshot profiles reconciliation).outcome = .resolved) :
    ∃ profile, profileForExactBinding o role snapshot.binding profiles snapshot.revision =
        .inr profile ∧
      resolveProfile o role snapshot profiles reconciliation =
        resolved o snapshot reconciliation profile := by
  unfold resolveProfile at outcome ⊢
  split at outcome
  · rename_i failure
    rw [profileForExactBinding_inl failure] at outcome
    cases outcome
  · rename_i profile selected
    rw [selected]
    exact ⟨profile, rfl, rfl⟩

/-- A bound repository is resolved only to the profile that its binding names. -/
theorem resolveBound_resolved (one : bindings.filter (carries o) = [snapshot])
    (ok : resolveBound o role snapshot profiles expected selected = .ok result)
    (outcome : result.outcome = .resolved) :
    ∃ eligibility, ResolvedBy o role bindings profiles expected selected result snapshot
      eligibility := by
  unfold resolveBound at ok
  split at ok
  · cases ok
    cases outcome
  rename_i reviewed
  split at ok
  · cases ok
    cases outcome
  rename_i config
  split at ok
  · cases ok
    cases outcome
  rename_i chosen
  -- Both remaining branches end in the same way; only the boundary needs the rename.
  have last : ∀ reconciliation,
      result = resolveProfile o role snapshot profiles reconciliation →
      (∃ boundary, ownerBoundary o.canonicalName = .ok boundary ∧
        ownerBoundary snapshot.binding.canonicalName = .ok boundary) →
      ∃ eligibility, ResolvedBy o role bindings profiles expected selected result snapshot
        eligibility := by
    intro reconciliation result owner
    subst result
    obtain ⟨profile, found, whole⟩ := resolveProfile_resolved outcome
    obtain ⟨eligibility, rfl, bound, unique, enabled, provider, actor⟩ :=
      profileForExactBinding_inr found
    refine ⟨eligibility, ?_⟩
    constructor
    · exact one
    · exact of_not_not config
    · rintro revision rfl
      simpa using reviewed
    · exact owner
    · exact bound
    · exact unique
    · exact enabled
    · exact provider
    · exact actor
    · rintro id rfl
      rw [bound] at chosen
      simpa using (not_and.mp chosen rfl) ∘ Ne.symm
    · rw [whole]
      rfl
    · rw [whole]
      rfl
  split at ok
  · cases before : ownerBoundary snapshot.binding.canonicalName with
    | error e =>
      rw [before] at ok
      cases ok
    | ok boundary =>
      cases after : ownerBoundary o.canonicalName with
      | error e =>
        rw [before, after] at ok
        cases ok
      | ok boundary' =>
        rw [before, after, ok_bind, ok_bind] at ok
        split at ok
        · cases ok
          cases outcome
        · rename_i same
          cases ok
          exact last _ rfl ⟨boundary', after, by rw [before, of_not_not same]⟩
  · rename_i same
    cases ok
    obtain ⟨owner, repository, parts⟩ := o.named
    exact last _ rfl ⟨_, ownerBoundary_of parts, by
      rw [of_not_not same]
      exact ownerBoundary_of parts⟩

theorem eligible_fits {e : CredentialProfileEligibility} :
    Eligible o role e ↔ fits o role e = true ∧ e.enabled = true := by
  unfold fits
  rw [Bool.and_eq_true]
  exact ⟨fun h => ⟨⟨h.isMatch, h.actor⟩, h.enabled⟩, fun h => ⟨h.2, h.1.1, h.1.2⟩⟩

theorem propose_proposal {fitting : List CredentialProfileEligibility}
    (outcome : (propose o role fitting).outcome = .proposalRequired) :
    ∃ e, fitting.filter (·.enabled) = [e] ∧
      propose o role fitting = proposalFor o role e.profile := by
  unfold propose at outcome ⊢
  split at outcome
  · cases outcome
  · cases outcome
  · rename_i e one
    exact ⟨e, found_unique.mp one, rfl⟩

/-- The profiles that are kept twice are the eligible ones. -/
theorem eligible_filter (profiles : List CredentialProfileEligibility) :
    (profiles.filter (fits o role)).filter (·.enabled) =
      profiles.filter fun e => decide (Eligible o role e) := by
  rw [List.filter_filter]
  refine List.filter_congr fun e _ => ?_
  rw [Bool.eq_iff_iff, Bool.and_eq_true, decide_eq_true_iff, eligible_fits, and_comm]

/-- A proposal for an unbound repository is for an eligible profile: the only one, or the chosen
one. -/
theorem resolveUnbound_proposal
    (outcome : (resolveUnbound o role profiles selected).outcome = .proposalRequired) :
    ∃ e, Eligible o role e ∧
      (selected = none → profiles.filter (fun e => decide (Eligible o role e)) = [e]) ∧
      (∀ id, selected = some id → e.profile.profileId = id ∧
        profiles.filter (fun e => e.profile.profileId = id) = [e]) ∧
      resolveUnbound o role profiles selected = proposalFor o role e.profile := by
  cases selected with
  | none =>
    obtain ⟨e, one, whole⟩ := propose_proposal outcome
    rw [eligible_filter] at one
    have inside : e ∈ profiles.filter fun e => decide (Eligible o role e) := by simp [one]
    exact ⟨e, of_decide_eq_true (List.mem_filter.mp inside).2, fun _ => one, nofun, whole⟩
  | some id =>
    unfold resolveUnbound at outcome ⊢
    dsimp only at outcome ⊢
    split at outcome
    · cases outcome
    · cases outcome
    · rename_i e one
      split at outcome
      · cases outcome
      · split at outcome
        · cases outcome
        · rename_i enabled compatible
          rw [if_neg enabled, if_neg compatible]
          simp only [Bool.not_eq_true', Bool.not_eq_false] at enabled compatible
          obtain ⟨e', kept, whole⟩ := propose_proposal outcome
          have same : e' = e := by simpa [enabled, eq_comm] using kept
          subst same
          have inside : e' ∈ profiles.filter fun e => e.profile.profileId = id := by
            simp [found_unique.mp one]
          refine ⟨e', eligible_fits.mpr ⟨compatible, enabled⟩, nofun, ?_, whole⟩
          rintro _ ⟨⟩
          exact ⟨by simpa using (List.mem_filter.mp inside).2, found_unique.mp one⟩

/-- Where a proposal is made, nothing claims the repository, by its id or by its name. -/
theorem unclaimed (missing : bindings.filter (carries o) = [])
    (free : ¬ bindings.any (collides o) = true) :
    ∀ item ∈ bindings, ¬ carries o item = true ∧
      lower item.binding.canonicalName ≠ lower o.canonicalName := by
  intro item inside
  have other : ¬ carries o item = true := List.filter_eq_nil_iff.mp missing item inside
  refine ⟨other, ?_⟩
  intro same
  have host := host_of_lower same
  have provider : item.binding.provider = o.provider := by cases item.binding.provider; rfl
  apply free
  rw [List.any_eq_true]
  refine ⟨item, inside, ?_⟩
  unfold carries at other
  rw [decide_eq_true_iff, not_and, not_and] at other
  exact decide_eq_true ⟨provider, host, same, other provider host⟩

/-- A bound repository gets no proposal. -/
theorem resolveBound_outcome
    (ok : resolveBound o role snapshot profiles expected selected = .ok result) :
    result.outcome ≠ .proposalRequired := by
  have last : ∀ reconciliation,
      (resolveProfile o role snapshot profiles reconciliation).outcome ≠ .proposalRequired := by
    intro reconciliation
    unfold resolveProfile
    split
    · rename_i failure
      rw [profileForExactBinding_inl failure]
      simp
    · simp [resolved]
  unfold resolveBound at ok
  repeat' split at ok
  all_goals try cases ok
  all_goals try simp [failed]
  · cases before : ownerBoundary snapshot.binding.canonicalName with
    | error e =>
      rw [before] at ok
      cases ok
    | ok boundary =>
      cases after : ownerBoundary o.canonicalName with
      | error e =>
        rw [before, after] at ok
        cases ok
      | ok boundary' =>
        rw [before, after, ok_bind, ok_bind] at ok
        split at ok
        · cases ok
          simp [failed]
        · cases ok
          exact last _
  · exact last _

/-- A repository without a binding is not resolved. -/
theorem resolveUnbound_outcome :
    (resolveUnbound o role profiles selected).outcome ≠ .resolved := by
  have last : ∀ fitting, (propose o role fitting).outcome ≠ .resolved := by
    intro fitting
    unfold propose
    split <;> simp [failed, proposalFor]
  unfold resolveUnbound
  repeat' split
  all_goals first
    | exact last _
    | simp [failed]

/-- The cases of the resolution that are not failures. -/
theorem resolve_cases
    (ok : resolveRepositoryIdentity o role bindings profiles expected selected = .ok result) :
    result.outcome = .failed ∨
    (∃ snapshot, bindings.filter (carries o) = [snapshot] ∧
      resolveBound o role snapshot profiles expected selected = .ok result) ∨
    (bindings.filter (carries o) = [] ∧ ¬ bindings.any (collides o) = true ∧
      result = resolveUnbound o role profiles selected) := by
  unfold resolveRepositoryIdentity at ok
  split at ok
  · cases ok
  split at ok
  · cases ok
    exact .inl rfl
  split at ok
  · cases ok
    exact .inl rfl
  · rename_i snapshot one
    exact .inr (.inl ⟨snapshot, found_unique.mp one, ok⟩)
  · rename_i missing
    split at ok
    · cases ok
      exact .inl rfl
    · rename_i free
      cases ok
      exact .inr (.inr ⟨found_missing.mp missing, free, rfl⟩)

/-- A proposal is made for an unbound repository that exists. -/
theorem resolve_proposal
    (ok : resolveRepositoryIdentity o role bindings profiles expected selected = .ok result)
    (outcome : result.outcome = .proposalRequired) :
    o.exists_ = true ∧ bindings.filter (carries o) = [] ∧
      ¬ selected.any (fun id => !isSafeId id) = true ∧
      result = resolveUnbound o role profiles selected := by
  rcases resolve_cases ok with failure | ⟨snapshot, one, bound⟩ | ⟨missing, free, whole⟩
  · rw [failure] at outcome
    cases outcome
  · exact absurd outcome (resolveBound_outcome bound)
  · unfold resolveRepositoryIdentity at ok
    split at ok
    · cases ok
    · rename_i safe
      split at ok
      · cases ok
        cases outcome
      · rename_i there
        exact ⟨by simpa using there, missing, safe, whole⟩

/-- An answer that is not a failure has passed every guard of its branch. -/
theorem resolve_sound
    (ok : resolveRepositoryIdentity o role bindings profiles expected selected = .ok result) :
    (result.outcome = .resolved → ∃ snapshot eligibility,
      ResolvedBy o role bindings profiles expected selected result snapshot eligibility) ∧
    (result.outcome = .proposalRequired → ∃ eligibility,
      ProposedBy o role bindings profiles selected result eligibility) := by
  rcases resolve_cases ok with failure | ⟨snapshot, one, bound⟩ | ⟨missing, free, rfl⟩
  · rw [failure]
    exact ⟨nofun, nofun⟩
  · exact ⟨fun outcome => ⟨snapshot, resolveBound_resolved one bound outcome⟩,
      fun outcome => absurd outcome (resolveBound_outcome bound)⟩
  · refine ⟨fun outcome => absurd outcome resolveUnbound_outcome, ?_⟩
    intro outcome
    obtain ⟨e, eligible, only, chosen, whole⟩ := resolveUnbound_proposal outcome
    refine ⟨e, ?_⟩
    constructor
    · exact unclaimed missing free
    · exact eligible
    · exact only
    · exact chosen
    · exact isMatch_boundary eligible.isMatch
    · rw [whole]
      rfl

/-! A repository `h/o/r` that no binding claims, and a profile for all repositories of `h/o`. -/

def sampleObservation : RepositoryIdentityObservation where
  provider := .github
  providerHost := ['h']
  repositoryId := ['1']
  canonicalName := ['h', '/', 'o', '/', 'r']
  exists_ := true
  configRevision := List.replicate 64 'a'
  host := by decide
  safe := by decide
  named := ⟨['o'], ['r'], by decide⟩
  revision := by decide

def sampleProfile : CredentialProfile where
  profileId := ['p']
  provider := .github
  credentialKind := .storedAccount
  credentialRef := (['s'], ['c'])
  actorClass := .autonomousAgent
  expectedActorId := none
  capabilityIds := []
  revision := ['1']
  safe := by decide

def sampleEligibility : CredentialProfileEligibility where
  profile := sampleProfile
  enabled := true
  repositoryPatterns := [['h', '/', 'o', '/', '*']]
  boundaryId := ['b']
  bounded := by decide
  safe := by decide
  oneBoundary := ⟨['h', '/', 'o'], by decide⟩
  unique := by decide

theorem sample_proposal :
    resolveRepositoryIdentity sampleObservation .agent [] [sampleEligibility] none none =
      .ok (proposalFor sampleObservation .agent sampleProfile) := by
  decide

theorem resolve_sound_proposal : ∃ eligibility, ProposedBy sampleObservation .agent []
    [sampleEligibility] none (proposalFor sampleObservation .agent sampleProfile) eligibility :=
  (resolve_sound sample_proposal).2 rfl

end RepoForge.Identity

/-!
## Identity proposals converge and ignore order

The resolution counts what passes a filter, so the order of bindings and profiles does not matter.
A proposal was made under the rules for unbound repositories; its binding passes the rules for bound
ones, and no other repository sees it.
-/
namespace RepoForge.Identity

variable {o o' : RepositoryIdentityObservation} {role : CredentialRole}
  {bindings bindings' : List RepositoryBindingSnapshot}
  {profiles profiles' : List CredentialProfileEligibility} {expected : Option Revision}
  {selected : Option Text} {result : RepositoryIdentityResolution}
  {snapshot : RepositoryBindingSnapshot}

/-! ### The order does not matter -/

theorem propose_perm {fitting fitting' : List CredentialProfileEligibility}
    (perm : fitting.Perm fitting') : propose o role fitting = propose o role fitting' := by
  have empty : fitting = [] ↔ fitting' = [] := by
    constructor
    · intro none
      subst none
      exact perm.nil_eq.symm
    · intro none
      subst none
      exact perm.eq_nil
  unfold propose
  rw [found_perm (perm.filter _)]
  simp only [empty]

theorem resolveUnbound_perm (perm : profiles.Perm profiles') :
    resolveUnbound o role profiles selected = resolveUnbound o role profiles' selected := by
  unfold resolveUnbound
  cases selected with
  | none => exact propose_perm (perm.filter _)
  | some id =>
    dsimp only
    rw [found_perm (perm.filter _)]

theorem profileForExactBinding_perm {binding : RepositoryIdentityBinding} {revision : Revision}
    (perm : profiles.Perm profiles') :
    profileForExactBinding o role binding profiles revision =
      profileForExactBinding o role binding profiles' revision := by
  unfold profileForExactBinding
  split
  · rfl
  · rw [found_perm (perm.filter _)]

theorem resolveBound_perm (perm : profiles.Perm profiles') :
    resolveBound o role snapshot profiles expected selected =
      resolveBound o role snapshot profiles' expected selected := by
  have last : ∀ reconciliation, resolveProfile o role snapshot profiles reconciliation =
      resolveProfile o role snapshot profiles' reconciliation := by
    intro reconciliation
    unfold resolveProfile
    rw [profileForExactBinding_perm perm]
  unfold resolveBound
  simp only [last]

theorem resolve_perm (perm : bindings.Perm bindings') (perm' : profiles.Perm profiles') :
    resolveRepositoryIdentity o role bindings profiles expected selected =
      resolveRepositoryIdentity o role bindings' profiles' expected selected := by
  unfold resolveRepositoryIdentity
  rw [found_perm (perm.filter _), perm.any_eq, resolveUnbound_perm perm']
  simp only [resolveBound_perm perm']

/-! ### What a new binding changes -/

section Keys

variable {α β : Type} [DecidableEq β] {key : α → β} {items : List α} {item : α}

/-- With distinct keys, an item is the only one with its key. -/
theorem filter_key (distinct : (items.map key).Nodup) (inside : item ∈ items) :
    items.filter (fun other => key other = key item) = [item] := by
  induction items with
  | nil => cases inside
  | cons first rest ih =>
    rw [List.map_cons, List.nodup_cons] at distinct
    obtain ⟨new, distinct⟩ := distinct
    rcases List.mem_cons.mp inside with rfl | inside
    · have none : rest.filter (fun other => key other = key item) = [] := by
        rw [List.filter_eq_nil_iff]
        intro other there same
        exact new (List.mem_map.mpr ⟨other, there, of_decide_eq_true same⟩)
      simp [none]
    · have other : key first ≠ key item := fun same =>
        new (same ▸ List.mem_map.mpr ⟨item, inside, rfl⟩)
      rw [List.filter_cons_of_neg (by simpa using other), ih distinct inside]

end Keys

/-- The proposed binding, stored at a revision. -/
def stored (o : RepositoryIdentityObservation) (role : CredentialRole)
    (profile : CredentialProfile) (revision : Revision) : RepositoryBindingSnapshot :=
  ⟨proposedBinding o role profile, revision⟩

theorem carries_stored {profile : CredentialProfile} {revision : Revision} :
    carries o (stored o role profile revision) = true := by
  simp [carries, stored, proposedBinding]

theorem profileId_proposed {profile : CredentialProfile} :
    (proposedBinding o role profile).profileId role = some profile.profileId := by
  cases role <;> rfl

/-- An eligible profile passes the rules for the binding that names it. -/
theorem profileForExactBinding_stored {e : CredentialProfileEligibility} {revision : Revision}
    (one : profiles.filter (fun e' => e'.profile.profileId = e.profile.profileId) = [e])
    (eligible : Eligible o role e) :
    profileForExactBinding o role (proposedBinding o role e.profile) profiles revision =
      .inr e.profile := by
  have provider : e.profile.provider = o.provider := by
    have fits := eligible.isMatch
    unfold CredentialProfileEligibility.isMatch at fits
    exact of_decide_eq_true (Bool.and_eq_true_iff.mp fits).1
  unfold profileForExactBinding
  rw [profileId_proposed]
  dsimp only
  rw [one]
  simp only [found, eligible.enabled, eligible.actor, provider]
  simp

/-- The stored proposal is resolved to the proposed profile. -/
theorem resolveBound_stored {e : CredentialProfileEligibility} {revision : Revision}
    (one : profiles.filter (fun e' => e'.profile.profileId = e.profile.profileId) = [e])
    (eligible : Eligible o role e) (chosen : ∀ id, selected = some id → e.profile.profileId = id) :
    resolveBound o role (stored o role e.profile revision) profiles none selected =
      .ok (resolved o (stored o role e.profile revision) none e.profile) := by
  have agrees : ¬ (selected.isSome ∧
      (stored o role e.profile revision).binding.profileId role ≠ selected) := by
    intro other
    obtain ⟨id, given⟩ := Option.isSome_iff_exists.mp other.1
    apply other.2
    rw [given, ← chosen id given]
    exact profileId_proposed
  unfold resolveBound
  rw [if_neg (by simp), if_neg (by simp [stored, proposedBinding]), if_neg agrees,
    if_neg (by simp [stored, proposedBinding])]
  unfold resolveProfile
  rw [stored, profileForExactBinding_stored one eligible]
  rfl

/-- A binding of another repository, under another name, is passed over. -/
theorem resolve_other (id : snapshot.binding.repositoryId ≠ o.repositoryId)
    (name : lower snapshot.binding.canonicalName ≠ lower o.canonicalName) :
    resolveRepositoryIdentity o role (snapshot :: bindings) profiles expected selected =
      resolveRepositoryIdentity o role bindings profiles expected selected := by
  have carried : ¬ carries o snapshot = true := by simp [carries, id]
  have collided : collides o snapshot = false := by simp [collides, name]
  unfold resolveRepositoryIdentity
  rw [List.filter_cons_of_neg carried, List.any_cons, collided, Bool.false_or]

/-- The binding of the only claim decides. -/
theorem resolve_claimed (safe : ¬ selected.any (fun id => !isSafeId id) = true)
    (there : o.exists_ = true) (missing : bindings.filter (carries o) = [])
    (claims : carries o snapshot = true) :
    resolveRepositoryIdentity o role (snapshot :: bindings) profiles expected selected =
      resolveBound o role snapshot profiles expected selected := by
  unfold resolveRepositoryIdentity
  rw [if_neg safe, if_neg (by simp [there]), List.filter_cons_of_pos claims, missing]
  rfl

/-- The order of bindings and profiles does not matter. A proposal, once it is bound, is resolved to
the proposed profile, and other repositories do not see it. -/
theorem resolve_converges :
    (bindings.Perm bindings' → profiles.Perm profiles' →
      resolveRepositoryIdentity o role bindings profiles expected selected =
        resolveRepositoryIdentity o role bindings' profiles' expected selected) ∧
    ((profiles.map (·.profile.profileId)).Nodup →
      resolveRepositoryIdentity o role bindings profiles none selected = .ok result →
      result.outcome = .proposalRequired →
      ∃ proposal, result.proposal = some proposal ∧
        ∀ revision, bindings'.Perm (⟨proposal.binding, revision⟩ :: bindings) →
          (∃ resolution e, e ∈ profiles ∧ e.profile.profileId = proposal.profileId ∧
            resolveRepositoryIdentity o role bindings' profiles none selected = .ok resolution ∧
            resolution.outcome = .resolved ∧ resolution.profile = some e.profile) ∧
          ∀ o' role' profiles' expected' selected', o'.repositoryId ≠ o.repositoryId →
            lower o'.canonicalName ≠ lower o.canonicalName →
            resolveRepositoryIdentity o' role' bindings' profiles' expected' selected' =
              resolveRepositoryIdentity o' role' bindings profiles' expected' selected') := by
  constructor
  · exact resolve_perm
  · intro distinct ok outcome
    obtain ⟨there, missing, safe, rfl⟩ := resolve_proposal ok outcome
    obtain ⟨e, eligible, only, chosen, whole⟩ := resolveUnbound_proposal outcome
    have inside : e ∈ profiles := by
      cases selected with
      | none => exact List.mem_of_mem_filter (by rw [only rfl]; exact List.mem_singleton_self e)
      | some id =>
        exact List.mem_of_mem_filter (by rw [(chosen id rfl).2]; exact List.mem_singleton_self e)
    have one := filter_key distinct inside
    refine ⟨⟨e.profile.profileId, proposedBinding o role e.profile⟩, by rw [whole]; rfl, ?_⟩
    intro revision perm
    constructor
    · refine ⟨resolved o (stored o role e.profile revision) none e.profile, e, inside, rfl, ?_, rfl,
        rfl⟩
      rw [resolve_perm perm (List.Perm.refl _)]
      exact (resolve_claimed safe there missing carries_stored).trans
        (resolveBound_stored one eligible fun id given => (chosen id given).1)
    · intro o' role' profiles' expected' selected' id name
      rw [resolve_perm perm (List.Perm.refl _)]
      exact resolve_other id.symm name.symm

/-- The proposal for `h/o/r`, bound at revision 1. -/
def sampleStored : RepositoryBindingSnapshot :=
  stored sampleObservation .agent sampleProfile ⟨1, Int.one_pos⟩

theorem resolve_converges_sample : ∃ resolution,
    resolveRepositoryIdentity sampleObservation .agent [sampleStored] [sampleEligibility] none
      none = .ok resolution ∧ resolution.outcome = .resolved := by
  have rules := (@resolve_converges sampleObservation .agent [] [sampleStored] [sampleEligibility]
    [] none none (proposalFor sampleObservation .agent sampleProfile)).2
  obtain ⟨proposal, given, converges⟩ := rules (by decide) sample_proposal rfl
  cases given
  obtain ⟨⟨resolution, -, -, -, ok, outcome, -⟩, -⟩ := converges ⟨1, by decide⟩ (List.Perm.refl _)
  exact ⟨resolution, ok, outcome⟩

end RepoForge.Identity
