import RepoForge.Source.IssueGraph.Publication
import RepoForge.Spec.IssueGraph.PlanSteps
import RepoForge.Spec.IssueGraph.Planned

/-!
# What executed steps leave

Relationship steps whose references resolve do nothing but change the relations (`executeSteps_relations`).
A step changes only the pairs of its sub-issue, or of the issue that is blocked: what the steps of
one node leave is not changed by those of the others (`mem_parents_frame`, `mem_blockers_frame`).
-/
namespace RepoForge.IssueGraph
open PyStr (lit sortedDistinct)

variable {created : PyStr → {number : Int // 0 < number}} {remote remote' : Remote}
  {step : StepIntent} {steps : List StepIntent} {graph : PublicationLiveGraph}
  {draft : IssueGraphDraft} {ref child parent source target : PyStr}

theorem mem_withPair {pairs : List (PyStr × PyStr)} {x pair : PyStr × PyStr} :
    x ∈ withPair pairs pair ↔ x ∈ pairs ∨ x = pair := by
  unfold withPair
  split_ifs with here
  · constructor
    · exact .inl
    · rintro (there | rfl)
      · exact there
      · exact here
  · simp

theorem mem_withoutPair {pairs : List (PyStr × PyStr)} {x pair : PyStr × PyStr} :
    x ∈ withoutPair pairs pair ↔ x ∈ pairs ∧ x ≠ pair := by
  simp [withoutPair]

/-! ### References -/

/-- The mapping has a number for it. -/
def Resolves (remote : Remote) (ref : PyStr) : Prop :=
  ∃ number, PyDict.get remote.mapping ref = some number ∧ 0 < number

theorem resolvedNumber_of (known : Resolves remote ref) :
    ∃ number, resolvedNumber step remote.mapping ref = some number := by
  obtain ⟨number, found, positive⟩ := known
  exact ⟨number, by simp [resolvedNumber, found, positive]⟩

def PublicationStepKind.relational : PublicationStepKind → Bool
  | addSubIssue | removeSubIssue | addDependency | removeDependency => true
  | _ => false

/-- A relationship step between references that resolve. -/
structure Linking (remote : Remote) (step : StepIntent) : Prop where
  kind : step.kind.relational = true
  source : Resolves remote step.sourceRef
  target : ∃ target, step.targetRef = some target ∧ Resolves remote target

def relateStep (remote : Remote) (step : StepIntent) : Remote :=
  relate remote step.kind step.sourceRef (step.targetRef.getD [])

def relateAll (remote : Remote) (steps : List StepIntent) : Remote := steps.foldl relateStep remote

@[simp] theorem relateStep_mapping : (relateStep remote step).mapping = remote.mapping := by
  unfold relateStep relate
  split <;> rfl

@[simp] theorem relateAll_mapping : (relateAll remote steps).mapping = remote.mapping := by
  induction steps generalizing remote with
  | nil => rfl
  | cons step rest ih => exact ih.trans relateStep_mapping

theorem relateAll_append {more : List StepIntent} :
    relateAll remote (steps ++ more) = relateAll (relateAll remote steps) more :=
  List.foldl_append

theorem executeSteps_append {more : List StepIntent} : executeSteps created remote (steps ++ more) =
    (executeSteps created remote steps).bind fun next => executeSteps created next more :=
  List.foldlM_append

theorem executeStep_linking (links : Linking remote step) :
    executeStep created remote step = some (relateStep remote step) := by
  obtain ⟨kind, source, target, eq, known⟩ := links
  obtain ⟨number, found⟩ := @resolvedNumber_of remote step _ source
  obtain ⟨number', found'⟩ := @resolvedNumber_of remote step _ known
  have relational : step.kind = .addSubIssue ∨ step.kind = .removeSubIssue ∨
      step.kind = .addDependency ∨ step.kind = .removeDependency := by
    cases h : step.kind <;> simp [h, PublicationStepKind.relational] at kind ⊢
  unfold executeStep relateStep
  rcases relational with h | h | h | h <;> simp [h, eq, found, found']

/-- Relationship steps whose references resolve change the relations and nothing else. -/
theorem executeSteps_relations (links : ∀ step ∈ steps, Linking remote step) :
    executeSteps created remote steps = some (relateAll remote steps) := by
  induction steps generalizing remote with
  | nil => rfl
  | cons step rest ih =>
    have first : executeStep created remote step = some (relateStep remote step) :=
      executeStep_linking (links step List.mem_cons_self)
    have kept : ∀ ref, Resolves remote ref → Resolves (relateStep remote step) ref := by
      intro ref known
      simpa [Resolves] using known
    have later := ih fun other here => by
      obtain ⟨kind, source, target, eq, known⟩ := links other (List.mem_cons_of_mem _ here)
      exact (⟨kind, kept _ source, target, eq, kept _ known⟩ :
        Linking (relateStep remote step) other)
    rw [executeSteps, List.foldlM_cons, first]
    exact later

/-! ### Frames -/

/-- The step is about the parent of another issue, or of none. -/
def ElseParent (child : PyStr) (step : StepIntent) : Prop :=
  step.kind = .addSubIssue ∨ step.kind = .removeSubIssue → step.targetRef.getD [] ≠ child

/-- The step is about what blocks another issue, or none. -/
def ElseBlocked (source : PyStr) (step : StepIntent) : Prop :=
  step.kind = .addDependency ∨ step.kind = .removeDependency → step.sourceRef ≠ source

theorem mem_parents_frame (apart : ∀ step ∈ steps, ElseParent child step) :
    (child, parent) ∈ (relateAll remote steps).parents ↔ (child, parent) ∈ remote.parents := by
  induction steps generalizing remote with
  | nil => rfl
  | cons step rest ih =>
    refine (ih fun other here => apart other (List.mem_cons_of_mem _ here)).trans ?_
    have first := apart step List.mem_cons_self
    unfold ElseParent at first
    unfold relateStep relate
    cases kind : step.kind <;> simp only [kind, true_or, or_true, forall_const] at first ⊢
    · rw [mem_withPair]
      simp [Ne.symm first]
    · rw [mem_withoutPair]
      simp [Ne.symm first]

theorem mem_blockers_frame (apart : ∀ step ∈ steps, ElseBlocked source step) :
    (source, target) ∈ (relateAll remote steps).blockers ↔
      (source, target) ∈ remote.blockers := by
  induction steps generalizing remote with
  | nil => rfl
  | cons step rest ih =>
    refine (ih fun other here => apart other (List.mem_cons_of_mem _ here)).trans ?_
    have first := apart step List.mem_cons_self
    unfold ElseBlocked at first
    unfold relateStep relate
    cases kind : step.kind <;> simp only [kind, true_or, or_true, forall_const] at first ⊢
    · rw [mem_withPair]
      simp [Ne.symm first]
    · rw [mem_withoutPair]
      simp [Ne.symm first]

/-! ### One node -/

theorem lastOf_mem {pairs : List (PyStr × PyStr)} (last : lastOf pairs child = some parent) :
    (child, parent) ∈ pairs := by
  obtain ⟨pair, found, rfl⟩ := Option.map_eq_some_iff.mp last
  have same := List.find?_some found
  simp only [decide_eq_true_eq] at same
  rw [← same]
  exact List.mem_reverse.mp (List.mem_of_find?_eq_some found)

theorem lastOf_eq_none {pairs : List (PyStr × PyStr)} (absent : lastOf pairs child = none) :
    (child, parent) ∉ pairs := by
  intro here
  rw [lastOf, Option.map_eq_none_iff, List.find?_eq_none] at absent
  simpa using absent (child, parent) (List.mem_reverse.mpr here)

/-- The steps of a node with a parent leave it that parent, and of its live ones all but the one
that `parent_map` gives. -/
theorem mem_parents_own {node : IssueNodeDraft} {wanted : PyStr}
    (has : node.parentRef = some wanted)
    (same : ∀ p, (node.clientRef, p) ∈ remote.parents ↔ (node.clientRef, p) ∈ graph.parentByRef) :
    (node.clientRef, parent) ∈ (relateAll remote (parentIntents graph node)).parents ↔
      parent = wanted ∨ (node.clientRef, parent) ∈ graph.parentByRef ∧
        lastOf graph.parentByRef node.clientRef ≠ some parent := by
  simp only [parentIntents, has]
  cases current : lastOf graph.parentByRef node.clientRef with
  | none =>
    have absent := @lastOf_eq_none _ parent _ current
    simp [relateAll, relateStep, relate, mem_withPair, same, absent]
  | some other =>
    have live := lastOf_mem current
    by_cases kept : other = wanted
    · subst kept
      simp only [ne_eq, not_true_eq_false, if_false, List.append_nil, relateAll, List.foldl_nil,
        same, Option.some.injEq]
      by_cases here : parent = other
      · simp [here, live]
      · simp [here, Ne.symm here]
    · simp only [ne_eq, kept, not_false_eq_true, if_true, Option.some.injEq, relateAll,
        List.singleton_append, List.foldl_cons, List.foldl_nil, relateStep, relate,
        Option.getD_some, mem_withPair, mem_withoutPair, same, Prod.mk.injEq, true_and]
      by_cases here : parent = wanted
      · simp [here]
      · simp [here, eq_comm]

/-- The steps of an issue leave it the blockers that are desired. -/
theorem mem_blockers_own
    (same : ∀ b, (source, b) ∈ remote.blockers ↔ (source, b) ∈ graph.blockedByRefs) :
    (source, target) ∈ (relateAll remote (dependencyIntents draft graph source)).blockers ↔
      (source, target) ∈ desiredBlockers draft := by
  have removed : ∀ (targets : List PyStr) (remote : Remote), (source, target) ∈
      (relateAll remote (targets.map fun target =>
        ({ kind := .removeDependency, sourceRef := source, targetRef := some target } :
          StepIntent))).blockers ↔ (source, target) ∈ remote.blockers ∧ target ∉ targets := by
    intro targets
    induction targets with
    | nil => simp [relateAll]
    | cons other rest ih =>
      intro remote
      refine (ih _).trans ?_
      simp only [relateStep, relate, Option.getD_some, mem_withoutPair, ne_eq, Prod.mk.injEq,
        true_and, List.mem_cons, not_or]
      exact and_assoc
  have added : ∀ (targets : List PyStr) (remote : Remote), (source, target) ∈
      (relateAll remote (targets.map fun target =>
        ({ kind := .addDependency, sourceRef := source, targetRef := some target } :
          StepIntent))).blockers ↔ (source, target) ∈ remote.blockers ∨ target ∈ targets := by
    intro targets
    induction targets with
    | nil => simp [relateAll]
    | cons other rest ih =>
      intro remote
      refine (ih _).trans ?_
      simp only [relateStep, relate, Option.getD_some, mem_withPair, Prod.mk.injEq, true_and,
        List.mem_cons]
      exact or_assoc
  have targets : ∀ pairs : List (PyStr × PyStr), target ∈ targetsOf pairs source ↔
      (source, target) ∈ pairs := by
    intro pairs
    simp [targetsOf]
  have set : ∀ items : List PyStr, target ∈ sortedDistinct items ↔ target ∈ items := by
    intro items
    simp [sortedDistinct]
  simp only [dependencyIntents, relateAll_append, added, removed, same, set, List.mem_filter,
    targets, decide_eq_true_eq]
  by_cases live : (source, target) ∈ graph.blockedByRefs
  · simp [live]
  · simp [live]

end RepoForge.IssueGraph

/-!
## When a plan is returned

A step is added where its references are safe, its texts can be encoded and the issue number it
expects is positive (`newStep_returns`); a plan is returned where all its steps are so and what it
is made from is current (`plan_returns`).
-/
namespace RepoForge.IssueGraph
open PyStr (lit isHex sortedDistinct)

variable {R : Runtime} {graph : PublicationLiveGraph} {proposal : IssueGraphProposal R}
  {identity : IssueGraphIdentity} {adoptRefs : List PyStr}
  {provider : PublicationProviderIdentity} {createdAt expiresAt hash : PyStr}
  {steps : List PlannedStep}

/-- The checks on a new step. -/
def StepIntent.addable (intent : StepIntent) : Bool :=
  isSafeRef intent.sourceRef && intent.targetRef.all isSafeRef &&
    intent.title.all PyStr.encodable && intent.body.all PyStr.encodable &&
    intent.expectedIssueNumber.all (0 < ·)

/-- Numbered in their order, and without surrogates. -/
structure Sound (steps : List PlannedStep) : Prop where
  ordinals : steps.map (·.ordinal) = List.range steps.length
  clean : ∀ step ∈ steps, step.payload.clean = true

theorem hashJson_returns (sha : R.Sha256) {value : Json} (clean : value.clean = true) :
    ∃ hash, hashJson R value = .ok hash ∧ isHex 64 hash = true := by
  refine ⟨_, hashText_iff.mpr ⟨?_, rfl⟩, isHex_ofText (sha _).1 (sha _).2⟩
  rw [Json.dumps_encodable, clean]

theorem isIdentifier_of (name : String) (hex : isHex 64 hash = true) :
    isIdentifier name (lit name ++ hash.take 24) = true := by
  simp [isIdentifier, isHex_take hex (show 24 ≤ 64 by decide)]

theorem optionalInt_clean (number : Option Int) : (optionalInt number).clean = true := by
  cases number <;> rfl

theorem stepKind_encodable (kind : PublicationStepKind) : kind.value.encodable = true := by
  cases kind <;> exact Json.encodable_lit _

theorem newStep_returns (sha : R.Sha256) (plain : hash.encodable = true) {ordinal : Nat}
    {intent : StepIntent} (addable : intent.addable = true) :
    ∃ step, newStep R hash ordinal intent = .ok step ∧ step.ordinal = ordinal ∧
      step.payload.clean = true := by
  simp only [StepIntent.addable, Bool.and_eq_true, Option.all_eq_true] at addable
  obtain ⟨⟨⟨⟨source, target⟩, title⟩, body⟩, expected⟩ := addable
  have target' := Json.optional_clean.mpr fun ref here => isSafeRef_encodable (target ref here)
  have title' := Json.optional_clean.mpr title
  have body' := Json.optional_clean.mpr body
  have clean : (Json.dict [(lit "body", Json.optional intent.body),
      (lit "expected_issue_number", optionalInt intent.expectedIssueNumber),
      (lit "kind", .str intent.kind.value), (lit "ordinal", .int ordinal),
      (lit "proposal_hash", .str hash), (lit "source_ref", .str intent.sourceRef),
      (lit "target_ref", Json.optional intent.targetRef),
      (lit "title", Json.optional intent.title)]).clean = true := by
    simp [Json.clean, Json.cleanFields, Json.encodable_lit, optionalInt_clean, target', title',
      body', stepKind_encodable, plain, isSafeRef_encodable source]
  obtain ⟨digest, hashed, hex⟩ := hashJson_returns sha clean
  let step : PlannedStep :=
    { intent with stepId := lit "igstep-" ++ digest.take 24, ordinal := ordinal }
  have passed : step.postInit = .ok () := by
    simp only [PlannedStep.postInit, bind_require, require_iff]
    refine ⟨isIdentifier_of "igstep-" hex, source, target, fun number here => ?_⟩
    simpa using expected number here
  refine ⟨step, ?_, rfl, ?_⟩
  · unfold newStep
    rw [hashed]
    change (step.postInit >>= fun _ => _) = _
    rw [passed]
    rfl
  · have named := PyStr.isHex_encodable (isHex_take hex (show 24 ≤ 64 by decide))
    have state : (lit "pending").encodable = true := Json.encodable_lit _
    simp [PlannedStep.payload, step, Json.clean, Json.cleanFields, Json.encodable_lit,
      Json.encodable_append, optionalInt_clean, target', title', body', stepKind_encodable, named,
      isSafeRef_encodable source]

theorem Sound.concat (sound : Sound steps) {step : PlannedStep}
    (next : step.ordinal = steps.length) (clean : step.payload.clean = true) :
    Sound (steps ++ [step]) := by
  constructor
  · simp [sound.ordinals, next, List.range_succ]
  · intro other here
    rcases List.mem_append.mp here with here | here
    · exact sound.clean other here
    · rw [List.mem_singleton.mp here]
      exact clean

theorem addSteps_returns (sha : R.Sha256) (plain : hash.encodable = true) (sound : Sound steps)
    {intents : List StepIntent} (addable : intents.all StepIntent.addable = true) :
    ∃ steps', addSteps R hash steps intents = .ok steps' ∧ Sound steps' := by
  induction intents generalizing steps with
  | nil => exact ⟨steps, rfl, sound⟩
  | cons intent rest ih =>
    rw [List.all_cons, Bool.and_eq_true] at addable
    obtain ⟨step, made, next, clean⟩ := @newStep_returns R hash sha plain steps.length _ addable.1
    obtain ⟨steps', later, sound'⟩ := ih (sound.concat next clean) addable.2
    refine ⟨steps', ?_, sound'⟩
    rw [addSteps, List.foldlM_cons, made]
    exact later

/-- The intents of an item are made, and can be added. -/
def addableAll : Except ProposalError (List StepIntent) → Bool
  | .ok intents => intents.all StepIntent.addable
  | .error _ => false

theorem addEach_returns (sha : R.Sha256) (plain : hash.encodable = true) {α : Type}
    {intents : α → Except ProposalError (List StepIntent)} {items : List α} (sound : Sound steps)
    (addable : items.all (fun item => addableAll (intents item)) = true) :
    ∃ steps', addEach R hash intents steps items = .ok steps' ∧ Sound steps' := by
  induction items generalizing steps with
  | nil => exact ⟨steps, rfl, sound⟩
  | cons item rest ih =>
    rw [List.all_cons, Bool.and_eq_true] at addable
    cases made : intents item with
    | error e => simp [made, addableAll] at addable
    | ok list =>
      have first : list.all StepIntent.addable = true := by simpa [made, addableAll] using addable.1
      obtain ⟨next, added, sound'⟩ := addSteps_returns sha plain sound first
      obtain ⟨steps', later, sound''⟩ := ih sound' addable.2
      refine ⟨steps', ?_, sound''⟩
      have step : (intents item >>= addSteps R hash steps) = .ok next := by
        rw [made]
        exact added
      rw [addEach, List.foldlM_cons, step]
      exact later

/-- All the steps of a plan can be added. -/
def stepsAddable (draft : IssueGraphDraft) (graph : PublicationLiveGraph)
    (rendered : List (PyStr × PyStr)) (order : List PyStr) : Bool :=
  order.all (fun ref => addableAll (createIntents draft graph ref)) &&
  order.all (fun ref => addableAll (updateIntents draft graph rendered ref)) &&
  (graph.parentByRef ++ graph.blockedByRefs).all
    (fun pair => isSafeRef pair.1 && isSafeRef pair.2) &&
  (parentPhase draft graph).all StepIntent.addable &&
  (dependencyPhase draft graph).all StepIntent.addable &&
  addableAll ((bodyIntent draft graph rendered .updateEpic draft.rootRef).map fun last => [last])

theorem relationPairs_returns {pairs : List (PyStr × PyStr)}
    (safe : pairs.all (fun pair => isSafeRef pair.1 && isSafeRef pair.2) = true) :
    relationPairs pairs = .ok pairs := by
  simp only [List.all_eq_true, Bool.and_eq_true] at safe
  exact bind_require.mpr ⟨safe, rfl⟩

theorem planSteps_returns (sha : R.Sha256) (plain : proposal.proposalHash.encodable = true)
    (addable : stepsAddable proposal.draft graph proposal.renderedNodes
      (nodeOrder proposal.publicationOrder) = true) :
    ∃ steps, planSteps R graph proposal = .ok steps ∧ Sound steps := by
  simp only [stepsAddable, Bool.and_eq_true, List.all_append] at addable
  obtain ⟨⟨⟨⟨⟨creates, updates⟩, parents, blockers⟩, hierarchy⟩, dependencies⟩, last⟩ := addable
  have start : Sound [] := ⟨rfl, fun _ here => by cases here⟩
  have total : ∀ {α : Type} {intents : α → List StepIntent} {items : List α},
      (items.flatMap intents).all StepIntent.addable = true →
      items.all (fun item => addableAll (.ok (intents item))) = true := by
    intro α intents items all
    simpa [addableAll] using all
  obtain ⟨first, one, sound⟩ := addEach_returns sha plain start creates
  obtain ⟨second, two, sound⟩ := addEach_returns sha plain sound updates
  obtain ⟨third, three, sound⟩ := addEach_returns sha plain sound (total hierarchy)
  obtain ⟨fourth, four, sound⟩ := addEach_returns sha plain sound (total dependencies)
  cases made : bodyIntent proposal.draft graph proposal.renderedNodes .updateEpic
      proposal.draft.rootRef with
  | error e => simp [made, addableAll, Except.map] at last
  | ok intent =>
    rw [made] at last
    obtain ⟨steps, five, sound⟩ := addSteps_returns sha plain sound last
    refine ⟨steps, ?_, sound⟩
    unfold planSteps
    simp only [one, two, relationPairs_returns parents, three, relationPairs_returns blockers, four,
      made, bind, Except.bind]
    exact five

/-- The plan is returned. -/
theorem plan_returns (sha : R.Sha256) (fresh : staleFields proposal.identity identity = [])
    (snapshot : graph.snapshotSha256 = identity.liveSnapshotSha256)
    (adopted : adoptionFindings proposal.draft graph (sortedDistinct adoptRefs) = [])
    (addable : stepsAddable proposal.draft graph proposal.renderedNodes
      (nodeOrder proposal.publicationOrder) = true)
    (plain : ∀ ref ∈ adoptRefs, ref.encodable = true) (capable : provider.payload.clean = true)
    (stamps : createdAt.encodable = true ∧ expiresAt.encodable = true) {created expires : Int}
    (first : R.fromisoformat createdAt = some (some created))
    (second : R.fromisoformat expiresAt = some (some expires)) (later : created < expires) :
    ∃ plan, buildPublicationPlan R proposal identity graph adoptRefs provider createdAt expiresAt =
      .ok plan := by
  have checked := proposal.constructed
  simp only [ProposalFields.postInit, bind_require] at checked
  have hex : isHex 64 proposal.proposalHash = true := checked.2.1
  have named : isProposalId proposal.proposalId = true := checked.1
  have idPlain : proposal.proposalId.encodable = true := by
    simp only [isProposalId, Bool.and_eq_true, decide_eq_true_eq] at named
    rw [← List.take_append_drop 4 proposal.proposalId, Json.encodable_append, named.1,
      Json.encodable_lit, PyStr.isHex_encodable named.2, Bool.and_self]
  obtain ⟨steps, planned, sound⟩ := planSteps_returns sha (PyStr.isHex_encodable hex) addable
  have clean : (effectPayload R proposal identity provider steps (sortBy toLex (initialMapping graph
      (nodeOrder proposal.publicationOrder))) (sortedDistinct adoptRefs) createdAt expiresAt).clean =
      true := by
    have adopts : (Json.texts (sortedDistinct adoptRefs)).clean = true := by
      refine Json.texts_clean.mpr fun ref here => plain ref ?_
      simpa [sortedDistinct] using here
    have mapping : Json.cleanItems ((sortBy toLex (initialMapping graph
        (nodeOrder proposal.publicationOrder))).map numberPair) = true := by
      refine Json.cleanItems_map.mpr fun pair here => ?_
      obtain ⟨live, -, ref, -⟩ := mem_initialMapping (mem_sortBy.mp here)
      have safe := live.constructed
      simp only [LiveNodeFields.postInit, bind_require] at safe
      simp [numberPair, Json.clean, Json.cleanItems, ← ref, isSafeRef_encodable safe.1]
    have listed : Json.cleanItems (steps.map PlannedStep.payload) = true :=
      Json.cleanItems_map.mpr sound.clean
    simp [effectPayload, Json.clean, Json.cleanFields, Json.encodable_lit, adopts, mapping, listed,
      stamps, identityPayload_clean, capable, idPlain, PyStr.isHex_encodable hex]
  obtain ⟨digest, hashed, hex'⟩ := hashJson_returns sha clean
  let fields : PlanFields :=
    { planId := lit "igplan-" ++ digest.take 24
      proposalId := proposal.proposalId
      proposalHash := proposal.proposalHash
      identity := identity
      effectPlanHash := digest
      providerIdentity := provider
      steps := steps
      initialMapping := sortBy toLex (initialMapping graph (nodeOrder proposal.publicationOrder))
      adoptRefs := sortedDistinct adoptRefs
      createdAt := createdAt
      expiresAt := expiresAt }
  have passed : fields.postInit R = .ok () := by
    have created' : timestamp R createdAt "created_at" = .ok created := timestamp_iff.mpr first
    have expires' : timestamp R expiresAt "expires_at" = .ok expires := timestamp_iff.mpr second
    simp only [PlanFields.postInit, bind_require]
    refine ⟨isIdentifier_of "igplan-" hex', hex, hex', sound.ordinals, ?_⟩
    simp only [fields, created', expires', bind, Except.bind, require, if_pos later]
  refine ⟨{ fields with constructed := passed }, ?_⟩
  unfold buildPublicationPlan
  simp only [fresh, snapshot, adopted, planned, hashed, lifted, bind, Except.bind, ne_eq,
    not_true_eq_false, if_false]
  change lifted (built (fields.postInit R) _) = _
  rw [built_of passed]
  rfl

end RepoForge.IssueGraph
