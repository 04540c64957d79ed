import RepoForge.Spec.Diagnostics.Templates

/-!
# The elements that a selector fills

For an accepted profile the resolver returns just when every selector has values that are accepted,
and the elements they make have no brace and are not too many; then its argv is the template with
each placeholder replaced by the elements of its own selector.
-/
namespace RepoForge.Diagnostics
open PyStr (lit)

variable {checkout : Checkout} {profile : DiagnosticProfileConfig}
  {selector declared : DiagnosticSelectorConfig} {input input2 : SelectorInput}
  {r : ResolvedDiagnosticSelector}

/-- What values become, by the expansion of their selector. -/
def elements (selector : DiagnosticSelectorConfig) (values : List PyStr) : List PyStr :=
  if joins selector then [PyStr.join (selector.separator.getD []) values] else values

/-- Joined values are within the bound. -/
def Short (selector : DiagnosticSelectorConfig) (values : List PyStr) : Prop :=
  joins selector = true →
    (PyStr.join (selector.separator.getD []) values).length ≤ maxJoinedLength

namespace DiagnosticProfileConfig

variable (profile)

/-- The input for a selector. -/
def given (input input2 : SelectorInput) (selector : DiagnosticSelectorConfig) : SelectorInput :=
  if selector.name = profile.selector.name then input else input2

/-- The values of a selector, as they are when all are accepted. -/
def resolved (checkout : Checkout) (input input2 : SelectorInput)
    (selector : DiagnosticSelectorConfig) : List PyStr :=
  ((resolveValues checkout selector (profile.given input input2 selector)).toOption).getD []

/-- The active selector that an element is the placeholder of. -/
def owner (argument : PyStr) : Option DiagnosticSelectorConfig :=
  profile.activeSelectors.find? fun selector => placeholderName argument = some selector.name

/-- The template with each placeholder replaced by the elements of its own selector. -/
def substituted (fill : DiagnosticSelectorConfig → List PyStr) : List PyStr :=
  profile.argvTemplate.flatMap fun argument => ((profile.owner argument).map fill).getD [argument]

end DiagnosticProfileConfig

theorem Accepted.matched_eq (h : Accepted profile) (argument : PyStr) :
    matched profile.selectors argument = profile.owner argument := by
  apply Option.ext
  intro selector
  rw [h.matched_iff]
  constructor
  · intro ⟨active, named⟩
    have found := find_of_key h.nodup_active active
    unfold DiagnosticProfileConfig.owner
    rw [named]
    simpa only [Option.some.injEq, eq_comm] using found
  · intro found
    have named := List.find?_some found
    exact ⟨List.mem_of_find?_eq_some found, of_decide_eq_true named⟩

theorem expand_ok {values expanded : List PyStr} (full : expanded ≠ []) :
    expand selector values = .ok expanded ↔
      values ≠ [] ∧ Short selector values ∧ expanded = elements selector values := by
  unfold expand Short elements
  by_cases none : values = []
  · simp [none, full.symm]
  · cases joins selector with
    | false => simp [none, eq_comm]
    | true =>
      simp only [none, ↓reduceIte]
      by_cases long : maxJoinedLength < (PyStr.join (selector.separator.getD []) values).length
      · simp [long]
      · simp [none, long, Nat.le_of_not_lt long, eq_comm]

theorem elements_ne_nil {values : List PyStr} (full : values ≠ []) :
    elements selector values ≠ [] := by
  unfold elements
  cases joins selector <;> simp [full]

section Filling

variable {selectors : List DiagnosticSelectorConfig} {values : List (PyStr × List PyStr)}
  {vals : DiagnosticSelectorConfig → List PyStr} {template argv filled : List PyStr}

/-- The values that the loop over the template looks up. -/
def Provides (values : List (PyStr × List PyStr)) (selectors : List DiagnosticSelectorConfig)
    (vals : DiagnosticSelectorConfig → List PyStr) : Prop :=
  ∀ argument selector, matched selectors argument = some selector →
    (PyDict.get values selector.name).getD [] = vals selector

theorem fillTemplate_ok (provided : Provides values selectors vals)
    (ok : fillTemplate selectors values template = .ok (argv, filled)) :
    argv = template.flatMap (fun argument =>
      ((matched selectors argument).map fun s => elements s (vals s)).getD [argument]) ∧
    filled = template.filterMap fun argument => (matched selectors argument).map (·.name) := by
  induction template generalizing argv filled with
  | nil =>
    cases ok
    simp
  | cons argument rest ih =>
    unfold fillTemplate at ok
    cases found : matched selectors argument with
    | none =>
      simp only [found] at ok
      obtain ⟨⟨later, names⟩, others, ok⟩ := bind_ok ok
      cases ok
      obtain ⟨rfl, rfl⟩ := ih others
      simp [found]
    | some selector =>
      simp only [found, provided argument selector found] at ok
      obtain ⟨expanded, made, ok⟩ := bind_ok ok
      split at ok
      · cases ok
      rename_i full
      obtain ⟨⟨later, names⟩, others, ok⟩ := bind_ok ok
      cases ok
      obtain ⟨rfl, rfl⟩ := ih others
      obtain ⟨-, -, rfl⟩ := (expand_ok full).mp made
      simp [found]

theorem fillTemplate_of (provided : Provides values selectors vals)
    (full : ∀ argument ∈ template, ∀ selector, matched selectors argument = some selector →
      vals selector ≠ [] ∧ Short selector (vals selector)) :
    ∃ pair, fillTemplate selectors values template = .ok pair := by
  induction template with
  | nil => exact ⟨_, rfl⟩
  | cons argument rest ih =>
    simp only [List.mem_cons, forall_eq_or_imp] at full
    obtain ⟨⟨later, names⟩, others⟩ := ih full.2
    unfold fillTemplate
    cases found : matched selectors argument with
    | none =>
      simp only [others]
      exact ⟨_, rfl⟩
    | some selector =>
      obtain ⟨some_values, short⟩ := full.1 selector found
      have made : elements selector (vals selector) ≠ [] := elements_ne_nil some_values
      simp only [provided argument selector found,
        (expand_ok made).mpr ⟨some_values, short, rfl⟩, others, ok_bind, if_neg made]
      exact ⟨_, rfl⟩

end Filling

/-! ### The resolver -/

theorem namedInput_ok {inputs : List (PyStr × SelectorInput)} (h : Accepted profile)
    (ok : namedInput profile input input2 = .ok inputs) (inside : declared ∈ profile.selectors) :
    (PyDict.get inputs declared.name).getD none = profile.given input input2 declared := by
  have unique := h.unique
  unfold namedInput at ok
  unfold DiagnosticProfileConfig.given
  unfold DiagnosticProfileConfig.selectors at inside unique
  cases second : profile.selector2 with
  | none =>
    simp only [second, Option.toList_none, List.mem_singleton] at ok inside
    split at ok
    · cases ok
    · cases ok
      simp [inside, PyDict.get_cons]
  | some other =>
    simp only [second, Option.toList_some, List.mem_cons, List.not_mem_nil, or_false, List.map_cons,
      List.map_nil, List.nodup_cons, Except.ok.injEq] at ok inside unique
    have apart : other.name ≠ profile.selector.name := fun same => unique.1 same.symm
    rw [← ok, PyDict.ofPairs_of_unique (by simp [unique.1])]
    rcases inside with rfl | rfl
    · simp [PyDict.get_cons]
    · simp [PyDict.get_cons, apart, apart.symm]

/-- Every selector has values that are accepted. -/
def Resolves (checkout : Checkout) (profile : DiagnosticProfileConfig)
    (input input2 : SelectorInput) : Prop :=
  ∀ selector ∈ profile.selectors,
    resolveValues checkout selector (profile.given input input2 selector) =
      .ok (profile.resolved checkout input input2 selector)

/-- The argv of the values. -/
def DiagnosticProfileConfig.filledArgv (checkout : Checkout) (profile : DiagnosticProfileConfig)
    (input input2 : SelectorInput) : List PyStr :=
  profile.substituted fun s => elements s (profile.resolved checkout input input2 s)

theorem resolveAll_of (h : Accepted profile) {inputs : List (PyStr × SelectorInput)}
    (named : namedInput profile input input2 = .ok inputs)
    (resolves : Resolves checkout profile input input2) :
    resolveAll checkout inputs profile.selectors =
      .ok (profile.selectors.map fun s => (s.name, profile.resolved checkout input input2 s)) := by
  apply mapM_of_ok
  intro s inside
  rw [namedInput_ok h named inside, resolves s inside]
  rfl

theorem resolveAll_ok (h : Accepted profile) {inputs : List (PyStr × SelectorInput)}
    {pairs : List (PyStr × List PyStr)} (named : namedInput profile input input2 = .ok inputs)
    (ok : resolveAll checkout inputs profile.selectors = .ok pairs) :
    Resolves checkout profile input input2 ∧
      pairs = profile.selectors.map fun s => (s.name, profile.resolved checkout input input2 s) := by
  have resolves : Resolves checkout profile input input2 := by
    intro s inside
    obtain ⟨pair, -, made⟩ := forall₂_mem (mapM_ok ok) inside
    obtain ⟨values, accepted, -⟩ := bind_ok made
    rw [namedInput_ok h named inside] at accepted
    simp [DiagnosticProfileConfig.resolved, accepted, Except.toOption]
  refine ⟨resolves, ?_⟩
  rw [resolveAll_of h named resolves] at ok
  exact (Except.ok.inj ok).symm

/-- The values that are looked up are those of the selectors. -/
theorem provides (h : Accepted profile) {vals : DiagnosticSelectorConfig → List PyStr} :
    Provides (PyDict.ofPairs (profile.selectors.map fun s => (s.name, vals s))) profile.selectors
      vals := by
  have keys : (profile.selectors.map fun s => (s.name, vals s)).map (·.1) =
      profile.selectors.map (·.name) := by
    simp
  have unique := keys ▸ h.unique
  intro argument selector found
  have inside := (mem_active.mp (h.matched_iff.mp found).1).1
  rw [PyDict.ofPairs_of_unique unique,
    PyDict.get_of_mem unique (List.mem_map.mpr ⟨selector, inside, rfl⟩), Option.getD_some]

theorem filled_eq (h : Accepted profile) : profile.argvTemplate.filterMap (fun argument =>
    (matched profile.selectors argument).map (·.name)) = profile.placed := by
  apply List.filterMap_congr
  intro argument inside
  cases found : matched profile.selectors argument with
  | none => simp [(h.matched_none inside).mp found]
  | some selector => simp [(h.matched_iff.mp found).2]

theorem resolve_ok (h : Accepted profile)
    (ok : resolveDiagnosticSelector checkout profile input input2 = .ok r) :
    Resolves checkout profile input input2 ∧
      r.argv = profile.filledArgv checkout input input2 ∧
      r.argv.any (·.any isBrace) = false := by
  unfold resolveDiagnosticSelector at ok
  obtain ⟨inputs, named, ok⟩ := bind_ok ok
  obtain ⟨pairs, all, ok⟩ := bind_ok ok
  obtain ⟨resolves, rfl⟩ := resolveAll_ok h named all
  obtain ⟨⟨argv, filled⟩, made, ok⟩ := bind_ok ok
  obtain ⟨rfl, -⟩ := fillTemplate_ok (provides h) made
  dsimp only at ok
  split at ok
  · cases ok
  rename_i clean
  split at ok
  · cases ok
  cases ok
  refine ⟨resolves, ?_, Bool.eq_false_iff.mpr (not_or.mp clean).2⟩
  simp only [h.matched_eq, DiagnosticProfileConfig.filledArgv, DiagnosticProfileConfig.substituted]

theorem resolve_of (h : Accepted profile) (one : profile.selector2 = none → input2 = none)
    (resolves : Resolves checkout profile input input2)
    (full : ∀ s ∈ profile.activeSelectors, profile.resolved checkout input input2 s ≠ [] ∧
      Short s (profile.resolved checkout input input2 s))
    (clean : (profile.filledArgv checkout input input2).any (·.any isBrace) = false)
    (bounded : (profile.filledArgv checkout input input2).length ≤ maxArgvElements) :
    ∃ r, resolveDiagnosticSelector checkout profile input input2 = .ok r := by
  have named : ∃ inputs, namedInput profile input input2 = .ok inputs := by
    unfold namedInput
    cases second : profile.selector2 with
    | none => simp [one second]
    | some other => exact ⟨_, rfl⟩
  obtain ⟨inputs, named⟩ := named
  obtain ⟨⟨argv, filled⟩, made⟩ := @fillTemplate_of _ _ _ profile.argvTemplate (provides h)
    fun argument _ s found => full s (h.matched_iff.mp found).1
  obtain ⟨same, names⟩ := fillTemplate_ok (provides h) made
  have same : argv = profile.filledArgv checkout input input2 := by
    simp only [same, h.matched_eq, DiagnosticProfileConfig.filledArgv,
      DiagnosticProfileConfig.substituted]
  rw [filled_eq h] at names
  unfold resolveDiagnosticSelector
  rw [named, ok_bind, resolveAll_of h named resolves, ok_bind]
  dsimp only
  rw [made, ok_bind]
  dsimp only
  rw [if_neg, if_neg]
  · exact ⟨_, rfl⟩
  · rw [same]
    exact Nat.not_lt_of_le bounded
  · rw [same, clean, names]
    simp [h.placed]

end RepoForge.Diagnostics

/-!
## Accepted values

What `_resolve_single` makes of a value: a path, or the path of a test node, takes its normal form,
and every other value stays as it is.
-/
namespace RepoForge.Diagnostics
open PurePath PathPolicy
open PyStr (lit)

variable {checkout : Checkout} {selector : DiagnosticSelectorConfig} {raw value : PyStr}

/-- The kinds whose values name a file of the checkout. -/
def DiagnosticSelectorKind.IsPath (kind : DiagnosticSelectorKind) : Prop :=
  kind = .trackedPath ∨ kind = .pytestNode

instance (kind : DiagnosticSelectorKind) : Decidable kind.IsPath := by
  unfold DiagnosticSelectorKind.IsPath
  infer_instance

/-- What of a value is read as a path. -/
def pathOf (selector : DiagnosticSelectorConfig) (raw : PyStr) : PyStr :=
  if selector.kind = .pytestNode then (PyStr.partition (lit "::") raw).1 else raw

/-- The parts of a path with either separator. -/
def namesOf (path : PyStr) : List PyStr := parts (PyStr.replaceChar '\\' '/' path)

theorem normalize_ok {normalized : PyStr} (ok : normalizeRelativePath raw = .ok normalized) :
    normalized = asPosix (namesOf raw) := by
  unfold normalizeRelativePath at ok
  split at ok
  · cases ok
  dsimp only at ok
  split at ok
  · cases ok
  · exact (Except.ok.inj ok).symm

theorem mapError_ok {α ε ε' : Type} {f : ε → ε'} {x : Except ε α} {a : α}
    (ok : x.mapError f = .ok a) : x = .ok a := by
  cases x with
  | error e => cases ok
  | ok b => exact congrArg Except.ok (Except.ok.inj ok)

theorem trackedPath_ok (ok : trackedPath checkout raw = .ok value) :
    value = asPosix (namesOf raw) := by
  unfold trackedPath at ok
  obtain ⟨normalized, normal, ok⟩ := bind_ok ok
  obtain ⟨allowed, asserted, ok⟩ := bind_ok ok
  obtain ⟨candidate, -, ok⟩ := bind_ok ok
  split at ok
  · cases ok
  split at ok
  · cases ok
  cases ok
  have normal := mapError_ok normal
  obtain ⟨names, form⟩ := normalForm normal
  have again := assert_ok (mapError_ok asserted)
  rw [form.normalize] at again
  rw [← Except.ok.inj again]
  exact normalize_ok normal

theorem pytestNode_ok (ok : pytestNode checkout raw = .ok value) :
    value = asPosix (namesOf (PyStr.partition (lit "::") raw).1) ++
      (if (PyStr.partition (lit "::") raw).2.1 = true then
        lit "::" ++ (PyStr.partition (lit "::") raw).2.2 else []) := by
  unfold pytestNode at ok
  obtain ⟨normalized, tracked, ok⟩ := bind_ok ok
  split at ok
  · cases ok
  cases ok
  rw [trackedPath_ok tracked]

theorem basicValue_ok {allowLeadingDash : Bool} (ok : basicValue raw allowLeadingDash = .ok value) :
    value = raw ∧ raw ≠ [] ∧ raw.any (CodePoint.within (oneOf shellMeta)) = false ∧
      (startsWithDash raw = true → allowLeadingDash = true) := by
  unfold basicValue at ok
  split at ok
  · cases ok
  rename_i safe
  simp only [not_or, Bool.not_eq_true] at safe
  split at ok
  · cases ok
  rename_i dashed
  exact ⟨(Except.ok.inj ok).symm, safe.1, safe.2.2.2, by simpa using dashed⟩

theorem tokenValue_ok (ok : tokenValue raw selector = .ok value) : value = raw := by
  unfold tokenValue at ok
  split at ok
  · cases ok
  split at ok
  · cases ok
  split at ok
  · cases ok
  split at ok
  · cases ok
  · exact (Except.ok.inj ok).symm

/-- A value that is no path stays, and a path takes its normal form. -/
theorem resolveSingle_ok (ok : resolveSingle checkout selector raw = .ok value) :
    raw ≠ [] ∧ raw.any (CodePoint.within (oneOf shellMeta)) = false ∧
    (startsWithDash raw = true → selector.allowLeadingDash = true) ∧
    (¬ selector.kind.IsPath → value = raw) ∧
    (selector.kind.IsPath → ∃ suffix, raw = pathOf selector raw ++ suffix ∧
      value = asPosix (namesOf (pathOf selector raw)) ++ suffix) := by
  unfold resolveSingle at ok
  obtain ⟨same, basic, made⟩ := bind_ok ok
  obtain ⟨rfl, full, plain, dash⟩ := basicValue_ok basic
  clear basic ok
  refine ⟨full, plain, dash, ?_⟩
  unfold DiagnosticSelectorKind.IsPath pathOf
  cases kind : selector.kind with
  | trackedPath =>
    simp only [kind] at made
    exact ⟨fun other => absurd (.inl rfl) other, fun _ => ⟨[], by simp, by
      simpa using trackedPath_ok made⟩⟩
  | pytestNode =>
    simp only [kind] at made
    exact ⟨fun other => absurd (.inr rfl) other, fun _ => ⟨_, PyStr.partition_eq, pytestNode_ok made⟩⟩
  | packageName | checkId =>
    simp only [kind] at made
    split at made
    · cases made
    · simpa using (Except.ok.inj made).symm
  | enum =>
    simp only [kind] at made
    split at made
    · cases made
    · simpa using (Except.ok.inj made).symm
  | token =>
    simp only [kind] at made
    simpa using tokenValue_ok made
  | none =>
    simp only [kind] at made
    cases made

theorem namesOf_isPart {path : PyStr} : ∀ name ∈ namesOf path, IsPart name :=
  fun _ inside => isPart_parts inside

theorem resolveSingle_ne_nil (ok : resolveSingle checkout selector raw = .ok value) :
    value ≠ [] := by
  obtain ⟨full, -, -, same, path⟩ := resolveSingle_ok ok
  by_cases kind : selector.kind.IsPath
  · obtain ⟨suffix, -, rfl⟩ := path kind
    exact List.append_ne_nil_of_left_ne_nil (asPosix_ne_nil namesOf_isPart) suffix
  · rwa [same kind]

/-- Separators of paths apart, a value has the code points that it was given with. -/
theorem mem_resolved {c : CodePoint} (noSlash : c ≠ slash) (noDot : c ≠ .scalar '.')
    (noBackslash : c ≠ .scalar '\\') (ok : resolveSingle checkout selector raw = .ok value) :
    c ∈ value ↔ c ∈ raw := by
  obtain ⟨-, -, -, same, path⟩ := resolveSingle_ok ok
  by_cases kind : selector.kind.IsPath
  · obtain ⟨suffix, given, rfl⟩ := path kind
    have replaced : c ∈ PyStr.replaceChar '\\' '/' (pathOf selector raw) ↔
        c ∈ pathOf selector raw := by
      simp only [PyStr.replaceChar, List.mem_map]
      constructor
      · rintro ⟨d, inside, rfl⟩
        split at noSlash
        · exact absurd rfl noSlash
        · rename_i other
          rwa [if_neg other]
      · exact fun inside => ⟨c, inside, if_neg noBackslash⟩
    conv_rhs => rw [given]
    simp only [List.mem_append, namesOf, mem_asPosix_parts noSlash noDot, replaced]
  · rw [same kind]

/-- A path whose first name begins with a dash, behind what its normal form leaves out. -/
def HidesDash (selector : DiagnosticSelectorConfig) (raw : PyStr) : Prop :=
  selector.kind.IsPath ∧ ∃ name ∈ (namesOf (pathOf selector raw)).head?, startsWithDash name = true

instance (selector : DiagnosticSelectorConfig) (raw : PyStr) :
    Decidable (HidesDash selector raw) := by
  unfold HidesDash
  infer_instance

theorem startsWithDash_resolved (ok : resolveSingle checkout selector raw = .ok value)
    (dashless : selector.allowLeadingDash = false) :
    startsWithDash value = true ↔ HidesDash selector raw := by
  obtain ⟨-, -, dash, same, path⟩ := resolveSingle_ok ok
  by_cases kind : selector.kind.IsPath
  · obtain ⟨suffix, -, rfl⟩ := path kind
    have full : asPosix (namesOf (pathOf selector raw)) ≠ [] := asPosix_ne_nil namesOf_isPart
    unfold HidesDash startsWithDash
    rw [List.head?_append_of_ne_nil _ full, head_asPosix namesOf_isPart]
    cases namesOf (pathOf selector raw) with
    | nil => simp [kind, dot]
    | cons first rest =>
      constructor
      · exact fun dashed => ⟨kind, first, rfl, dashed⟩
      · intro ⟨_, name, here, dashed⟩
        cases here
        exact dashed
  · rw [same kind]
    simp only [HidesDash, kind, false_and, iff_false]
    intro dashed
    simp [dash dashed] at dashless

/-! ### All values of a selector -/

/-- The values that are given in an input. -/
def rawValues (input : SelectorInput) : List PyStr := (asList input).getD []

theorem resolveValues_ok {input : SelectorInput} {values : List PyStr}
    (active : selector.kind ≠ .none)
    (ok : resolveValues checkout selector input = .ok values) :
    rawValues input ≠ [] ∧ (rawValues input).length ≤ selector.maxValues ∧
      List.Forall₂ (fun raw value => resolveSingle checkout selector raw = .ok value)
        (rawValues input) values := by
  unfold resolveValues at ok
  rw [if_neg active] at ok
  unfold rawValues
  cases given : asList input with
  | none =>
    simp only [given] at ok
    cases ok
  | some raws =>
    simp only [given] at ok
    split at ok
    · cases ok
    rename_i full
    split at ok
    · cases ok
    rename_i bounded
    exact ⟨full, Int.not_lt.mp bounded, mapM_ok ok⟩

end RepoForge.Diagnostics
