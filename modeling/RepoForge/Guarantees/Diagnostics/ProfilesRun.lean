import Mathlib.Algebra.Order.BigOperators.Group.List
import RepoForge.Spec.Diagnostics.Elements

/-!
# Selectors and options

A value is checked for a leading dash as it was given, and what reaches the argv is its normal
form. So a path whose first name is `-x`, behind a leading `./`, becomes the option `-x`, and this
is all that a selector without a terminator lets through.
-/
namespace RepoForge.Diagnostics
open PurePath
open PyStr (lit)

variable {checkout : Checkout} {profile checked : DiagnosticProfileConfig}
  {selector : DiagnosticSelectorConfig} {input input2 : SelectorInput}
  {r : ResolvedDiagnosticSelector}

/-- The elements come directly after a literal `--`. -/
def FollowsDoubleDash (argv elements : List PyStr) : Prop :=
  ∃ before after, argv = before ++ doubleDash :: (elements ++ after)

/-- The template is filled in place, and no selector adds an option. -/
structure NoOption (checkout : Checkout) (profile : DiagnosticProfileConfig)
    (input input2 : SelectorInput) (argv : List PyStr) : Prop where
  substituted : argv = profile.filledArgv checkout input input2
  plain : ∀ selector ∈ profile.activeSelectors,
    ∀ element ∈ elements selector (profile.resolved checkout input input2 selector),
      startsWithDash element = true → selector.allowLeadingDash = true ∧
        FollowsDoubleDash argv (elements selector (profile.resolved checkout input input2 selector))

/-- The given values that an element of the argv begins with. -/
def exposed (selector : DiagnosticSelectorConfig) (input : SelectorInput) : List PyStr :=
  if joins selector then (rawValues input).take 1 else rawValues input

theorem dash_elements {values : List PyStr} (active : selector.kind ≠ .none)
    (ok : resolveValues checkout selector input = .ok values)
    (dashless : selector.allowLeadingDash = false) :
    (∃ element ∈ elements selector values, startsWithDash element = true) ↔
      ∃ raw ∈ exposed selector input, HidesDash selector raw := by
  obtain ⟨full, -, each⟩ := resolveValues_ok active ok
  unfold elements exposed
  generalize rawValues input = raws at full each ⊢
  cases joins selector with
  | false =>
    constructor
    · intro ⟨value, there, dashed⟩
      obtain ⟨raw, given, resolved⟩ := forall₂_mem each.flip there
      exact ⟨raw, given, (startsWithDash_resolved resolved dashless).mp dashed⟩
    · intro ⟨raw, given, hides⟩
      obtain ⟨value, there, resolved⟩ := forall₂_mem each given
      exact ⟨value, there, (startsWithDash_resolved resolved dashless).mpr hides⟩
  | true =>
    cases each with
    | nil => exact absurd rfl full
    | @cons raw value raws values first later =>
      have head : startsWithDash
          (PyStr.join (selector.separator.getD []) (value :: values)) = startsWithDash value := by
        unfold startsWithDash
        rw [PyStr.head_join (resolveSingle_ne_nil first)]
      simpa [head] using startsWithDash_resolved first dashless

theorem Accepted.terminated_split (h : Accepted profile)
    (active : selector ∈ profile.activeSelectors) (terminated : profile.Terminated selector.name) :
    ∃ before placeholder after, profile.argvTemplate = before ++ doubleDash :: placeholder :: after ∧
      profile.owner placeholder = some selector := by
  obtain ⟨index, found, later, dashes⟩ := terminated
  obtain ⟨inside, named, -⟩ := List.findIdx?_eq_some_iff_getElem.mp found
  obtain ⟨previous, rfl⟩ := Nat.exists_eq_add_one_of_ne_zero later
  rw [Nat.add_sub_cancel] at dashes
  obtain ⟨near, same⟩ := List.getElem?_eq_some_iff.mp dashes
  refine ⟨profile.argvTemplate.take previous, profile.argvTemplate[previous + 1],
    profile.argvTemplate.drop (previous + 2), ?_, ?_⟩
  · conv_lhs => rw [← List.take_append_drop previous profile.argvTemplate,
      List.drop_eq_getElem_cons near, List.drop_eq_getElem_cons inside]
    rw [← same]
  · rw [← h.matched_eq, h.matched_iff]
    exact ⟨active, of_decide_eq_true named⟩

theorem follows_filled (h : Accepted profile) (active : selector ∈ profile.activeSelectors)
    (terminated : profile.Terminated selector.name) :
    FollowsDoubleDash (profile.filledArgv checkout input input2)
      (elements selector (profile.resolved checkout input input2 selector)) := by
  obtain ⟨before, placeholder, after, split, owner⟩ := h.terminated_split active terminated
  have literal : profile.owner doubleDash = none := by
    rw [← h.matched_eq]
    rfl
  unfold DiagnosticProfileConfig.filledArgv DiagnosticProfileConfig.substituted FollowsDoubleDash
  rw [split, List.flatMap_append, List.flatMap_cons, List.flatMap_cons, owner, literal]
  exact ⟨_, _, rfl⟩

/-- No selector injects an option just when no value that an element begins with is a path that
hides a dash. -/
theorem no_option_iff (accepted : validateDiagnosticProfile profile = .ok checked)
    (returned : resolveDiagnosticSelector checkout profile input input2 = .ok r) :
    NoOption checkout profile input input2 r.argv ↔
      ∀ selector ∈ profile.activeSelectors,
        ∀ raw ∈ exposed selector (profile.given input input2 selector),
          ¬ HidesDash selector raw := by
  have h := accepted_of_ok accepted
  obtain ⟨resolves, argv, -⟩ := resolve_ok h returned
  have dash : ∀ selector ∈ profile.activeSelectors, selector.allowLeadingDash = false →
      ((∃ element ∈ elements selector (profile.resolved checkout input input2 selector),
        startsWithDash element = true) ↔
      ∃ raw ∈ exposed selector (profile.given input input2 selector), HidesDash selector raw) := by
    intro selector active
    obtain ⟨inside, kind⟩ := mem_active.mp active
    exact dash_elements kind (resolves selector inside)
  constructor
  · intro safe selector active raw given hides
    have dashless : selector.allowLeadingDash = false := by
      by_contra dashed
      have kinds := (h.shapes selector (mem_active.mp active).1).leadingDash (by simpa using dashed)
      rcases hides.1 with kind | kind <;> simp [kind] at kinds
    obtain ⟨element, there, dashed⟩ := (dash selector active dashless).mpr ⟨raw, given, hides⟩
    have allowed := (safe.plain selector active element there dashed).1
    simp [dashless] at allowed
  · intro plain
    constructor
    case substituted => exact argv
    case plain =>
      intro selector active element there dashed
      cases allowed : selector.allowLeadingDash with
      | false =>
        obtain ⟨raw, given, hides⟩ := (dash selector active allowed).mp ⟨element, there, dashed⟩
        exact absurd hides (plain selector active raw given)
      | true =>
        rw [argv]
        exact ⟨rfl, follows_filled h active (h.terminated selector active allowed)⟩

/-! ### A tracked file with a dash -/

/-- `{selector}` names a tracked file. -/
def lintProfile : DiagnosticProfileConfig where
  diagnosticId := lit "lint"
  summary := lit "Lint one file"
  argvTemplate := [lit "ruff", lit "check", lit "\x7bselector\x7d"]
  selector := { kind := .trackedPath }
  workingDirectory := none
  timeoutSeconds := 60
  mutability := .readOnly
  outputLimit := 12000

/-- A checkout in which every path is a regular file and tracked. -/
def plainCheckout : Checkout where
  disk := fun place => if place.length ≤ 3 then some .other else none
  fuel := 9
  workspace := [lit "w"]
  repo := ⟨[], []⟩
  regular := fun _ => true
  tracked := fun _ => true

theorem no_option_iff_lint :
    validateDiagnosticProfile lintProfile = .ok lintProfile ∧
    (NoOption plainCheckout lintProfile (some (.inl (lit "a.py"))) none
      [lit "ruff", lit "check", lit "a.py"] ↔
      ∀ selector ∈ lintProfile.activeSelectors,
        ∀ raw ∈ exposed selector (lintProfile.given (some (.inl (lit "a.py"))) none selector),
          ¬ HidesDash selector raw) := by
  have accepted : validateDiagnosticProfile lintProfile = .ok lintProfile := by decide
  have returned : resolveDiagnosticSelector plainCheckout lintProfile
      (some (.inl (lit "a.py"))) none = .ok ⟨some (lit "a.py"), [(lit "selector", [lit "a.py"])],
        [lit "ruff", lit "check", lit "a.py"]⟩ := by decide
  exact ⟨accepted, no_option_iff accepted returned⟩

/-- Behind a leading `./` the name `-x` passes as a path, and is an option of the command. -/
theorem path_becomes_option :
    validateDiagnosticProfile lintProfile = .ok lintProfile ∧
    resolveDiagnosticSelector plainCheckout lintProfile (some (.inl (lit "./-x"))) none =
      .ok ⟨some (lit "-x"), [(lit "selector", [lit "-x"])],
        [lit "ruff", lit "check", lit "-x"]⟩ ∧
    ¬ NoOption plainCheckout lintProfile (some (.inl (lit "./-x"))) none
      [lit "ruff", lit "check", lit "-x"] := by
  refine ⟨by decide, by decide, fun safe => ?_⟩
  have allowed := (safe.plain lintProfile.selector (by decide) (lit "-x") (by decide) (by decide)).1
  cases allowed

end RepoForge.Diagnostics

/-!
## Joined values

A joined element means its values just when none of them was given with the separator. Nothing
checks a value for the separator: `|` and `;` are shell characters and never pass, but `:` and `,`
pass in the kinds that allow them.
-/
namespace RepoForge.Diagnostics
open PurePath
open PyStr (lit)

variable {checkout : Checkout} {profile checked : DiagnosticProfileConfig}
  {selector : DiagnosticSelectorConfig} {input : SelectorInput} {values : List PyStr}
  {joined : PyStr}

theorem separator_character {separator : PyStr} (allowed : separator ∈ allowedSeparators) :
    ∃ c, separator = [c] ∧ c ≠ slash ∧ c ≠ .scalar '.' ∧ c ≠ .scalar '\\' ∧ isBrace c = false := by
  simp only [allowedSeparators, List.mem_cons, List.not_mem_nil, or_false] at allowed
  rcases allowed with rfl | rfl | rfl | rfl <;> exact ⟨_, rfl, by decide⟩

theorem joined_splits_iff (accepted : validateDiagnosticProfile profile = .ok checked)
    (declared : selector ∈ profile.selectors) (joining : joins selector = true)
    (ok : resolveValues checkout selector input = .ok values)
    (expanded : expand selector values = .ok [joined]) :
    ∃ separator, selector.separator = some [separator] ∧
      (joined.splitOn separator = values ↔ ∀ raw ∈ rawValues input, separator ∉ raw) := by
  have shape := (accepted_of_ok accepted).shapes selector declared
  obtain ⟨text, allowed, separated⟩ := shape.separator joining
  obtain ⟨c, rfl, noSlash, noDot, noBackslash, -⟩ := separator_character allowed
  obtain ⟨-, -, each⟩ := resolveValues_ok (shape.active (shape.joined joining)) ok
  obtain ⟨full, -, same⟩ := (expand_ok (List.cons_ne_nil joined [])).mp expanded
  simp only [elements, joining, separated, Option.getD_some, if_true, List.cons.injEq,
    and_true] at same
  refine ⟨c, separated, ?_⟩
  rw [same, splitOn_join_iff full]
  constructor
  · intro free raw given inside
    obtain ⟨value, there, resolved⟩ := forall₂_mem each given
    exact free value there ((mem_resolved noSlash noDot noBackslash resolved).mpr inside)
  · intro free value there inside
    obtain ⟨raw, given, resolved⟩ := forall₂_mem each.flip there
    exact free raw given ((mem_resolved noSlash noDot noBackslash resolved).mp inside)

/-- A separator that is a shell character splits every joined element into its values. -/
theorem splits_at_shell_character (accepted : validateDiagnosticProfile profile = .ok checked)
    (declared : selector ∈ profile.selectors) (joining : joins selector = true)
    (ok : resolveValues checkout selector input = .ok values)
    (expanded : expand selector values = .ok [joined]) {separator : CodePoint}
    (shell : selector.separator = some [separator])
    (meta_character : separator.within (oneOf shellMeta) = true) :
    joined.splitOn separator = values := by
  have shape := (accepted_of_ok accepted).shapes selector declared
  obtain ⟨c, same, exact_when⟩ := joined_splits_iff accepted declared joining ok expanded
  cases shell.symm.trans same
  apply exact_when.mpr
  intro raw given inside
  obtain ⟨-, -, each⟩ := resolveValues_ok (shape.active (shape.joined joining)) ok
  obtain ⟨value, -, resolved⟩ := forall₂_mem each given
  have plain := (resolveSingle_ok resolved).2.1
  rw [List.any_eq_false] at plain
  exact plain separator inside meta_character

/-! ### A package name with a colon -/

/-- Package names, joined with colons. -/
def packagesProfile : DiagnosticProfileConfig where
  diagnosticId := lit "packages"
  summary := lit "Check packages"
  argvTemplate := [lit "check", lit "\x7bselector\x7d"]
  selector := {
    kind := .packageName
    maxValues := 3
    expansion := lit "join"
    separator := some (lit ":") }
  workingDirectory := none
  timeoutSeconds := 60
  mutability := .readOnly
  outputLimit := 12000

def emptyCheckout : Checkout where
  disk := fun _ => none
  fuel := 1
  workspace := []
  repo := ⟨[], []⟩
  regular := fun _ => false
  tracked := fun _ => false

theorem joined_splits_iff_packages :
    validateDiagnosticProfile packagesProfile = .ok packagesProfile ∧
    ∃ separator, packagesProfile.selector.separator = some [separator] ∧
      ((lit "a:b").splitOn separator = [lit "a", lit "b"] ↔
        ∀ raw ∈ rawValues (some (.inr [lit "a", lit "b"])), separator ∉ raw) := by
  have accepted : validateDiagnosticProfile packagesProfile = .ok packagesProfile := by decide
  have resolved : resolveValues emptyCheckout packagesProfile.selector
      (some (.inr [lit "a", lit "b"])) = .ok [lit "a", lit "b"] := by decide
  exact ⟨accepted, joined_splits_iff accepted (List.mem_cons_self ..) (by decide) resolved
    (by decide)⟩

/-- Two accepted names, of which the first has a colon, read as three. -/
theorem joined_name_splits :
    validateDiagnosticProfile packagesProfile = .ok packagesProfile ∧
    resolveValues emptyCheckout packagesProfile.selector (some (.inr [lit "a:b", lit "c"])) =
      .ok [lit "a:b", lit "c"] ∧
    expand packagesProfile.selector [lit "a:b", lit "c"] = .ok [lit "a:b:c"] ∧
    (lit "a:b:c").splitOn (.scalar ':') = [lit "a", lit "b", lit "c"] := by
  decide

end RepoForge.Diagnostics

/-!
# Accepted profiles run

The resolver fills what the configuration accepted: every placeholder once, and within the bound of
the worst case. Only the scan of the finished argv for braces rejects more, for it also reads the
values.
-/
namespace RepoForge.Diagnostics
open PurePath
open PyStr (lit)

variable {checkout : Checkout} {profile checked : DiagnosticProfileConfig}
  {selector : DiagnosticSelectorConfig} {input input2 : SelectorInput}

/-- Inputs of which every value is accepted on its own, as many as each selector takes. -/
structure Fitting (checkout : Checkout) (profile : DiagnosticProfileConfig)
    (input input2 : SelectorInput) : Prop where
  second : profile.selector2 = none → input2 = none
  unused : ∀ selector ∈ profile.selectors, selector.kind = .none →
    profile.given input input2 selector = none
  full : ∀ selector ∈ profile.activeSelectors,
    rawValues (profile.given input input2 selector) ≠ []
  bounded : ∀ selector ∈ profile.activeSelectors,
    (rawValues (profile.given input input2 selector)).length ≤ selector.maxValues
  accepted : ∀ selector ∈ profile.activeSelectors,
    ∀ raw ∈ rawValues (profile.given input input2 selector),
      ∃ value, resolveSingle checkout selector raw = .ok value
  short : ∀ selector ∈ profile.activeSelectors, ∀ values,
    resolveValues checkout selector (profile.given input input2 selector) = .ok values →
      Short selector values

theorem resolveValues_of (active : selector.kind ≠ .none) (full : rawValues input ≠ [])
    (bounded : (rawValues input).length ≤ selector.maxValues)
    (accepted : ∀ raw ∈ rawValues input, ∃ value, resolveSingle checkout selector raw = .ok value) :
    ∃ values, resolveValues checkout selector input = .ok values := by
  unfold resolveValues
  rw [if_neg active]
  unfold rawValues at full bounded accepted
  cases given : asList input with
  | none => simp [given] at full
  | some raws =>
    simp only [given, Option.getD_some] at full bounded accepted
    dsimp only
    rw [if_neg full, if_neg (Int.not_lt.mpr bounded)]
    have each : ∀ raw ∈ raws, resolveSingle checkout selector raw =
        .ok (((resolveSingle checkout selector raw).toOption).getD []) := by
      intro raw there
      obtain ⟨value, resolved⟩ := accepted raw there
      simp [resolved, Except.toOption]
    exact ⟨_, mapM_of_ok each⟩

theorem Fitting.resolves (fits : Fitting checkout profile input input2) :
    Resolves checkout profile input input2 := by
  intro selector inside
  have some_values : ∃ values,
      resolveValues checkout selector (profile.given input input2 selector) = .ok values := by
    by_cases active : selector.kind = .none
    · exact ⟨[], by simp [resolveValues, active, fits.unused selector inside active]⟩
    · have active' := mem_active.mpr ⟨inside, active⟩
      exact resolveValues_of active (fits.full selector active') (fits.bounded selector active')
        (fits.accepted selector active')
  obtain ⟨values, resolved⟩ := some_values
  simp [DiagnosticProfileConfig.resolved, resolved, Except.toOption]

/-! ### The bound -/

/-- How many more elements than one a selector fills at most. -/
def surplus (selector : DiagnosticSelectorConfig) : Int :=
  if selector.expansion = lit "repeat" ∧ 1 < selector.maxValues then selector.maxValues - 1 else 0

theorem elements_surplus (shape : Shape selector) {values : List PyStr}
    (bounded : (values.length : Int) ≤ selector.maxValues) :
    ((elements selector values).length : Int) - 1 ≤ surplus selector := by
  unfold elements surplus
  rcases shape.expansion with repeats | join
  · have other : joins selector = false := by
      simp only [joins, repeats]
      decide
    simp only [other, repeats, true_and]
    split <;> simp <;> omega
  · have joining : joins selector = true := by simp [joins, join]
    have other : ¬ selector.expansion = lit "repeat" := by
      rw [join]
      decide
    simp [joining, other]

/-- What the selector of a name fills beyond one element. -/
def beyond (profile : DiagnosticProfileConfig) (fill : DiagnosticSelectorConfig → List PyStr)
    (name : PyStr) : Int :=
  ((profile.activeSelectors.find? fun s => decide (s.name = name)).map fun s =>
    ((fill s).length : Int) - 1).getD 0

theorem beyond_name (h : Accepted profile) (fill : DiagnosticSelectorConfig → List PyStr)
    (active : selector ∈ profile.activeSelectors) :
    beyond profile fill selector.name = ((fill selector).length : Int) - 1 := by
  simp [beyond, find_of_key h.nodup_active active]

/-- One element for each of the template, and what the selectors fill beyond. -/
theorem length_template (h : Accepted profile) (fill : DiagnosticSelectorConfig → List PyStr)
    {template : List PyStr} (inside : ∀ argument ∈ template, argument ∈ profile.argvTemplate) :
    ((template.flatMap fun argument =>
      ((profile.owner argument).map fill).getD [argument]).length : Int) =
    template.length + ((template.filterMap placeholderName).map (beyond profile fill)).sum := by
  induction template with
  | nil => rfl
  | cons argument rest ih =>
    have later := ih fun argument there => inside argument (List.mem_cons_of_mem _ there)
    have here := inside argument List.mem_cons_self
    rw [List.flatMap_cons, List.length_append, Int.natCast_add, later, List.filterMap_cons]
    cases found : profile.owner argument with
    | none =>
      rw [← h.matched_eq] at found
      rw [(h.matched_none here).mp found]
      simp
      omega
    | some selector =>
      rw [← h.matched_eq] at found
      obtain ⟨active, named⟩ := h.matched_iff.mp found
      simp only [named, List.map_cons, List.sum_cons, beyond_name h fill active, Option.map_some,
        Option.getD_some, List.length_cons, Int.natCast_add, Int.natCast_one]
      omega

theorem length_substituted (h : Accepted profile) (fill : DiagnosticSelectorConfig → List PyStr) :
    ((profile.substituted fill).length : Int) = profile.argvTemplate.length +
      (profile.activeSelectors.map fun selector => ((fill selector).length : Int) - 1).sum := by
  have same : (profile.placed.map (beyond profile fill)).sum =
      (profile.activeSelectors.map fun selector => ((fill selector).length : Int) - 1).sum := by
    rw [(h.perm_placed.map (beyond profile fill)).sum_eq, List.map_map]
    congr 1
    apply List.map_congr_left
    intro selector active
    exact beyond_name h fill active
  rw [← same]
  exact length_template h fill fun argument there => there

theorem length_filledArgv (h : Accepted profile) (fits : Fitting checkout profile input input2) :
    (profile.filledArgv checkout input input2).length ≤ maxArgvElements := by
  have within : (profile.activeSelectors.map fun selector =>
      ((elements selector (profile.resolved checkout input input2 selector)).length : Int) - 1).sum ≤
      (profile.activeSelectors.map surplus).sum := by
    apply List.sum_le_sum
    intro selector active
    obtain ⟨inside, kind⟩ := mem_active.mp active
    obtain ⟨-, bounded, each⟩ := resolveValues_ok kind (fits.resolves selector inside)
    rw [each.length_eq] at bounded
    exact elements_surplus (h.shapes selector inside) bounded
  have length := length_substituted h fun selector =>
    elements selector (profile.resolved checkout input input2 selector)
  have worst := h.bounded
  unfold DiagnosticProfileConfig.worstCase at worst
  unfold surplus at within
  unfold DiagnosticProfileConfig.filledArgv
  omega

/-! ### Braces -/

theorem isBrace_kept {c : CodePoint} (brace : isBrace c = true) :
    c ≠ slash ∧ c ≠ .scalar '.' ∧ c ≠ .scalar '\\' := by
  unfold isBrace at brace
  rcases of_decide_eq_true brace with rfl | rfl <;> decide

theorem elements_brace (shape : Shape selector) {values : List PyStr} (active : selector.kind ≠ .none)
    (ok : resolveValues checkout selector input = .ok values) :
    (elements selector values).any (·.any isBrace) = false ↔
      ∀ raw ∈ rawValues input, raw.any isBrace = false := by
  obtain ⟨-, -, each⟩ := resolveValues_ok active ok
  have value_iff : (∀ value ∈ values, value.any isBrace = false) ↔
      ∀ raw ∈ rawValues input, raw.any isBrace = false := by
    simp only [List.any_eq_false]
    constructor
    · intro clean raw given c inside brace
      obtain ⟨noSlash, noDot, noBackslash⟩ := isBrace_kept brace
      obtain ⟨value, there, resolved⟩ := forall₂_mem each given
      exact clean value there c ((mem_resolved noSlash noDot noBackslash resolved).mpr inside) brace
    · intro clean value there c inside brace
      obtain ⟨noSlash, noDot, noBackslash⟩ := isBrace_kept brace
      obtain ⟨raw, given, resolved⟩ := forall₂_mem each.flip there
      exact clean raw given c ((mem_resolved noSlash noDot noBackslash resolved).mp inside) brace
  rw [← value_iff]
  unfold elements
  cases joining : joins selector with
  | false => simp
  | true =>
    obtain ⟨separator, allowed, separated⟩ := shape.separator joining
    obtain ⟨c, rfl, -, -, -, clean⟩ := separator_character allowed
    simp only [if_true, separated, Option.getD_some, List.any_cons, List.any_nil, Bool.or_false,
      List.any_eq_false]
    constructor
    · intro none value there d inside
      exact none d (PyStr.mem_join_of there inside)
    · intro none d inside
      rcases PyStr.mem_join inside with here | ⟨value, there, inside⟩
      · rw [List.mem_singleton.mp here]
        simp [clean]
      · exact none value there d inside

theorem filledArgv_brace (h : Accepted profile) (resolves : Resolves checkout profile input input2) :
    (profile.filledArgv checkout input input2).any (·.any isBrace) = false ↔
      ∀ selector ∈ profile.activeSelectors,
        ∀ raw ∈ rawValues (profile.given input input2 selector), raw.any isBrace = false := by
  have of_selector : ∀ selector ∈ profile.activeSelectors,
      ((elements selector (profile.resolved checkout input input2 selector)).any (·.any isBrace) =
        false ↔ ∀ raw ∈ rawValues (profile.given input input2 selector),
          raw.any isBrace = false) := by
    intro selector active
    obtain ⟨inside, kind⟩ := mem_active.mp active
    exact elements_brace (h.shapes selector inside) kind (resolves selector inside)
  unfold DiagnosticProfileConfig.filledArgv DiagnosticProfileConfig.substituted
  rw [List.any_flatMap, List.any_eq_false]
  constructor
  · intro clean selector active
    have placed := (h.placed selector.name).mpr (List.mem_map_of_mem active)
    obtain ⟨argument, here, named⟩ := List.mem_filterMap.mp placed
    have owner : profile.owner argument = some selector := by
      rw [← h.matched_eq, h.matched_iff]
      exact ⟨active, named⟩
    have none := clean argument here
    rw [owner] at none
    exact (of_selector selector active).mp (by simpa using none)
  · intro clean argument here
    cases owner : profile.owner argument with
    | none =>
      rw [← h.matched_eq] at owner
      simpa using h.clean argument here ((h.matched_none here).mp owner)
    | some selector =>
      rw [← h.matched_eq] at owner
      have active := (h.matched_iff.mp owner).1
      simpa using (of_selector selector active).mpr (clean selector active)

/-- An accepted profile runs on fitting inputs just when no value has a brace. -/
theorem profile_runs_iff (accepted : validateDiagnosticProfile profile = .ok checked)
    (fits : Fitting checkout profile input input2) :
    (∃ r, resolveDiagnosticSelector checkout profile input input2 = .ok r) ↔
      ∀ selector ∈ profile.activeSelectors,
        ∀ raw ∈ rawValues (profile.given input input2 selector), raw.any isBrace = false := by
  have h := accepted_of_ok accepted
  have braces := filledArgv_brace h fits.resolves
  constructor
  · intro ⟨r, returned⟩
    obtain ⟨-, argv, clean⟩ := resolve_ok h returned
    rw [argv] at clean
    exact braces.mp clean
  · intro clean
    apply resolve_of h fits.second fits.resolves _ (braces.mpr clean) (length_filledArgv h fits)
    intro selector active
    obtain ⟨inside, kind⟩ := mem_active.mp active
    have resolved := fits.resolves selector inside
    obtain ⟨full, -, each⟩ := resolveValues_ok kind resolved
    constructor
    · intro empty
      rw [empty, List.forall₂_nil_right_iff] at each
      exact full each
    · exact fits.short selector active _ resolved

/-! ### A tracked file with braces -/

theorem lint_fits {raw value : PyStr}
    (resolved : resolveSingle plainCheckout lintProfile.selector raw = .ok value) :
    Fitting plainCheckout lintProfile (some (.inl raw)) none := by
  have active : lintProfile.activeSelectors = [lintProfile.selector] := by decide
  have given : lintProfile.given (some (.inl raw)) none lintProfile.selector = some (.inl raw) := rfl
  have raws : rawValues (some (.inl raw)) = [raw] := rfl
  constructor
  case second => exact fun _ => rfl
  case unused =>
    intro selector declared kind
    rw [List.mem_singleton.mp declared] at kind
    cases kind
  case short =>
    intro selector declared values resolved joining
    rw [active, List.mem_singleton] at declared
    rw [declared] at joining
    cases joining
  all_goals
    simp only [active, List.mem_singleton, forall_eq, given, raws]
  case full => exact List.cons_ne_nil raw []
  case bounded => exact Int.le_refl 1
  case accepted => exact ⟨value, resolved⟩

theorem profile_runs_iff_lint :
    Fitting plainCheckout lintProfile (some (.inl (lit "a.py"))) none ∧
    ((∃ r, resolveDiagnosticSelector plainCheckout lintProfile (some (.inl (lit "a.py"))) none =
        .ok r) ↔
      ∀ selector ∈ lintProfile.activeSelectors,
        ∀ raw ∈ rawValues (lintProfile.given (some (.inl (lit "a.py"))) none selector),
          raw.any isBrace = false) := by
  have accepted : validateDiagnosticProfile lintProfile = .ok lintProfile := by decide
  have resolved : resolveSingle plainCheckout lintProfile.selector (lit "a.py") =
      .ok (lit "a.py") := by decide
  exact ⟨lint_fits resolved, profile_runs_iff accepted (lint_fits resolved)⟩

/-- A tracked file of this name is accepted, and the profile does not run on it. -/
theorem braces_do_not_run :
    validateDiagnosticProfile lintProfile = .ok lintProfile ∧
    Fitting plainCheckout lintProfile (some (.inl (lit "\x7bid\x7d.py"))) none ∧
    resolveDiagnosticSelector plainCheckout lintProfile (some (.inl (lit "\x7bid\x7d.py"))) none =
      .error .unresolved := by
  have resolved : resolveSingle plainCheckout lintProfile.selector (lit "\x7bid\x7d.py") =
      .ok (lit "\x7bid\x7d.py") := by decide
  exact ⟨by decide, lint_fits resolved, by decide⟩

end RepoForge.Diagnostics
