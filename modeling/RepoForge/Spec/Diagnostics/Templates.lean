import RepoForge.Source.Diagnostics.Profile

/-!
# The template of an accepted profile

What the parser of the configuration accepts, the parser of the resolver reads the same way: an
element with a placeholder is one placeholder, and an element without one has no brace.
-/
namespace RepoForge.Diagnostics
open PyStr (lit)

variable {profile : DiagnosticProfileConfig} {selector : DiagnosticSelectorConfig}

/-! ### The two parsers -/

theorem placeholderAt_length {text : PyStr} {name : Option PyStr} {length : Nat}
    (found : placeholderAt text = some (name, length)) : 0 < length ∧ length ≤ text.length := by
  unfold placeholderAt at found
  dsimp only at found
  split at found
  · rename_i starts
    have short := (List.isPrefixOf_iff_prefix.mp starts).length_le
    have opening : (lit "\x7bselector").length = 9 := rfl
    cases rest : text.drop (lit "\x7bselector").length with
    | nil => simp [rest] at found
    | cons c tail =>
      have total := congrArg List.length rest
      simp only [List.length_drop, List.length_cons] at total
      simp only [rest] at found
      split at found
      · simp only [Option.some.injEq, Prod.mk.injEq] at found
        omega
      · split at found
        · split at found
          · rename_i closed
            have part : (tail.takeWhile (CodePoint.within nameChar)).length < tail.length := by
              by_contra whole
              have ended : tail.drop (tail.takeWhile (CodePoint.within nameChar)).length = [] :=
                List.drop_eq_nil_of_le (by omega)
              simp [ended] at closed
            simp only [Option.some.injEq, Prod.mk.injEq] at found
            omega
          · cases found
        · cases found
  · cases found

theorem placeholder_length {text : PyStr} {skip : Nat} {m : PlaceholderMatch}
    (found : m ∈ placeholdersFrom skip text) : m.text.length ≤ text.length := by
  induction text generalizing skip with
  | nil => cases skip <;> simp [placeholdersFrom] at found
  | cons c rest ih =>
    cases skip with
    | succ skip =>
      have := ih found
      simp only [List.length_cons]
      omega
    | zero =>
      unfold placeholdersFrom at found
      split at found
      · cases found with
        | head => simp
        | tail _ found =>
          have := ih found
          simp only [List.length_cons]
          omega
      · have := ih found
        simp only [List.length_cons]
        omega

theorem placeholders_ne_nil {text : PyStr} {found : Option PyStr × Nat}
    (starts : placeholderAt text = some found) : placeholders text ≠ [] := by
  cases text with
  | nil => cases starts
  | cons c rest => simp [placeholders, placeholdersFrom, starts]

/-- Which name the resolver reads in an element that the configuration accepts. -/
theorem placeholderNamesOf_ok {argument : PyStr} {names : List PyStr}
    (ok : placeholderNamesOf argument = .ok names) :
    names = (placeholderName argument).toList ∧
      (placeholderName argument = none → argument.any isBrace = false) := by
  unfold placeholderNamesOf at ok
  dsimp only at ok
  split at ok
  · cases ok
  rename_i clean
  cases found : placeholders argument with
  | nil =>
    simp only [found, List.foldl_nil, Except.ok.injEq] at clean ok
    have none_at : placeholderAt argument = none := by
      by_contra some_at
      obtain ⟨at_start, starts⟩ := Option.ne_none_iff_exists'.mp some_at
      exact placeholders_ne_nil starts found
    simp [placeholderName, none_at, ← ok, clean]
  | cons first more =>
    simp only [found] at ok
    split at ok
    · cases ok
    rename_i whole
    split at ok
    · cases ok
    simp only [Except.ok.injEq] at ok
    have whole : argument = first.text := not_not.mp whole
    suffices name : placeholderName argument = some first.name by simp [name, ← ok]
    cases argument with
    | nil => cases found
    | cons c rest =>
      unfold placeholders placeholdersFrom at found
      cases starts : placeholderAt (c :: rest) with
      | none =>
        simp only [starts] at found
        have short : first.text.length ≤ rest.length := placeholder_length (by rw [found]; simp)
        rw [← whole] at short
        simp only [List.length_cons] at short
        omega
      | some pair =>
        obtain ⟨name, length⟩ := pair
        simp only [starts, List.cons.injEq] at found
        obtain ⟨same, -⟩ := found
        have bounds := placeholderAt_length starts
        have text := congrArg List.length whole
        rw [← same, List.length_take] at text
        have complete : length = (c :: rest).length := by omega
        simp [placeholderName, starts, complete, ← same]

theorem placeholderNames_ok {template names : List PyStr}
    (ok : placeholderNames template = .ok names) :
    names = template.filterMap placeholderName ∧
      ∀ argument ∈ template, placeholderName argument = none → argument.any isBrace = false := by
  induction template generalizing names with
  | nil =>
    cases ok
    simp
  | cons argument rest ih =>
    obtain ⟨first, one, ok⟩ := bind_ok ok
    obtain ⟨more, others, ok⟩ := bind_ok ok
    simp only [Except.ok.injEq] at ok
    obtain ⟨rfl, clean⟩ := placeholderNamesOf_ok one
    obtain ⟨rfl, cleaner⟩ := ih others
    constructor
    · rw [← ok, List.filterMap_cons]
      cases placeholderName argument <;> rfl
    · simp only [List.mem_cons, forall_eq_or_imp]
      exact ⟨clean, cleaner⟩

/-! ### Accepted profiles -/

theorem ensure_ok {ok : Prop} [Decidable ok] {error : ProfileError} {u : Unit}
    (passed : ensure ok error = .ok u) : ok := by
  unfold ensure at passed
  split at passed
  · assumption
  · cases passed

/-- What the checks of a selector leave to rely on. -/
structure Shape (selector : DiagnosticSelectorConfig) : Prop where
  maxValues : 1 ≤ selector.maxValues
  expansion : selector.expansion = lit "repeat" ∨ selector.expansion = lit "join"
  separator : joins selector = true →
    ∃ separator ∈ allowedSeparators, selector.separator = some separator
  active : 1 < selector.maxValues → selector.kind ≠ .none
  joined : joins selector = true → 1 < selector.maxValues
  values : ∀ value ∈ selector.values, isSafeIdentifier value = true
  leadingDash : selector.allowLeadingDash = true →
    selector.kind ∈ [DiagnosticSelectorKind.token, .checkId, .packageName]

theorem validateSelectorShape_ok {index : Nat} {u : Unit}
    (ok : validateSelectorShape index selector = .ok u) : Shape selector := by
  unfold validateSelectorShape at ok
  dsimp only at ok
  obtain ⟨_, -, ok⟩ := bind_ok ok
  obtain ⟨_, maxValues, ok⟩ := bind_ok ok
  obtain ⟨_, expansion, ok⟩ := bind_ok ok
  obtain ⟨_, joined, ok⟩ := bind_ok ok
  obtain ⟨_, separator, ok⟩ := bind_ok ok
  obtain ⟨_, -, ok⟩ := bind_ok ok
  obtain ⟨_, active, ok⟩ := bind_ok ok
  obtain ⟨_, -, ok⟩ := bind_ok ok
  obtain ⟨_, -, ok⟩ := bind_ok ok
  obtain ⟨_, -, ok⟩ := bind_ok ok
  obtain ⟨_, -, ok⟩ := bind_ok ok
  obtain ⟨_, -, ok⟩ := bind_ok ok
  obtain ⟨_, -, ok⟩ := bind_ok ok
  obtain ⟨_, -, ok⟩ := bind_ok ok
  obtain ⟨_, -, ok⟩ := bind_ok ok
  obtain ⟨_, -, ok⟩ := bind_ok ok
  obtain ⟨_, -, ok⟩ := bind_ok ok
  obtain ⟨_, valid, ok⟩ := bind_ok ok
  obtain ⟨_, unused, ok⟩ := bind_ok ok
  have expansion := ensure_ok expansion
  have joined := ensure_ok joined
  have separator := ensure_ok separator
  have active := ensure_ok active
  have valid := ensure_ok valid
  have unused := ensure_ok unused
  constructor
  case maxValues => exact (ensure_ok maxValues).1
  case expansion => simpa using expansion
  case separator =>
    intro joins
    obtain ⟨text, declared, allowed⟩ := separator joins
    exact ⟨text, allowed, declared⟩
  case active =>
    intro many none
    exact active ⟨many, none⟩
  case joined =>
    intro joins
    have := joined joins
    omega
  case values =>
    by_cases enum : selector.kind = .enum
    · exact fun value inside => (valid enum value inside).1
    · simp [unused enum]
  case leadingDash => exact ensure_ok ok

theorem validateShapes_ok {index : Nat} {selectors : List DiagnosticSelectorConfig} {u : Unit}
    (ok : validateShapes index selectors = .ok u) : ∀ selector ∈ selectors, Shape selector := by
  induction selectors generalizing index with
  | nil => simp
  | cons selector rest ih =>
    obtain ⟨_, one, ok⟩ := bind_ok ok
    simp only [List.mem_cons, forall_eq_or_imp]
    exact ⟨validateSelectorShape_ok one, ih ok⟩

theorem checkPlaceholders_ok {names : List PyStr} {selectors : List DiagnosticSelectorConfig}
    {u : Unit} (ok : profile.checkPlaceholders names selectors = .ok u) :
    ∀ selector ∈ selectors, names.count selector.name = 1 ∧
      (selector.allowLeadingDash = true → profile.Terminated selector.name) := by
  induction selectors with
  | nil => simp
  | cons selector rest ih =>
    obtain ⟨_, count, ok⟩ := bind_ok ok
    obtain ⟨_, terminated, ok⟩ := bind_ok ok
    simp only [List.mem_cons, forall_eq_or_imp]
    exact ⟨⟨ensure_ok count, ensure_ok terminated⟩, ih ok⟩

/-- The names that the placeholders of the template have. -/
def DiagnosticProfileConfig.placed (profile : DiagnosticProfileConfig) : List PyStr :=
  profile.argvTemplate.filterMap placeholderName

theorem mem_active : selector ∈ profile.activeSelectors ↔
    selector ∈ profile.selectors ∧ selector.kind ≠ .none := by
  simp [DiagnosticProfileConfig.activeSelectors]

/-- What the resolver relies on. -/
structure Accepted (profile : DiagnosticProfileConfig) : Prop where
  clean : ∀ argument ∈ profile.argvTemplate, placeholderName argument = none →
    argument.any isBrace = false
  unique : (profile.selectors.map (·.name)).Nodup
  shapes : ∀ selector ∈ profile.selectors, Shape selector
  placed : ∀ name, name ∈ profile.placed ↔ name ∈ profile.activeSelectors.map (·.name)
  once : ∀ selector ∈ profile.activeSelectors, profile.placed.count selector.name = 1
  terminated : ∀ selector ∈ profile.activeSelectors, selector.allowLeadingDash = true →
    profile.Terminated selector.name
  bounded : profile.worstCase ≤ maxArgvElements

theorem accepted_of_ok {checked : DiagnosticProfileConfig}
    (ok : validateDiagnosticProfile profile = .ok checked) : Accepted profile := by
  unfold validateDiagnosticProfile at ok
  dsimp only at ok
  obtain ⟨_, -, ok⟩ := bind_ok ok
  obtain ⟨_, -, ok⟩ := bind_ok ok
  obtain ⟨_, -, ok⟩ := bind_ok ok
  obtain ⟨_, -, ok⟩ := bind_ok ok
  obtain ⟨names, parsed, ok⟩ := bind_ok ok
  obtain ⟨rfl, clean⟩ := placeholderNames_ok parsed
  obtain ⟨_, unique, ok⟩ := bind_ok ok
  obtain ⟨_, -, ok⟩ := bind_ok ok
  obtain ⟨_, shapes, ok⟩ := bind_ok ok
  obtain ⟨_, same, ok⟩ := bind_ok ok
  obtain ⟨_, once, ok⟩ := bind_ok ok
  obtain ⟨_, -, ok⟩ := bind_ok ok
  obtain ⟨_, -, ok⟩ := bind_ok ok
  obtain ⟨_, -, ok⟩ := bind_ok ok
  obtain ⟨_, -, ok⟩ := bind_ok ok
  obtain ⟨_, -, ok⟩ := bind_ok ok
  obtain ⟨_, -, ok⟩ := bind_ok ok
  obtain ⟨_, bounded, ok⟩ := bind_ok ok
  have same := ensure_ok same
  have once := checkPlaceholders_ok once
  constructor
  case clean => exact clean
  case unique => exact ensure_ok unique
  case shapes => exact validateShapes_ok shapes
  case placed => exact fun name => ⟨same.1 name, same.2 name⟩
  case once => exact fun selector active => (once selector active).1
  case terminated => exact fun selector active => (once selector active).2
  case bounded => exact ensure_ok bounded

namespace Accepted

variable (h : Accepted profile)
include h

theorem eq_of_name {s t : DiagnosticSelectorConfig} (inside : s ∈ profile.selectors)
    (there : t ∈ profile.selectors) (same : s.name = t.name) : s = t :=
  List.inj_on_of_nodup_map h.unique inside there same

/-- An element of the template addresses the active selector of its name, and only that. -/
theorem matched_iff {argument : PyStr} :
    matched profile.selectors argument = some selector ↔
      selector ∈ profile.activeSelectors ∧ placeholderName argument = some selector.name := by
  have keys : ((profile.selectors.map fun declared => (declared.name, declared)).map (·.1)) =
      profile.selectors.map (·.name) := by
    simp
  have unique := keys ▸ h.unique
  unfold matched
  rw [PyDict.ofPairs_of_unique unique, Option.filter_eq_some_iff, Option.bind_eq_some_iff]
  constructor
  · rintro ⟨⟨name, named, found⟩, kind⟩
    obtain ⟨declared, there, same⟩ := List.mem_map.mp (PyDict.mem_of_get found)
    simp only [Prod.mk.injEq] at same
    obtain ⟨rfl, rfl⟩ := same
    exact ⟨mem_active.mpr ⟨there, of_decide_eq_true kind⟩, named⟩
  · rintro ⟨active, named⟩
    obtain ⟨there, kind⟩ := mem_active.mp active
    exact ⟨⟨selector.name, named, PyDict.get_of_mem unique (List.mem_map.mpr ⟨selector, there, rfl⟩)⟩,
      decide_eq_true kind⟩

theorem matched_none {argument : PyStr} (inside : argument ∈ profile.argvTemplate) :
    matched profile.selectors argument = none ↔ placeholderName argument = none := by
  constructor
  · intro unmatched
    by_contra named
    obtain ⟨name, named⟩ := Option.ne_none_iff_exists'.mp named
    have placed : name ∈ profile.placed := List.mem_filterMap.mpr ⟨argument, inside, named⟩
    obtain ⟨selector, active, rfl⟩ := List.mem_map.mp ((h.placed name).mp placed)
    rw [h.matched_iff.mpr ⟨active, named⟩] at unmatched
    cases unmatched
  · intro unnamed
    simp [matched, unnamed]

theorem nodup_active : (profile.activeSelectors.map (·.name)).Nodup :=
  h.unique.sublist (List.filter_sublist.map _)

theorem nodup_placed : profile.placed.Nodup := by
  refine List.nodup_iff_count_le_one.mpr fun name => ?_
  by_cases here : name ∈ profile.placed
  · obtain ⟨selector, active, rfl⟩ := List.mem_map.mp ((h.placed name).mp here)
    exact (h.once selector active).le
  · simp [List.count_eq_zero_of_not_mem here]

theorem perm_placed : profile.placed.Perm (profile.activeSelectors.map (·.name)) :=
  (List.perm_ext_iff_of_nodup h.nodup_placed h.nodup_active).mpr h.placed

end Accepted

end RepoForge.Diagnostics
