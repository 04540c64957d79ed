import RepoForge.Spec.Egress.Shown
import RepoForge.Spec.Egress.Structured

/-!
# Redacted text hides the explicit secrets

No explicit secret shows in what `redact_text` returns, unless the text has a NUL: such a text is
classified as binary, without ranges, and comes back as it is (`redactText_hides_iff`). The secrets
share no character with the markers; one with a lone surrogate is not looked for.
-/
namespace RepoForge.Egress

open PyStr

variable {R : Runtime} {value fieldKey text : PyStr} {secrets : List PyStr} {limit : Nat}

/-- None of the secrets is in the text. -/
def Hides (secrets : List PyStr) (text : PyStr) : Prop := ∀ secret ∈ secrets, ¬ secret <:+: text

/-- The secrets are not empty and have no character of these markers. -/
def Distinct (markers secrets : List PyStr) : Prop :=
  ∀ secret ∈ secrets, secret ≠ [] ∧ MarkerFree markers secret

/-- The text is withheld for its size, has no NUL, or has no secret in a part that is kept. -/
def Redactable (secrets : List PyStr) (limit : Nat) (value : PyStr) : Prop :=
  20000000 < encodedBytes value ∨ nul ∉ value ∨
    ∀ secret ∈ secrets, ∀ part ∈ keptParts value limit, ¬ secret <:+: part

/-- A secret that cannot be encoded does not occur. -/
def EncodableWithin (secrets : List PyStr) (value : PyStr) : Prop :=
  ∀ secret ∈ secrets, encodable secret = false → ¬ secret <:+: value

theorem Distinct.sought (distinct : Distinct redactionMarkers secrets) {secret : PyStr}
    (listed : secret ∈ secrets) : Sought secrets [] secret := by
  refine ⟨listed, (distinct secret listed).1, List.not_mem_nil, ?_⟩
  intro here
  exact (distinct secret listed).2 _ here (lit "<redacted>") (by simp [redactionMarkers])
    (by simp [lit, ofText])

theorem Distinct.filter (distinct : Distinct redactionMarkers secrets) :
    (secrets.filter fun item => !item.isEmpty) = secrets := by
  rw [List.filter_eq_self]
  intro secret listed
  simpa using (distinct secret listed).1

/-- What is replaced by its ranges shows no secret. -/
theorem legacyRedaction_hides (sourceDigest : PyStr)
    (distinct : Distinct redactionMarkers secrets) (encodable_ : EncodableWithin secrets value)
    {secret : PyStr} (listed : secret ∈ secrets) :
    ¬ secret <:+: legacyRedaction value
      (mergeRanges R sourceDigest (detect R secrets [] (ofText (replaced value)))).1 := by
  have meet : ∀ i, secret <+: value.drop i →
      ∃ r ∈ (mergeRanges R sourceDigest (detect R secrets [] (ofText (replaced value)))).1,
        r.start < i + secret.length ∧ i < r.stop := by
    intro i here
    cases clean : encodable secret with
    | true => exact ranges_meet (distinct.sought listed) (prefix_drop_replaced clean here)
    | false =>
      exact absurd (Spans.infix_of_prefix_drop here) (encodable_ secret listed clean)
  unfold legacyRedaction
  split
  · rename_i none
    intro here
    obtain ⟨i, there⟩ := Spans.exists_drop_of_infix here
    obtain ⟨r, member, _⟩ := meet i there
    rw [List.isEmpty_iff.mp none] at member
    cases member
  · refine Spans.replace_hides (distinct secret listed).1 ?_ ?_ ranges_chained meet
    · intro block
      simp [lit, ofText]
    · intro block _ c here
      exact (distinct secret listed).2 c here _ (by simp [redactionMarkers])

/-- What `redact_text` returns. -/
theorem redactText_cases (distinct : Distinct redactionMarkers secrets)
    (returned : redactText R value secrets limit fieldKey = some text) :
    (20000000 < encodedBytes value ∧ text = lit "<redacted:oversized>") ∨
      (encodedBytes value ≤ 20000000 ∧ nul ∈ value ∧ text = boundText value limit) ∨
      (nul ∉ value ∧ ∃ ranges findings, (ranges, findings) = mergeRanges R
          (R.sha256 (utf8 (replaced value))) (detect R secrets [] (ofText (replaced value))) ∧
        ((onlyEntropy findings = true ∧ text = boundText value limit) ∨
          text = boundText (legacyRedaction value ranges) limit)) := by
  unfold redactText at returned
  split at returned
  · cases returned
  split at returned
  · rename_i small
    rw [distinct.filter] at returned
    unfold egressRequest at returned
    split at returned
    · rename_i valid
      right
      let request : EgressRequest := ⟨.text value, false, secrets, [],
        redactionPolicy value limit small, valid.1, valid.2⟩
      change (if (onlyEntropy (evaluateEgress R request).findings && !fieldKey.isEmpty &&
          entropyExemptField R fieldKey value) = true then some (boundText value limit)
        else some (boundText (legacyRedaction value (evaluateEgress R request).redactionRanges)
          limit)) = some text at returned
      have result : evaluateEgress R request = _ :=
        evaluateEgress_text rfl (le_max_right _ _) rfl
      rw [result] at returned
      by_cases binary : nul ∈ value
      · left
        rw [if_pos binary] at returned
        refine ⟨small, binary, ?_⟩
        exact (Option.some.inj returned).symm
      · right
        rw [if_neg binary, evaluateText_ranges.1, evaluateText_ranges.2] at returned
        refine ⟨binary, _, _, rfl, ?_⟩
        split at returned
        · rename_i exempt
          simp only [Bool.and_eq_true] at exempt
          exact .inl ⟨exempt.1.1, (Option.some.inj returned).symm⟩
        · exact .inr (Option.some.inj returned).symm
    · cases returned
  · rename_i large
    exact .inl ⟨by omega, (Option.some.inj returned).symm⟩

/-- No explicit secret shows in redacted text, exactly if the text is one that is redacted. -/
theorem redactText_hides_iff (distinct : Distinct redactionMarkers secrets)
    (encodable_ : EncodableWithin secrets value)
    (returned : redactText R value secrets limit fieldKey = some text) :
    Hides secrets text ↔ Redactable secrets limit value := by
  rcases redactText_cases distinct returned with ⟨large, rfl⟩ | ⟨small, binary, rfl⟩ |
    ⟨plain, ranges, findings, found, shown⟩
  · refine ⟨fun _ => .inl large, fun _ secret listed here => ?_⟩
    obtain ⟨nonempty, free⟩ := distinct secret listed
    obtain ⟨c, rest, rfl⟩ := List.exists_cons_of_ne_nil nonempty
    exact free c (by simp) (lit "<redacted:oversized>") (by simp [redactionMarkers])
      (here.subset (by simp))
  · constructor
    · intro hides
      refine .inr (.inr fun secret listed part kept here => hides secret listed ?_)
      rw [infix_boundText (distinct secret listed).1 (distinct secret listed).2]
      exact ⟨part, kept, here⟩
    · intro redactable secret listed here
      rw [infix_boundText (distinct secret listed).1 (distinct secret listed).2] at here
      obtain ⟨part, kept, here⟩ := here
      rcases redactable with large | plain | clear
      · omega
      · exact plain binary
      · exact clear secret listed part kept here
  · refine ⟨fun _ => .inr (.inl plain), fun _ secret listed => ?_⟩
    obtain ⟨nonempty, free⟩ := distinct secret listed
    rcases shown with ⟨exempt, rfl⟩ | rfl
    · refine not_infix_boundText nonempty free fun here => ?_
      cases clean : encodable secret with
      | false => exact encodable_ secret listed clean here
      | true =>
        obtain ⟨i, there⟩ := Spans.exists_drop_of_infix here
        have inside := Spans.infix_of_prefix_drop (prefix_drop_replaced clean there)
        have other := not_onlyEntropy (R := R) (R.sha256 (utf8 (replaced value)))
          (distinct.sought listed) inside
        rw [← found, exempt] at other
        cases other
    · refine not_infix_boundText nonempty free ?_
      have hidden := legacyRedaction_hides (R := R) (R.sha256 (utf8 (replaced value))) distinct
        encodable_ listed
      rw [← found] at hidden
      exact hidden

section Sample

/-- The Unicode database for ASCII, and digests that say nothing. -/
def asciiRuntime : Runtime where
  sha256 _ := List.replicate 64 (.scalar '0')
  casefold s := s.map fun c => match c with
    | .scalar c => .scalar c.toLower
    | .surrogate n => .surrogate n
  isLower := CodePoint.within Char.isLower
  isUpper := CodePoint.within Char.isUpper
  isDigit := CodePoint.within Char.isDigit
  isAlnum := CodePoint.within Char.isAlphanum
  entropic _ := true

theorem sample_distinct : Distinct redactionMarkers [lit "QQ"] := by
  intro secret listed
  rw [List.mem_singleton] at listed
  subst listed
  exact ⟨by simp [lit, ofText], by decide⟩

theorem sample_encodable (value : PyStr) : EncodableWithin [lit "QQ"] value := by
  intro secret listed unclean
  rw [List.mem_singleton] at listed
  subst listed
  simp [encodable, CodePoint.isSurrogate, lit, ofText] at unclean

/-- Two occurrences that overlap: one is found, and the rest of the other is no secret. -/
theorem redactText_hides_overlapping :
    redactText asciiRuntime (lit "id QQQ x") [lit "QQ"] 8000 [] = some (lit "id <redacted>Q x") ∧
      Hides [lit "QQ"] (lit "id <redacted>Q x") := by
  have returned : redactText asciiRuntime (lit "id QQQ x") [lit "QQ"] 8000 [] =
      some (lit "id <redacted>Q x") := by decide +kernel
  exact ⟨returned, (redactText_hides_iff sample_distinct (sample_encodable _) returned).mpr
    (.inr (.inl (by simp [nul, lit, ofText])))⟩

/-- With a NUL before it the secret comes back. -/
theorem nul_keeps_secret :
    Distinct redactionMarkers [lit "QQ"] ∧
      redactText asciiRuntime (nul :: lit "QQ") [lit "QQ"] 8000 [] = some (nul :: lit "QQ") ∧
      ¬ Hides [lit "QQ"] (nul :: lit "QQ") := by
  refine ⟨sample_distinct, by decide +kernel, ?_⟩
  intro hides
  exact hides (lit "QQ") (by simp) (List.suffix_cons _ _).isInfix

end Sample

end RepoForge.Egress

/-!
## Structured data hides the explicit secrets, but for its keys

No explicit secret shows in a leaf of what `sanitize_egress_data` returns. Mapping keys are
written as they come: a secret shows exactly if it is in a key that the walk comes to
(`sanitizeEgressData_hides_iff`).
-/
namespace RepoForge.Egress

open PyStr

variable {R : Runtime} {settings : SanitizerSettings} {levels : Nat} {key t : PyStr}
  {value out : PyData}

/-- The secrets are told apart from the markers, and none of them is allowed. -/
structure Guarded (settings : SanitizerSettings) : Prop where
  distinct : Distinct egressMarkers settings.explicitSecrets
  refused : ∀ secret ∈ settings.explicitSecrets, secret ∉ settings.allowValues

/-- A secret that cannot be encoded occurs in no string of the value. -/
def EncodableThroughout (secrets : List PyStr) (value : PyData) : Prop :=
  ∀ t, Shows value t → EncodableWithin secrets t

/-- Every string of the value hides the secrets. -/
def HidesThroughout (secrets : List PyStr) (value : PyData) : Prop :=
  ∀ t, Shows value t → Hides secrets t

theorem Guarded.sought (guarded : Guarded settings) {secret : PyStr}
    (listed : secret ∈ settings.explicitSecrets) :
    Sought settings.explicitSecrets settings.allowValues secret := by
  refine ⟨listed, (guarded.distinct secret listed).1, guarded.refused secret listed, ?_⟩
  intro here
  exact (guarded.distinct secret listed).2 _ here (lit "<redacted:+>") (by simp [egressMarkers])
    (by simp [lit, ofText])

theorem Guarded.marker (guarded : Guarded settings) {marker : PyStr}
    (listed : marker ∈ egressMarkers) : Hides settings.explicitSecrets marker :=
  fun secret here => (guarded.distinct secret here).2.absent (guarded.distinct secret here).1
    listed

theorem evaluateValue_hides (guarded : Guarded settings) {content : Content}
    {result : EgressResult} (evaluated : evaluateValue R settings content = some result) :
    Hides settings.explicitSecrets (shown result) := by
  intro secret listed
  obtain ⟨request, made, evaluated⟩ := Option.bind_eq_some_iff.mp evaluated
  cases evaluated
  unfold egressRequest at made
  split at made
  · cases made
    exact shown_hides rfl (guarded.sought listed) (guarded.distinct secret listed).2
  · cases made

/-- A text with a secret has a finding that is not for its entropy. -/
theorem evaluateValue_found (guarded : Guarded settings) {text secret : PyStr}
    {result : EgressResult} (evaluated : evaluateValue R settings (.text text) = some result)
    (listed : secret ∈ settings.explicitSecrets) (clean : encodable secret = true)
    (here : secret <:+: text) : onlyEntropy result.findings = false := by
  obtain ⟨request, made, evaluated⟩ := Option.bind_eq_some_iff.mp evaluated
  cases evaluated
  unfold egressRequest at made
  split at made
  · rename_i valid
    cases made
    by_cases large : settings.policy.maxInputBytes < (utf8 (replaced text)).length
    · rw [evaluateEgress_large rfl large]
      rfl
    · rw [evaluateEgress_text rfl (not_lt.mp large) rfl]
      split
      · rfl
      · rw [evaluateText_ranges.2]
        obtain ⟨i, there⟩ := Spans.exists_drop_of_infix here
        exact not_onlyEntropy _ (guarded.sought listed)
          (Spans.infix_of_prefix_drop (prefix_drop_replaced clean there))
  · cases made

theorem sanitizeText_hides (guarded : Guarded settings) {text : PyStr}
    (encodable_ : EncodableWithin settings.explicitSecrets text)
    (returned : sanitizeText R settings key text = some out) (shows_ : Shows out t) :
    Hides settings.explicitSecrets t := by
  obtain ⟨result, evaluated, returned⟩ := Option.bind_eq_some_iff.mp returned
  split at returned
  · rename_i exempt
    cases returned
    cases shows_
    intro secret listed here
    cases clean : encodable secret with
    | false => exact encodable_ secret listed clean here
    | true =>
      rw [evaluateValue_found guarded evaluated listed clean here] at exempt
      cases exempt
  · cases returned
    cases shows_
    exact evaluateValue_hides guarded evaluated

/-- A string of the result hides the secrets, or it is a key that the walk came to. -/
theorem sanitize_shows (guarded : Guarded settings)
    (encodable_ : EncodableThroughout settings.explicitSecrets value)
    (returned : sanitize R settings levels key value = some out) (shows_ : Shows out t) :
    Hides settings.explicitSecrets t ∨ ReachesKey R levels value t := by
  induction levels generalizing key value out t with
  | zero =>
    cases returned
    cases shows_
    exact .inl (guarded.marker (by simp [egressMarkers]))
  | succ levels ih =>
    have elements : ∀ (items : List PyData) (sanitized : List PyData),
        (∀ item ∈ items.take 2000, EncodableThroughout settings.explicitSecrets item) →
        List.Forall₂ (fun item result => sanitize R settings levels key item = some result)
          (items.take 2000) sanitized → Shows (.list sanitized) t →
        Hides settings.explicitSecrets t ∨
          ∃ item ∈ items.take 2000, ReachesKey R levels item t := by
      intro items sanitized clean each shows_
      cases shows_ with
      | element here inside =>
        obtain ⟨item, there, made⟩ := forall₂_mem each.flip here
        exact (ih (clean item there) made inside).imp id fun reached => ⟨item, there, reached⟩
    cases value with
    | none =>
      cases returned
      cases shows_
    | bool b =>
      cases returned
      cases shows_
    | int n =>
      cases returned
      cases shows_
    | float bits =>
      cases returned
      cases shows_
    | str text =>
      exact .inl (sanitizeText_hides guarded (encodable_ text .str) returned shows_)
    | bytes data =>
      obtain ⟨result, evaluated, returned⟩ := Option.bind_eq_some_iff.mp returned
      cases returned
      cases shows_
      exact .inl (evaluateValue_hides guarded evaluated)
    | other repr =>
      have inner : EncodableThroughout settings.explicitSecrets (.str repr) := by
        intro t here
        cases here
        exact encodable_ repr .other
      refine (ih inner returned shows_).imp id fun reached => ?_
      cases reached
    | list items =>
      obtain ⟨sanitized, each, rfl⟩ := sanitize_elements returned
      refine (elements items sanitized (fun item there t here => encodable_ t
        (.element (List.mem_of_mem_take there) here)) each shows_).imp id fun reached => ?_
      obtain ⟨item, there, inside⟩ := reached
      exact .element there inside
    | tuple items =>
      obtain ⟨sanitized, each, rfl⟩ := sanitize_elements returned
      refine (elements items sanitized (fun item there t here => encodable_ t
        (.member (List.mem_of_mem_take there) here)) each shows_).imp id fun reached => ?_
      obtain ⟨item, there, inside⟩ := reached
      exact .member there inside
    | dict items =>
      obtain ⟨sanitized, each, rfl⟩ := sanitize_dict returned
      have keys : ∀ p q, SanitizedItem R settings levels p q → p.1 = q.1 := fun _ _ h => h.1
      cases shows_ with
      | @key _ item here =>
        rcases mem_sanitizedMapping.mp here with ⟨_, name, _⟩ | ⟨last, _⟩
        · rw [name]
          exact .inl (guarded.marker (by simp [egressMarkers]))
        · obtain ⟨original, found, _⟩ := last.transfer keys each
          have reached : ReachesKey R (levels + 1) (.dict items) (item.1, original).1 :=
            .key found.mem
          exact .inr reached
      | @value _ item _ here inside =>
        rcases mem_sanitizedMapping.mp here with ⟨_, _, truth⟩ | ⟨last, whole⟩
        · rw [truth] at inside
          cases inside
        · obtain ⟨original, found, _, became⟩ := last.transfer keys each
          split at became
          · simp only at became
            rw [became] at inside
            cases inside
            exact .inl (guarded.marker (by simp [egressMarkers]))
          · rename_i plain
            have clean : EncodableThroughout settings.explicitSecrets original :=
              fun t here => encodable_ t (.value (List.mem_of_mem_take found.mem) here)
            refine (ih clean became inside).imp id fun reached => ?_
            exact .value found (fun more => whole (decide_eq_true more))
              (Bool.not_eq_true _ ▸ plain) reached

/-- A key that the walk comes to is a string of the result. -/
theorem sanitize_keys (reached : ReachesKey R levels value t)
    (returned : sanitize R settings levels key value = some out) : Shows out t := by
  have keys : ∀ p q, SanitizedItem R settings levels p q → p.1 = q.1 := fun _ _ h => h.1
  induction reached generalizing key out with
  | @key levels items item here =>
    obtain ⟨sanitized, each, rfl⟩ := sanitize_dict returned
    obtain ⟨result, there, same, _⟩ := forall₂_mem each here
    obtain ⟨value, last⟩ := exists_lastOf ⟨result, there, same.symm⟩
    by_cases truncated : 2000 < items.length ∧ item.1 = lit "items_truncated"
    · rw [truncated.2]
      exact Shows.key (mem_sanitizedMapping.mpr (.inl ⟨decide_eq_true truncated.1, rfl, rfl⟩))
    · have there : (item.1, value) ∈ sanitizedMapping (2000 < items.length) sanitized :=
        mem_sanitizedMapping.mpr (.inr ⟨last, fun more name =>
          truncated ⟨of_decide_eq_true more, name⟩⟩)
      have shows_ : Shows _ (item.1, value).1 := Shows.key there
      exact shows_
  | @value levels items name t item last whole plain inside ih =>
    obtain ⟨sanitized, each, rfl⟩ := sanitize_dict returned
    have back : ∀ p q, SanitizedItem R settings levels q p → p.1 = q.1 := fun _ _ h => h.1.symm
    obtain ⟨result, found, _, became⟩ := last.transfer back each.flip
    rw [if_neg (by simp only [plain]; exact Bool.false_ne_true)] at became
    have there : (name, result) ∈ sanitizedMapping (2000 < items.length) sanitized :=
      mem_sanitizedMapping.mpr (.inr ⟨found, fun more => whole (of_decide_eq_true more)⟩)
    exact Shows.value there (ih became fun _ _ h => h.1)
  | @element levels items item t here inside ih =>
    obtain ⟨sanitized, each, rfl⟩ := sanitize_elements returned
    obtain ⟨result, there, made⟩ := forall₂_mem each here
    exact .element there (ih made fun _ _ h => h.1)
  | @member levels items item t here inside ih =>
    obtain ⟨sanitized, each, rfl⟩ := sanitize_elements returned
    obtain ⟨result, there, made⟩ := forall₂_mem each here
    exact .element there (ih made fun _ _ h => h.1)

/-- No explicit secret shows in sanitized data, exactly if none is in a key that the walk comes
to. -/
theorem sanitizeEgressData_hides_iff (guarded : Guarded settings)
    (encodable_ : EncodableThroughout settings.explicitSecrets value)
    (returned : sanitizeEgressData R settings value = some out) :
    HidesThroughout settings.explicitSecrets out ↔
      ∀ key, ReachesKey R 17 value key → Hides settings.explicitSecrets key := by
  constructor
  · intro hides key reached
    exact hides key (sanitize_keys reached returned)
  · intro keys t shows_
    rcases sanitize_shows guarded encodable_ returned shows_ with hides | reached
    · exact hides
    · exact keys t reached

section Sample

def sampleSettings : SanitizerSettings := ⟨[lit "QQ"], [], defaultPolicy⟩

theorem sample_guarded : Guarded sampleSettings := by
  refine ⟨?_, fun _ _ => List.not_mem_nil⟩
  intro secret listed
  rw [List.mem_singleton.mp listed]
  exact ⟨by simp [lit, ofText], by decide⟩

/-- A mapping with a secret in a nested leaf. -/
def leafData : PyData := .dict [(lit "note", .list [.str (lit "id QQQ")])]

theorem sanitizeEgressData_hides_leaf : ∃ out,
    sanitizeEgressData asciiRuntime sampleSettings leafData = some out ∧
      HidesThroughout [lit "QQ"] out := by
  have returns : (sanitizeEgressData asciiRuntime sampleSettings leafData).isSome = true := by
    decide +kernel
  obtain ⟨out, returned⟩ := Option.isSome_iff_exists.mp returns
  refine ⟨out, returned, (sanitizeEgressData_hides_iff sample_guarded ?_ returned).mpr ?_⟩
  · intro t _
    exact sample_encodable t
  · intro key reached secret listed
    rw [List.mem_singleton.mp listed]
    cases reached with
    | key here =>
      rw [List.mem_singleton.mp here]
      decide +kernel
    | value last _ _ inside =>
      cases List.mem_singleton.mp last.mem
      cases inside with
      | element there inside =>
        rw [List.mem_singleton.mp there] at inside
        cases inside

/-- A mapping with the secret for a key. -/
def keyData : PyData := .dict [(lit "QQ", .none)]

/-- The key is written as it came. -/
theorem key_keeps_secret :
    Guarded sampleSettings ∧
      sanitizeEgressData asciiRuntime sampleSettings keyData = some keyData ∧
      ¬ HidesThroughout [lit "QQ"] keyData := by
  have plain : normalizedKey asciiRuntime (lit "QQ") ∉ sensitiveKeys := by decide +kernel
  refine ⟨sample_guarded, ?_, ?_⟩
  · simp [sanitizeEgressData, keyData, sanitize, plain, assign]
  · intro hides
    have shows_ : Shows keyData (lit "QQ", PyData.none).1 := Shows.key (by simp)
    exact hides (lit "QQ") shows_ (lit "QQ") (by simp) (List.infix_refl _)

end Sample

end RepoForge.Egress
