import RepoForge.Source.Egress.Evaluate

/-!
# The ranges of a text

Every occurrence of an explicit secret meets a range that `evaluate_egress` gives, the ranges
follow one another, and what is left when they are replaced does not show the secret.
-/
namespace RepoForge.Egress

open PyStr

variable {R : Runtime} {secrets allowValues : List PyStr} {text secret : PyStr}

section Detect

theorem mem_addCandidate {span : Nat × Nat} {category : Category} {confidence : Confidence}
    {reason : PyStr} {c : Candidate}
    (h : c ∈ addCandidate allowValues text span category confidence reason) :
    c.start < c.stop := by
  unfold addCandidate at h
  split at h
  · cases h
  · rename_i proper
    split at h
    · cases h
    · rw [List.mem_singleton] at h
      subst h
      simp only [Bool.or_eq_true, decide_eq_true_eq, not_or, not_le] at proper
      exact proper.1

theorem detect_proper {c : Candidate} (h : c ∈ detect R secrets allowValues text) :
    c.start < c.stop := by
  rw [detect, (List.perm_insertionSort _ _).mem_iff, List.mem_dedup] at h
  simp only [foundCandidates, assignmentCandidates, explicitCandidates, entropyCandidates,
    List.mem_append, List.mem_flatMap] at h
  rcases h with (((((h | h) | h) | h) | h) | h) | h
  · obtain ⟨m, _, h⟩ := h
    exact mem_addCandidate h
  · obtain ⟨provider, _, m, _, h⟩ := h
    exact mem_addCandidate h
  · obtain ⟨m, _, h⟩ := h
    exact mem_addCandidate h
  · obtain ⟨m, _, h⟩ := h
    exact mem_addCandidate h
  · obtain ⟨m, _, h⟩ := h
    exact mem_addCandidate h
  · obtain ⟨s, _, h⟩ := h
    split at h
    · cases h
    · obtain ⟨index, _, h⟩ := List.mem_flatMap.mp h
      exact mem_addCandidate h
  · obtain ⟨m, _, h⟩ := h
    split at h
    · cases h
    · exact mem_addCandidate h

theorem detect_sorted :
    (detect R secrets allowValues text).Pairwise fun a b => a.start ≤ b.start := by
  have sorted : (detect R secrets allowValues text).Pairwise fun a b => a.key ≤ b.key :=
    List.pairwise_insertionSort _ _
  refine sorted.imp ?_
  intro a b le
  rw [Candidate.key, Candidate.key, Prod.Lex.toLex_le_toLex] at le
  rcases le with less | same
  · exact less.le
  · exact same.1.le

/-- A secret that the code looks for: it is not allowed, and it is no marker. -/
structure Sought (secrets allowValues : List PyStr) (secret : PyStr) : Prop where
  listed : secret ∈ secrets
  nonempty : secret ≠ []
  refused : secret ∉ allowValues
  unmarked : CodePoint.scalar '<' ∉ secret

theorem Sought.not_marker (sought : Sought secrets allowValues secret) :
    Regex.fullmatch sanitizedMarker secret = false := by
  by_contra matched
  have first := Regex.fullmatch_next_one (Bool.not_eq_false _ ▸ matched)
  cases secret with
  | nil => cases first
  | cons c rest =>
    have same : c = .scalar '<' := by simpa using first
    exact sought.unmarked (by simp [same])

theorem slice_of_prefix {i : Nat} (here : secret <+: text.drop i) :
    slice text i (i + secret.length) = secret := by
  rw [slice, Nat.add_sub_cancel_left]
  exact (List.prefix_iff_eq_take.mp here).symm

/-- Every occurrence of a secret meets one that is found. -/
theorem detect_finds (sought : Sought secrets allowValues secret) {i : Nat}
    (here : secret <+: text.drop i) :
    ∃ c ∈ detect R secrets allowValues text,
      c.category = .explicitSecret ∧ c.start < i + secret.length ∧ i < c.stop := by
  obtain ⟨j, found, low, high⟩ := Spans.occurrences_cover sought.nonempty here
  have there := Spans.occurrences_sound found
  have long : 0 < secret.length := List.length_pos_iff.mpr sought.nonempty
  have fits : j + secret.length ≤ text.length := by
    have := there.length_le
    rw [List.length_drop] at this
    omega
  refine ⟨⟨j, j + secret.length, .explicitSecret, .high, lit "caller-provided secret identity"⟩,
    ?_, rfl, by simp only; omega, by simp only; omega⟩
  rw [detect, (List.perm_insertionSort _ _).mem_iff, List.mem_dedup]
  have added : addCandidate allowValues text (j, j + secret.length) .explicitSecret .high
      (lit "caller-provided secret identity") =
      [⟨j, j + secret.length, .explicitSecret, .high, lit "caller-provided secret identity"⟩] := by
    have span : ¬ ((decide (j + secret.length ≤ j) || decide (text.length < j + secret.length)) =
        true) := by
      simp only [Bool.or_eq_true, decide_eq_true_eq]
      omega
    have skip : ¬ ((allowValues.contains secret || Regex.fullmatch sanitizedMarker secret) =
        true) := by simp [sought.refused, sought.not_marker]
    rw [addCandidate, if_neg span, slice_of_prefix there, if_neg skip]
  have explicit : (⟨j, j + secret.length, .explicitSecret, .high,
      lit "caller-provided secret identity"⟩ : Candidate) ∈
      explicitCandidates secrets allowValues text := by
    refine List.mem_flatMap.mpr ⟨secret, ?_, ?_⟩
    · rw [(List.perm_insertionSort _ _).mem_iff, List.mem_dedup]
      exact sought.listed
    · rw [if_neg (by simp [sought.refused]), List.mem_flatMap]
      exact ⟨j, found, by rw [added]; simp⟩
  simp only [foundCandidates, List.mem_append]
  exact .inl (.inr explicit)

end Detect

section Merge

variable {sourceDigest : PyStr}

theorem markedCandidates_sorted :
    (markedCandidates R sourceDigest (detect R secrets allowValues text)).Pairwise
      fun a b => a.start ≤ b.start := by
  rw [markedCandidates, List.pairwise_map]
  exact detect_sorted

theorem ranges_chained :
    Spans.Chained 0 (mergeRanges R sourceDigest (detect R secrets allowValues text)).1 := by
  have chained : Spans.Chained 0 (Spans.merge joinLabels
      (markedCandidates R sourceDigest (detect R secrets allowValues text))) := by
    refine Spans.merge_chained ?_ markedCandidates_sorted
    intro block listed
    obtain ⟨c, here, rfl⟩ := List.mem_map.mp listed
    exact detect_proper here
  exact Spans.chained_map (f := egressRange R) (fun _ => rfl) (fun _ => rfl) chained

theorem ranges_meet (sought : Sought secrets allowValues secret) {i : Nat}
    (here : secret <+: text.drop i) :
    ∃ r ∈ (mergeRanges R sourceDigest (detect R secrets allowValues text)).1,
      r.start < i + secret.length ∧ i < r.stop := by
  obtain ⟨c, found, _, low, high⟩ := detect_finds (R := R) sought here
  have sorted : (markedCandidates R sourceDigest (detect R secrets allowValues text)).Pairwise
      fun a b => a.start ≤ b.start := markedCandidates_sorted
  obtain ⟨block, there, holds⟩ :=
    Spans.merge_covers joinLabels sorted (List.mem_map.mpr ⟨c, found, rfl⟩)
  refine ⟨egressRange R block, List.mem_map.mpr ⟨block, there, rfl⟩, ?_, ?_⟩
  · exact lt_of_le_of_lt holds.1 low
  · exact lt_of_lt_of_le high holds.2

/-- A text in which a secret occurs has a finding that is not for its entropy. -/
theorem not_onlyEntropy (sourceDigest : PyStr) (sought : Sought secrets allowValues secret)
    (here : secret <:+: text) :
    onlyEntropy (mergeRanges R sourceDigest (detect R secrets allowValues text)).2 = false := by
  obtain ⟨i, there⟩ := Spans.exists_drop_of_infix here
  obtain ⟨c, found, category, _⟩ := detect_finds (R := R) sought there
  have other : ∃ f ∈ (mergeRanges R sourceDigest (detect R secrets allowValues text)).2,
      ¬ f.category = .highEntropy := by
    refine ⟨finding R sourceDigest c, List.mem_map.mpr ⟨c, found, rfl⟩, ?_⟩
    rw [finding, category]
    simp
  obtain ⟨f, listed, different⟩ := other
  rw [onlyEntropy, Bool.and_eq_false_iff]
  right
  rw [List.all_eq_false]
  exact ⟨f, listed, by simpa using different⟩

end Merge

end RepoForge.Egress

/-!
# What a sanitizer shows

A secret that shares no character with the markers shows in a shortened text only if it shows in
one of the parts that are kept, and not at all in the content that `evaluate_egress` gives.
-/
namespace RepoForge.Egress

open PyStr

variable {R : Runtime} {secret value : PyStr}

/-- The secret has no character of the markers. -/
def MarkerFree (markers : List PyStr) (secret : PyStr) : Prop :=
  ∀ c ∈ secret, ∀ marker ∈ markers, c ∉ marker

instance (markers : List PyStr) (secret : PyStr) : Decidable (MarkerFree markers secret) :=
  inferInstanceAs (Decidable (∀ c ∈ secret, ∀ marker ∈ markers, c ∉ marker))

/-- The markers of `redact_text`. -/
def redactionMarkers : List PyStr :=
  [lit "<redacted>", lit "<redacted:oversized>", lit "\n... <0123456789 characters omitted> ...\n"]

theorem digit_mem {c : CodePoint} {n : Nat} (h : c ∈ ofNat n) : c ∈ lit "0123456789" := by
  obtain ⟨d, rfl, digit⟩ := ofNat_digits h
  have each : ∀ n < 58, 48 ≤ n → CodePoint.scalar (Char.ofNat n) ∈ lit "0123456789" := by
    decide +kernel
  simp only [Char.isDigit, Bool.and_eq_true, decide_eq_true_eq] at digit
  have low : 48 ≤ d.toNat := UInt32.le_iff_toNat_le.mp digit.1
  have high : d.toNat ≤ 57 := UInt32.le_iff_toNat_le.mp digit.2
  have member := each d.toNat (by omega) low
  rwa [Char.ofNat_toNat] at member

/-- A count between two texts is written with digits. -/
theorem numbered_subset {first last : PyStr} {c : CodePoint} {n : Nat}
    (there : c ∈ first ++ ofNat n ++ last) : c ∈ first ++ lit "0123456789" ++ last := by
  simp only [List.mem_append] at there ⊢
  rcases there with (there | there) | there
  · exact .inl (.inl there)
  · exact .inl (.inr (digit_mem there))
  · exact .inr there

/-- What `_bound_text` keeps of a text. -/
def keptParts (value : PyStr) (limit : Nat) : List PyStr :=
  if value.length ≤ limit then [value]
  else [value.take (max 1 (limit / 2)), lastOnes value (max 1 (limit / 2))]

theorem lastOnes_suffix {A : Type} (values : List A) (count : Nat) :
    lastOnes values count <:+ values :=
  List.drop_suffix _ _

/-- The mark between the parts that are kept. -/
def omissionMark (omitted : Nat) : PyStr :=
  lit "\n... <" ++ ofNat omitted ++ lit " characters omitted> ...\n"

theorem omissionMark_apart {omitted : Nat} (free : MarkerFree redactionMarkers secret) :
    ∀ c ∈ secret, c ∉ omissionMark omitted := by
  intro c here there
  have whole : lit "\n... <" ++ lit "0123456789" ++ lit " characters omitted> ...\n" =
      lit "\n... <0123456789 characters omitted> ...\n" := by simp [lit, ofText]
  exact free c here (lit "\n... <0123456789 characters omitted> ...\n")
    (by simp [redactionMarkers]) (whole ▸ numbered_subset there)

/-- A secret shows in a shortened text exactly if it shows in a part that is kept. -/
theorem infix_boundText {limit : Nat} (nonempty : secret ≠ [])
    (free : MarkerFree redactionMarkers secret) :
    secret <:+: boundText value limit ↔ ∃ part ∈ keptParts value limit, secret <:+: part := by
  unfold boundText keptParts
  split
  · simp
  · simp only [List.mem_cons, List.not_mem_nil, or_false, exists_eq_or_imp, exists_eq_left]
    have marked : omissionMark (value.length - max 1 (limit / 2) * 2) ≠ [] := by
      simp [omissionMark, lit, ofText]
    constructor
    · intro here
      exact Spans.infix_beside_mark nonempty marked (omissionMark_apart free) here
    · intro here
      rcases here with here | here
      · exact here.trans List.infix_append_left
      · exact here.trans (List.infix_append_right.trans List.infix_append_right)

theorem not_infix_boundText {limit : Nat} (nonempty : secret ≠ [])
    (free : MarkerFree redactionMarkers secret) (absent : ¬ secret <:+: value) :
    ¬ secret <:+: boundText value limit := by
  rw [infix_boundText nonempty free]
  intro shows
  obtain ⟨part, kept, here⟩ := shows
  refine absent (here.trans ?_)
  unfold keptParts at kept
  split at kept
  · rw [List.mem_singleton] at kept
    rw [kept]
  · simp only [List.mem_cons, List.not_mem_nil, or_false] at kept
    rcases kept with rfl | rfl
    · exact (List.take_prefix _ _).isInfix
    · exact (lastOnes_suffix _ _).isInfix

section Evaluate

def nul : CodePoint := .scalar '\x00'

theorem nul_mem_replaced : nul ∈ ofText (replaced value) ↔ nul ∈ value := by
  simp only [ofText, replaced, List.mem_map]
  constructor
  · intro here
    obtain ⟨c, ⟨x, there, rfl⟩, same⟩ := here
    cases x with
    | scalar d =>
      rw [← same]
      exact there
    | surrogate n => cases same
  · intro here
    exact ⟨'\x00', ⟨nul, here, rfl⟩, rfl⟩

/-- A text is evaluated with its surrogates replaced. -/
theorem evaluateEgress_text {request : EgressRequest} (content : request.content = .text value)
    (size : (utf8 (replaced value)).length ≤ request.policy.maxInputBytes)
    (open_ : request.sourceDenied = false) :
    evaluateEgress R request =
      if nul ∈ value then binaryResult R request (R.sha256 (utf8 (replaced value)))
      else evaluateText R request (ofText (replaced value))
        (R.sha256 (utf8 (replaced value))) := by
  have source : ∃ encoded, sourceBytes request.content = (utf8 (replaced value), encoded) ∧
      encoded.or ((decode (utf8 (replaced value))).map ofText) =
        some (ofText (replaced value)) := by
    rw [content, sourceBytes]
    split
    · rename_i clean
      exact ⟨some value, rfl, by rw [ofText_replaced clean]; rfl⟩
    · exact ⟨none, rfl, by rw [decode_utf8]; rfl⟩
  obtain ⟨encoded, bytes, text⟩ := source
  unfold evaluateEgress
  simp only [bytes, not_lt.mpr size, if_false, open_, Bool.false_eq_true, text]
  change (if nul ∈ ofText (replaced value) then _ else _) = _
  simp only [nul_mem_replaced]

theorem evaluateEgress_large {request : EgressRequest} (content : request.content = .text value)
    (size : request.policy.maxInputBytes < (utf8 (replaced value)).length) :
    evaluateEgress R request = refused R .rejectResult .sizeLimit
      (lit "input exceeds the reviewed byte bound") (lit "input exceeds policy bound")
      (R.sha256 (utf8 (replaced value))) := by
  have bytes : (sourceBytes request.content).1 = utf8 (replaced value) := by
    rw [content, sourceBytes]
    split <;> rfl
  unfold evaluateEgress
  simp only [bytes, size, if_true]

theorem evaluateText_ranges {request : EgressRequest} {text sourceDigest : PyStr} :
    (evaluateText R request text sourceDigest).redactionRanges =
        (mergeRanges R sourceDigest
          (detect R request.explicitSecrets request.allowValues text)).1 ∧
      (evaluateText R request text sourceDigest).findings =
        (mergeRanges R sourceDigest
          (detect R request.explicitSecrets request.allowValues text)).2 := by
  unfold evaluateText
  dsimp only
  split <;> exact ⟨rfl, rfl⟩

end Evaluate

section Content

/-- The markers of `evaluate_egress` and `sanitize_egress_data`. -/
def egressMarkers : List PyStr :=
  [lit "<redacted:+>", lit "private_key", lit "provider_token", lit "authorization",
    lit "credential_url", lit "password", lit "sensitive_config", lit "explicit_secret",
    lit "high_entropy", lit "size_limit", lit "denied_source", lit "binary_data",
    lit "... <0123456789 lines omitted> ...\n", lit "... <characters omitted> ...",
    lit "<withheld:structure-depth>", lit "<redacted:sensitive_config>",
    lit "<reject_result:input exceeds policy bound>",
    lit "<reject_result:binary or invalid encoding>",
    lit "<withhold_snippet:binary or invalid encoding>",
    lit "<withhold_snippet:private-key material is withheld>", lit "items_truncated"]

theorem MarkerFree.absent {markers : List PyStr} {marker : PyStr}
    (free : MarkerFree markers secret) (nonempty : secret ≠ []) (listed : marker ∈ markers) :
    ¬ secret <:+: marker := by
  intro here
  obtain ⟨c, rest, rfl⟩ := List.exists_cons_of_ne_nil nonempty
  exact free c (by simp) marker listed (here.subset (by simp))

theorem name_listed (category : Category) : category.name ∈ egressMarkers := by
  cases category <;> simp [Category.name, egressMarkers]

/-- A mark is made of markers. -/
theorem rangeMark_apart {merged : Merged} (free : MarkerFree egressMarkers secret) :
    ∀ c ∈ secret, c ∉ rangeMark (egressRange R merged) := by
  intro c here there
  have frame : lit "<redacted:" ++ lit "+" ++ lit ">" = lit "<redacted:+>" := by
    simp [lit, ofText]
  have framed : c ∉ lit "<redacted:" ++ lit "+" ++ lit ">" := by
    intro there
    exact free c here (lit "<redacted:+>") (by simp [egressMarkers]) (frame ▸ there)
  simp only [List.mem_append, not_or] at framed
  simp only [rangeMark, egressRange, List.mem_append] at there
  rcases there with (there | there) | there
  · exact framed.1.1 there
  · rcases mem_join there with plus | inside
    · exact framed.1.2 plus
    · obtain ⟨part, listed, inside⟩ := inside
      rw [sorted, (List.perm_insertionSort _ _).mem_iff, List.mem_map] at listed
      obtain ⟨category, _, rfl⟩ := listed
      exact free c here category.name (name_listed category) inside
  · exact framed.2 there

theorem redact_hides {secrets allowValues : List PyStr} {text sourceDigest : PyStr}
    (sought : Sought secrets allowValues secret) (free : MarkerFree egressMarkers secret) :
    ¬ secret <:+: redact text
      (mergeRanges R sourceDigest (detect R secrets allowValues text)).1 := by
  unfold redact
  split
  · rename_i none
    intro here
    obtain ⟨i, there⟩ := Spans.exists_drop_of_infix here
    obtain ⟨r, member, _⟩ := ranges_meet (R := R) sought there
    rw [List.isEmpty_iff.mp none] at member
    cases member
  · refine Spans.replace_hides sought.nonempty ?_ ?_ ranges_chained fun i here =>
      ranges_meet sought here
    · intro block
      simp [rangeMark, lit, ofText]
    · intro block listed
      obtain ⟨merged, _, rfl⟩ := List.mem_map.mp listed
      exact rangeMark_apart free

theorem boundLines_hides {maximum : Nat} (nonempty : secret ≠ [])
    (free : MarkerFree egressMarkers secret) (absent : ¬ secret <:+: value) :
    ¬ secret <:+: (boundLines value maximum).1 := by
  unfold boundLines
  dsimp only
  split
  · exact absent
  · intro here
    have apart : ∀ n, ∀ c ∈ secret, c ∉ lit "... <" ++ ofNat n ++ lit " lines omitted> ...\n" := by
      intro n c listed there
      have whole : lit "... <" ++ lit "0123456789" ++ lit " lines omitted> ...\n" =
          lit "... <0123456789 lines omitted> ...\n" := by simp [lit, ofText]
      exact free c listed (lit "... <0123456789 lines omitted> ...\n")
        (by simp [egressMarkers]) (whole ▸ numbered_subset there)
    rcases Spans.infix_beside_mark nonempty (by simp [lit, ofText]) (apart _) here with
      head | tail
    · refine absent (head.trans ?_)
      nth_rewrite 2 [← linesKept_flatten value]
      exact (List.take_prefix _ _).flatten.isInfix
    · refine absent (tail.trans ?_)
      nth_rewrite 2 [← linesKept_flatten value]
      exact (lastOnes_suffix _ _).flatten.isInfix

theorem boundChars_hides {maximum : Nat} (nonempty : secret ≠ [])
    (free : MarkerFree egressMarkers secret) (absent : ¬ secret <:+: value) :
    ¬ secret <:+: (boundChars value maximum).1 := by
  unfold boundChars
  dsimp only
  split
  · exact absent
  · intro here
    have apart : ∀ c ∈ secret, c ∉ lit "... <characters omitted> ..." :=
      fun c listed => free c listed _ (by simp [egressMarkers])
    rcases Spans.infix_beside_mark nonempty (by simp [lit, ofText]) apart
      (here.trans (List.take_prefix _ _).isInfix) with head | tail
    · exact absent (head.trans (List.take_prefix _ _).isInfix)
    · exact absent (tail.trans (lastOnes_suffix _ _).isInfix)

/-- What is shown of content that came without a denial hides the secrets. -/
theorem shown_hides {request : EgressRequest} (open_ : request.sourceDenied = false)
    (sought : Sought request.explicitSecrets request.allowValues secret)
    (free : MarkerFree egressMarkers secret) :
    ¬ secret <:+: shown (evaluateEgress R request) := by
  have marker : ∀ marker ∈ egressMarkers, ¬ secret <:+: marker :=
    fun marker listed => free.absent sought.nonempty listed
  have binary : ∀ digest, ¬ secret <:+: shown (binaryResult R request digest) := by
    intro digest
    unfold binaryResult
    split
    · exact marker (lit "<reject_result:binary or invalid encoding>") (by simp [egressMarkers])
    · exact marker (lit "<withhold_snippet:binary or invalid encoding>") (by simp [egressMarkers])
  unfold evaluateEgress
  dsimp only
  split
  · exact marker (lit "<reject_result:input exceeds policy bound>") (by simp [egressMarkers])
  · rw [open_, if_neg Bool.false_ne_true]
    split
    · exact binary _
    · split
      · exact binary _
      · unfold evaluateText
        dsimp only
        split
        · exact marker (lit "<withhold_snippet:private-key material is withheld>")
            (by simp [egressMarkers])
        · exact boundChars_hides sought.nonempty free
            (boundLines_hides sought.nonempty free (redact_hides sought free))

end Content

end RepoForge.Egress
