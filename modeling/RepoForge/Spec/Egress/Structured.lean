import RepoForge.Spec.Egress.Shown

/-!
# The strings of structured data

Which strings a value shows, which mapping keys the walk of `sanitize_egress_data` comes to, and
that a string of the result is one of these keys or hides the secrets.
-/
namespace RepoForge.Egress

open PyStr

/-- The string is a leaf or a mapping key somewhere in the value. -/
inductive Shows : PyData → PyStr → Prop
  | str {value : PyStr} : Shows (.str value) value
  | other {repr : PyStr} : Shows (.other repr) repr
  | element {items : List PyData} {item : PyData} {t : PyStr} (here : item ∈ items)
      (inside : Shows item t) : Shows (.list items) t
  | member {items : List PyData} {item : PyData} {t : PyStr} (here : item ∈ items)
      (inside : Shows item t) : Shows (.tuple items) t
  | key {items : List (PyStr × PyData)} {item : PyStr × PyData} (here : item ∈ items) :
      Shows (.dict items) item.1
  | value {items : List (PyStr × PyData)} {item : PyStr × PyData} {t : PyStr} (here : item ∈ items)
      (inside : Shows item.2 t) : Shows (.dict items) t

section Assignments

variable {A B : Type}

/-- The last pair with this key. -/
inductive LastOf : List (PyStr × A) → PyStr → A → Prop
  | here {key : PyStr} {value : A} {rest : List (PyStr × A)} (last : ∀ pair ∈ rest, pair.1 ≠ key) :
      LastOf ((key, value) :: rest) key value
  | later {pair : PyStr × A} {key : PyStr} {value : A} {rest : List (PyStr × A)}
      (last : LastOf rest key value) : LastOf (pair :: rest) key value

theorem LastOf.mem {pairs : List (PyStr × A)} {key : PyStr} {value : A}
    (last : LastOf pairs key value) : (key, value) ∈ pairs := by
  induction last with
  | here _ => simp
  | later _ ih => exact List.mem_cons_of_mem _ ih

theorem exists_lastOf {pairs : List (PyStr × A)} {key : PyStr}
    (here : ∃ pair ∈ pairs, pair.1 = key) : ∃ value, LastOf pairs key value := by
  induction pairs with
  | nil =>
    obtain ⟨pair, none, _⟩ := here
    cases none
  | cons first rest ih =>
    by_cases again : ∃ other ∈ rest, other.1 = key
    · obtain ⟨value, last⟩ := ih again
      exact ⟨value, .later last⟩
    · obtain ⟨pair, listed, same⟩ := here
      rcases List.mem_cons.mp listed with rfl | listed
      · subst same
        exact ⟨pair.2, .here fun other there same => again ⟨other, there, same⟩⟩
      · exact absurd ⟨pair, listed, same⟩ again

/-- Lists that agree in their keys have their last pairs at the same places. -/
theorem LastOf.transfer {rel : PyStr × A → PyStr × B → Prop}
    (keys : ∀ p q, rel p q → p.1 = q.1) {ps : List (PyStr × A)} {qs : List (PyStr × B)}
    (all : List.Forall₂ rel ps qs) {key : PyStr} {value : B} (last : LastOf qs key value) :
    ∃ x, LastOf ps key x ∧ rel (key, x) (key, value) := by
  induction all with
  | nil => cases last
  | @cons p q ps qs first rest ih =>
    cases last with
    | here others =>
      have same := keys p _ first
      obtain ⟨name, x⟩ := p
      simp only at same
      subst same
      refine ⟨x, .here ?_, first⟩
      intro pair listed
      obtain ⟨other, there, related⟩ := forall₂_mem rest listed
      rw [keys pair other related]
      exact others other there
    | later last =>
      obtain ⟨x, found, related⟩ := ih last
      exact ⟨x, .later found, related⟩

theorem mem_assign {mapping : List (PyStr × PyData)} {key : PyStr} {value : PyData}
    {item : PyStr × PyData} :
    item ∈ assign mapping key value ↔ item = (key, value) ∨ (item.1 ≠ key ∧ item ∈ mapping) := by
  unfold assign
  split
  · rename_i there
    obtain ⟨found, listed, named⟩ := List.any_eq_true.mp there
    simp only [List.mem_map]
    constructor
    · intro here
      obtain ⟨old, kept, rfl⟩ := here
      split
      · exact .inl rfl
      · rename_i away
        exact .inr ⟨away, kept⟩
    · intro here
      rcases here with rfl | ⟨away, kept⟩
      · exact ⟨found, listed, if_pos (of_decide_eq_true named)⟩
      · exact ⟨item, kept, if_neg away⟩
  · rename_i absent
    rw [List.mem_append, List.mem_singleton]
    constructor
    · intro here
      rcases here with kept | rfl
      · refine .inr ⟨?_, kept⟩
        intro same
        exact absent (List.any_eq_true.mpr ⟨item, kept, decide_eq_true same⟩)
      · exact .inl rfl
    · intro here
      rcases here with rfl | ⟨_, kept⟩
      · exact .inr rfl
      · exact .inl kept

/-- The mapping after these assignments. -/
def assignAll (pairs mapping : List (PyStr × PyData)) : List (PyStr × PyData) :=
  pairs.foldl (fun mapping item => assign mapping item.1 item.2) mapping

theorem mem_assignAll {pairs mapping : List (PyStr × PyData)} {key : PyStr} {value : PyData} :
    (key, value) ∈ assignAll pairs mapping ↔ LastOf pairs key value ∨
      ((key, value) ∈ mapping ∧ ∀ pair ∈ pairs, pair.1 ≠ key) := by
  induction pairs generalizing mapping with
  | nil =>
    constructor
    · intro here
      exact .inr ⟨here, fun _ none => absurd none List.not_mem_nil⟩
    · intro here
      rcases here with last | kept
      · cases last
      · exact kept.1
  | cons first rest ih =>
    change (key, value) ∈ assignAll rest (assign mapping first.1 first.2) ↔ _
    rw [ih, mem_assign]
    constructor
    · intro here
      rcases here with last | ⟨same | ⟨away, kept⟩, others⟩
      · exact .inl (.later last)
      · cases same
        exact .inl (.here others)
      · refine .inr ⟨kept, ?_⟩
        intro pair listed
        rcases List.mem_cons.mp listed with rfl | listed
        · exact fun same => away same.symm
        · exact others pair listed
    · intro here
      rcases here with last | ⟨kept, others⟩
      · cases last with
        | here others => exact .inr ⟨.inl rfl, others⟩
        | later last => exact .inl last
      · exact .inr ⟨.inr ⟨fun same => others first (by simp) same.symm, kept⟩,
          fun pair listed => others pair (List.mem_cons_of_mem _ listed)⟩

end Assignments

section Walk

variable (R : Runtime)

/-- The walk with so many levels left comes to this mapping key and writes it. -/
inductive ReachesKey : Nat → PyData → PyStr → Prop
  | key {levels : Nat} {items : List (PyStr × PyData)} {item : PyStr × PyData}
      (here : item ∈ items.take 2000) : ReachesKey (levels + 1) (.dict items) item.1
  /-- Below a key that is not sensitive and is not assigned again. -/
  | value {levels : Nat} {items : List (PyStr × PyData)} {key t : PyStr} {item : PyData}
      (last : LastOf (items.take 2000) key item)
      (whole : 2000 < items.length → key ≠ lit "items_truncated")
      (plain : sensitiveKeys.contains (normalizedKey R key) = false)
      (inside : ReachesKey levels item t) : ReachesKey (levels + 1) (.dict items) t
  | element {levels : Nat} {items : List PyData} {item : PyData} {t : PyStr}
      (here : item ∈ items.take 2000) (inside : ReachesKey levels item t) :
      ReachesKey (levels + 1) (.list items) t
  | member {levels : Nat} {items : List PyData} {item : PyData} {t : PyStr}
      (here : item ∈ items.take 2000) (inside : ReachesKey levels item t) :
      ReachesKey (levels + 1) (.tuple items) t

end Walk

section Sanitize

variable {R : Runtime} {settings : SanitizerSettings} {levels : Nat} {key t : PyStr}
  {value out : PyData}

/-- What becomes of one item of a mapping. -/
def SanitizedItem (R : Runtime) (settings : SanitizerSettings) (levels : Nat)
    (item result : PyStr × PyData) : Prop :=
  item.1 = result.1 ∧
    if sensitiveKeys.contains (normalizedKey R item.1) = true then
      result.2 = .str (lit "<redacted:sensitive_config>")
    else sanitize R settings levels (normalizedKey R item.1) item.2 = some result.2

theorem sanitizedItem_of {item result : PyStr × PyData}
    (made : (if sensitiveKeys.contains (normalizedKey R item.1) = true then
        some (item.1, PyData.str (lit "<redacted:sensitive_config>"))
      else (sanitize R settings levels (normalizedKey R item.1) item.2).map
        fun value => (item.1, value)) = some result) : SanitizedItem R settings levels item result := by
  unfold SanitizedItem
  split at made
  · rename_i sensitive
    cases made
    rw [if_pos sensitive]
    exact ⟨rfl, rfl⟩
  · rename_i plain
    obtain ⟨inner, sanitized, rfl⟩ := Option.map_eq_some_iff.mp made
    rw [if_neg plain]
    exact ⟨rfl, sanitized⟩

/-- The mapping that becomes of sanitized items, with the note that there were more. -/
def sanitizedMapping (more : Bool) (sanitized : List (PyStr × PyData)) : List (PyStr × PyData) :=
  if more then assign (assignAll sanitized []) (lit "items_truncated") (.bool true)
  else assignAll sanitized []

theorem mem_sanitizedMapping {more : Bool} {sanitized : List (PyStr × PyData)} :
    (key, value) ∈ sanitizedMapping more sanitized ↔
      (more = true ∧ key = lit "items_truncated" ∧ value = .bool true) ∨
        (LastOf sanitized key value ∧ (more = true → key ≠ lit "items_truncated")) := by
  have plain : (key, value) ∈ assignAll sanitized [] ↔ LastOf sanitized key value := by
    rw [mem_assignAll]
    simp
  cases more with
  | false => simp [sanitizedMapping, plain]
  | true =>
    simp only [sanitizedMapping, if_true, mem_assign, plain, Prod.mk.injEq, true_and, true_implies]
    rw [and_comm (b := LastOf sanitized key value)]

theorem sanitize_dict {items : List (PyStr × PyData)}
    (returned : sanitize R settings (levels + 1) key (.dict items) = some out) :
    ∃ sanitized, List.Forall₂ (SanitizedItem R settings levels) (items.take 2000) sanitized ∧
      out = .dict (sanitizedMapping (2000 < items.length) sanitized) := by
  rw [sanitize] at returned
  obtain ⟨sanitized, each, returned⟩ := Option.bind_eq_some_iff.mp returned
  refine ⟨sanitized, (mapM_some each).imp ?_, ?_⟩
  · exact fun _ _ made => sanitizedItem_of made
  · rw [← Option.some.inj returned, sanitizedMapping]
    simp only [decide_eq_true_eq]
    rfl

theorem sanitize_elements {items : List PyData}
    (returned : ((items.take 2000).mapM (sanitize R settings levels key) >>= fun sanitized =>
      some (PyData.list sanitized)) = some out) :
    ∃ sanitized, List.Forall₂ (fun item result => sanitize R settings levels key item = some result)
      (items.take 2000) sanitized ∧ out = .list sanitized := by
  obtain ⟨sanitized, each, returned⟩ := Option.bind_eq_some_iff.mp returned
  exact ⟨sanitized, mapM_some each, (Option.some.inj returned).symm⟩

end Sanitize

end RepoForge.Egress
