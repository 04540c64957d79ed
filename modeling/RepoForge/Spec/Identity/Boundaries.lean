import RepoForge.Source.Identity.IdentityResolution

/-!
# Owner boundaries

A pattern that matches a canonical name has the owner boundary of the name: wildcards stay in one
owner, and lower case neither makes nor removes a slash.
-/
namespace RepoForge.Identity

open PyText

variable {name other pattern boundary host owner repository : Text}

theorem toLower_slash {c : Char} : c.toLower = '/' ↔ c = '/' := by
  constructor
  · intro same
    unfold Char.toLower at same
    split at same
    · rename_i upper
      have value : (c.val + ('a'.val - 'A'.val)).toNat = ('/' : Char).val.toNat := by
        rw [← congrArg (fun c : Char => c.val.toNat) same]
      simp only [UInt32.le_iff_toNat_le, ge_iff_le] at upper
      have low : ('A' : Char).val.toNat = 65 := rfl
      have high : ('Z' : Char).val.toNat = 90 := rfl
      have shift : (('a' : Char).val - ('A' : Char).val).toNat = 32 := rfl
      have slash : ('/' : Char).val.toNat = 47 := rfl
      rw [UInt32.toNat_add, shift, slash] at value
      omega
    · exact same
  · rintro rfl
    rfl

theorem lower_append {t u : Text} : lower (t ++ u) = lower t ++ lower u := List.map_append

theorem lower_cons {c : Char} {t : Text} : lower (c :: t) = c.toLower :: lower t := rfl

/-- Lower case goes part by part. -/
theorem splitOn_lower (t : Text) : (lower t).splitOn '/' = (t.splitOn '/').map lower := by
  induction t with
  | nil => rfl
  | cons c rest ih =>
    rw [lower_cons, List.splitOn_cons_eq_if_modifyHead, List.splitOn_cons_eq_if_modifyHead, ih]
    by_cases slash : c = '/'
    · have both : (c.toLower == '/') = true := by simpa using toLower_slash.mpr slash
      rw [if_pos both, if_pos (by simpa using slash), List.map_cons]
      rfl
    · have neither : ¬ (c.toLower == '/') = true := by
        simpa using fun same => slash (toLower_slash.mp same)
      rw [if_neg neither, if_neg (by simpa using slash)]
      cases rest.splitOn '/' <;> rfl

theorem toLower_host {c : Char} (inside : (hostEdge c || ['.', '-'].contains c) = true) :
    c.toLower = c := by
  unfold Char.toLower
  rw [dif_neg]
  rintro ⟨low, high⟩
  simp only [UInt32.le_iff_toNat_le, ge_iff_le] at low high
  have first : ('A' : Char).val.toNat = 65 := rfl
  have last : ('Z' : Char).val.toNat = 90 := rfl
  rw [first] at low
  rw [last] at high
  unfold hostEdge at inside
  delta Char.isLower at inside
  simp only [Bool.or_eq_true, Char.isDigit, Bool.and_eq_true,
    decide_eq_true_eq, ge_iff_le, UInt32.le_iff_toNat_le, List.contains_eq_mem, List.mem_cons,
    List.not_mem_nil, or_false] at inside
  rcases inside with (lower | digit) | dot | dash
  · have bound : 97 ≤ c.val.toNat := lower.1
    omega
  · have bound : c.val.toNat ≤ 57 := digit.2
    omega
  · rw [dot] at low
    exact absurd low (by decide)
  · rw [dash] at low
    exact absurd low (by decide)

theorem lower_host (valid : isHost host = true) : lower host = host := by
  unfold isHost at valid
  simp only [Bool.and_eq_true, List.all_eq_true] at valid
  unfold lower
  rw [List.map_congr_left fun c inside => toLower_host (valid.2 c inside)]
  exact List.map_id host

theorem canonicalParts_ok (parts : canonicalParts name = .ok (host, owner, repository)) :
    name.length ≤ 304 ∧ name.splitOn '/' = [host, owner, repository] ∧ isHost host = true ∧
      isNamePart owner = true ∧ isNamePart repository = true := by
  unfold canonicalParts at parts
  split at parts
  · cases parts
  · rename_i short
    split at parts
    · rename_i split
      split at parts
      · rename_i valid
        cases parts
        simp only [Bool.and_eq_true] at valid
        exact ⟨not_lt.mp short, split, valid.1.1, valid.1.2, valid.2⟩
      · cases parts
    · cases parts

theorem ownerBoundary_of (parts : canonicalParts name = .ok (host, owner, repository)) :
    ownerBoundary name = .ok (lower (host ++ '/' :: owner)) := by
  rw [ownerBoundary, parts]
  rfl

/-- A boundary comes from parts. -/
theorem ownerBoundary_ok (ok : ownerBoundary name = .ok boundary) :
    ∃ host owner repository, canonicalParts name = .ok (host, owner, repository) ∧
      boundary = lower (host ++ '/' :: owner) := by
  unfold ownerBoundary at ok
  cases parts : canonicalParts name with
  | error e =>
    rw [parts] at ok
    cases ok
  | ok parts' =>
    rw [parts] at ok
    cases ok
    exact ⟨parts'.1, parts'.2.1, parts'.2.2, rfl, rfl⟩

/-- Two names that differ in case have one boundary. -/
theorem ownerBoundary_lower (ok : ownerBoundary other = .ok boundary)
    (parts : canonicalParts name = .ok (host, owner, repository))
    (same : lower name = lower other) : ownerBoundary name = .ok boundary := by
  obtain ⟨host', owner', repository', parts', rfl⟩ := ownerBoundary_ok ok
  obtain ⟨-, split, -⟩ := canonicalParts_ok parts
  obtain ⟨-, split', -⟩ := canonicalParts_ok parts'
  have lists := splitOn_lower name
  rw [same, splitOn_lower, split, split'] at lists
  simp only [List.map_cons, List.map_nil, List.cons.injEq] at lists
  rw [ownerBoundary_of parts, lower_append, lower_append, lower_cons, lower_cons, lists.1,
    lists.2.1]

theorem patternBoundary_wildcard (ok : patternBoundary pattern = .ok boundary)
    (wild : endsWith pattern wildcard = true) :
    ∃ stem host owner, pattern = stem ++ wildcard ∧ stem.splitOn '/' = [host, owner] ∧
      boundary = lower stem := by
  obtain ⟨stem, rfl⟩ := List.isSuffixOf_iff_suffix.mp wild
  rw [patternBoundary, if_pos wild] at ok
  split at ok
  · cases ok
  · have cut : (stem ++ wildcard).take ((stem ++ wildcard).length - 2) = stem := by
      simp [wildcard]
    rw [cut] at ok
    dsimp only at ok
    split at ok
    · rename_i host owner split
      split at ok
      · cases ok
        exact ⟨stem, host, owner, rfl, split, rfl⟩
      · cases ok
    · cases ok

theorem patternBoundary_exact (ok : patternBoundary pattern = .ok boundary)
    (exact_ : ¬ endsWith pattern wildcard = true) : ownerBoundary pattern = .ok boundary := by
  rw [patternBoundary, if_neg exact_] at ok
  split at ok
  · cases ok
  · split at ok
    · cases ok
    · exact ok

/-- What a pattern matches lies in its boundary. -/
theorem patternMatches_boundary (ok : patternBoundary pattern = .ok boundary)
    (parts : canonicalParts name = .ok (host, owner, repository))
    (fits : patternMatches pattern name = true) : ownerBoundary name = .ok boundary := by
  unfold patternMatches at fits
  split at fits
  · rename_i wild
    obtain ⟨stem, host', owner', rfl, split, rfl⟩ := patternBoundary_wildcard ok wild
    have cut : (stem ++ wildcard).take ((stem ++ wildcard).length - 1) = stem ++ ['/'] := by
      have length : (stem ++ wildcard).length - 1 = stem.length + 1 := by simp [wildcard]
      rw [length, List.take_length_add_append]
      rfl
    rw [cut] at fits
    obtain ⟨rest, starts⟩ := List.isPrefixOf_iff_prefix.mp fits
    have lists := splitOn_lower name
    have slash : lower ['/'] = ['/'] := rfl
    rw [← starts, lower_append, slash, List.append_assoc, List.singleton_append,
      List.splitOn_append_cons_self, splitOn_lower, split,
      (canonicalParts_ok parts).2.1] at lists
    simp only [List.map_cons, List.map_nil, List.cons_append, List.nil_append,
      List.cons.injEq] at lists
    have whole : stem = host' ++ '/' :: owner' := by
      have joined := @List.intercalate_splitOn _ stem _ _ '/'
      rw [split] at joined
      rw [← joined]
      simp [List.intercalate, List.intersperse]
    rw [ownerBoundary_of parts, whole, lower_append, lower_append, lower_cons, lower_cons, lists.1,
      lists.2.1]
  · rename_i exact_
    exact ownerBoundary_lower (patternBoundary_exact ok exact_) parts (of_decide_eq_true fits)

/-- A binding with the observed name has the observed host. -/
theorem host_of_lower {b : RepositoryIdentityBinding} {o : RepositoryIdentityObservation}
    (same : lower b.canonicalName = lower o.canonicalName) : b.providerHost = o.providerHost := by
  obtain ⟨owner, repository, parts⟩ := o.named
  obtain ⟨owner', repository', split, -⟩ := b.named
  have lists := splitOn_lower b.canonicalName
  rw [same, splitOn_lower, split, (canonicalParts_ok parts).2.1] at lists
  simp only [List.map_cons, List.map_nil, List.cons.injEq] at lists
  rw [← lower_host b.host, ← lists.1, lower_host o.host]

end RepoForge.Identity
