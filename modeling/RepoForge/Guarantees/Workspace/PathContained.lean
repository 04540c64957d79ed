import RepoForge.Source.Workspace.PathPolicy

/-!
# Workspace paths and denied content

The policy is matched on the text of a path, and the links of the path are followed afterwards. So
what it denies is out of reach of every path that leads where it says, and only of these.
-/
namespace RepoForge.PathPolicy

open PurePath Realpath PyText
open PyStr (lit)

variable {disk : Disk} {workspaceRoot names names' : List PyStr} {path path' normalized : PyStr}
  {repo : RepositoryConfig}

/-! ### A policy that tells two paths apart -/

/-- A pattern for a text does not begin with a code point that is bracketed. -/
theorem escape_first {c : CodePoint} (bracketed : c = .scalar '.' ∨ c = .scalar '*')
    (text rest : PyStr) : Fnmatch.escape text ≠ c :: rest := by
  intro same
  cases text with
  | nil => cases same
  | cons d text =>
    unfold Fnmatch.escape at same
    rw [List.flatMap_cons] at same
    split at same
    · have first : .scalar '[' = c := (List.cons.inj same).1
      rw [← first] at bracketed
      rcases bracketed with other | other <;> cases other
    · rename_i plain
      have first : d = c := (List.cons.inj same).1
      rw [first] at plain
      rcases bracketed with rfl | rfl <;> exact plain (by decide)

theorem matches_escape (h : NormalForm normalized names) {other : PyStr}
    (h' : NormalForm other names') :
    PathPolicy.matches other (Fnmatch.escape normalized) =
      .ok (decide (other = normalized ∨ names ≠ [] ∧ names <:+ names')) := by
  have same : PyStr.replaceChar '\\' '/' (Fnmatch.escape normalized) =
      Fnmatch.escape normalized := by
    refine replaceChar_self fun c inside => ?_
    rcases mem_escape inside with inside | rfl | rfl
    · exact (h.plain c inside).1
    · decide
    · decide
  have noDot : ¬ (lit "./").isPrefixOf (Fnmatch.escape normalized) = true := by
    intro start
    obtain ⟨rest, start⟩ := List.isPrefixOf_iff_prefix.mp start
    exact escape_first (.inl rfl) normalized _ start.symm
  have noStar : ¬ (lit "**/").isPrefixOf (Fnmatch.escape normalized) = true := by
    intro start
    obtain ⟨rest, start⟩ := List.isPrefixOf_iff_prefix.mp start
    exact escape_first (.inr rfl) normalized _ start.symm
  have one : matchesOne other (Fnmatch.escape normalized) =
      .ok (decide (other = normalized ∨ names ≠ [] ∧ names <:+ names')) := by
    unfold matchesOne
    by_cases equal : other = normalized
    · rw [if_pos (Fnmatch.fnmatchcase_escape.mpr equal)]
      simp [equal]
    · rw [if_neg (fun found => equal (Fnmatch.fnmatchcase_escape.mp found))]
      have found : PurePath.match other (Fnmatch.escape normalized) =
          some (decide (names ≠ [] ∧ names <:+ names')) := by
        rw [h.form, h'.form]
        exact match_escape h.isPart h'.isPart
      rw [found]
      simp [equal]
  unfold PathPolicy.matches
  dsimp only
  rw [same, if_neg noDot, if_neg noStar, anyOf, one, ok_bind]
  cases decide (other = normalized ∨ names ≠ [] ∧ names <:+ names') <;> rfl

theorem anyOf_one {α : Type} {test : α → Except PolicyError Bool} {item : α} {b : Bool}
    (tested : test item = .ok b) : anyOf test [item] = .ok b := by
  rw [anyOf, tested, ok_bind]
  cases b <;> rfl

theorem assert_eval {a d : Bool} (normal : normalizeRelativePath path = .ok normalized)
    (inside : insideAllowed normalized repo = .ok a)
    (denies : anyOf («matches» normalized) repo.deniedPaths = .ok d) :
    assertPathAllowed path repo =
      if a then (if d then .error .denied else .ok normalized) else .error .outsideAllowed := by
  unfold assertPathAllowed
  rw [normal, ok_bind, inside, ok_bind, denies]
  cases a <;> cases d <;> rfl

/-- For two normal forms there is a policy that allows one and not the other. -/
theorem policy_separates (h : NormalForm normalized names) {other : PyStr}
    (h' : NormalForm other names') (apart : normalized ≠ other) :
    ∃ repo, assertPathAllowed normalized repo = .ok normalized ∧
      ∀ n, assertPathAllowed other repo ≠ .ok n := by
  have self : PathPolicy.matches normalized (Fnmatch.escape normalized) = .ok true := by
    rw [matches_escape h h]
    simp
  have self' : PathPolicy.matches other (Fnmatch.escape other) = .ok true := by
    rw [matches_escape h' h']
    simp
  by_cases suffix : names' ≠ [] ∧ names' <:+ names
  · -- Denying the shorter path would deny the longer one too, so the longer one alone is allowed.
    have shorter : ¬ (other = normalized ∨ names ≠ [] ∧ names <:+ names') := by
      rintro (same | ⟨-, longer⟩)
      · exact apart same.symm
      · apply apart
        rw [h.form, h'.form, longer.eq_of_length_le suffix.2.length_le]
    have refused : PathPolicy.matches other (Fnmatch.escape normalized) = .ok false := by
      rw [matches_escape h h', decide_eq_false shorter]
    refine ⟨⟨[Fnmatch.escape normalized], []⟩, assert_eval (a := true) (d := false) h.normalize
      (anyOf_one self) rfl, fun n ok => ?_⟩
    have outside : insideAllowed other ⟨[Fnmatch.escape normalized], []⟩ = .ok false :=
      anyOf_one refused
    rw [assert_eval (a := false) (d := false) h'.normalize outside rfl] at ok
    cases ok
  · have missed : ¬ (normalized = other ∨ names' ≠ [] ∧ names' <:+ names) :=
      not_or.mpr ⟨apart, suffix⟩
    have passed : PathPolicy.matches normalized (Fnmatch.escape other) = .ok false := by
      rw [matches_escape h' h, decide_eq_false missed]
    refine ⟨⟨[], [Fnmatch.escape other]⟩, assert_eval (a := true) (d := false) h.normalize rfl
      (anyOf_one passed), fun n ok => ?_⟩
    rw [assert_eval (a := true) (d := true) h'.normalize rfl (anyOf_one self')] at ok
    cases ok

/-! ### Where the links lead -/

/-- What is returned lies under the root, and the policy allows it by the name it has there. -/
def Contained (disk : Disk) (workspaceRoot : List PyStr) (path : PyStr) (repo : RepositoryConfig) :
    Prop :=
  ∀ fuel root candidate, walk disk true fuel [] workspaceRoot = .ok root →
    resolveWorkspacePath disk fuel workspaceRoot path repo = .ok candidate →
    ∃ place normalized, candidate = root ++ place ∧
      assertPathAllowed (asPosix place) repo = .ok normalized

/-- Wherever the names of the path lead in the workspace, it has the normal form of the path. -/
def LeadsWhereItSays (disk : Disk) (workspaceRoot : List PyStr) (path : PyStr) : Prop :=
  ∀ normalized fuel root place, normalizeRelativePath path = .ok normalized →
    walk disk true fuel [] workspaceRoot = .ok root →
    Leads disk root (parts normalized) (root ++ place) →
    normalizeRelativePath (asPosix place) = .ok normalized

theorem resolve_ok {fuel : Nat} {candidate : List PyStr}
    (ok : resolveWorkspacePath disk fuel workspaceRoot path repo = .ok candidate) :
    ∃ normalized root place, assertPathAllowed path repo = .ok normalized ∧
      walk disk true fuel [] workspaceRoot = .ok root ∧ candidate = root ++ place ∧
      Leads disk root (parts normalized) (root ++ place) := by
  unfold resolveWorkspacePath at ok
  obtain ⟨normalized, allowed, ok⟩ := bind_ok ok
  obtain ⟨root, rooted, ok⟩ := bind_ok ok
  obtain ⟨reached, walked, ok⟩ := bind_ok ok
  have rooted : walk disk true fuel [] workspaceRoot = .ok root := by
    cases here : walk disk true fuel [] workspaceRoot with
    | error e =>
      rw [here] at rooted
      cases rooted
    | ok root' =>
      rw [here] at rooted
      cases rooted
      rfl
  have walked : walk disk false fuel [] (root ++ parts normalized) = .ok reached := by
    cases here : walk disk false fuel [] (root ++ parts normalized) with
    | error e =>
      rw [here] at walked
      cases walked
    | ok reached' =>
      rw [here] at walked
      cases walked
      rfl
  split at ok
  · rename_i under
    cases ok
    obtain ⟨place, rfl⟩ := List.isPrefixOf_iff_prefix.mp under
    refine ⟨normalized, root, place, allowed, rooted, rfl, ?_⟩
    have settled : Settled disk root := (leads_of_walk rooted).settled settled_nil
    exact (@leads_through _ [] _ _ _ settled).mp (leads_of_walk walked)
  · cases ok

/-- With enough steps the path is followed to its end. -/
theorem resolve_leads {fuel : Nat} {root place : List PyStr}
    (allowed : assertPathAllowed path repo = .ok normalized)
    (rooted : walk disk true fuel [] workspaceRoot = .ok root)
    (leads : Leads disk root (parts normalized) (root ++ place)) :
    ∃ fuel', walk disk true fuel' [] workspaceRoot = .ok root ∧
      resolveWorkspacePath disk fuel' workspaceRoot path repo = .ok (root ++ place) := by
  have settled : Settled disk root := (leads_of_walk rooted).settled settled_nil
  obtain ⟨n, walked⟩ := walk_of_leads ((@leads_through _ [] _ _ _ settled).mpr leads)
  have rooted' := walk_mono rooted (le_max_left fuel n)
  have walked' := walk_mono walked (le_max_right fuel n)
  refine ⟨max fuel n, rooted', ?_⟩
  unfold resolveWorkspacePath
  rw [allowed, ok_bind, rooted']
  change ((walk disk false (max fuel n) [] (root ++ parts normalized)).mapError pathFailure >>= _) =
    _
  rw [walked']
  change (if root.isPrefixOf (root ++ place) then _ else _) = _
  rw [if_pos (List.isPrefixOf_iff_prefix.mpr (List.prefix_append root place))]
  rfl

/-- No policy is evaded through a path if and only if the path leads where it says. -/
theorem contained_iff :
    (∀ repo, Contained disk workspaceRoot path repo) ↔ LeadsWhereItSays disk workspaceRoot path := by
  constructor
  · intro contained normalized fuel root place normal rooted leads
    obtain ⟨names, form⟩ := normalForm normal
    by_contra apart
    obtain ⟨repo, allowed, refused⟩ : ∃ repo, assertPathAllowed normalized repo = .ok normalized ∧
        ∀ n, assertPathAllowed (asPosix place) repo ≠ .ok n := by
      cases other : normalizeRelativePath (asPosix place) with
      | error e =>
        refine ⟨⟨[], []⟩, assert_eval (a := true) (d := false) form.normalize rfl rfl, ?_⟩
        intro n ok
        rw [assert_ok ok] at other
        cases other
      | ok normalized' =>
        obtain ⟨names', form'⟩ := normalForm other
        obtain ⟨repo, allowed, refused⟩ := policy_separates form form' fun same =>
          apart (by rw [other, same])
        refine ⟨repo, allowed, fun n ok => refused n ?_⟩
        rwa [assert_congr (form'.normalize.trans other.symm)]
    obtain ⟨fuel', rooted', resolved⟩ := resolve_leads
      ((assert_congr (normal.trans form.normalize.symm)).trans allowed) rooted leads
    obtain ⟨place', n, same, ok⟩ := contained repo fuel' root _ rooted' resolved
    cases List.append_cancel_left same
    exact refused n ok
  · intro honest repo fuel root candidate rooted resolved
    obtain ⟨normalized, root', place, allowed, rooted', rfl, leads⟩ := resolve_ok resolved
    rw [rooted] at rooted'
    cases rooted'
    have normal := assert_ok allowed
    refine ⟨place, normalized, rfl, ?_⟩
    rw [assert_congr ((honest normalized fuel root place normal rooted leads).trans normal.symm)]
    exact allowed

/-! A workspace `/w` in which `ok` is a link to `.env`. -/

def linkDisk : Disk := fun place =>
  if place = [lit "w", lit "ok"] then some (.link (lit ".env"))
  else if place = [lit "w"] ∨ place = [lit "w", lit ".env"] then some .other
  else none

/-- The policy denies `.env`, and `ok` leads to it. -/
theorem link_reaches_denied :
    ¬ Contained linkDisk [lit "w"] (lit "ok") ⟨[], [lit ".env"]⟩ ∧
      resolveWorkspacePath linkDisk 9 [lit "w"] (lit "ok") ⟨[], [lit ".env"]⟩ =
        .ok [lit "w", lit ".env"] := by
  have resolved : resolveWorkspacePath linkDisk 9 [lit "w"] (lit "ok") ⟨[], [lit ".env"]⟩ =
      .ok [lit "w", lit ".env"] := by decide
  refine ⟨fun contained => ?_, resolved⟩
  obtain ⟨place, n, same, ok⟩ := contained 9 [lit "w"] _ (by decide) resolved
  cases @List.append_cancel_left _ [lit "w"] _ _ same
  have denied : assertPathAllowed (asPosix [lit ".env"]) ⟨[], [lit ".env"]⟩ = .error .denied := by
    decide
  rw [denied] at ok
  cases ok

end RepoForge.PathPolicy
