import RepoForge.Library.Realpath

/-!
# Paths that a repository policy allows

`normalize_relative_path`, `assert_path_allowed` and `resolve_workspace_path` of `domain/policy.py`.
-/
namespace RepoForge.PathPolicy

open PurePath Realpath
open PyStr (lit)

inductive PolicyError where
  | empty
  | notNormalized
  | outsideAllowed
  | denied
  /-- The `ValueError` of `PurePosixPath.match`. -/
  | emptyPattern
  | missingRoot
  | symlinkLoop
  | escapes
  deriving DecidableEq

structure RepositoryConfig where
  allowedPaths : List PyStr
  deniedPaths : List PyStr

def normalizeRelativePath (value : PyStr) : Except PolicyError PyStr :=
  if value = [] ∨ value.any (fun c => decide (c.value < 32)) then .error .empty
  else
    let candidate := PyStr.replaceChar '\\' '/' value
    if isAbsolute candidate ∨ (parts candidate).any (fun part =>
        decide (part = [] ∨ part = dot ∨ part = dots)) then .error .notNormalized
    else .ok (asPosix (parts candidate))

/-- `any`, which stops at the first that holds. -/
def anyOf {α : Type} (test : α → Except PolicyError Bool) : List α → Except PolicyError Bool
  | [] => return false
  | item :: rest => do if ← test item then return true else anyOf test rest

/-- One of the patterns of `_matches`. -/
def matchesOne (path pattern : PyStr) : Except PolicyError Bool :=
  if Fnmatch.fnmatchcase path pattern then .ok true
  else
    match PurePath.match path pattern with
    | none => .error .emptyPattern
    | some found => .ok found

/-- `_matches` -/
def «matches» (path pattern : PyStr) : Except PolicyError Bool :=
  let replaced := PyStr.replaceChar '\\' '/' pattern
  let normalized := if (lit "./").isPrefixOf replaced then replaced.drop 2 else replaced
  let patterns := normalized :: if (lit "**/").isPrefixOf normalized then [normalized.drop 3] else []
  anyOf (matchesOne path) patterns

/-- No allowed paths allow every path. -/
def insideAllowed (normalized : PyStr) (repo : RepositoryConfig) : Except PolicyError Bool :=
  if repo.allowedPaths = [] then .ok true
  else anyOf («matches» normalized) repo.allowedPaths

def assertPathAllowed (path : PyStr) (repo : RepositoryConfig) : Except PolicyError PyStr := do
  let normalized ← normalizeRelativePath path
  if !(← insideAllowed normalized repo) then throw .outsideAllowed
  else if ← anyOf («matches» normalized) repo.deniedPaths then throw .denied
  else return normalized

def pathFailure : Failure → PolicyError
  | .loop => .symlinkLoop
  | .missing => .missingRoot

def resolveWorkspacePath (disk : Disk) (fuel : Nat) (workspaceRoot : List PyStr)
    (relativePath : PyStr) (repo : RepositoryConfig) : Except PolicyError (List PyStr) := do
  let normalized ← assertPathAllowed relativePath repo
  let root ← (walk disk true fuel [] workspaceRoot).mapError pathFailure
  let candidate ← (walk disk false fuel [] (root ++ parts normalized)).mapError pathFailure
  if root.isPrefixOf candidate then return candidate else throw .escapes

/-! ### Normal forms -/

section NormalForms

variable {names : List PyStr} {path path' normalized : PyStr} {repo : RepositoryConfig}

/-- What a normal form is made of. -/
structure NormalForm (normalized : PyStr) (names : List PyStr) : Prop where
  form : normalized = asPosix names
  isPart : ∀ name ∈ names, IsPart name
  noDots : ∀ name ∈ names, name ≠ dots
  plain : ∀ c ∈ normalized, c ≠ .scalar '\\' ∧ ¬ c.value < 32

theorem normalForm (ok : normalizeRelativePath path = .ok normalized) :
    ∃ names, NormalForm normalized names := by
  unfold normalizeRelativePath at ok
  split at ok
  · cases ok
  rename_i printable
  dsimp only at ok
  split at ok
  · cases ok
  rename_i relative
  cases ok
  rw [not_or] at relative printable
  have proper : ∀ name ∈ parts (PyStr.replaceChar '\\' '/' path), name ≠ dots := by
    intro name inside same
    apply relative.2
    rw [List.any_eq_true]
    exact ⟨name, inside, by rw [same]; decide⟩
  refine ⟨parts (PyStr.replaceChar '\\' '/' path), rfl, fun name => isPart_parts, proper, ?_⟩
  intro c inside
  rcases mem_asPosix inside with rfl | rfl | ⟨name, there, inside⟩
  · exact ⟨by decide, by decide⟩
  · exact ⟨by decide, by decide⟩
  · have there := mem_of_mem_splitOn (List.mem_of_mem_filter there) inside
    unfold PyStr.replaceChar at there
    obtain ⟨d, here, rfl⟩ := List.mem_map.mp there
    split
    · exact ⟨by decide, by decide⟩
    · rename_i other
      refine ⟨other, fun control => printable.2 ?_⟩
      rw [List.any_eq_true]
      exact ⟨d, here, decide_eq_true control⟩

theorem replaceChar_self {text : PyStr} (free : ∀ c ∈ text, c ≠ .scalar '\\') :
    PyStr.replaceChar '\\' '/' text = text := by
  unfold PyStr.replaceChar
  calc text.map (fun c => if c = .scalar '\\' then .scalar '/' else c)
      = text.map id := List.map_congr_left fun c inside => if_neg (free c inside)
    _ = text := List.map_id text

/-- A normal form is its own. -/
theorem NormalForm.normalize (h : NormalForm normalized names) :
    normalizeRelativePath normalized = .ok normalized := by
  have same : PyStr.replaceChar '\\' '/' normalized = normalized :=
    replaceChar_self fun c inside => (h.plain c inside).1
  have names_of : parts normalized = names := by rw [h.form, parts_asPosix h.isPart]
  unfold normalizeRelativePath
  rw [if_neg, same]
  · dsimp only
    rw [names_of, if_neg, ← h.form]
    rintro (absolute | improper)
    · rw [h.form, isAbsolute_asPosix h.isPart] at absolute
      cases absolute
    · obtain ⟨name, inside, bad⟩ := List.any_eq_true.mp improper
      rcases of_decide_eq_true bad with empty | same | same
      · exact (h.isPart name inside).1 empty
      · exact (h.isPart name inside).2.1 same
      · exact h.noDots name inside same
  · rintro (empty | control)
    · rw [h.form] at empty
      exact asPosix_ne_nil h.isPart empty
    · obtain ⟨c, inside, control⟩ := List.any_eq_true.mp control
      exact (h.plain c inside).2 (of_decide_eq_true control)

/-- The policy sees only the normal form. -/
theorem assert_congr (same : normalizeRelativePath path = normalizeRelativePath path') :
    assertPathAllowed path repo = assertPathAllowed path' repo := by
  unfold assertPathAllowed
  rw [same]

theorem assert_ok (ok : assertPathAllowed path repo = .ok normalized) :
    normalizeRelativePath path = .ok normalized := by
  unfold assertPathAllowed at ok
  obtain ⟨n, normal, ok⟩ := bind_ok ok
  obtain ⟨inside, -, ok⟩ := bind_ok ok
  split at ok
  · cases ok
  · obtain ⟨denied, -, ok⟩ := bind_ok ok
    split at ok
    · cases ok
    · cases ok
      exact normal

end NormalForms

end RepoForge.PathPolicy
