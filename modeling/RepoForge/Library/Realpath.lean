import RepoForge.Library.PurePath

/-!
# Following symbolic links

`Leads` says where a path leads, name by name: a name that is a link is replaced by its target.
`walk` is `os.path.realpath`, which computes it; it gives up where the links go round in a circle.
-/
namespace RepoForge.Realpath

open PurePath

inductive Entry where
  | link (target : PyStr)
  /-- A file or a directory. -/
  | other
  deriving DecidableEq

/-- What stands at the absolute path with these parts. -/
abbrev Disk := List PyStr → Option Entry

inductive Failure where
  | loop
  | missing
  deriving DecidableEq

/-- `realpath` from the place that was reached; in strict mode every name must exist. -/
def walk (disk : Disk) (strict : Bool) : Nat → List PyStr → List PyStr →
    Except Failure (List PyStr)
  | 0, _, _ => .error .loop
  | _ + 1, path, [] => .ok path
  | n + 1, path, name :: rest =>
    if name = [] ∨ name = dot then walk disk strict n path rest
    else if name = dots then walk disk strict n path.dropLast rest
    else
      match disk (path ++ [name]) with
      | some (.link target) =>
        walk disk strict n (if isAbsolute target then [] else path)
          (target.splitOn slash ++ rest)
      | some .other => walk disk strict n (path ++ [name]) rest
      | none => if strict then .error .missing else walk disk strict n (path ++ [name]) rest

/-- From the place `path`, the names lead to this place. -/
inductive Leads (disk : Disk) : List PyStr → List PyStr → List PyStr → Prop where
  | done {path : List PyStr} : Leads disk path [] path
  | stay {path rest place : List PyStr} {name : PyStr} (same : name = [] ∨ name = dot)
      (later : Leads disk path rest place) : Leads disk path (name :: rest) place
  | up {path rest place : List PyStr} (later : Leads disk path.dropLast rest place) :
      Leads disk path (dots :: rest) place
  | follow {path rest place : List PyStr} {name target : PyStr}
      (proper : name ≠ [] ∧ name ≠ dot ∧ name ≠ dots)
      (link : disk (path ++ [name]) = some (.link target))
      (later : Leads disk (if isAbsolute target then [] else path)
        (target.splitOn slash ++ rest) place) : Leads disk path (name :: rest) place
  | enter {path rest place : List PyStr} {name : PyStr}
      (proper : name ≠ [] ∧ name ≠ dot ∧ name ≠ dots)
      (plain : ∀ target, disk (path ++ [name]) ≠ some (.link target))
      (later : Leads disk (path ++ [name]) rest place) : Leads disk path (name :: rest) place

variable {disk : Disk} {strict : Bool} {n : Nat} {path rest place : List PyStr}

theorem leads_of_walk (walked : walk disk strict n path rest = .ok place) :
    Leads disk path rest place := by
  induction n generalizing path rest with
  | zero => cases walked
  | succ n ih =>
    cases rest with
    | nil =>
      cases walked
      exact .done
    | cons name rest =>
      rw [walk] at walked
      split at walked
      · rename_i same
        exact .stay same (ih walked)
      · rename_i other
        split at walked
        · rename_i up
          subst up
          exact .up (ih walked)
        · rename_i down
          have proper : name ≠ [] ∧ name ≠ dot ∧ name ≠ dots :=
            ⟨fun h => other (.inl h), fun h => other (.inr h), down⟩
          split at walked
          · rename_i target link
            exact .follow proper link (ih walked)
          · rename_i plain
            exact .enter proper (fun target link => by rw [plain] at link; cases link) (ih walked)
          · rename_i missing
            split at walked
            · cases walked
            · exact .enter proper (fun target link => by rw [missing] at link; cases link)
                (ih walked)

theorem walk_of_leads (leads : Leads disk path rest place) :
    ∃ n, walk disk false n path rest = .ok place := by
  induction leads with
  | done => exact ⟨1, rfl⟩
  | stay same later ih =>
    obtain ⟨n, walked⟩ := ih
    exact ⟨n + 1, by rw [walk, if_pos same]; exact walked⟩
  | up later ih =>
    obtain ⟨n, walked⟩ := ih
    exact ⟨n + 1, by rw [walk, if_neg (by decide), if_pos rfl]; exact walked⟩
  | follow proper link later ih =>
    obtain ⟨n, walked⟩ := ih
    exact ⟨n + 1, by
      rw [walk, if_neg (not_or.mpr ⟨proper.1, proper.2.1⟩), if_neg proper.2.2, link]
      exact walked⟩
  | @enter path rest place name proper plain later ih =>
    obtain ⟨n, walked⟩ := ih
    refine ⟨n + 1, ?_⟩
    rw [walk, if_neg (not_or.mpr ⟨proper.1, proper.2.1⟩), if_neg proper.2.2]
    split
    · rename_i target link
      exact absurd link (plain target)
    · exact walked
    · exact walked

/-- More steps do not change where a walk ends. -/
theorem walk_mono {more : Nat} (walked : walk disk strict n path rest = .ok place)
    (le : n ≤ more) : walk disk strict more path rest = .ok place := by
  induction n generalizing more path rest with
  | zero => cases walked
  | succ n ih =>
    obtain ⟨m, rfl⟩ : ∃ m, more = m + 1 := ⟨more - 1, by omega⟩
    have le' : n ≤ m := by omega
    cases rest with
    | nil => exact walked
    | cons name rest =>
      rw [walk] at walked ⊢
      split_ifs at walked ⊢
      · exact ih walked le'
      · exact ih walked le'
      · split at walked
        · exact ih walked le'
        · exact ih walked le'
        · cases walked
      · split at walked
        · exact ih walked le'
        · exact ih walked le'
        · exact ih walked le'

/-- A place whose names are proper and not links. -/
def Settled (disk : Disk) (place : List PyStr) : Prop :=
  ∀ front name back, place = front ++ name :: back →
    (name ≠ [] ∧ name ≠ dot ∧ name ≠ dots) ∧
      ∀ target, disk (front ++ [name]) ≠ some (.link target)

theorem settled_nil : Settled disk [] := by
  intro front name back split
  simp at split

theorem Settled.dropLast (settled : Settled disk place) : Settled disk place.dropLast := by
  intro front name back split
  cases place using List.reverseRecOn with
  | nil => simp at split
  | append_singleton init last =>
    rw [List.dropLast_concat] at split
    exact settled front name (back ++ [last]) (by rw [split]; simp)

theorem Settled.snoc {name : PyStr} (settled : Settled disk place)
    (proper : name ≠ [] ∧ name ≠ dot ∧ name ≠ dots)
    (plain : ∀ target, disk (place ++ [name]) ≠ some (.link target)) :
    Settled disk (place ++ [name]) := by
  intro front other back split
  rcases List.append_eq_append_iff.mp split with ⟨middle, rfl, last⟩ | ⟨middle, rfl, last⟩
  · cases middle with
    | nil =>
      cases last
      rw [List.append_nil]
      exact ⟨proper, plain⟩
    | cons first middle => simp at last
  · cases middle with
    | nil =>
      cases last
      rw [List.append_nil] at plain
      exact ⟨proper, plain⟩
    | cons first middle =>
      cases last
      exact settled front other middle rfl

/-- Where a path leads there is no link on the way. -/
theorem Leads.settled (leads : Leads disk path rest place) (start : Settled disk path) :
    Settled disk place := by
  induction leads with
  | done => exact start
  | stay same later ih => exact ih start
  | up later ih => exact ih start.dropLast
  | @follow path rest place name target proper link later ih =>
    apply ih
    split
    · exact settled_nil
    · exact start
  | enter proper plain later ih => exact ih (start.snoc proper plain)

/-- A settled part of a path is passed as it is. -/
theorem leads_through {front : List PyStr} (settled : Settled disk (path ++ front)) :
    Leads disk path (front ++ rest) place ↔ Leads disk (path ++ front) rest place := by
  induction front generalizing path with
  | nil => simp
  | cons name front ih =>
    obtain ⟨proper, plain⟩ := settled path name front rfl
    have further : Settled disk (path ++ [name] ++ front) := by simpa using settled
    rw [show path ++ name :: front = path ++ [name] ++ front by simp, ← ih further]
    constructor
    · intro leads
      cases leads with
      | stay same _ => exact absurd same (not_or.mpr ⟨proper.1, proper.2.1⟩)
      | up _ => exact absurd rfl proper.2.2
      | follow _ link _ => exact absurd link (plain _)
      | enter _ _ later => exact later
    · exact .enter proper plain

end RepoForge.Realpath
