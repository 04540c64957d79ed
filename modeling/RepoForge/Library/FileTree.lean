import Mathlib.Data.List.AList
import RepoForge.Library.PyText

/-!
# File trees

A tree is a finite map from paths to files and directories, with the operations of a
POSIX file system on it and their errors. The root is the empty path; it is always a
directory and is never stored. A path below a file is absent, as it is to `stat`, but
an operation on it fails with `notADirectory` instead of `fileNotFound`.
-/
namespace RepoForge

/-- The components of a path, from the root down. -/
abbrev Path := List Text

structure File where
  data : Bytes
  mode : Nat
  deriving DecidableEq, Repr

inductive Node where
  | file (content : File)
  | dir
  deriving DecidableEq, Repr

inductive OsError where
  | fileNotFound | notADirectory | isADirectory | fileExists | directoryNotEmpty | invalidArgument
  deriving DecidableEq, Repr

/-- `q` lies strictly below `p`. -/
def Below (p q : Path) : Prop := p <+: q ∧ p ≠ q

instance (p q : Path) : Decidable (Below p q) := inferInstanceAs (Decidable (p <+: q ∧ p ≠ q))

structure Tree where
  nodes : AList (fun _ : Path => Node)

namespace Tree

def node (t : Tree) (p : Path) : Option Node :=
  if p = [] then some .dir else t.nodes.lookup p

def fileAt (t : Tree) (p : Path) : Option File :=
  match t.node p with
  | some (.file content) => some content
  | _ => none

def IsDir (t : Tree) (p : Path) : Prop := t.node p = some .dir

instance (t : Tree) (p : Path) : Decidable (t.IsDir p) :=
  inferInstanceAs (Decidable (t.node p = some .dir))

/-- `Path.exists`: something stands at `p`. -/
def present (t : Tree) (p : Path) : Bool := (t.node p).isSome

def put (t : Tree) (p : Path) (n : Node) : Tree :=
  if p = [] then t else ⟨t.nodes.insert p n⟩

def remove (t : Tree) (p : Path) : Tree := ⟨t.nodes.erase p⟩

/-- Nothing but the root. -/
def empty : Tree := ⟨∅⟩

/-- Two trees hold the same files and directories. -/
def Same (t u : Tree) : Prop := ∀ p, t.node p = u.node p

/-- Every file and directory stands in a directory. -/
def WellFormed (t : Tree) : Prop := ∀ p, t.node p ≠ none → t.IsDir p.dropLast

/-- Some directory on the way to `p` is a file. -/
def underFile (t : Tree) (p : Path) : Bool :=
  p.inits.any fun q => q ≠ p && (t.fileAt q).isSome

/-- The error of an operation that needs `p` and does not find it. -/
def absent (t : Tree) (p : Path) : OsError :=
  if t.underFile p then .notADirectory else .fileNotFound

def emptyDir (t : Tree) (p : Path) : Bool :=
  t.nodes.keys.all fun q => ¬ Below p q

def mkdir (t : Tree) (p : Path) : Except OsError Tree :=
  match t.node p with
  | some _ => .error .fileExists
  | none => if t.IsDir p.dropLast then .ok (t.put p .dir) else .error (t.absent p)

def rmdir (t : Tree) (p : Path) : Except OsError Tree :=
  match t.node p with
  | none => .error (t.absent p)
  | some (.file _) => .error .notADirectory
  | some .dir => if t.emptyDir p then .ok (t.remove p) else .error .directoryNotEmpty

def unlink (t : Tree) (p : Path) : Except OsError Tree :=
  match t.node p with
  | none => .error (t.absent p)
  | some (.file _) => .ok (t.remove p)
  | some .dir => .error .isADirectory

/-- Every path at or below `src` becomes the same path at or below `dst`. -/
def rebase (t : Tree) (src dst : Path) : Tree :=
  ⟨(t.nodes.entries.map fun e =>
    ⟨if src <+: e.1 then dst ++ e.1.drop src.length else e.1, e.2⟩).toAList⟩

/-- `os.replace` inside one tree. -/
def rename (t : Tree) (src dst : Path) : Except OsError Tree :=
  match t.node src with
  | none => .error (t.absent src)
  | some (.file content) =>
    if t.IsDir dst then .error .isADirectory
    else if t.IsDir dst.dropLast then .ok ((t.remove src).put dst (.file content))
    else .error (t.absent dst)
  | some .dir =>
    match t.node dst with
    | some (.file _) => .error .notADirectory
    | some .dir => if t.emptyDir dst then .ok ((t.remove dst).rebase src dst)
        else .error .directoryNotEmpty
    | none =>
      if Below src dst then .error .invalidArgument
      else if t.IsDir dst.dropLast then .ok (t.rebase src dst) else .error (t.absent dst)

section Lookups

variable {t u : Tree} {p q : Path}

@[simp] theorem node_nil (t : Tree) : t.node [] = some .dir := by simp [node]

theorem node_put (t : Tree) (p q : Path) (n : Node) :
    (t.put p n).node q = if q = p ∧ p ≠ [] then some n else t.node q := by
  unfold put node
  by_cases hp : p = []
  · simp [hp]
  · by_cases hq : q = []
    · subst hq
      simp [hp, Ne.symm hp]
    · by_cases hqp : q = p
      · subst hqp
        simp [hp]
      · simp [hp, hq, hqp]

@[simp] theorem node_put_self (t : Tree) {p : Path} (hp : p ≠ []) (n : Node) :
    (t.put p n).node p = some n := by simp [node_put, hp]

@[simp] theorem node_put_ne (t : Tree) (h : q ≠ p) (n : Node) :
    (t.put p n).node q = t.node q := by simp [node_put, h]

theorem node_remove (t : Tree) (p q : Path) :
    (t.remove p).node q = if q = p ∧ p ≠ [] then none else t.node q := by
  unfold remove node
  by_cases hq : q = []
  · subst hq
    by_cases hp : p = []
    · simp [hp]
    · simp
  · by_cases hqp : q = p
    · subst hqp
      simp [hq]
    · simp [hq, hqp]

@[simp] theorem node_remove_self (t : Tree) {p : Path} (hp : p ≠ []) :
    (t.remove p).node p = none := by simp [node_remove, hp]

@[simp] theorem node_remove_ne (t : Tree) (h : q ≠ p) :
    (t.remove p).node q = t.node q := by simp [node_remove, h]

theorem fileAt_eq_some {f : File} : t.fileAt p = some f ↔ t.node p = some (.file f) := by
  unfold fileAt
  split <;> simp_all

theorem fileAt_eq_none : t.fileAt p = none ↔ t.node p = none ∨ t.IsDir p := by
  unfold fileAt IsDir
  split
  · simp_all
  · rename_i h
    cases hn : t.node p with
    | none => simp
    | some n =>
      cases n with
      | file content => exact absurd hn (h content)
      | dir => simp

@[simp] theorem fileAt_nil (t : Tree) : t.fileAt [] = none := by simp [fileAt]

theorem isDir_nil (t : Tree) : t.IsDir [] := node_nil t

theorem IsDir.fileAt (h : t.IsDir p) : t.fileAt p = none := fileAt_eq_none.mpr (.inr h)

theorem not_isDir_of_fileAt {f : File} (h : t.fileAt p = some f) : ¬ t.IsDir p := by
  intro hd
  rw [hd.fileAt] at h
  cases h

theorem node_eq_none (hf : t.fileAt p = none) (hd : ¬ t.IsDir p) : t.node p = none :=
  (fileAt_eq_none.mp hf).resolve_right hd

theorem present_iff : t.present p = true ↔ t.fileAt p ≠ none ∨ t.IsDir p := by
  unfold present fileAt IsDir
  cases hn : t.node p with
  | none => simp
  | some n => cases n <;> simp

theorem present_eq_false : t.present p = false ↔ t.node p = none := by
  simp [present]

/-- A tree is determined by its files and its directories. -/
theorem same_of_files_dirs (hf : ∀ p, t.fileAt p = u.fileAt p)
    (hd : ∀ p, t.IsDir p ↔ u.IsDir p) : t.Same u := by
  intro p
  cases hn : u.node p with
  | none =>
    refine node_eq_none ?_ ?_
    · rw [hf p]
      exact fileAt_eq_none.mpr (.inl hn)
    · rw [hd p]
      simp [IsDir, hn]
  | some n =>
    cases n with
    | file content => exact fileAt_eq_some.mp ((hf p).trans (fileAt_eq_some.mpr hn))
    | dir => exact (hd p).mpr hn

theorem fileAt_put_file (t : Tree) {p : Path} (hp : p ≠ []) (q : Path) (f : File) :
    (t.put p (.file f)).fileAt q = if q = p then some f else t.fileAt q := by
  by_cases h : q = p
  · subst h
    simp [fileAt, hp]
  · simp [fileAt, h]

theorem isDir_put_file (t : Tree) {p : Path} (hd : ¬ t.IsDir p) (q : Path) (f : File) :
    (t.put p (.file f)).IsDir q ↔ t.IsDir q := by
  by_cases h : q = p
  · subst h
    have hp : q ≠ [] := by
      rintro rfl
      exact hd (isDir_nil t)
    simpa [IsDir, hp] using hd
  · simp [IsDir, h]

theorem fileAt_put_dir (t : Tree) {p : Path} (hf : t.fileAt p = none) (q : Path) :
    (t.put p .dir).fileAt q = t.fileAt q := by
  by_cases hp : p = []
  · simp [put, hp]
  · by_cases h : q = p
    · subst h
      rw [hf]
      simp [fileAt, hp]
    · simp [fileAt, h]

theorem isDir_put_dir (t : Tree) (p q : Path) : (t.put p .dir).IsDir q ↔ q = p ∨ t.IsDir q := by
  by_cases hp : p = []
  · subst hp
    simp only [put, if_true]
    constructor
    · exact .inr
    · rintro (rfl | h)
      · exact isDir_nil t
      · exact h
  · by_cases h : q = p
    · subst h
      simp [IsDir, hp]
    · simp [IsDir, h]

theorem fileAt_remove (t : Tree) (p q : Path) :
    (t.remove p).fileAt q = if q = p then none else t.fileAt q := by
  by_cases h : q = p
  · subst h
    by_cases hp : q = []
    · subst hp
      simp
    · simp [fileAt, hp]
  · simp [fileAt, h]

theorem isDir_remove_file (t : Tree) {p : Path} (hd : ¬ t.IsDir p) (q : Path) :
    (t.remove p).IsDir q ↔ t.IsDir q := by
  by_cases h : q = p
  · subst h
    have hp : q ≠ [] := by
      rintro rfl
      exact hd (isDir_nil t)
    simpa [IsDir, hp] using hd
  · simp [IsDir, h]

theorem underFile_iff : t.underFile p = true ↔ ∃ q, Below q p ∧ t.fileAt q ≠ none := by
  unfold underFile Below
  simp only [List.any_eq_true, List.mem_inits, Bool.and_eq_true, decide_eq_true_eq,
    Option.isSome_iff_ne_none]
  constructor
  · rintro ⟨q, hq, hne, hf⟩
    exact ⟨q, ⟨hq, hne⟩, hf⟩
  · rintro ⟨q, ⟨hq, hne⟩, hf⟩
    exact ⟨q, hq, hne, hf⟩

theorem emptyDir_iff : t.emptyDir p = true ↔ ∀ q, Below p q → t.node q = none := by
  unfold emptyDir
  simp only [List.all_eq_true, decide_eq_true_eq]
  constructor
  · intro h q hq
    have hne : q ≠ [] := by
      rintro rfl
      exact hq.2 (List.prefix_nil.mp hq.1)
    by_contra hn
    rw [node, if_neg hne] at hn
    exact h q (AList.mem_keys.mp (AList.lookup_isSome.mp (Option.isSome_iff_ne_none.mpr hn))) hq
  · intro h q hmem hq
    have hne : q ≠ [] := by
      rintro rfl
      exact hq.2 (List.prefix_nil.mp hq.1)
    have hn := h q hq
    rw [node, if_neg hne] at hn
    exact AList.lookup_eq_none.mp hn (AList.mem_keys.mpr hmem)

end Lookups

section WellFormed

variable {t : Tree} {p q : Path}

theorem wellFormed_empty : empty.WellFormed := by
  intro p hp
  by_cases h : p = []
  · exact h ▸ isDir_nil _
  · exact absurd (by simp [node, h, empty]) hp

/-- In a well-formed tree everything above a file or a directory is a directory. -/
theorem WellFormed.isDir_of_below (wf : t.WellFormed) (hq : Below q p) (hp : t.node p ≠ none) :
    t.IsDir q := by
  induction p using List.reverseRecOn with
  | nil => exact absurd (List.prefix_nil.mp hq.1) hq.2
  | append_singleton front last ih =>
    have hdir : t.IsDir front := by simpa using wf _ hp
    by_cases he : q = front
    · exact he ▸ hdir
    · have hpre : q <+: front := by
        rcases List.prefix_concat_iff.mp hq.1 with h | h
        · exact absurd h hq.2
        · exact h
      exact ih ⟨hpre, he⟩ (by rw [hdir]; simp)

end WellFormed

end Tree

/-- A workspace as found on disk: a tree in which every entry stands in a directory. -/
structure Workspace where
  tree : Tree
  wellFormed : tree.WellFormed

end RepoForge
