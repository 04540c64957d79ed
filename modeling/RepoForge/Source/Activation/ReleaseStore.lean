import Mathlib.Data.Char
import Mathlib.Data.List.AList
import Mathlib.Data.List.Lex
import Mathlib.Data.List.Sort
import Mathlib.Data.Prod.Lex
import RepoForge.Library.Interruptible
import RepoForge.Library.PyText

/-!
# The release store

`RuntimeReleaseStore` of `adapters/activation/release_store.py`: the release directories with the
links `current` and `previous`, the in-flight journal, the receipts and the reclamation artifacts.
Every change of the disk is a step of its own, and the calls run one at a time.
-/
namespace RepoForge.Activation

open PyText Interruptible

inductive StoreError where
  | retentionInvalid
  | releaseNotInstalled
  | noPreviousRelease
  | previousReleaseMissing
  | releaseDirUnclaimable
  | releaseFingerprintConflict
  | releaseManifestInvalid
  | activationInFlight
  | receiptExists
  | workerReclamationArtifactCollision
  | cannotRead
  deriving DecidableEq

/-! ### What is on disk -/

/-- A file that is meant to hold a JSON object. -/
inductive JsonFile (α : Type) where
  /-- Created, and nothing written to it: not JSON. -/
  | blank
  /-- JSON, but not such an object. -/
  | other
  | object (value : α)
  deriving DecidableEq

/-- `_read_json` -/
def readJson {α : Type} : Option (JsonFile α) → Except StoreError (Option (JsonFile α))
  | none => .ok none
  | some .blank => .error .cannotRead
  | some file => .ok (some file)

/-- What retention and the reservation read of a manifest. -/
structure ReleaseManifest where
  commitSha : Text
  buildFingerprint : Text
  builtAt : Text
  deriving DecidableEq

/-- A file or directory in a release tree. -/
inductive Entry where
  | manifest
  | other (path : Text)
  deriving DecidableEq

structure ReleaseDir where
  manifest : Option (JsonFile ReleaseManifest)
  others : List Text
  deriving DecidableEq

structure InFlight where
  receiptId : Text
  fromSha : Option Text
  toSha : Text
  stage : Text
  transitionId : Option Text
  deriving DecidableEq

structure ActivationReceipt where
  receiptId : Text
  deriving DecidableEq

inductive Link where
  | current
  | previous
  deriving DecidableEq

/-- `^[0-9a-f]{7,40}$` -/
def isCommitSha (t : Text) : Bool :=
  decide (7 ≤ t.length) && decide (t.length ≤ 40) && t.all lowerHex

/-- The name of a release: one component of a path, so that the name of a link's target is the SHA
that the link was made for. -/
structure CommitSha where
  text : Text
  valid : isCommitSha text = true
  deriving DecidableEq

section Store

variable {Evidence : Type}

structure Artifact (Evidence : Type) where
  artifactId : Text
  sha256 : Text
  reclamation : Evidence

structure Root (Evidence : Type) where
  /-- The directories under `releases/`. -/
  releases : AList fun _ : Text => ReleaseDir
  links : Link → Option Text
  /-- `.current.tmp-<pid>` and `.previous.tmp-<pid>` -/
  temporary : Link → Nat → Option Text
  journal : Option (JsonFile InFlight)
  receipts : AList fun _ : Text => JsonFile ActivationReceipt
  artifacts : AList fun _ : Text => JsonFile (Artifact Evidence)

/-- What the source takes from `json`, `hashlib` and `shutil`. -/
structure Rules (Evidence : Type) where
  /-- `json.dumps(reclamation, sort_keys=True, separators=(",", ":")).encode("utf-8")` -/
  canonical : Evidence → Bytes
  /-- `hashlib.sha256(data).hexdigest()` -/
  sha256 : Bytes → Text
  /-- The deletions that `rmtree` makes in a release, in its order; it goes on after an error. -/
  order : Text → List Entry

/-! ### Manifests -/

variable (R : Rules Evidence) (root : Root Evidence)

def readManifest (sha : Text) : Except StoreError (Option ReleaseManifest) := do
  match ← readJson ((root.releases.lookup sha).bind (·.manifest)) with
  | none => return none
  | some (.object manifest) => return some manifest
  | some _ => throw .releaseManifestInvalid

def reserveRelease (sha fingerprint : Text) : Except StoreError Bool :=
  if (root.releases.lookup sha).isNone then return true
  else do
    match ← readManifest root sha with
    | none => throw .releaseDirUnclaimable
    | some existing =>
      if existing.buildFingerprint ≠ fingerprint then throw .releaseFingerprintConflict
      else return false

def installedShas : List Text :=
  (root.releases.keys.filter fun sha =>
    ((root.releases.lookup sha).bind (·.manifest)).isSome).insertionSort (· ≤ ·)

def listReleases : Except StoreError (List ReleaseManifest) := do
  let manifests ← (installedShas root).mapM (readManifest root)
  return (manifests.filterMap id).insertionSort fun a b => b.builtAt ≤ a.builtAt

/-- `retention_candidates` -/
def retentionCandidates (keep : Int) : Except StoreError (List Text) := do
  if keep < 0 then throw .retentionInvalid
  let ordered := (← listReleases root).map (·.commitSha)
  let pinned := (root.links .current).toList ++ (root.links .previous).toList ++
    ordered.take keep.toNat
  return (installedShas root).filter fun sha => !pinned.contains sha

/-! ### Links -/

def putTemporary (link : Link) (pid : Nat) (target : Option Text) (root : Root Evidence) :
    Root Evidence :=
  let pids := Function.update (root.temporary link) pid target
  { root with temporary := Function.update root.temporary link pids }

/-- `os.replace` -/
def replaceLink (link : Link) (pid : Nat) (sha : Text) (root : Root Evidence) : Root Evidence :=
  { putTemporary link pid none root with links := Function.update root.links link (some sha) }

/-- The changes of `_atomic_symlink`; a temporary link may be left from a process that had the same
number. -/
def symlinkChanges (sha : Text) (link : Link) (pid : Nat) :
    List (Root Evidence → Root Evidence) :=
  (if (root.temporary link pid).isSome then [putTemporary link pid none] else []) ++
    [putTemporary link pid (some sha), replaceLink link pid sha]

abbrev Call (Evidence α : Type) := Proc (Root Evidence) StoreError α

def atomicSymlink (sha : Text) (link : Link) (pid : Nat) : Call Evidence Unit := do
  let root ← Proc.inspect id
  changes (symlinkChanges root sha link pid)

def swapCurrent (pid : Nat) (sha : CommitSha) : Call Evidence (Option Text) := do
  let root ← Proc.inspect id
  if (root.releases.lookup sha.text).isNone then Proc.raise .releaseNotInstalled
  else
    match root.links .current with
    | none =>
      atomicSymlink sha.text .current pid
      return none
    | some old =>
      if old ≠ sha.text then
        atomicSymlink old .previous pid
        atomicSymlink sha.text .current pid
        return some old
      else
        atomicSymlink sha.text .current pid
        return some old

def rollback (pid : Nat) : Call Evidence Text := do
  let root ← Proc.inspect id
  match root.links .previous with
  | none => Proc.raise .noPreviousRelease
  | some previous =>
    if (root.releases.lookup previous).isNone then Proc.raise .previousReleaseMissing
    else
      match root.links .current with
      | none =>
        atomicSymlink previous .current pid
        return previous
      | some current =>
        atomicSymlink previous .current pid
        atomicSymlink current .previous pid
        return previous

/-! ### Removal -/

def ReleaseDir.unlink (dir : ReleaseDir) : Entry → ReleaseDir
  | .manifest => { dir with manifest := none }
  | .other path => { dir with others := dir.others.erase path }

def unlinkEntry (sha : Text) (entry : Entry) (root : Root Evidence) : Root Evidence :=
  match root.releases.lookup sha with
  | none => root
  | some dir => { root with releases := root.releases.insert sha (dir.unlink entry) }

/-- `rmdir`, whose error for a directory that is not empty is ignored. -/
def removeDir (sha : Text) (root : Root Evidence) : Root Evidence :=
  match root.releases.lookup sha with
  | none => root
  | some dir =>
    if dir.manifest.isNone && dir.others.isEmpty then
      { root with releases := root.releases.erase sha }
    else root

/-- The changes of `_remove_tree`. -/
def removeChanges (sha : Text) : List (Root Evidence → Root Evidence) :=
  (R.order sha).map (unlinkEntry sha) ++ [removeDir sha]

/-- The loop of `prune`. -/
def removeTrees : List Text → Call Evidence (List Text)
  | [] => return []
  | sha :: rest => do
    changes (removeChanges R sha)
    return sha :: (← removeTrees rest)

def prune (keep : Int) (protect : List Text) : Call Evidence (List Text) := do
  let candidates ← Proc.check fun root => retentionCandidates root keep
  removeTrees R (candidates.filter fun sha => !protect.contains sha)

/-! ### The journal -/

/-- `O_CREAT | O_EXCL`, then the content. -/
def beginActivation (receiptId : Text) (fromSha : Option Text) (toSha : Text)
    (transitionId : Option Text) : Call Evidence Unit := do
  let root ← Proc.inspect id
  if root.journal.isSome then Proc.raise .activationInFlight
  else
    changes [fun root => { root with journal := some .blank },
      fun root => { root with
        journal := some (.object ⟨receiptId, fromSha, toSha, "prepared".toList, transitionId⟩) }]

/-- The temporary file of `_atomic_write_json` has a random name that nothing reads, so only its
rename is a change. -/
def recordActivationStage (stage : Text) : Call Evidence Unit := do
  match ← Proc.check fun root => readJson root.journal with
  | some (.object journal) =>
    changes [fun root => { root with journal := some (.object { journal with stage := stage }) }]
  | _ => return ()

def readInFlightActivation : Except StoreError (Option InFlight) := do
  match ← readJson root.journal with
  | some (.object journal) => return some journal
  | _ => return none

def endActivation : Call Evidence Unit := changes [fun root => { root with journal := none }]

/-! ### Receipts -/

def writeReceipt (receipt : ActivationReceipt) : Call Evidence Unit := do
  let root ← Proc.inspect id
  if (root.receipts.lookup receipt.receiptId).isSome then Proc.raise .receiptExists
  else
    changes [fun root => { root with receipts := root.receipts.insert receipt.receiptId .blank },
      fun root => { root with
        receipts := root.receipts.insert receipt.receiptId (.object receipt) }]

structure ReceiptHistory where
  valid : List ActivationReceipt
  unreadable : List Text
  deriving DecidableEq

/-- `int(text)` of a text without `-`; it refuses texts of more than 4300 digits. -/
def number (text : Text) : Option Nat :=
  let body := strip text
  let groups := (if body.head? = some '+' then body.tail else body).splitOn '_'
  if groups.all (fun group => !group.isEmpty && group.all isDecimal) &&
      decide (groups.flatten.length ≤ 4300) then some (toInt groups.flatten)
  else none

/-- `_receipt_sort_key` -/
def receiptSortKey (receiptId : Text) : Nat ×ₗ Nat ×ₗ Text :=
  match receiptId.splitOn '-' with
  | [_, day, index] =>
    match number day, number index with
    | some day, some index => toLex (day, toLex (index, receiptId))
    | _, _ => toLex (0, toLex (0, receiptId))
  | _ => toLex (0, toLex (0, receiptId))

/-- What `receipt_history` makes of one file. -/
inductive Reading where
  | skipped
  | unreadable (stem : Text)
  | valid (receipt : ActivationReceipt)

def readReceiptFile (stem : Text) : Reading :=
  match readJson (root.receipts.lookup stem) with
  | .error _ => .unreadable stem
  | .ok none => .skipped
  | .ok (some (.object receipt)) => .valid receipt
  | .ok (some _) => .unreadable stem

def receiptHistory : Except StoreError ReceiptHistory :=
  let readings := (root.receipts.keys.insertionSort (· ≤ ·)).map (readReceiptFile root)
  let valid := readings.filterMap fun | .valid receipt => some receipt | _ => none
  let unreadable := readings.filterMap fun | .unreadable stem => some stem | _ => none
  .ok {
    valid := valid.insertionSort fun a b =>
      receiptSortKey b.receiptId ≤ receiptSortKey a.receiptId
    unreadable := unreadable.insertionSort fun a b => receiptSortKey b ≤ receiptSortKey a }

/-! ### Reclamation artifacts -/

def digestOf (reclamation : Evidence) : Text := R.sha256 (R.canonical reclamation)

def artifactIdOf (digest : Text) : Text := "recl-".toList ++ digest.take 32

def readWorkerReclamationArtifact (artifactId : Text) : Option (Artifact Evidence) :=
  match root.artifacts.lookup artifactId with
  | some (.object artifact) => some artifact
  | _ => none

def writeWorkerReclamationArtifact (reclamation : Evidence) : Call Evidence (Text × Text) := do
  let digest := digestOf R reclamation
  let artifactId := artifactIdOf digest
  let root ← Proc.inspect id
  if (root.artifacts.lookup artifactId).isSome then
    match readWorkerReclamationArtifact root artifactId with
    | none => Proc.raise .workerReclamationArtifactCollision
    | some existing =>
      if existing.sha256 ≠ digest then Proc.raise .workerReclamationArtifactCollision
      else return (artifactId, digest)
  else
    changes [fun root => { root with artifacts := root.artifacts.insert artifactId .blank },
      fun root => { root with
        artifacts := root.artifacts.insert artifactId (.object ⟨artifactId, digest, reclamation⟩) }]
    return (artifactId, digest)

end Store

end RepoForge.Activation
