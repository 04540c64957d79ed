import Mathlib.Algebra.Ring.Int.Defs
import RepoForge.Library.PyDict
import RepoForge.Library.PyText
import RepoForge.Library.Scripts
import RepoForge.Library.SortedListing

/-!
# The generation store

`ConfigGenerationStore` of `adapters/configuration/generation_store.py`, without `import_legacy`.
Every access to a file is one operation of a script. Control files are kept as the values that
`json` makes of them; a temporary file or directory is seen by no reader, and writing one is part
of the operation that renames it. `accept` and `rollback` hold the lock `config-generation`, the
other calls the lock `config-activation`.
-/
namespace RepoForge.ConfigStore

open Scripts PyDict

/-- A `ConfigError`, by what it says. -/
inductive ConfigError where
  | notPositive
  | missing
  | incomplete (generation : Int)
  | sourceHash (generation : Int)
  | resolvedHash (generation : Int)
  | staleActive (expected : Int) (found : Option Int)
  | staleTarget (expected : Int) (found : Option Int)
  | targetMismatch (staged : Option Int) (attempted : Int)
  | staleGeneration (expected found : Int)
  | changedConcurrently
  | approvalRequired
  | approvalMismatch
  | alreadyExists (generation : Int)
  | rollbackApproval (required : Text)
  | invalidGeneration
  | classification (text : Text)
  deriving DecidableEq

structure ApprovalEvent where
  actor : Text
  approvedAt : Text
  proposalId : Text
  approvalTokenSha256 : Text
  deriving DecidableEq

inductive CapabilityDeltaKind where
  | equivalent
  | metadataOnly
  | expansion
  | restriction
  | incompatible
  deriving DecidableEq

/-- `^[a-f0-9]{64}$` -/
def isSha256 (t : Text) : Bool := decide (t.length = 64) && t.all lowerHex

structure ConfigMutation where
  sourceText : Text
  resolvedText : Text
  repositoryFingerprints : List (Text × Text)
  reason : Text
  createdAt : Text
  expectedGeneration : Option Int
  expectedSourceSha256 : Option Text
  proposalId : Option Text
  approval : Option ApprovalEvent
  correlationId : Text
  deriving DecidableEq

/-- What `ConfigMutation.__post_init__` has checked. -/
structure ConfigMutation.Valid (m : ConfigMutation) : Prop where
  texts : m.sourceText ≠ [] ∧ m.resolvedText ≠ [] ∧ m.reason ≠ [] ∧ m.createdAt ≠ []
  fingerprints : ∀ item ∈ m.repositoryFingerprints, item.1 ≠ [] ∧ isSha256 item.2 = true
  approval : ∀ event, m.approval = some event → m.proposalId = some event.proposalId

structure ConfigGeneration where
  generation : Int
  sourceSha256 : Text
  resolvedSha256 : Text
  repositoryFingerprints : List (Text × Text)
  createdAt : Text
  reason : Text
  proposalId : Option Text
  approval : Option ApprovalEvent
  delta : CapabilityDeltaKind
  previousGeneration : Option Int
  correlationId : Text
  active : Bool
  deriving DecidableEq

/-- `__post_init__` -/
def ConfigGeneration.postInit (g : ConfigGeneration) : Except ConfigError Unit :=
  if 0 < g.generation ∧ isSha256 g.sourceSha256 ∧ isSha256 g.resolvedSha256 ∧
      g.createdAt ≠ [] ∧ g.reason ≠ [] ∧
      (∀ previous ∈ g.previousGeneration, 0 < previous ∧ previous < g.generation) ∧
      (∀ item ∈ g.repositoryFingerprints, item.1 ≠ [] ∧ isSha256 item.2) ∧
      (∀ event ∈ g.approval, g.proposalId = some event.proposalId) then .ok ()
  else .error .invalidGeneration

/-- The files of a generation. -/
inductive GenerationFile where
  | metadata
  | source
  | resolved
  deriving DecidableEq

/-- `sha256_text`, `classify_capability_delta(…).kind`, and the order in which `rmtree` comes to the
files of a directory. -/
structure Environment where
  sha256Text : Text → Text
  hexadecimal : ∀ t, isSha256 (sha256Text t) = true
  classify : Text → Text → Except ConfigError CapabilityDeltaKind
  removal : Int → List GenerationFile
  everyFile : ∀ g file, file ∈ removal g

structure GenerationDir where
  metadata : Option ConfigGeneration
  source : Option Text
  resolved : Option Text
  deriving DecidableEq

namespace GenerationDir

def has (d : GenerationDir) : GenerationFile → Bool
  | .metadata => d.metadata.isSome
  | .source => d.source.isSome
  | .resolved => d.resolved.isSome

def unlink (d : GenerationDir) : GenerationFile → GenerationDir
  | .metadata => { d with metadata := none }
  | .source => { d with source := none }
  | .resolved => { d with resolved := none }

end GenerationDir

inductive Pointer where
  | accepted
  | active
  | target
  deriving DecidableEq

/-- The files of the store, its editable source and its locks. The last four fields are for
the specification, and no operation reads them: which generation `stage_activation` has begun to
load, whether `activate` was between its two writes last, which directory is being removed, and what
was ever accepted. -/
structure Store (ι : Type) where
  generations : List (Int × GenerationDir)
  accepted : Option Int
  active : Option Int
  target : Option Int
  source : Option Text
  activeResolved : Option Text
  generationLock : Option ι
  activationLock : Option ι
  selecting : Option Int
  interrupted : Bool
  removing : Option Int
  everAccepted : List (Int × Option GenerationDir)

namespace Store

variable {ι : Type} (s : Store ι)

def pointer : Pointer → Option Int
  | .accepted => s.accepted
  | .active => s.active
  | .target => s.target

def dir (g : Int) : Option GenerationDir := get s.generations g

/-- `path.is_file()` of a file in a generation's directory. -/
def isFile (g : Int) (file : GenerationFile) : Bool := (s.dir g).any fun d => d.has file

/-- A store that was just made, beside a source file. -/
def fresh (source : Option Text) : Store ι where
  generations := []
  accepted := none
  active := none
  target := none
  source := source
  activeResolved := none
  generationLock := none
  activationLock := none
  selecting := none
  interrupted := false
  removing := none
  everAccepted := []

end Store

/-- What an operation does, for the rules about the runs. -/
inductive Access where
  | lock
  | look
  | select (generation : Int)
  | create (generation : Int)
  | source
  | accept (generation : Int)
  | stage (generation : Int)
  /-- `committed` if `activate` does it after it has moved the active pointer -/
  | unstage (committed : Bool)
  | resolved (generation : Int)
  | activate (generation : Int)
  | unlink (generation : Int)
  | rmdir (generation : Int)
  deriving DecidableEq

abbrev Program (ι A : Type) := Script Access (Store ι) ConfigError A

section Reads

variable {ι : Type} (R : Environment)

def read {A : Type} (f : Store ι → A) : Program ι A := .look .look fun s => .ok (f s)

/-- `_pointer_generation` -/
def pointerGeneration (p : Pointer) : Program ι (Option Int) := read fun s => s.pointer p

/-- `read_text` of a file in a generation's directory. -/
def readText (g : Int) (file : GenerationDir → Option Text) : Program ι Text :=
  .look .look fun s =>
    match (s.dir g).bind file with
    | some text => .ok (PyText.universalNewlines text)
    | none => .error .missing

def readMetadata (g : Int) : Program ι ConfigGeneration :=
  .look .look fun s =>
    match (s.dir g).bind (·.metadata) with
    | some item => .ok item
    | none => .error .missing

/-- `_load` -/
def load (g : Int) : Program ι ConfigGeneration := do
  if g ≤ 0 then .raise .notPositive
  else
    let metadata ← read (·.isFile g .metadata)
    let source ← read (·.isFile g .source)
    let resolved ← read (·.isFile g .resolved)
    if metadata && source && resolved then
      let item ← readMetadata g
      let active ← pointerGeneration .active
      let source ← readText g (·.source)
      if R.sha256Text source ≠ item.sourceSha256 then .raise (.sourceHash g)
      else
        let resolved ← readText g (·.resolved)
        if R.sha256Text resolved ≠ item.resolvedSha256 then .raise (.resolvedHash g)
        else return { item with active := active = some g }
    else .raise (.incomplete g)

/-- `current`, `active` and `activation_target` -/
def loadPointer (p : Pointer) : Program ι (Option ConfigGeneration) := do
  match ← pointerGeneration p with
  | some g => do
    let item ← load R g
    return some item
  | none => return none

/-- The loop of `history` over the directories. -/
def loadAll : List Int → Program ι (List ConfigGeneration)
  | [] => return []
  | g :: rest => do
    let there ← read fun s => (s.dir g).isSome
    if there then
      let item ← load R g
      let items ← loadAll rest
      return item :: items
    else loadAll rest

/-- The numbers of the directories, the greatest first. -/
def listing (s : Store ι) : List Int := (sortBy id (s.generations.map (·.1))).reverse

def history : Program ι (List ConfigGeneration) := do
  let numbers ← read listing
  loadAll R numbers

def nextGeneration : Program ι Int := do
  let items ← history R
  match items with
  | first :: _ => return first.generation + 1
  | [] => return 1

def readResolvedText (g : Int) : Program ι Text := do
  let _ ← load R g
  readText g (·.resolved)

end Reads

section Writes

variable {ι : Type} (R : Environment)

def write (tag : Access) (change : Store ι → Store ι) : Program ι Unit :=
  .perform ⟨tag, fun _ => true, change, .before⟩

def withGenerationLock {A : Type} (p : ι) (body : Program ι A) : Program ι A :=
  .within ⟨.lock, fun s => s.generationLock.isNone, fun s => { s with generationLock := some p },
      .before⟩
    ⟨.lock, fun _ => true, fun s => { s with generationLock := none }, .never⟩ body

def withActivationLock {A : Type} (p : ι) (body : Program ι A) : Program ι A :=
  .within ⟨.lock, fun s => s.activationLock.isNone, fun s => { s with activationLock := some p },
      .before⟩
    ⟨.lock, fun _ => true, fun s => { s with activationLock := none, selecting := none },
      .never⟩ body

def unlinkFile (g : Int) (file : GenerationFile) (s : Store ι) : Store ι :=
  match s.dir g with
  | some d =>
    { s with
      generations := assign s.generations g (d.unlink file)
      removing := some g }
  | none => s

/-- A directory that is not empty stays. -/
def removeDir (g : Int) (s : Store ι) : Store ι :=
  { s with
    generations := if s.dir g = some ⟨none, none, none⟩ then pop s.generations g else s.generations
    removing := none }

def removeFiles (g : Int) : List GenerationFile → Program ι Unit
  | [] => (write (.rmdir g) (removeDir g)).handle fun _ => pure ()
  | file :: rest => do
    (write (.unlink g) (unlinkFile g file)).handle fun _ => pure ()
    removeFiles g rest

/-- `shutil.rmtree(path, ignore_errors=True)` -/
def rmtree (g : Int) : Program ι Unit := removeFiles g (R.removal g)

def storeGeneration (generation : ConfigGeneration) (sourceText resolvedText : Text) :
    Program ι Unit := do
  let there ← read fun s => (s.dir generation.generation).isSome
  if there then .raise (.alreadyExists generation.generation)
  else
    write (.create generation.generation) fun s =>
      { s with
        generations := assign s.generations generation.generation
          ⟨some { generation with active := false }, some sourceText, some resolvedText⟩ }

/-- The write of the accepted pointer. -/
def acceptPointer (g : Int) : Program ι Unit :=
  write (.accept g) fun s =>
    { s with
      accepted := some g
      everAccepted := (g, s.dir g) :: s.everAccepted }

/-- `source_path.unlink(missing_ok=True)`, or the old source written back. -/
def restoreSource (previous : Option Text) : Program ι Unit :=
  write .source fun s => { s with source := previous }

/-- `RETAINED_GENERATIONS` -/
def retainedGenerations : Nat := 20

def pruneAll (keep : List Int) : List Int → Program ι Unit
  | [] => return ()
  | g :: rest => do
    if g ∈ keep then pruneAll keep rest
    else do
      rmtree R g
      pruneAll keep rest

/-- `_prune` -/
def prune : Program ι Unit := do
  let accepted ← pointerGeneration .accepted
  let active ← pointerGeneration .active
  let target ← pointerGeneration .target
  let items ← history R
  let numbers := items.map (·.generation)
  pruneAll R
    (numbers.take retainedGenerations ++ accepted.toList ++ active.toList ++ target.toList) numbers

end Writes

section Calls

variable {ι : Type} (R : Environment) (p : ι)

/-- `classify_capability_delta` of a generation and a mutation. -/
def classified (current : ConfigGeneration) (m : ConfigMutation) :
    Program ι CapabilityDeltaKind := do
  let before ← readResolvedText R current.generation
  .ofExcept (R.classify before m.resolvedText)

/-- The approval that an expansion needs. -/
def checkApproval (m : ConfigMutation) (kind : CapabilityDeltaKind) : Except ConfigError Unit :=
  if kind = .expansion ∨ kind = .incompatible then
    match m.approval, m.proposalId with
    | some event, some proposal =>
      if event.proposalId ≠ proposal then .error .approvalMismatch else .ok ()
    | _, _ => .error .approvalRequired
  else .ok ()

/-- The generation that `accept` makes of a mutation. -/
def generationOf (m : ConfigMutation) (number current : Int) (kind : CapabilityDeltaKind) :
    ConfigGeneration where
  generation := number
  sourceSha256 := R.sha256Text m.sourceText
  resolvedSha256 := R.sha256Text m.resolvedText
  repositoryFingerprints := sortBy toLex m.repositoryFingerprints
  createdAt := m.createdAt
  reason := m.reason
  proposalId := m.proposalId
  approval := m.approval
  delta := kind
  previousGeneration := if current = 0 then none else some current
  correlationId := m.correlationId
  active := false

/-- From the stored generation to the end of `accept`. -/
def commitGeneration (generation : ConfigGeneration) (m : ConfigMutation) :
    Program ι ConfigGeneration := do
  storeGeneration generation m.sourceText m.resolvedText
  let previousSource ← read (·.source)
  Script.handle (do
      write .source fun s => { s with source := some m.sourceText }
      acceptPointer generation.generation)
    fun e => do
      restoreSource previousSource
      rmtree R generation.generation
      .raise e
  prune R
  return generation

def acceptAs (m : ConfigMutation) (number current : Int) (kind : CapabilityDeltaKind) :
    Program ι ConfigGeneration := do
  Script.ofExcept (checkApproval m kind)
  Script.ofExcept (generationOf R m number current kind).postInit
  commitGeneration R (generationOf R m number current kind) m

def accept (m : ConfigMutation) : Program ι ConfigGeneration :=
  withGenerationLock p do
    let number ← nextGeneration R
    let current ← loadPointer R .accepted
    let currentGeneration := (current.map (·.generation)).getD 0
    if m.expectedGeneration.any (· ≠ currentGeneration) then
      .raise (.staleGeneration (m.expectedGeneration.getD 0) currentGeneration)
    else
      let actualSource ← read fun s => s.source.map PyText.universalNewlines
      if m.expectedSourceSha256.isSome ∧
          actualSource.map R.sha256Text ≠ m.expectedSourceSha256 then
        .raise .changedConcurrently
      else
        match current with
        | none => acceptAs R m number currentGeneration .expansion
        | some current => do
          let kind ← classified R current m
          if kind = .equivalent then return current
          else
            let kind ← classified R current m
            acceptAs R m number currentGeneration kind

/-- The approval token that a rollback which widens the policy needs. -/
def rollbackToken (target : ConfigGeneration) : Text :=
  "rollback:".toList ++ (toString target.generation).toList ++ [':'] ++
    target.resolvedSha256.take 16

def checkRollback (g : Int) (target : ConfigGeneration) (active : Option ConfigGeneration)
    (approvalToken : Option Text) : Program ι Unit :=
  match active with
  | none => return ()
  | some active => do
    let before ← readResolvedText R active.generation
    let after ← readResolvedText R g
    let kind ← Script.ofExcept (R.classify before after)
    if (kind = .expansion ∨ kind = .incompatible) ∧ approvalToken ≠ some (rollbackToken target) then
      .raise (.rollbackApproval (rollbackToken target))
    else return ()

def rollback (g : Int) (expectedActive : Option Int) (approvalToken : Option Text) :
    Program ι ConfigGeneration :=
  withGenerationLock p do
    let target ← load R g
    let active ← loadPointer R .active
    let activeNumber := active.map (·.generation)
    if expectedActive.isSome ∧ activeNumber ≠ expectedActive then
      .raise (.staleActive (expectedActive.getD 0) activeNumber)
    else
      checkRollback R g target active approvalToken
      let sourceText ← readText g (·.source)
      let previousSource ← read (·.source)
      let previousAccepted ← pointerGeneration .accepted
      Script.handle (do
          write .source fun s => { s with source := some sourceText }
          acceptPointer g)
        fun e => do
          restoreSource previousSource
          write .look fun s => { s with accepted := previousAccepted }
          .raise e
      return { target with active := false }

def stageActivation (g : Int) (expectedActive : Option Int) : Program ι ConfigGeneration :=
  withActivationLock p do
    let active ← pointerGeneration .active
    if expectedActive.isSome ∧ active ≠ expectedActive then
      .raise (.staleActive (expectedActive.getD 0) active)
    else
      write (.select g) fun s => { s with selecting := some g }
      let selected ← load R g
      write (.stage g) fun s => { s with target := some g }
      return { selected with active := false }

/-- `activation_target_pointer.unlink(missing_ok=True)` -/
def unlinkTarget (committed : Bool) : Program ι Unit :=
  write (.unstage committed) fun s => { s with target := none }

def clearActivationTarget (expectedGeneration : Option Int) : Program ι Unit :=
  withActivationLock p do
    let current ← pointerGeneration .target
    if expectedGeneration.isSome ∧ current ≠ none ∧ current ≠ expectedGeneration then
      .raise (.staleTarget (expectedGeneration.getD 0) current)
    else unlinkTarget false

def activate (g : Int) (expectedActive : Option Int) : Program ι ConfigGeneration :=
  withActivationLock p do
    let active ← pointerGeneration .active
    if active = some g then
      let target ← pointerGeneration .target
      if target = none ∨ target = some g then unlinkTarget false else pure ()
      let item ← load R g
      return { item with active := true }
    else if expectedActive.isSome ∧ active ≠ expectedActive then
      .raise (.staleActive (expectedActive.getD 0) active)
    else
      let target ← pointerGeneration .target
      if target ≠ some g then .raise (.targetMismatch target g)
      else
        let selected ← load R g
        let resolved ← readResolvedText R g
        write (.resolved g) fun s =>
          { s with
            activeResolved := some resolved
            interrupted := true }
        write (.activate g) fun s =>
          { s with
            active := some g
            interrupted := false }
        unlinkTarget true
        return { selected with active := true }

end Calls

inductive Call where
  | accept (mutation : ConfigMutation)
  | rollback (generation : Int) (expectedActive : Option Int) (approvalToken : Option Text)
  | stage (generation : Int) (expectedActive : Option Int)
  | clear (expectedGeneration : Option Int)
  | activate (generation : Int) (expectedActive : Option Int)
  deriving DecidableEq

section Kernel

variable {ι : Type} [DecidableEq ι] (R : Environment)

def perform (p : ι) : Call → Program ι (Option ConfigGeneration)
  | .accept mutation => do
    let item ← accept R p mutation
    return some item
  | .rollback g expectedActive approvalToken => do
    let item ← rollback R p g expectedActive approvalToken
    return some item
  | .stage g expectedActive => do
    let item ← stageActivation R p g expectedActive
    return some item
  | .clear expectedGeneration => do
    clearActivationTarget p expectedGeneration
    return none
  | .activate g expectedActive => do
    let item ← activate R p g expectedActive
    return some item

/-- A process that dies gives its locks back. -/
def releaseLocks (p : ι) (s : Store ι) : Store ι :=
  { s with
    generationLock := if s.generationLock = some p then none else s.generationLock
    activationLock := if s.activationLock = some p then none else s.activationLock
    selecting := if s.activationLock = some p then none else s.selecting
    removing := if s.generationLock = some p then none else s.removing }

def kernel : Kernel ι Call Access (Store ι) ConfigError (Option ConfigGeneration) :=
  ⟨perform R, releaseLocks⟩

end Kernel

end RepoForge.ConfigStore
