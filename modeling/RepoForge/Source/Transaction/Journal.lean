import Mathlib.Data.List.Sort
import Mathlib.Data.List.Dedup
import RepoForge.Library.FileTree
import RepoForge.Library.Interruptible

/-!
# Transaction plans and their validation

Source: `domain/filesystem_transaction.py` and `adapters/filesystem/transaction.py`,
`JournaledFileTransaction._validate_plan` with the helpers it calls.

A normalised path is the list of its components. The tree holds files and directories
only, so `_normalize` is a function of the raw text (its symlink and escape checks never
fire), and validation can hand the normalised actions on: the source normalises the same
texts again wherever it uses them. `_virtual_exists` also remembers what it read from
the tree; nothing changes the tree during validation, so the memory is left out.
-/
namespace RepoForge

/-- The four actions of a plan, over raw path texts or over normalised paths. -/
inductive TransactionAction (P : Type) where
  | writeFile (path : P) (data : Bytes) (preserveMode : Bool)
  | createFile (path : P) (data : Bytes) (mode : Int)
  | deleteFile (path : P)
  | moveFile (source destination : P)
  deriving DecidableEq, Repr

/-- `_action_paths`. -/
def TransactionAction.paths {P : Type} : TransactionAction P → List P
  | .writeFile path _ _ | .createFile path _ _ | .deleteFile path => [path]
  | .moveFile source destination => [source, destination]

inductive TransactionError where
  | emptyPlan
  | tooManyActions
  | unsafePath (raw : Text)
  | writeTargetMissing (index : Nat) (path : Path)
  | createTargetExists (index : Nat) (path : Path)
  | createModeInvalid (index : Nat)
  | deleteTargetMissing (index : Nat) (path : Path)
  | moveEndsEqual (index : Nat)
  | moveSourceMissing (index : Nat) (path : Path)
  | moveDestinationExists (index : Nat) (path : Path)
  | targetNotRegular (path : Path)
  | receiptNameUnsafe
  | receiptExists
  | receiptSize
  | noManifest (transaction : Text)
  | manifestSchema
  | manifestWorkspace
  | manifestPhase (transaction : Text)
  | rollbackTargetNotRegular (path : Path)
  | recoveryFailed (transaction : Text) (cause : TransactionError)
  | rollbackFailed (primary rollback : TransactionError)
  | os (error : OsError)
  | raised (message : String)
  deriving DecidableEq, Repr

def Path.asPosix (p : Path) : Text :=
  if p = [] then ['.'] else ['/'].intercalate p

def OsError.message : OsError → String
  | .fileNotFound => "No such file or directory"
  | .notADirectory => "Not a directory"
  | .isADirectory => "Is a directory"
  | .fileExists => "File exists"
  | .directoryNotEmpty => "Directory not empty"
  | .invalidArgument => "Invalid argument"

def maxActions : Nat := 100
def maxReceiptBytes : Nat := 1000000

def TransactionError.message : TransactionError → String
  | .emptyPlan => "Transaction plan must contain at least one action"
  | .tooManyActions => s!"Transaction plan exceeds the {maxActions}-action limit"
  | .unsafePath raw => "Unsafe transaction path: '" ++ String.ofList raw ++ "'"
  | .writeTargetMissing index path =>
    s!"actions[{index}]: write target does not exist: " ++ String.ofList path.asPosix
  | .createTargetExists index path =>
    s!"actions[{index}]: create target already exists: " ++ String.ofList path.asPosix
  | .createModeInvalid index => s!"actions[{index}]: create mode must be between 0 and 0o777"
  | .deleteTargetMissing index path =>
    s!"actions[{index}]: delete target does not exist: " ++ String.ofList path.asPosix
  | .moveEndsEqual index => s!"actions[{index}]: move source and destination must differ"
  | .moveSourceMissing index path =>
    s!"actions[{index}]: move source does not exist: " ++ String.ofList path.asPosix
  | .moveDestinationExists index path =>
    s!"actions[{index}]: move destination already exists: " ++ String.ofList path.asPosix
  | .targetNotRegular path =>
    "Transaction target must be a regular file: " ++ String.ofList path.asPosix
  | .receiptNameUnsafe => "Unsafe transaction receipt name"
  | .receiptExists => "Transaction receipt already exists"
  | .receiptSize => s!"Transaction receipt must contain between 1 and {maxReceiptBytes} bytes"
  | .noManifest transaction =>
    "Transaction journal " ++ String.ofList transaction ++ " has no manifest"
  | .manifestSchema => "Unsupported transaction manifest schema"
  | .manifestWorkspace => "Transaction manifest belongs to another workspace"
  | .manifestPhase transaction =>
    "Transaction journal " ++ String.ofList transaction ++ " has invalid phase"
  | .rollbackTargetNotRegular path =>
    "Rollback target is not a regular file: " ++ String.ofList (path.getLastD [])
  | .recoveryFailed transaction cause =>
    "Could not recover transaction " ++ String.ofList transaction ++ ": " ++ cause.message
  | .rollbackFailed primary rollback =>
    "Transaction failed: " ++ primary.message ++ "; rollback failure: " ++ rollback.message
  | .os error => error.message
  | .raised message => message

/-- The parts of a `PurePosixPath`: empty and `.` components vanish. -/
def posixParts (text : Text) : List Text :=
  (text.splitOn '/').filter fun part => part ≠ [] && part ≠ ['.']

def normalize (raw : Text) : Except TransactionError Path :=
  let normalized := raw.map fun c => if c = '\\' then '/' else c
  if normalized = [] || normalized.head? = some '/' || (posixParts normalized).contains ['.', '.']
  then .error (.unsafePath raw)
  else .ok (posixParts normalized)

/-- What the plan so far says about the existence of a path. -/
abbrev Virtual := AList (fun _ : Path => Bool)

def virtualExists (t : Tree) (state : Virtual) (path : Path) : Bool :=
  match state.lookup path with
  | some known => known
  | none => t.present path

def assertRegularIfPresent (t : Tree) (path : Path) : Except TransactionError Unit :=
  if t.IsDir path then .error (.targetNotRegular path) else .ok ()

def validateAction (t : Tree) (index : Nat) (state : Virtual) :
    TransactionAction Text → Except TransactionError (TransactionAction Path × Virtual)
  | .writeFile raw data preserveMode => do
    let path ← normalize raw
    if ¬ virtualExists t state path then .error (.writeTargetMissing index path)
    else do
      assertRegularIfPresent t path
      .ok (.writeFile path data preserveMode, state)
  | .createFile raw data mode => do
    let path ← normalize raw
    if virtualExists t state path then .error (.createTargetExists index path)
    else if mode < 0 ∨ 0o777 < mode then .error (.createModeInvalid index)
    else .ok (.createFile path data mode, state.insert path true)
  | .deleteFile raw => do
    let path ← normalize raw
    if ¬ virtualExists t state path then .error (.deleteTargetMissing index path)
    else do
      assertRegularIfPresent t path
      .ok (.deleteFile path, state.insert path false)
  | .moveFile rawSource rawDestination => do
    let source ← normalize rawSource
    let destination ← normalize rawDestination
    if source = destination then .error (.moveEndsEqual index)
    else if ¬ virtualExists t state source then .error (.moveSourceMissing index source)
    else if virtualExists t state destination then
      .error (.moveDestinationExists index destination)
    else do
      assertRegularIfPresent t source
      .ok (.moveFile source destination, (state.insert source false).insert destination true)

def validateFrom (t : Tree) : Nat → Virtual → List (TransactionAction Text) →
    Except TransactionError (List (TransactionAction Path))
  | _, _, [] => .ok []
  | index, state, action :: rest => do
    let (validated, state) ← validateAction t index state action
    let others ← validateFrom t (index + 1) state rest
    .ok (validated :: others)

def validatePlan (t : Tree) (allowEmpty : Bool) (plan : List (TransactionAction Text)) :
    Except TransactionError (List (TransactionAction Path)) :=
  if plan = [] && !allowEmpty then .error .emptyPlan
  else if maxActions < plan.length then .error .tooManyActions
  else validateFrom t 0 ∅ plan

end RepoForge

/-!
## The transaction journal

Source: `adapters/filesystem/transaction.py`, `JournaledFileTransaction`: `_prepare`,
`_apply_action`, the commit receipt, `_rollback`, `_purge_transaction`, `recover_pending`
and `commit`, each as an interruptible procedure whose steps are the file-system calls
that change something.

`View` is the disk as one transaction sees it: the workspace tree, its own transaction
directory if there is one, and the receipt directory. The subdirectories `staged`,
`backups` and `trash` are represented by the files in them, `manifest.tmp` by its presence
(nothing reads it), and `fsync` by the failure of opening a path that is not there. The
manifest is kept decoded. The device check of `_prepare` and permissions are not modelled:
their failures are covered by stopping `commit` at an arbitrary step.
-/
namespace RepoForge

open Interruptible Interruptible.Proc

inductive Slot where
  | staged (index : Nat)
  | backup (index : Nat)
  | trash (index : Nat)
  | commitReceipt
  deriving DecidableEq, Repr

/-- One serialised action of the manifest. -/
inductive JournalAction where
  | write (path : Path) (stage backup : Slot) (preserveMode : Bool) (createdParents : List Path)
  | create (path : Path) (stage : Slot) (mode : Int) (createdParents : List Path)
  | delete (path : Path) (trash : Slot)
  | move (source destination : Path) (createdParents : List Path)
  deriving DecidableEq, Repr

def JournalAction.createdParents : JournalAction → List Path
  | .write _ _ _ _ parents | .create _ _ _ parents | .move _ _ parents => parents
  | .delete _ _ => []

inductive Phase where
  | prepared | committed | unknown
  deriving DecidableEq, Repr

structure Manifest where
  schemaVersion : Nat
  transactionId : Text
  workspaceKey : Text
  phase : Phase
  actions : List JournalAction
  commitReceipt : Option Text
  deriving DecidableEq, Repr

structure TxDir where
  slots : AList (fun _ : Slot => File)
  manifestTmp : Bool
  manifest : Option Manifest

inductive TxEntry where
  | slot (s : Slot)
  | manifestTmp
  | manifest
  deriving DecidableEq, Repr

namespace TxDir

def fresh : TxDir := ⟨∅, false, none⟩

def Has (d : TxDir) : TxEntry → Prop
  | .slot s => s ∈ d.slots
  | .manifestTmp => d.manifestTmp = true
  | .manifest => d.manifest ≠ none

def drop (d : TxDir) : TxEntry → TxDir
  | .slot s => { d with slots := d.slots.erase s }
  | .manifestTmp => { d with manifestTmp := false }
  | .manifest => { d with manifest := none }

def entries (d : TxDir) : List TxEntry :=
  d.slots.keys.map .slot ++ (if d.manifestTmp then [.manifestTmp] else []) ++
    (if d.manifest.isSome then [.manifest] else [])

end TxDir

/-- The engine of one workspace. `scan` is the order in which `shutil.rmtree` meets the
entries of a transaction directory; the operating system may choose any. -/
structure Engine where
  workspaceKey : Text
  scan : TxDir → List TxEntry
  scan_complete : ∀ d e, d.Has e → e ∈ scan d

/-- An engine whose directory listings come in the order of the slots. -/
def Engine.listing (key : Text) : Engine where
  workspaceKey := key
  scan := TxDir.entries
  scan_complete d e h := by
    cases e with
    | slot s => simp [TxDir.entries, AList.mem_keys.mp (show s ∈ d.slots from h)]
    | manifestTmp => simp [TxDir.entries, show d.manifestTmp = true from h]
    | manifest => simp [TxDir.entries, Option.isSome_iff_ne_none.mpr h]

structure View where
  tree : Tree
  tx : Option TxDir
  receipts : AList (fun _ : Text => Bytes)

abbrev Step := Proc View TransactionError

namespace View

def slot (v : View) (s : Slot) : Option File :=
  match v.tx with
  | none => none
  | some d => d.slots.lookup s

def onTree (change : Tree → Except OsError Tree) (v : View) : Except TransactionError View :=
  match change v.tree with
  | .ok tree => .ok { v with tree }
  | .error e => .error (.os e)

def onTx (change : TxDir → Except OsError TxDir) (v : View) : Except TransactionError View :=
  match v.tx with
  | none => .error (.os .fileNotFound)
  | some d =>
    match change d with
    | .ok d => .ok { v with tx := some d }
    | .error e => .error (.os e)

/-- `os.replace` of a workspace file to a place in the transaction directory. Validation
has seen a regular file at `path`. -/
def stash (path : Path) (s : Slot) (v : View) : Except TransactionError View :=
  match v.tree.node path, v.tx with
  | some (.file content), some d =>
    .ok { v with
      tree := v.tree.remove path
      tx := some { d with slots := d.slots.insert s content } }
  | some .dir, _ => .error (.os .isADirectory)
  | some (.file _), none => .error (.os .fileNotFound)
  | none, _ => .error (.os (v.tree.absent path))

/-- `os.replace` of a file in the transaction directory to a workspace path. -/
def unstash (s : Slot) (path : Path) (v : View) : Except TransactionError View :=
  match v.tx with
  | none => .error (.os .fileNotFound)
  | some d =>
    match d.slots.lookup s with
    | none => .error (.os .fileNotFound)
    | some content =>
      if v.tree.IsDir path then .error (.os .isADirectory)
      else if v.tree.IsDir path.dropLast then
        .ok { v with
          tree := v.tree.put path (.file content)
          tx := some { d with slots := d.slots.erase s } }
      else .error (.os (v.tree.absent path))

end View

def makeDirs : List Path → Step Unit
  | [] => pure ()
  | p :: rest => do
    step (View.onTree fun t => t.mkdir p)
    makeDirs rest

/-- The directories `mkdir(parents=True, exist_ok=True)` has to make for `p`, top down. -/
def Tree.missing (t : Tree) (p : Path) : List Path := p.inits.filter fun q => ¬ t.present q

def fsyncDir (p : Path) : Step Unit :=
  check fun v => if v.tree.present p then .ok () else .error (.os (v.tree.absent p))

/-- `_ensure_parent`. A file on the way is refused before any directory is made. -/
def ensureParent (path : Path) : Step Unit := do
  let t ← inspect View.tree
  if (t.fileAt path.dropLast).isSome then raise (.os .fileExists)
  else if t.underFile path.dropLast then raise (.os .notADirectory)
  else do
    makeDirs (t.missing path.dropLast)
    fsyncDir path.dropLast

/-- `_missing_parents`: up from the parent until something exists, then reversed. -/
def missingParents (t : Tree) (path : Path) : List Path :=
  (path.dropLast.inits.reverse.takeWhile fun q => ¬ t.present q).reverse

def serializeAction (t : Tree) (index : Nat) : TransactionAction Path → JournalAction
  | .writeFile path _ preserveMode =>
    .write path (.staged index) (.backup index) preserveMode (missingParents t path)
  | .createFile path _ mode => .create path (.staged index) mode (missingParents t path)
  | .deleteFile path => .delete path (.trash index)
  | .moveFile source destination => .move source destination (missingParents t destination)

def serializeFrom (t : Tree) : Nat → List (TransactionAction Path) → List JournalAction
  | _, [] => []
  | index, action :: rest => serializeAction t index action :: serializeFrom t (index + 1) rest

def stageMode : Nat := 0o600

/-- `_write_staged`: created empty, then written, then given its mode. -/
def writeStaged (s : Slot) (data : Bytes) (mode : Nat) : Step Unit := do
  step (View.onTx fun d => if s ∈ d.slots then .error .fileExists
    else .ok { d with slots := d.slots.insert s ⟨[], 0o644⟩ })
  step (View.onTx fun d => .ok { d with slots := d.slots.insert s ⟨data, 0o644⟩ })
  step (View.onTx fun d => .ok { d with slots := d.slots.insert s ⟨data, mode⟩ })

def stageAction (index : Nat) : TransactionAction Path → Step Unit
  | .writeFile _ data _ => writeStaged (.staged index) data stageMode
  | .createFile _ data mode => writeStaged (.staged index) data mode.toNat
  | .deleteFile _ | .moveFile _ _ => pure ()

def stageFrom : Nat → List (TransactionAction Path) → Step Unit
  | _, [] => pure ()
  | index, action :: rest => do
    stageAction index action
    stageFrom (index + 1) rest

def writeManifestTmp : Step Unit :=
  step (View.onTx fun d => .ok { d with manifestTmp := true })

def replaceManifest (m : Manifest) : Step Unit :=
  step (View.onTx fun d => .ok { d with manifestTmp := false, manifest := some m })

/-- `_write_manifest`: a temporary file, then one atomic replacement. -/
def writeManifest (m : Manifest) : Step Unit := do
  writeManifestTmp
  replaceManifest m

def makeTxDir : Step Unit :=
  step fun v => match v.tx with
    | some _ => .error (.os .fileExists)
    | none => .ok { v with tx := some .fresh }

def preparedManifest (E : Engine) (id : Text) (t : Tree)
    (actions : List (TransactionAction Path)) : Manifest where
  schemaVersion := 1
  transactionId := id
  workspaceKey := E.workspaceKey
  phase := .prepared
  actions := serializeFrom t 0 actions
  commitReceipt := none

def prepare (E : Engine) (id : Text) (actions : List (TransactionAction Path)) :
    Step Manifest := do
  makeTxDir
  stageFrom 0 actions
  let t ← inspect View.tree
  writeManifest (preparedManifest E id t actions)
  pure (preparedManifest E id t actions)

/-- `os.chmod` of a file in the transaction directory to the mode of a workspace file. -/
def View.copyMode (path : Path) (s : Slot) (v : View) : Except TransactionError View :=
  match v.tree.fileAt path, v.tx with
  | some content, some d =>
    match d.slots.lookup s with
    | some staged => .ok { v with
        tx := some { d with slots := d.slots.insert s ⟨staged.data, content.mode⟩ } }
    | none => .error (.os .fileNotFound)
  | _, _ => .error (.os .fileNotFound)

/-- The staged copy takes the mode of the file it will replace, where that is asked for. -/
def preserveStageMode (index : Nat) (path : Path) : Bool → Step Unit
  | true => step (View.copyMode path (.staged index))
  | false => pure ()

def applyAction (index : Nat) : TransactionAction Path → Step Unit
  | .writeFile path _ preserveMode => do
    ensureParent path
    preserveStageMode index path preserveMode
    step (View.stash path (.backup index))
    fsyncDir path.dropLast
    step (View.unstash (.staged index) path)
    fsyncDir path.dropLast
  | .createFile path _ _ => do
    ensureParent path
    step (View.unstash (.staged index) path)
    fsyncDir path.dropLast
  | .deleteFile path => do
    step (View.stash path (.trash index))
    fsyncDir path.dropLast
  | .moveFile source destination => do
    ensureParent destination
    step (View.onTree fun t => t.rename source destination)
    fsyncDir source.dropLast
    fsyncDir destination.dropLast

def applyFrom : Nat → List (TransactionAction Path) → Step Unit
  | _, [] => pure ()
  | index, action :: rest => do
    applyAction index action
    applyFrom (index + 1) rest

/-- `_SAFE_RECEIPT_NAME`: a lowercase letter, then 7 to 199 of `a-z0-9_.-`. -/
def safeReceiptName (name : Text) : Bool :=
  match name with
  | [] => false
  | first :: rest =>
    first.isLower && 7 ≤ rest.length && rest.length ≤ 199 &&
      rest.all fun c => c.isLower || c.isDigit || c = '_' || c = '.' || c = '-'

/-- The checks of `_prepare_commit_receipt` and the staged copy of the receipt. -/
def stageReceipt (name : Text) (payload : Bytes) : Step Unit := do
  check fun v =>
    if !safeReceiptName name then .error .receiptNameUnsafe
    else if name ∈ v.receipts then .error .receiptExists
    else if payload = [] || maxReceiptBytes < payload.length then .error .receiptSize
    else .ok ()
  writeStaged .commitReceipt payload stageMode

/-- `_apply_commit_receipt`: publish by one replacement. -/
def applyCommitReceipt (name : Text) : Step Unit :=
  step fun v =>
    if name ∈ v.receipts then .error .receiptExists
    else match v.tx with
      | none => .error (.os .fileNotFound)
      | some d => match d.slots.lookup .commitReceipt with
        | none => .error (.os .fileNotFound)
        | some staged => .ok { v with
            tx := some { d with slots := d.slots.erase .commitReceipt }
            receipts := v.receipts.insert name staged.data }

def rollbackCommitReceipt (m : Manifest) : Step Unit :=
  match m.commitReceipt with
  | none => pure ()
  | some name => do
    let published ← inspect fun v => decide (name ∈ v.receipts)
    if published then step fun v => .ok { v with receipts := v.receipts.erase name }
    else pure ()

def unlinkFileIfPresent (path : Path) : Step Unit := do
  match ← inspect fun v => v.tree.node path with
  | none => pure ()
  | some (.file _) => step (View.onTree fun t => t.unlink path)
  | some .dir => raise (.rollbackTargetNotRegular path)

/-- The undo of `write` and of `delete`: put the saved file back where it was. -/
def restoreSaved (path : Path) (saved : Slot) : Step Unit := do
  let found ← inspect fun v => (v.slot saved).isSome
  if found then do
    unlinkFileIfPresent path
    ensureParent path
    step (View.unstash saved path)
    fsyncDir path.dropLast
  else pure ()

def rollbackAction : JournalAction → Step Unit
  | .write path _ backup _ _ => restoreSaved path backup
  | .create path stage _ _ => do
    let staged ← inspect fun v => (v.slot stage).isSome
    if staged then pure ()
    else do
      unlinkFileIfPresent path
      fsyncDir path.dropLast
  | .delete path trash => restoreSaved path trash
  | .move source destination _ => do
    let moved ← inspect fun v => v.tree.present destination && !v.tree.present source
    if moved then do
      ensureParent source
      step (View.onTree fun t => t.rename destination source)
      fsyncDir source.dropLast
      fsyncDir destination.dropLast
    else pure ()

/-- The undo loop, from the last entry to the first. -/
def rollbackActions : List JournalAction → Step Unit
  | [] => pure ()
  | entry :: rest => do
    rollbackActions rest
    rollbackAction entry

/-- The set of created parents, deepest first. -/
def rollbackParents (entries : List JournalAction) : List Path :=
  (entries.flatMap JournalAction.createdParents).dedup.insertionSort
    fun a b => b.length ≤ a.length

def removeParent (p : Path) : Step Unit := do
  match ← inspect fun v => v.tree.rmdir p with
  | .ok _ => step (View.onTree fun t => t.rmdir p)
  | .error .fileNotFound => pure ()
  | .error e => do
    let occupied ← inspect fun v => decide (v.tree.IsDir p) && !v.tree.emptyDir p
    if occupied then pure () else raise (.os e)

def removeParents : List Path → Step Unit
  | [] => pure ()
  | p :: rest => do
    removeParent p
    removeParents rest

def removeEntries : List TxEntry → Step Unit
  | [] => pure ()
  | e :: rest => do
    step (View.onTx fun d => .ok (d.drop e))
    removeEntries rest

/-- `_purge_transaction`: `shutil.rmtree`, one deletion after another. -/
def purge (E : Engine) : Step Unit := do
  let d ← check fun v => match v.tx with
    | none => .error (.os .fileNotFound)
    | some d => .ok d
  removeEntries (E.scan d)
  step fun v => .ok { v with tx := none }

def rollback (E : Engine) (m : Manifest) : Step Unit := do
  rollbackCommitReceipt m
  rollbackActions m.actions
  removeParents (rollbackParents m.actions)
  purge E

/-- `_read_manifest`: the checks on a manifest that parses. -/
def readManifest (E : Engine) (m : Manifest) : Except TransactionError Manifest :=
  if m.schemaVersion ≠ 1 then .error .manifestSchema
  else if m.workspaceKey ≠ E.workspaceKey then .error .manifestWorkspace
  else match m.commitReceipt with
    | none => .ok m
    | some name => if safeReceiptName name then .ok m else .error .receiptNameUnsafe

inductive Recovered where
  | rolledBack | finalized
  deriving DecidableEq, Repr

/-- The body of the loop of `recover_pending`, for a directory that exists. -/
def recoverTransaction (E : Engine) (id : Text) : Step Recovered := do
  match ← inspect fun v => v.tx.bind TxDir.manifest with
  | none => raise (.noManifest id)
  | some raw => do
    let m ← check fun _ => readManifest E raw
    match m.phase with
    | .committed => do
      purge E
      pure .finalized
    | .prepared => do
      handle (rollback E m) fun cause => raise (.recoveryFailed id cause)
      pure .rolledBack
    | .unknown => raise (.manifestPhase id)

/-- Everything on disk: the workspace and its journal and receipt directories. -/
structure World where
  tree : Tree
  journal : AList (fun _ : Text => TxDir)
  receipts : AList (fun _ : Text => Bytes)

namespace World

def view (id : Text) (w : World) : View := ⟨w.tree, w.journal.lookup id, w.receipts⟩

def update (id : Text) (w : World) (v : View) : World where
  tree := v.tree
  journal := match v.tx with
    | some d => w.journal.insert id d
    | none => w.journal.erase id
  receipts := v.receipts

def inTransaction {α : Type} (id : Text) (body : Step α) : Proc World TransactionError α :=
  zoom (view id) (update id) body

end World

structure RecoveryReport where
  rolledBack : Nat
  finalized : Nat
  deriving DecidableEq, Repr

def RecoveryReport.count (report : RecoveryReport) : Recovered → RecoveryReport
  | .rolledBack => { report with rolledBack := report.rolledBack + 1 }
  | .finalized => { report with finalized := report.finalized + 1 }

def recoverEach (E : Engine) : List Text → RecoveryReport →
    Proc World TransactionError RecoveryReport
  | [], report => pure report
  | id :: rest, report => do
    let there ← inspect fun w : World => (w.journal.lookup id).isSome
    if there then do
      let outcome ← World.inTransaction id (recoverTransaction E id)
      recoverEach E rest (report.count outcome)
    else recoverEach E rest report

/-- `recover_pending`: the directories under the journal root in name order. -/
def recoverPending (E : Engine) : Proc World TransactionError RecoveryReport := do
  let ids ← inspect fun w : World => w.journal.keys.insertionSort fun a b => a ≤ b
  recoverEach E ids ⟨0, 0⟩

/-- `load_commit_receipt`, on receipts that are regular files. -/
def loadCommitReceipt (name : Text) : Proc World TransactionError (Option Bytes) :=
  check fun w => if safeReceiptName name then .ok (w.receipts.lookup name)
    else .error .receiptNameUnsafe

/-- The callbacks of one `commit`, which see the applied tree. Their exceptions are their own:
`commit` knows them by their message only. -/
structure CommitOptions where
  precommitValidator : Tree → Except String Unit
  commitReceiptFactory : Option (Text → List Text → Tree → Except String (Text × Bytes))

def callback {α : Type} : Except String α → Except TransactionError α
  | .ok value => .ok value
  | .error message => .error (.raised message)

structure TransactionReceipt where
  transactionId : Text
  changedPaths : List Text
  deriving DecidableEq, Repr

def changedPaths (actions : List (TransactionAction Path)) : List Text :=
  (actions.flatMap fun a => a.paths.map Path.asPosix).dedup.insertionSort fun a b => a ≤ b

/-- `_remove_unprepared`. -/
def removeUnprepared (E : Engine) : Step Unit := do
  let there ← inspect fun v => v.tx.isSome
  if there then purge E else pure ()

/-- The handler of `commit` once there is a manifest: roll back, then raise again. -/
def rollbackAndRaise {α : Type} (E : Engine) (m : Manifest) (primary : TransactionError) :
    Step α := do
  handle (rollback E m) fun failure => raise (.rollbackFailed primary failure)
  raise primary

/-- The precommit validator and the staged commit receipt, after the actions. -/
def stageCommitReceipt (o : CommitOptions) (id : Text)
    (actions : List (TransactionAction Path)) : Step (Option Text) := do
  check fun v => callback (o.precommitValidator v.tree)
  match o.commitReceiptFactory with
  | none => pure none
  | some factory => do
    let (name, payload) ← check fun v => callback (factory id (changedPaths actions) v.tree)
    stageReceipt name payload
    pure (some name)

/-- Manifest with receipt, then the receipt itself. -/
def publishReceipt (m : Manifest) : Step Unit :=
  match m.commitReceipt with
  | none => pure ()
  | some name => do
    writeManifest m
    applyCommitReceipt name

/-- `commit` up to the replacement that makes the committed marker. The `try` block of the
source is cut where the manifest in memory changes; its handler raises again, so a failure
ends the whole block wherever it is cut. -/
def untilMarker (E : Engine) (o : CommitOptions) (id : Text)
    (actions : List (TransactionAction Path)) : Step Manifest := do
  let m ← handle (prepare E id actions) fun primary => do
    removeUnprepared E
    raise primary
  let name ← handle (do applyFrom 0 actions; stageCommitReceipt o id actions)
    (rollbackAndRaise E m)
  let m := { m with commitReceipt := name }
  handle (do publishReceipt m; writeManifestTmp) (rollbackAndRaise E m)
  pure m

def markerWritten (m : Manifest) : Manifest := { m with phase := .committed }

def commitTransaction (E : Engine) (o : CommitOptions) (id : Text)
    (actions : List (TransactionAction Path)) : Step TransactionReceipt := do
  let m ← untilMarker E o id actions
  handle (do replaceManifest (markerWritten m); purge E) (rollbackAndRaise E m)
  pure ⟨id, changedPaths actions⟩

/-- `commit`. The transaction id is the fresh name the engine draws. -/
def commit (E : Engine) (o : CommitOptions) (id : Text) (plan : List (TransactionAction Text)) :
    Proc World TransactionError TransactionReceipt := do
  let actions ← check fun w : World => validatePlan w.tree o.commitReceiptFactory.isSome plan
  let _ ← recoverPending E
  World.inTransaction id (commitTransaction E o id actions)

end RepoForge
