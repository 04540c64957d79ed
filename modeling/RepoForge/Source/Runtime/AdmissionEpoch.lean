import RepoForge.Library.PyText

/-!
# The durable worker-admission epoch

`JsonAdmissionEpochStore` of `adapters/persistence/json_admission_epoch.py`. Every operation reads
and rewrites the record under one lock, so it is one step; the record is written by a rename, so a
process that dies, or has to give up the lock, has either done its step or nothing.
-/
namespace RepoForge.Admission

inductive AdmissionState where
  | opened
  | closing
  deriving DecidableEq

structure Permit where
  epoch : Int
  token : Text
  target : Option Text
  used : Bool
  deriving DecidableEq

/-- What `_read_all` returns. -/
structure EpochRecord where
  epoch : Int
  state : AdmissionState
  permit : Option Permit
  deriving DecidableEq

/-- The record, if it was ever written. -/
abbrev EpochFile := Option EpochRecord

/-- `_read_all` -/
def readAll (file : EpochFile) : EpochRecord := file.getD ⟨1, .opened, none⟩

inductive AdmissionCall where
  | openNext
  | close
  /-- with the token that is drawn -/
  | issuePermit (target : Option Text) (token : Text)
  | claimPermit (epoch : Int) (token : Text) (target : Option Text)
  /-- of a process that does nothing -/
  | fails
  deriving DecidableEq

def openNext (file : EpochFile) : EpochFile :=
  let record := readAll file
  some ⟨record.epoch + 1, .opened, none⟩

def close (file : EpochFile) : EpochFile :=
  let record := readAll file
  some ⟨record.epoch, .closing, none⟩

def issuePermit (target : Option Text) (token : Text) (file : EpochFile) : EpochFile :=
  let record := readAll file
  some ⟨record.epoch, record.state, some ⟨record.epoch, token, target, false⟩⟩

/-- The permit that `claim_permit` would take. -/
def claimable (epoch : Int) (token : Text) (target : Option Text) (record : EpochRecord) :
    Option Permit :=
  if record.state ≠ .closing ∨ record.epoch ≠ epoch then none
  else
    match record.permit with
    | none => none
    | some permit =>
      if permit.epoch ≠ epoch then none
      else if permit.used ∨ permit.token ≠ token then none
      else if permit.target ≠ none ∧ permit.target ≠ target then none
      else some permit

/-- The answer of `claim_permit`. -/
def claims (epoch : Int) (token : Text) (target : Option Text) (file : EpochFile) : Bool :=
  (claimable epoch token target (readAll file)).isSome

def claimPermit (epoch : Int) (token : Text) (target : Option Text) (file : EpochFile) :
    EpochFile :=
  let record := readAll file
  match claimable epoch token target record with
  | none => file
  | some permit => some ⟨record.epoch, record.state, some { permit with used := true }⟩

def step (file : EpochFile) : AdmissionCall → EpochFile
  | .openNext => openNext file
  | .close => close file
  | .issuePermit target token => issuePermit target token file
  | .claimPermit epoch token target => claimPermit epoch token target file
  | .fails => file

end RepoForge.Admission
