import RepoForge.Library.PyDict
import RepoForge.Library.PyJson

/-!
# The agent secret

The credential file of `adapters/activation/release_store.py`: `write_agent_env`, and its only
reader with the grammar. Which characters are printable is given.
-/
namespace RepoForge.AgentSecret

def agentSecretKey : PyStr := PyStr.lit "CONTROL_PLANE_API_KEY"

def agentSecretMaxBytes : Nat := 8192

inductive ConfigError where
  | keyUnsupported (unsupported : List PyStr)
  | keyMissing
  | valueInvalid
  | secretUnusable (problems : List String)
  deriving DecidableEq, Repr

/-- `encode("utf-8")` of what can be encoded. -/
def encode (s : PyStr) : Bytes := PyStr.utf8 (PyStr.replaced s)

/-! ### The grammar -/

section Grammar

variable (printable : Char → Bool)

/-- `_valid_secret_value` -/
def validSecretValue (value : PyStr) : Bool :=
  value ≠ [] && value.all (·.within printable) && !value.any (·.within PyText.isSpace)

/-- `text.split("\n")` without the last line where it is empty. -/
def lines (text : PyStr) : List PyStr :=
  let lines := text.splitOn (.scalar '\n')
  if lines.getLast? = some [] then lines.dropLast else lines

/-- `_parse_agent_secret`: whether the key is there, its value and whether the bytes are in the
grammar. -/
def parseAgentSecret (raw : Bytes) : Bool × PyStr × Bool :=
  if agentSecretMaxBytes < raw.length then (false, [], false)
  else
    match PyStr.decode raw with
    | none => (false, [], false)
    | some text =>
      match lines (PyStr.ofText text) with
      | [line] =>
        let (name, separator, value) := PyStr.partition (PyStr.lit "=") line
        if !separator || name ≠ agentSecretKey then (false, [], false)
        else if value = [] then (true, [], true)
        else if !validSecretValue printable value then (true, [], false)
        else (true, value, true)
      | _ => (false, [], false)

end Grammar

/-! ### The file -/

/-- What is at the path. -/
inductive Node where
  | absent
  | symlink
  /-- `open` raises another `OSError`. -/
  | refused
  /-- No regular file. -/
  | special (owned : Bool)
  /-- A regular file whose status or content cannot be read. -/
  | unreadable
  | regular (owned : Bool) (mode : Nat) (content : Bytes)
  deriving DecidableEq, Repr

/-- `_read_all`. A read gives at least a byte until the file ends, and no more than it is asked for:
`given` says how many more than one where so many have been read. -/
def readAll (given : Nat → Nat) (limit total : Nat) (left : Bytes) : Bytes :=
  if limit ≤ total ∨ left = [] then []
  else
    let size := min (given total + 1) (min 65536 (limit - total))
    left.take size ++ readAll given limit (total + size) (left.drop size)
termination_by limit - total
decreasing_by omega

structure AgentSecretStatus where
  found : Bool := false
  regularFile : Bool := false
  ownerMatches : Bool := false
  modeSecure : Bool := false
  keyPresent : Bool := false
  valueNonempty : Bool := false
  parseValid : Bool := false
  keys : List PyStr := []
  deriving DecidableEq, Repr

namespace AgentSecretStatus

def usable (status : AgentSecretStatus) : Bool :=
  status.found && status.regularFile && status.ownerMatches && status.modeSecure &&
    status.keyPresent && status.valueNonempty && status.parseValid

def problems (status : AgentSecretStatus) : List String :=
  if !status.found then ["no durable secret file exists"]
  else
    (if status.regularFile then []
      else ["the path is not a readable regular file (a symlink is never followed)"]) ++
    (if status.ownerMatches then [] else ["the file is owned by another user"]) ++
    (if status.modeSecure then [] else ["the file is not mode 0600"]) ++
    (if !status.keyPresent then ["CONTROL_PLANE_API_KEY is absent"]
      else if !status.valueNonempty then ["CONTROL_PLANE_API_KEY is empty"] else []) ++
    (if status.parseValid then []
      else ["the file is not exactly one `CONTROL_PLANE_API_KEY=<value>` line (it is read as data, never evaluated as shell)"])

end AgentSecretStatus

section Store

variable (printable : Char → Bool) (given : Nat → Nat)

def inspectAgentSecret : Node → AgentSecretStatus × PyStr
  | .absent => ({}, [])
  | .symlink => ({ found := true, regularFile := false }, [])
  | .refused => ({ found := true }, [])
  | .special owned => ({ found := true, regularFile := false, ownerMatches := owned }, [])
  | .unreadable => ({ found := true, regularFile := true }, [])
  | .regular owned mode content =>
    let raw := readAll given (agentSecretMaxBytes + 1) 0 content
    let (keyPresent, secret, parseValid) := parseAgentSecret printable raw
    ({ found := true
       regularFile := true
       ownerMatches := owned
       modeSecure := mode = 0o600
       keyPresent := keyPresent
       valueNonempty := secret ≠ []
       parseValid := parseValid
       keys := if keyPresent then [agentSecretKey] else [] }, secret)

/-- The bytes that `write_agent_env` writes. -/
def writeAgentEnv (values : List (PyStr × PyStr)) : Except ConfigError Bytes :=
  let unsupported := PyStr.sortedDistinct ((values.map (·.1)).filter fun key => key ≠ agentSecretKey)
  if unsupported ≠ [] then .error (.keyUnsupported unsupported)
  else
    match PyDict.get values agentSecretKey with
    | none => .error .keyMissing
    | some value =>
      if !validSecretValue printable value then .error .valueInvalid
      else .ok (encode (agentSecretKey ++ PyStr.lit "=" ++ value ++ PyStr.lit "\n"))

/-- The mode of the file that `write_agent_env` writes. -/
def agentEnvMode : Nat := 0o600

def loadAgentSecret (node : Node) : Except ConfigError PyStr :=
  let (status, secret) := inspectAgentSecret printable given node
  if !status.usable then .error (.secretUnusable status.problems) else .ok secret

end Store

end RepoForge.AgentSecret
