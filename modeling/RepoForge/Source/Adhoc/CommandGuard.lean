import RepoForge.Library.PyDict
import RepoForge.Library.PyStr

/-!
# The guard of the ad-hoc command runner

`classify_adhoc_command` of `domain/adhoc.py`, with what it calls.
-/
namespace RepoForge.Adhoc

open PyStr (lit)

inductive ErrorCode where
  | adhocCommandForbidden
  deriving DecidableEq, Repr

/-- `_adhoc_error` -/
structure AdhocError where
  message : PyStr
  code : ErrorCode
  unchangedState : List PyStr
  safeNextAction : PyStr
  deriving DecidableEq, Repr

inductive CommandClass where
  | readOnly
  | mutating
  deriving DecidableEq, Repr

/-- `_GIT_READ_ONLY_SUBCOMMANDS` -/
def gitReadOnlySubcommands : List PyStr :=
  [lit "status", lit "log", lit "diff", lit "show", lit "rev-parse", lit "rev-list",
    lit "describe", lit "cat-file", lit "ls-files", lit "ls-tree", lit "ls-remote", lit "blame",
    lit "shortlog", lit "whatchanged", lit "grep", lit "name-rev", lit "for-each-ref",
    lit "show-ref", lit "merge-base", lit "diff-tree", lit "count-objects", lit "verify-commit",
    lit "fsck", lit "var", lit "version", lit "help", lit "fetch"]

/-- `_GIT_MUTATING_TOKENS` -/
def gitMutatingTokens : List (PyStr × List PyStr) :=
  [(lit "branch",
      [lit "-d", lit "-D", lit "-m", lit "-M", lit "-c", lit "-C", lit "--delete", lit "--move",
        lit "--copy", lit "--edit-description", lit "--set-upstream-to", lit "--unset-upstream",
        lit "-f", lit "--force"]),
    (lit "remote",
      [lit "add", lit "remove", lit "rm", lit "rename", lit "set-url", lit "set-head",
        lit "prune", lit "update"]),
    (lit "symbolic-ref", [lit "-d", lit "--delete"]),
    (lit "config",
      [lit "--unset", lit "--unset-all", lit "--add", lit "--replace-all", lit "--edit", lit "-e",
        lit "--set"])]

/-- `_GIT_BLOCKED_SUBCOMMANDS` -/
def gitBlockedSubcommands : List PyStr := [lit "filter-branch", lit "filter-repo"]

/-- `_GIT_GLOBAL_VALUE_OPTIONS` -/
def gitGlobalValueOptions : List PyStr :=
  [lit "-C", lit "-c", lit "--git-dir", lit "--work-tree", lit "--namespace",
    lit "--super-prefix", lit "--exec-path"]

/-- `[0-9a-fA-F]{7,64}$`; the `$` also stands before a line feed at the end. -/
def isExpectedSha (sha : PyStr) : Bool :=
  let digits := if sha.getLast? = some (.scalar '\n') then sha.dropLast else sha
  decide (7 ≤ digits.length) && decide (digits.length ≤ 64) && digits.all (·.within Char.isHexDigit)

/-- `_FORCE_WITH_LEASE_EXACT.match`: no colon is in what is before the first one. -/
def forceWithLeaseExact (token : PyStr) : Bool :=
  (lit "--force-with-lease=").isPrefixOf token &&
    let (ref, found, sha) :=
      PyStr.partition (lit ":") (token.drop (lit "--force-with-lease=").length)
    decide (ref ≠ []) && ref.all (fun c => !c.within PyText.isSpace) && found && isExpectedSha sha

/-- `_git_subcommand` -/
def gitSubcommand : List PyStr → Option PyStr × List PyStr
  | [] => (none, [])
  | token :: rest =>
    if ¬(lit "-").isPrefixOf token then (some token, rest)
    else if token ∈ gitGlobalValueOptions then
      match rest with
      | [] => (none, [])
      | _ :: rest => gitSubcommand rest
    else gitSubcommand rest

/-- `_has_short_flag` -/
def hasShortFlag (args : List PyStr) (letter : Char) : Bool :=
  args.any fun token =>
    (lit "-").isPrefixOf token && !(lit "--").isPrefixOf token &&
      decide (.scalar letter ∈ token.drop 1)

/-- `token == "--exec" or token.startswith("--exec=")` -/
def isExec (token : PyStr) : Bool :=
  decide (token = lit "--exec") || (lit "--exec=").isPrefixOf token

/-- The tokens that no push may have. -/
def pushTokens : List PyStr :=
  [lit "--force", lit "-f", lit "--force-if-includes", lit "--mirror", lit "--delete", lit "-d"]

/-- What is said of a lease in a push that is not exact. -/
def leaseReason (token : PyStr) : Option PyStr :=
  if token = lit "--force-with-lease" then
    some (lit ("bare --force-with-lease is not exact-state bound; use " ++
      "--force-with-lease=<ref>:<sha>"))
  else if (lit "--force-with-lease=").isPrefixOf token ∧ ¬forceWithLeaseExact token then
    some (lit "--force-with-lease must be the exact --force-with-lease=<ref>:<sha> form")
  else none

/-- What is said of a push. -/
def pushReason (rest : List PyStr) : Option PyStr :=
  if rest.any fun token => decide (token ∈ pushTokens) then
    some (lit ("force, mirror, and delete pushes are not permitted; only " ++
      "--force-with-lease=<ref>:<sha> is allowed"))
  else rest.findSome? leaseReason

/-- The reason for which `_assert_git_command_allowed` raises, if it does. -/
def blockedReason (subcommand : PyStr) (rest : List PyStr) : Option PyStr :=
  if subcommand ∈ gitBlockedSubcommands then
    some (lit "history rewriting is not permitted through the ad-hoc runner")
  else if rest.any isExec then
    some (lit "--exec runs arbitrary commands and is not permitted")
  else if subcommand = lit "rebase" ∧ lit "-x" ∈ rest then
    some (lit "rebase -x runs arbitrary commands and is not permitted")
  else if subcommand = lit "push" then pushReason rest
  else if subcommand = lit "reflog" ∧
      rest.any (fun token => decide (token ∈ [lit "expire", lit "delete"])) then
    some (lit "reflog expire/delete destroys recovery history and is not permitted")
  else if subcommand = lit "update-ref" ∧
      rest.any (fun token => decide (token ∈ [lit "-d", lit "--delete"])) then
    some (lit "update-ref delete removes refs directly and is not permitted")
  else if subcommand = lit "clean" ∧ (lit "--force" ∈ rest ∨ hasShortFlag rest 'f') then
    some (lit "git clean --force irreversibly deletes untracked files")
  else none

def blocked (subcommand reason : PyStr) : AdhocError where
  message := lit "git " ++ subcommand ++ lit ": " ++ reason
  code := .adhocCommandForbidden
  unchangedState := [lit "The workspace, configuration, and remote state were not modified."]
  safeNextAction := lit ("This irreversible or history-rewriting form is blocked. Use the " ++
    "reviewed typed tools (workspace_push for pushing, workspace_refresh for base integration) " ++
    "or ask the operator to perform it directly.")

/-- The class of a subcommand that is not blocked. -/
def commandClass (subcommand : PyStr) (rest : List PyStr) : CommandClass :=
  if subcommand ∈ gitReadOnlySubcommands then .readOnly
  else
    match PyDict.get gitMutatingTokens subcommand with
    | none => .mutating
    | some mutatingTokens =>
      let mutates := rest.any fun token => decide (token ∈ mutatingTokens)
      if subcommand = lit "config" then
        let reads := rest.any fun token =>
          (lit "--get").isPrefixOf token || decide (token ∈ [lit "--list", lit "-l"])
        if reads ∧ ¬mutates then .readOnly else .mutating
      else if mutates then .mutating else .readOnly

/-- `_assert_git_command_allowed` -/
def assertGitCommandAllowed (subcommand : PyStr) (rest : List PyStr) :
    Except AdhocError CommandClass :=
  match blockedReason subcommand rest with
  | some reason => .error (blocked subcommand reason)
  | none => .ok (commandClass subcommand rest)

def classifyAdhocCommand (argv : List PyStr) : Except AdhocError (Option CommandClass) :=
  match argv with
  | [] => .ok none
  | runner :: args =>
    if runner ≠ lit "git" then .ok none
    else
      match gitSubcommand args with
      | (none, _) => .ok none
      | (some subcommand, rest) => (assertGitCommandAllowed subcommand rest).map some

end RepoForge.Adhoc
