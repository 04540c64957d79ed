import RepoForge.Library.CommandLine

/-!
# What `git push` reads in its arguments

The options before the subcommand, the table of the options after it, and the refspecs, as git's
manual has them; git's configuration adds nothing, and of the values only those of leases are looked
at. What git refuses for its options or refspecs is no push. A push is destructive where, in some
repository, it overwrites a ref that its new value does not follow, or deletes one; an exact lease
`<ref>:<sha>` excuses it.
-/
namespace RepoForge.GitPush

open PyStr (lit)
open CommandLine

/-! ### Before the subcommand -/

/-- Global options whose value is the next argument. -/
def separateGlobals : List PyStr :=
  [lit "-C", lit "-c", lit "--git-dir", lit "--work-tree", lit "--namespace", lit "--config-env",
    lit "--attr-source"]

def switchGlobals : List PyStr :=
  [lit "-p", lit "--paginate", lit "-P", lit "--no-pager", lit "--no-replace-objects",
    lit "--no-lazy-fetch", lit "--no-optional-locks", lit "--no-advice", lit "--bare",
    lit "--literal-pathspecs", lit "--no-literal-pathspecs", lit "--glob-pathspecs",
    lit "--noglob-pathspecs", lit "--icase-pathspecs"]

/-- Global options with the value behind `=`. -/
def attachedGlobals : List PyStr :=
  [lit "--exec-path=", lit "--git-dir=", lit "--work-tree=", lit "--namespace=",
    lit "--config-env=", lit "--attr-source="]

structure Command where
  /-- the global options whose value was an argument of its own -/
  separate : List PyStr
  subcommand : PyStr
  args : List PyStr
  deriving DecidableEq

/-- What follows `git`; nothing where an option is unknown, or ends git's run. -/
def command : List PyStr → Option Command
  | [] => none
  | token :: rest =>
    if ¬(lit "-").isPrefixOf token then some ⟨[], token, rest⟩
    else if token ∈ separateGlobals then
      match rest with
      | [] => none
      | _ :: rest => (command rest).map fun found =>
          { found with separate := token :: found.separate }
    else if token ∈ switchGlobals ∨ attachedGlobals.any (·.isPrefixOf token) then command rest
    else none

/-! ### The options of the subcommand -/

inductive PushOption where
  | verbose | quiet | repo | all | mirror | delete | tags | dryRun | porcelain | force
  | forceWithLease | forceIfIncludes | recurseSubmodules | thin | receivePack | setUpstream
  | progress | prune | verify | followTags | signed | atomic | pushOption | ipv4 | ipv6
  deriving DecidableEq

def pushOptions : List (Opt PushOption) :=
  [⟨.verbose, lit "verbose", some 'v', .never, true⟩,
    ⟨.quiet, lit "quiet", some 'q', .never, true⟩,
    ⟨.repo, lit "repo", none, .always, true⟩,
    ⟨.all, lit "all", none, .never, true⟩,
    ⟨.all, lit "branches", none, .never, true⟩,
    ⟨.mirror, lit "mirror", none, .never, true⟩,
    ⟨.delete, lit "delete", some 'd', .never, true⟩,
    ⟨.tags, lit "tags", none, .never, true⟩,
    ⟨.dryRun, lit "dry-run", some 'n', .never, true⟩,
    ⟨.porcelain, lit "porcelain", none, .never, true⟩,
    ⟨.force, lit "force", some 'f', .never, true⟩,
    ⟨.forceWithLease, lit "force-with-lease", none, .attached, true⟩,
    ⟨.forceIfIncludes, lit "force-if-includes", none, .never, true⟩,
    ⟨.recurseSubmodules, lit "recurse-submodules", none, .always, true⟩,
    ⟨.thin, lit "thin", none, .never, true⟩,
    ⟨.receivePack, lit "receive-pack", none, .always, true⟩,
    ⟨.receivePack, lit "exec", none, .always, true⟩,
    ⟨.setUpstream, lit "set-upstream", some 'u', .never, true⟩,
    ⟨.progress, lit "progress", none, .never, true⟩,
    ⟨.prune, lit "prune", none, .never, true⟩,
    ⟨.verify, lit "verify", none, .never, true⟩,
    ⟨.followTags, lit "follow-tags", none, .never, true⟩,
    ⟨.signed, lit "signed", none, .attached, true⟩,
    ⟨.atomic, lit "atomic", none, .never, true⟩,
    ⟨.pushOption, lit "push-option", some 'o', .always, true⟩,
    ⟨.ipv4, lit "ipv4", some '4', .never, false⟩,
    ⟨.ipv6, lit "ipv6", some '6', .never, false⟩]

/-! ### Refspecs -/

/-- The name of a ref, which need not have a slash; `starred` allows one `*` in it. -/
def validRefName (starred : Bool) (name : PyStr) : Bool :=
  let refused : List Char := [' ', '~', '^', ':', '?', '[', '\\', Char.ofNat 127]
  decide (name ≠ lit "@") && decide (name.getLast? ≠ some (.scalar '.')) &&
    !name.contains (lit "..") && !name.contains (lit "@\x7b") &&
    name.all (fun c => !c.within fun c => decide (c.toNat < 32) || refused.contains c) &&
    decide (name.count (.scalar '*') ≤ if starred then 1 else 0) &&
    (name.splitOn (.scalar '/')).all fun part =>
      decide (part ≠ []) && decide (part.head? ≠ some (.scalar '.')) &&
        !(lit ".lock").isSuffixOf part

structure Refspec where
  /-- a leading `+` -/
  forced : Bool
  src : PyStr
  dst : Option PyStr
  deriving DecidableEq

/-- Before and after the last colon. -/
def lastColon (text : PyStr) : Option (PyStr × PyStr) :=
  let (after, found, before) := PyStr.partition (lit ":") text.reverse
  if found then some (before.reverse, after.reverse) else none

def isStarred (name : PyStr) : Bool := decide (.scalar '*' ∈ name)

/-- `[+]<src>[:<dst>]`; `:` alone is the refs that both sides have. -/
def Refspec.read (text : PyStr) : Option Refspec :=
  let forced := (lit "+").isPrefixOf text
  let body := if forced then text.drop 1 else text
  if body = lit ":" then some ⟨forced, [], some []⟩
  else if (lit "^").isPrefixOf text then none
  else
    match lastColon body with
    | none =>
      let src := if body = lit "@" then lit "HEAD" else body
      if validRefName (isStarred src) src then some ⟨forced, src, none⟩ else none
    | some (src, dst) =>
      if isStarred src = isStarred dst ∧ (isStarred src → validRefName true src) ∧
          validRefName (isStarred dst) dst then
        some ⟨forced, src, some dst⟩
      else none

/-- More refs than one, as `:` or by a `*`. -/
def Refspec.many (refspec : Refspec) : Bool :=
  decide (refspec.src = [] ∧ refspec.dst = some []) || isStarred refspec.src

/-- The name on the other side; the branch that is checked out has none here. -/
def Refspec.target (refspec : Refspec) : Option PyStr :=
  match refspec.dst with
  | some dst => some dst
  | none => if refspec.src = lit "HEAD" then none else some refspec.src

/-- The refspecs as git reads them: after `tag` a tag, after `--delete` all that is to go. -/
def refspecTexts (deleting : Bool) : List PyStr → Option (List PyStr)
  | [] => some []
  | ref :: rest =>
    let colon := if deleting then lit ":" else []
    if ref = lit "tag" then
      match rest with
      | [] => none
      | name :: rest => do
        let others ← refspecTexts deleting rest
        return (colon ++ lit "refs/tags/" ++ name) :: others
    else if deleting ∧ .scalar ':' ∈ ref then none
    else do
      let others ← refspecTexts deleting rest
      return (colon ++ ref) :: others

/-- The refs that a name can stand for. -/
def fullNames (name : PyStr) : List PyStr :=
  [name, lit "refs/" ++ name, lit "refs/tags/" ++ name, lit "refs/heads/" ++ name,
    lit "refs/remotes/" ++ name, lit "refs/remotes/" ++ name ++ lit "/HEAD"]

/-! ### Leases -/

/-- The value of `--force-with-lease`, where it has one: a ref, then a value to expect or not. -/
structure Lease where
  ref : PyStr
  expected : Option PyStr

def Lease.read (value : PyStr) : Lease :=
  let (ref, found, expected) := PyStr.partition (lit ":") value
  ⟨ref, if found then some expected else none⟩

/-- From git's shortest abbreviation to the longest name. -/
def isObjectId (sha : PyStr) : Bool :=
  decide (4 ≤ sha.length) && decide (sha.length ≤ 64) && sha.all (·.within Char.isHexDigit)

/-- `<ref>:<sha>` -/
def Lease.exact (lease : Lease) : Bool :=
  decide (lease.ref ≠ []) && lease.expected.any isObjectId

/-- The lease does not say which value it expects, by an id or as no value at all. -/
def Lease.loose (lease : Lease) : Bool :=
  lease.expected.all fun sha => decide (sha ≠ []) && !isObjectId sha

/-- Hexadecimal digits and a line feed name no object. -/
def Lease.nameless (lease : Lease) : Bool :=
  lease.expected.any fun sha => decide (sha.getLast? = some (.scalar '\n')) &&
    sha.dropLast.all (·.within Char.isHexDigit)

def leaseOf (use : Use PushOption) : Option Lease :=
  if use.option = .forceWithLease then use.value.map Lease.read else none

/-! ### The push -/

structure Push where
  line : Line PushOption
  refspecs : List Refspec

/-- A push, where no check of the arguments fails. -/
def pushOf (line : Line PushOption) : Option Push :=
  let on := fun option => (line.turnedOn [option]).isSome
  let named := line.words.drop 1
  if line.uses.any (fun use => (leaseOf use).any Lease.nameless) ∨
      1 < [on .delete, on .all, on .mirror, on .tags].count true ∨
      (on .delete ∧ named = []) ∨ ((on .all ∨ on .mirror) ∧ named ≠ []) then
    none
  else do
    let texts ← refspecTexts (on .delete) named
    let refspecs ← texts.mapM Refspec.read
    return ⟨line, refspecs⟩

namespace Push

def isOn (push : Push) (option : PushOption) : Bool := (push.line.turnedOn [option]).isSome

/-- `--mirror` forces as well, and `--no-mirror` takes that back. -/
def forced (push : Push) : Option (Use PushOption) := push.line.turnedOn [.force, .mirror]

def mirrored (push : Push) : Option (Use PushOption) := push.line.turnedOn [.mirror]

def deleting (push : Push) : Option (Use PushOption) := push.line.turnedOn [.delete]

def leases (push : Push) : List (Use PushOption) := push.line.collected .forceWithLease

/-- Some ref that a lease is for may be pushed. -/
def reaches (push : Push) (ref : PyStr) : Bool :=
  decide (ref ≠ []) && (push.refspecs.isEmpty || push.isOn .tags ||
    push.refspecs.any fun refspec => refspec.many || refspec.target.all fun target =>
      (fullNames ref).any fun name => decide (name ∈ fullNames target))

/-- A lease lets the push overwrite a value that it does not name. -/
def loosens (push : Push) (use : Use PushOption) : Bool :=
  (use.value.map Lease.read).all fun lease => push.reaches lease.ref && lease.loose

/-- `--prune` deletes what has no counterpart, of the refs that the refspecs stand for. -/
def prunes (push : Push) : Bool :=
  push.isOn .prune &&
    (push.refspecs.isEmpty || push.isOn .tags || push.refspecs.any Refspec.many)

/-- A refspec without source deletes, if no exact lease is for that ref. -/
def deletes (push : Push) (refspec : Refspec) : Bool :=
  decide (refspec.src = []) && refspec.dst.any fun dst => decide (dst ≠ []) &&
    !push.leases.any fun use => (use.value.map Lease.read).any fun lease =>
      lease.exact && decide (dst ∈ fullNames lease.ref)

def destructive (push : Push) : Bool :=
  !push.isOn .dryRun && (push.forced.isSome || push.mirrored.isSome || push.prunes ||
    push.leases.any push.loosens ||
      push.refspecs.any fun refspec => refspec.forced || push.deletes refspec)

end Push

/-! ### Runs of git -/

/-- An argument that a process can be given; U+DC80 to U+DCFF stand for bytes. -/
def passable (token : PyStr) : Bool :=
  token.all fun c => match c with
    | .scalar c => c ≠ '\x00'
    | .surrogate n => decide (0x480 ≤ n.val ∧ n.val ≤ 0x4FF)

structure Run where
  separate : List PyStr
  args : List PyStr
  push : Push

/-- The push that git runs, given these arguments. -/
def runsPush (argv : List PyStr) : Option Run :=
  match argv with
  | [] => none
  | runner :: args => do
    guard (runner = lit "git" ∧ args.all passable)
    let found ← command args
    guard (found.subcommand = lit "push")
    let line ← parse pushOptions found.args
    let push ← pushOf line
    return ⟨found.separate, found.args, push⟩

end RepoForge.GitPush
