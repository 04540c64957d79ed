import Mathlib.Data.Option.Basic
import RepoForge.Source.Adhoc.CommandGuard
import RepoForge.Spec.Adhoc.GitPush

/-!
# The forms that the guard blocks

The guard raises on these and no others, and finds the subcommand that git runs if it knows the
global options whose values are arguments of their own.
-/
namespace RepoForge.Adhoc

open PyStr (lit)

/-- A token with which a push is blocked. -/
def listed (token : PyStr) : Bool :=
  isExec token || decide (token ∈ pushTokens) || (leaseReason token).isSome

inductive BlockedForm (rest : List PyStr) : PyStr → Prop where
  | subcommand {subcommand : PyStr} (here : subcommand ∈ gitBlockedSubcommands) :
      BlockedForm rest subcommand
  | exec {subcommand token : PyStr} (here : token ∈ rest) (exec : isExec token = true) :
      BlockedForm rest subcommand
  | rebase (here : lit "-x" ∈ rest) : BlockedForm rest (lit "rebase")
  | push {token : PyStr} (here : token ∈ rest) (blocked : listed token = true) :
      BlockedForm rest (lit "push")
  | reflog {token : PyStr} (here : token ∈ rest) (drops : token ∈ [lit "expire", lit "delete"]) :
      BlockedForm rest (lit "reflog")
  | updateRef {token : PyStr} (here : token ∈ rest) (deletes : token ∈ [lit "-d", lit "--delete"]) :
      BlockedForm rest (lit "update-ref")
  | clean (forced : lit "--force" ∈ rest ∨ hasShortFlag rest 'f' = true) :
      BlockedForm rest (lit "clean")

theorem pushReason_isSome_iff {rest : List PyStr} :
    (pushReason rest).isSome = true ↔
      ∃ token ∈ rest, token ∈ pushTokens ∨ (leaseReason token).isSome = true := by
  rw [pushReason]
  split
  case isTrue found =>
    obtain ⟨token, here, forced⟩ := List.any_eq_true.mp found
    exact ⟨fun _ => ⟨token, here, .inl (of_decide_eq_true forced)⟩, fun _ => rfl⟩
  case isFalse absent =>
    rw [List.findSome?_isSome_iff]
    constructor
    · rintro ⟨token, here, reason⟩
      exact ⟨token, here, .inr reason⟩
    · rintro ⟨token, here, forced | reason⟩
      · exact absurd (List.any_eq_true.mpr ⟨token, here, decide_eq_true forced⟩) absent
      · exact ⟨token, here, reason⟩

theorem listed_iff {token : PyStr} :
    listed token = true ↔
      isExec token = true ∨ token ∈ pushTokens ∨ (leaseReason token).isSome = true := by
  simp only [listed, Bool.or_eq_true, decide_eq_true_eq, or_assoc]

theorem blockedReason_isSome_iff {subcommand : PyStr} {rest : List PyStr} :
    (blockedReason subcommand rest).isSome = true ↔ BlockedForm rest subcommand := by
  constructor
  · intro raised
    rw [blockedReason] at raised
    split at raised
    case isTrue here => exact .subcommand here
    split at raised
    case isTrue found =>
      obtain ⟨token, here, exec⟩ := List.any_eq_true.mp found
      exact .exec here exec
    split at raised
    case isTrue found => exact found.1 ▸ .rebase found.2
    split at raised
    case isTrue found =>
      obtain ⟨token, here, blocked⟩ := pushReason_isSome_iff.mp raised
      exact found ▸ .push here (listed_iff.mpr (.inr blocked))
    split at raised
    case isTrue found =>
      obtain ⟨token, here, drops⟩ := List.any_eq_true.mp found.2
      exact found.1 ▸ .reflog here (of_decide_eq_true drops)
    split at raised
    case isTrue found =>
      obtain ⟨token, here, deletes⟩ := List.any_eq_true.mp found.2
      exact found.1 ▸ .updateRef here (of_decide_eq_true deletes)
    split at raised
    case isTrue found => exact found.1 ▸ .clean found.2
    case isFalse => cases raised
  · intro form
    rw [blockedReason]
    split
    · rfl
    case isFalse known =>
      split
      · rfl
      case isFalse plain =>
        cases form with
        | subcommand here => exact absurd here known
        | exec here exec => exact absurd (List.any_eq_true.mpr ⟨_, here, exec⟩) plain
        | rebase here =>
          rw [if_pos ⟨rfl, here⟩]
          rfl
        | push here blocked =>
          rw [if_neg (fun both => absurd both.1 (by decide)), if_pos rfl]
          rcases listed_iff.mp blocked with exec | reason
          · exact absurd (List.any_eq_true.mpr ⟨_, here, exec⟩) plain
          · exact pushReason_isSome_iff.mpr ⟨_, here, reason⟩
        | reflog here drops =>
          rw [if_neg (fun both => absurd both.1 (by decide)), if_neg (by decide),
            if_pos ⟨rfl, List.any_eq_true.mpr ⟨_, here, decide_eq_true drops⟩⟩]
          rfl
        | updateRef here deletes =>
          rw [if_neg (fun both => absurd both.1 (by decide)), if_neg (by decide),
            if_neg (fun both => absurd both.1 (by decide)),
            if_pos ⟨rfl, List.any_eq_true.mpr ⟨_, here, decide_eq_true deletes⟩⟩]
          rfl
        | clean forced =>
          rw [if_neg (fun both => absurd both.1 (by decide)), if_neg (by decide),
            if_neg (fun both => absurd both.1 (by decide)),
            if_neg (fun both => absurd both.1 (by decide)), if_pos ⟨rfl, forced⟩]
          rfl

/-- `ADHOC_COMMAND_FORBIDDEN` is raised. -/
def Forbidden (argv : List PyStr) : Prop :=
  ∃ e, classifyAdhocCommand argv = .error e ∧ e.code = .adhocCommandForbidden

theorem forbidden_of_blocked {args rest : List PyStr} {subcommand : PyStr}
    (found : gitSubcommand args = (some subcommand, rest)) (form : BlockedForm rest subcommand) :
    Forbidden (lit "git" :: args) := by
  obtain ⟨reason, raises⟩ := Option.isSome_iff_exists.mp (blockedReason_isSome_iff.mpr form)
  refine ⟨blocked subcommand reason, ?_, rfl⟩
  simp only [classifyAdhocCommand, found, assertGitCommandAllowed, raises, ne_eq, not_true_eq_false,
    if_false]
  rfl

theorem blocked_of_forbidden {args : List PyStr} (forbidden : Forbidden (lit "git" :: args)) :
    ∃ subcommand rest, gitSubcommand args = (some subcommand, rest) ∧
      BlockedForm rest subcommand := by
  obtain ⟨e, raised, -⟩ := forbidden
  rcases found : gitSubcommand args with ⟨_ | subcommand, rest⟩
  · simp only [classifyAdhocCommand, found, ne_eq, not_true_eq_false, if_false] at raised
    cases raised
  · refine ⟨subcommand, rest, rfl, blockedReason_isSome_iff.mp ?_⟩
    cases reason : blockedReason subcommand rest with
    | some reason => rfl
    | none =>
      simp only [classifyAdhocCommand, found, assertGitCommandAllowed, reason, ne_eq,
        not_true_eq_false, if_false] at raised
      cases raised

theorem forbidden_iff {args : List PyStr} :
    Forbidden (lit "git" :: args) ↔
      ∃ subcommand rest, gitSubcommand args = (some subcommand, rest) ∧
        BlockedForm rest subcommand :=
  ⟨blocked_of_forbidden, fun ⟨_, _, found, form⟩ => forbidden_of_blocked found form⟩

/-! ### Where the subcommand stands -/

theorem not_valued_of_switch {token : PyStr}
    (h : token ∈ GitPush.switchGlobals ∨ GitPush.attachedGlobals.any (·.isPrefixOf token) = true) :
    token ∉ gitGlobalValueOptions := by
  rcases h with switch | attached
  · have apart : ∀ token ∈ GitPush.switchGlobals, token ∉ gitGlobalValueOptions := by
      decide
    exact apart token switch
  · obtain ⟨name, here, begins⟩ := List.any_eq_true.mp attached
    have apart : ∀ name ∈ GitPush.attachedGlobals, ∀ token ∈ gitGlobalValueOptions,
        name.isPrefixOf token = false := by
      decide
    intro valued
    rw [apart name here token valued] at begins
    cases begins

/-- Past options that it knows the guard goes as git does. -/
theorem gitSubcommand_command {args : List PyStr} {found : GitPush.Command}
    (h : GitPush.command args = some found)
    (known : ∀ name ∈ found.separate, name ∈ gitGlobalValueOptions) :
    gitSubcommand args = (some found.subcommand, found.args) := by
  induction args using GitPush.command.induct generalizing found with
  | case1 => cases h
  | case2 token rest plain =>
    rw [GitPush.command.eq_def] at h
    simp only [if_pos plain] at h
    cases h
    rw [gitSubcommand.eq_def]
    simp only [if_pos plain]
  | case3 token dashed separate =>
    rw [GitPush.command, if_neg dashed, if_pos separate] at h
    cases h
  | case4 token dashed separate value rest ih =>
    rw [GitPush.command, if_neg dashed, if_pos separate] at h
    obtain ⟨others, run, rfl⟩ := Option.map_eq_some_iff.mp h
    have same := ih run fun name here => known name (List.mem_cons_of_mem _ here)
    rw [gitSubcommand, if_neg dashed, if_pos (known token List.mem_cons_self)]
    exact same
  | case5 token rest dashed joined switch ih =>
    rw [GitPush.command.eq_def] at h
    simp only [if_neg dashed, if_neg joined, if_pos switch] at h
    rw [gitSubcommand.eq_def]
    simp only [if_neg dashed, if_neg (not_valued_of_switch switch)]
    exact ih h known
  | case6 token rest dashed joined unknown =>
    rw [GitPush.command.eq_def] at h
    simp only [if_neg dashed, if_neg joined, if_neg unknown] at h
    cases h

end RepoForge.Adhoc

/-!
## Which pushes the guard keeps out

The guard compares tokens with literals. A push that is destructive by an option written in full is
forbidden, if the guard finds the subcommand; one that is so by a refspec, by `--prune`, by a letter
among others, or by an abbreviation passes, unless a token that is compared stands there as well.
-/
namespace RepoForge

open PyStr (lit)
open CommandLine

namespace GitPush

/-- The push is destructive by something else than an option written in full. -/
def Push.hidden (push : Push) : Bool :=
  let shortened := fun use : Use PushOption => !use.inFull pushOptions
  !push.isOn .dryRun && (push.refspecs.any Refspec.forced ||
    (push.refspecs.any push.deletes && push.deleting.all shortened) || push.prunes ||
      push.forced.any shortened || push.mirrored.any shortened ||
        push.leases.any fun use => push.loosens use && shortened use)

theorem destructive_of_hidden {push : Push} (h : push.hidden = true) :
    push.destructive = true := by
  simp only [Push.hidden, Push.destructive, Bool.and_eq_true, Bool.or_eq_true, List.any_eq_true]
    at h ⊢
  obtain ⟨live, ((((forced | ⟨deletes, -⟩) | prunes) | forced) | mirrored) | loosens⟩ := h
  · obtain ⟨refspec, here, forced⟩ := forced
    exact ⟨live, .inr ⟨refspec, here, .inl forced⟩⟩
  · obtain ⟨refspec, here, deletes⟩ := deletes
    exact ⟨live, .inr ⟨refspec, here, .inr deletes⟩⟩
  · exact ⟨live, .inl (.inl (.inr prunes))⟩
  · obtain ⟨use, forced, -⟩ := (Option.any_eq_true _ _).mp forced
    exact ⟨live, .inl (.inl (.inl (.inl (by rw [forced]; rfl))))⟩
  · obtain ⟨use, mirrored, -⟩ := (Option.any_eq_true _ _).mp mirrored
    exact ⟨live, .inl (.inl (.inl (.inr (by rw [mirrored]; rfl))))⟩
  · obtain ⟨use, here, loosens⟩ := loosens
    exact ⟨live, .inl (.inr ⟨use, here, loosens.1⟩)⟩

theorem pushOf_ok {line : Line PushOption} {push : Push} (h : pushOf line = some push) :
    push.line = line ∧ ∀ use ∈ line.uses, ∀ lease, leaseOf use = some lease →
      lease.nameless = false := by
  rw [pushOf] at h
  split at h
  case isTrue => cases h
  case isFalse fits =>
    obtain ⟨texts, -, h⟩ := Option.bind_eq_some_iff.mp h
    obtain ⟨refspecs, -, h⟩ := Option.bind_eq_some_iff.mp h
    cases h
    refine ⟨rfl, fun use here lease of => ?_⟩
    cases nameless : lease.nameless with
    | false => rfl
    | true =>
      have found : line.uses.any (fun use => (leaseOf use).any Lease.nameless) = true :=
        List.any_eq_true.mpr ⟨use, here, by rw [of]; exact nameless⟩
      exact absurd (.inl found) fits

theorem runsPush_ok {argv : List PyStr} {run : Run} (h : runsPush argv = some run) :
    ∃ args found line, argv = lit "git" :: args ∧ command args = some found ∧
      found.subcommand = lit "push" ∧ parse pushOptions found.args = some line ∧
      pushOf line = some run.push ∧ found.separate = run.separate ∧ found.args = run.args := by
  cases argv with
  | nil => cases h
  | cons runner args =>
    rw [runsPush] at h
    obtain ⟨_, started, h⟩ := Option.bind_eq_some_iff.mp h
    obtain ⟨found, resolved, h⟩ := Option.bind_eq_some_iff.mp h
    obtain ⟨_, named, h⟩ := Option.bind_eq_some_iff.mp h
    obtain ⟨line, parsed, h⟩ := Option.bind_eq_some_iff.mp h
    obtain ⟨push, accepted, h⟩ := Option.bind_eq_some_iff.mp h
    cases h
    have git := (Option.guard_eq_some' _).mp started
    rw [git.1]
    exact ⟨args, found, line, rfl, resolved, (Option.guard_eq_some' _).mp named, parsed, accepted,
      rfl, rfl⟩

end GitPush

namespace Adhoc

open GitPush

/-! ### Options written in full -/

/-- The switches that force or delete are written with tokens that the guard compares. -/
theorem switch_tokens : ∀ opt ∈ pushOptions, opt.option ∈ [.force, .mirror, .delete] →
    opt.arity = .never ∧ lit "--" ++ opt.name ∈ pushTokens ∧
      opt.letter.all (fun letter => decide ([.scalar '-', .scalar letter] ∈ pushTokens)) = true := by
  decide

section Parsed

variable {args : List PyStr} {line : Line PushOption} {use : Use PushOption}

theorem listed_of_switch {switches : List PushOption} (parsed : parse pushOptions args = some line)
    (on : line.turnedOn switches = some use)
    (within : ∀ option ∈ switches, option ∈ [PushOption.force, .mirror, .delete])
    (full : use.inFull pushOptions = true) : ∃ token ∈ args, listed token = true := by
  obtain ⟨here, option⟩ := turnedOn_mem on
  obtain ⟨written, allowed⟩ := parse_sound parsed use here
  have known := within _ option
  obtain ⟨opt, member, same, spelled⟩ := token_of_inFull full allowed
    fun opt member same => (switch_tokens opt member (same ▸ known)).1
  obtain ⟨-, named, lettered⟩ := switch_tokens opt member (same ▸ known)
  have compared : use.token ∈ pushTokens := by
    rcases spelled with name | ⟨letter, has, alone⟩
    · rwa [name]
    · rw [has, Option.all_some, decide_eq_true_eq] at lettered
      rwa [alone]
  exact ⟨use.token, written, listed_iff.mpr (.inr (.inl compared))⟩

/-- The pattern of the guard takes no lease that is loose. -/
theorem not_exact_of_loose {value : PyStr} (loose : (Lease.read value).loose = true)
    (named : (Lease.read value).nameless = false) :
    forceWithLeaseExact (lit "--force-with-lease=" ++ value) = false := by
  rw [← Bool.not_eq_true]
  intro matched
  simp only [forceWithLeaseExact, List.drop_left, Bool.and_eq_true] at matched
  obtain ⟨-, ⟨-, found⟩, sha⟩ := matched
  simp only [Lease.read, found, if_true, Lease.loose, Option.all_some, Lease.nameless,
    Option.any_some, Bool.and_eq_true, Bool.not_eq_true', Bool.and_eq_false_iff] at loose named
  simp only [isExpectedSha, Bool.and_eq_true, decide_eq_true_eq] at sha
  split at sha
  case isTrue ends =>
    -- the pattern's `$` admits a line feed, but git does not
    rcases named with plain | other
    · exact absurd ends (of_decide_eq_false plain)
    · rw [sha.2] at other
      cases other
  case isFalse =>
    have id : isObjectId (PyStr.partition (lit ":") value).2.2 = true := by
      simp only [isObjectId, Bool.and_eq_true, decide_eq_true_eq]
      exact ⟨⟨le_trans (by decide) sha.1.1, sha.1.2⟩, sha.2⟩
    rw [id] at loose
    cases loose.2

theorem lease_row : ∀ opt ∈ pushOptions, opt.option = .forceWithLease →
    lit "--" ++ opt.name = lit "--force-with-lease" ∧ opt.letter = none := by
  decide

theorem listed_of_lease {push : Push} (parsed : parse pushOptions args = some line)
    (accepted : pushOf line = some push) (here : use ∈ push.leases)
    (loosens : push.loosens use = true) (full : use.inFull pushOptions = true) :
    ∃ token ∈ args, listed token = true := by
  obtain ⟨rfl, named⟩ := pushOf_ok accepted
  obtain ⟨there, option⟩ := collected_mem here
  refine ⟨use.token, (parse_sound parsed use there).1, listed_iff.mpr (.inr (.inr ?_))⟩
  obtain ⟨opt, member, spelled⟩ := List.any_eq_true.mp full
  simp only [Bool.and_eq_true, Bool.or_eq_true, decide_eq_true_eq] at spelled
  obtain ⟨same, spelled⟩ := spelled
  obtain ⟨name, letter⟩ := lease_row opt member (same.trans option)
  rw [name, letter] at spelled
  rcases spelled with (bare | valued) | lettered
  · rw [leaseReason, if_pos bare]
    rfl
  · obtain ⟨value, has, written⟩ := (Option.any_eq_true _ _).mp valued
    have written : use.token = lit "--force-with-lease=" ++ value := of_decide_eq_true written
    have loose : (Lease.read value).loose = true := by
      simp only [Push.loosens, has, Option.map_some, Option.all_some, Bool.and_eq_true] at loosens
      exact loosens.2
    have plain : (Lease.read value).nameless = false := by
      refine named use there _ ?_
      rw [leaseOf, if_pos option, has]
      rfl
    rw [leaseReason]
    split
    · rfl
    · have begins : (lit "--force-with-lease=").isPrefixOf use.token = true := by
        rw [written]
        exact List.isPrefixOf_iff_prefix.mpr (List.prefix_append _ _)
      have unmatched : ¬forceWithLeaseExact use.token = true := by
        rw [written, Bool.not_eq_true]
        exact not_exact_of_loose loose plain
      rw [if_pos ⟨begins, unmatched⟩]
      rfl
  · cases lettered

/-- What is destructive and not hidden is in a token that the guard compares. -/
theorem listed_of_destructive {push : Push} (parsed : parse pushOptions args = some line)
    (accepted : pushOf line = some push) (destructive : push.destructive = true)
    (shown : push.hidden = false) : ∃ token ∈ args, listed token = true := by
  obtain ⟨same, -⟩ := pushOf_ok accepted
  simp only [Push.destructive, Bool.and_eq_true, Bool.or_eq_true] at destructive
  obtain ⟨live, destructive⟩ := destructive
  simp only [Push.hidden, live, Bool.true_and, Bool.or_eq_false_iff] at shown
  obtain ⟨⟨⟨⟨⟨plus, deletions⟩, pruning⟩, forcing⟩, mirroring⟩, leasing⟩ := shown
  rcases destructive with (((forced | mirrored) | prunes) | loosens) | refspec
  · obtain ⟨use, on⟩ := Option.isSome_iff_exists.mp forced
    have full : use.inFull pushOptions = true := by
      rwa [on, Option.any_some, Bool.not_eq_false'] at forcing
    rw [Push.forced, same] at on
    exact listed_of_switch parsed on (by decide) full
  · obtain ⟨use, on⟩ := Option.isSome_iff_exists.mp mirrored
    have full : use.inFull pushOptions = true := by
      rwa [on, Option.any_some, Bool.not_eq_false'] at mirroring
    rw [Push.mirrored, same] at on
    exact listed_of_switch parsed on (by decide) full
  · rw [pruning] at prunes
    cases prunes
  · obtain ⟨use, here, loosens⟩ := List.any_eq_true.mp loosens
    have full : use.inFull pushOptions = true := by
      have both := List.any_eq_false.mp leasing use here
      simpa only [loosens, Bool.true_and, Bool.not_eq_true', Bool.not_eq_false] using both
    exact listed_of_lease parsed accepted here loosens full
  · obtain ⟨refspec, here, destroys⟩ := List.any_eq_true.mp refspec
    rcases Bool.or_eq_true_iff.mp destroys with forced | deletes
    · exact absurd forced (List.any_eq_false.mp plus refspec here)
    · -- the refspec deletes, so `--delete` is on and written in full
      rcases Bool.and_eq_false_iff.mp deletions with none_ | full
      · exact absurd deletes (List.any_eq_false.mp none_ refspec here)
      · obtain ⟨use, on, full⟩ := (Option.all_eq_false _ _).mp full
        rw [Push.deleting, same] at on
        rw [Bool.not_eq_false'] at full
        exact listed_of_switch parsed on (by decide) full

end Parsed

/-! ### The guard -/

/-- A destructive push is forbidden. -/
def KeptOut (argv : List PyStr) (push : Push) : Prop :=
  push.destructive = true → Forbidden argv

/-- Behind global options that the guard knows: a push that is destructive by something else than
an option written in full has a token that the guard compares. Otherwise the guard takes an argument
for the subcommand that is none; there a push is not destructive, or what it takes is blocked. -/
def Recognised (argv : List PyStr) (run : Run) : Prop :=
  if ∀ name ∈ run.separate, name ∈ gitGlobalValueOptions then
    run.push.hidden = true → ∃ token ∈ run.args, listed token = true
  else
    run.push.destructive = true → ∃ subcommand rest,
      gitSubcommand argv.tail = (some subcommand, rest) ∧ BlockedForm rest subcommand

theorem blockedForm_push {rest : List PyStr} :
    BlockedForm rest (lit "push") ↔ ∃ token ∈ rest, listed token = true := by
  constructor
  · intro form
    generalize subcommand : lit "push" = name at form
    cases form with
    | subcommand here =>
      rw [← subcommand] at here
      exact absurd here (by decide)
    | exec here exec => exact ⟨_, here, listed_iff.mpr (.inl exec)⟩
    | push here blocked => exact ⟨_, here, blocked⟩
    | rebase | reflog | updateRef | clean => exact absurd subcommand (by decide)
  · rintro ⟨token, here, blocked⟩
    exact .push here blocked

def forcedMain : List PyStr :=
  [lit "git", lit "-C", lit "sub", lit "push", lit "--force", lit "origin", lit "main"]

/-- By the refspec, by `--prune`, among letters, abbreviated, and behind a global option with a value
that the guard does not know. -/
def destructivePushes : List (List PyStr) :=
  [[lit "git", lit "push", lit "origin", lit "+main"],
    [lit "git", lit "push", lit "origin", lit ":old"],
    [lit "git", lit "push", lit "--prune", lit "origin"],
    [lit "git", lit "push", lit "-fu", lit "origin", lit "main"],
    [lit "git", lit "push", lit "--delet", lit "origin", lit "old"],
    [lit "git", lit "--config-env", lit "user.name=NAME", lit "push", lit "--force", lit "origin",
      lit "main"]]

/-- A destructive push that the guard lets through. -/
structure Passes (argv : List PyStr) (run : Run) : Prop where
  runs : runsPush argv = some run
  destructive : run.push.destructive = true
  allowed : classifyAdhocCommand argv = .ok (some .mutating)

theorem destructivePushes_run : ∀ argv ∈ destructivePushes, ∃ run, Passes argv run := by
  have runs : ∀ argv ∈ destructivePushes,
      (runsPush argv).any (fun run => run.push.destructive) = true ∧
        classifyAdhocCommand argv = .ok (some .mutating) := by
    decide +kernel
  intro argv here
  obtain ⟨destroys, passed⟩ := runs argv here
  obtain ⟨run, ran, destructive⟩ := (Option.any_eq_true _ _).mp destroys
  exact ⟨run, ran, destructive, passed⟩

theorem Passes.not_keptOut {argv : List PyStr} {run : Run} (passes : Passes argv run) :
    ¬KeptOut argv run.push := by
  intro kept
  obtain ⟨e, raised, -⟩ := kept passes.destructive
  rw [passes.allowed] at raised
  cases raised

theorem destructivePushes_pass :
    ∀ argv ∈ destructivePushes, ∃ run, runsPush argv = some run ∧
      run.push.destructive = true ∧ classifyAdhocCommand argv = .ok (some .mutating) ∧
      ¬KeptOut argv run.push := by
  intro argv here
  obtain ⟨run, passes⟩ := destructivePushes_run argv here
  exact ⟨run, passes.runs, passes.destructive, passes.allowed, passes.not_keptOut⟩

end Adhoc

end RepoForge
