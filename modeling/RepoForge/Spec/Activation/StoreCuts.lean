import RepoForge.Library.Runs
import RepoForge.Source.Activation.ReleaseStore

/-!
# Calls on the release store that may be cut

A request is a call with its arguments; a label adds the number of changes after which the process
dies. For every call, what is on disk after a cut is given by a prefix of its changes.
-/
namespace RepoForge.Activation

open PyText Interruptible

variable {Evidence : Type} {R : Rules Evidence} {root r : Root Evidence} {sha : Text} {link : Link}
  {pid n : Nat}

inductive Request (Evidence : Type) where
  | swapCurrent (pid : Nat) (sha : CommitSha)
  | rollback (pid : Nat)
  | prune (keep : Int) (protect : List Text)
  | beginActivation (receiptId : Text) (fromSha : Option Text) (toSha : Text)
      (transitionId : Option Text)
  | recordActivationStage (stage : Text)
  | endActivation
  | writeReceipt (receipt : ActivationReceipt)
  | writeWorkerReclamationArtifact (reclamation : Evidence)

structure Label (Evidence : Type) where
  request : Request Evidence
  cut : Option Nat

/-- The disk after a call that may be cut. -/
def after (R : Rules Evidence) (root : Root Evidence) (l : Label Evidence) : Root Evidence :=
  match l.request with
  | .swapCurrent pid sha => stopped (swapCurrent pid sha) l.cut root
  | .rollback pid => stopped (rollback pid) l.cut root
  | .prune keep protect => stopped (prune R keep protect) l.cut root
  | .beginActivation receiptId fromSha toSha transitionId =>
    stopped (beginActivation receiptId fromSha toSha transitionId) l.cut root
  | .recordActivationStage stage => stopped (recordActivationStage stage) l.cut root
  | .endActivation => stopped endActivation l.cut root
  | .writeReceipt receipt => stopped (writeReceipt receipt) l.cut root
  | .writeWorkerReclamationArtifact reclamation =>
    stopped (writeWorkerReclamationArtifact R reclamation) l.cut root

/-! ### Links -/

/-- How many changes `_atomic_symlink` makes. -/
def linkSteps (root : Root Evidence) (link : Link) (pid : Nat) : Nat :=
  if (root.temporary link pid).isSome then 3 else 2

theorem length_symlinkChanges : (symlinkChanges root sha link pid).length = linkSteps root link pid := by
  unfold symlinkChanges linkSteps
  split <;> rfl

/-- What two disks have in common that differ at most in the links. -/
structure SameFiles (r r' : Root Evidence) : Prop where
  releases : r'.releases = r.releases
  journal : r'.journal = r.journal
  receipts : r'.receipts = r.receipts
  artifacts : r'.artifacts = r.artifacts

theorem SameFiles.refl : SameFiles r r := ⟨rfl, rfl, rfl, rfl⟩

theorem SameFiles.trans {r' r'' : Root Evidence} (h : SameFiles r r') (h' : SameFiles r' r'') :
    SameFiles r r'' :=
  ⟨h'.releases.trans h.releases, h'.journal.trans h.journal, h'.receipts.trans h.receipts,
    h'.artifacts.trans h.artifacts⟩

/-- Only the last change of `_atomic_symlink` is seen. -/
theorem applied_symlink : (applied ((symlinkChanges root sha link pid).take n) r).links =
    if n < linkSteps root link pid then r.links else Function.update r.links link (some sha) := by
  unfold symlinkChanges linkSteps
  split
  · match n with
    | 0 | 1 | 2 => rfl
    | n + 3 =>
      rw [if_neg (by omega), List.take_of_length_le (by simp)]
      rfl
  · match n with
    | 0 | 1 => rfl
    | n + 2 =>
      rw [if_neg (by omega), List.take_of_length_le (by simp)]
      rfl

theorem symlink_files : ∀ f ∈ symlinkChanges root sha link pid, ∀ r' : Root Evidence,
    SameFiles r r' → SameFiles r (f r') := by
  intro f inside r' same
  simp only [symlinkChanges, List.mem_append, List.mem_cons, List.not_mem_nil, or_false] at inside
  rcases inside with inside | rfl | rfl
  · split at inside
    · cases List.mem_singleton.mp inside
      exact same.trans ⟨rfl, rfl, rfl, rfl⟩
    · cases inside
  · exact same.trans ⟨rfl, rfl, rfl, rfl⟩
  · exact same.trans ⟨rfl, rfl, rfl, rfl⟩

/-- The temporary name of the other link is not touched. -/
theorem linkSteps_applied {other : Link} (apart : other ≠ link) :
    linkSteps (applied (symlinkChanges root sha link pid) r) other pid =
      linkSteps r other pid := by
  have same : (applied (symlinkChanges root sha link pid) r).temporary other pid =
      r.temporary other pid := by
    unfold symlinkChanges
    split <;> simp [replaceLink, putTemporary, apart]
  unfold linkSteps
  rw [same]

/-- A call that begins with `_atomic_symlink` is cut in it or later. -/
theorem stopped_symlink {α : Type} {next : Unit → Call Evidence α} :
    stopped (atomicSymlink sha link pid >>= next) (some n) r =
      if n ≤ linkSteps r link pid then applied ((symlinkChanges r sha link pid).take n) r
      else stopped (next ()) (some (n - linkSteps r link pid))
        (applied (symlinkChanges r sha link pid) r) := by
  have shape : atomicSymlink sha link pid >>= next =
      Proc.inspect id >>= fun root => changes (symlinkChanges root sha link pid) >>= next :=
    bind_assoc _ _ _
  rw [shape, stopped_inspect, stopped_bind_changes, length_symlinkChanges]
  rfl

theorem applied_symlink_whole : (applied (symlinkChanges root sha link pid) r).links =
    Function.update r.links link (some sha) := by
  have whole : (applied ((symlinkChanges root sha link pid).take (linkSteps root link pid)) r).links =
      if linkSteps root link pid < linkSteps root link pid then r.links
      else Function.update r.links link (some sha) := applied_symlink
  rwa [if_neg (Nat.lt_irrefl _), List.take_of_length_le length_symlinkChanges.le] at whole

/-- A call that ends with `_atomic_symlink`. -/
theorem stopped_last {α : Type} (a : α) (sha : Text) (link : Link) (pid n : Nat)
    (r : Root Evidence) :
    SameFiles r (stopped (atomicSymlink sha link pid >>= fun _ => pure a) (some n) r) ∧
      (stopped (atomicSymlink sha link pid >>= fun _ => pure a) (some n) r).links =
        if n < linkSteps r link pid then r.links else Function.update r.links link (some sha) := by
  rw [stopped_symlink]
  split
  · exact ⟨applied_take_keeps symlink_files SameFiles.refl, applied_symlink⟩
  · rename_i late
    rw [stopped_pure, if_neg (by omega)]
    exact ⟨applied_keeps symlink_files SameFiles.refl, applied_symlink_whole⟩

/-- A call that ends with two of them. -/
theorem stopped_both {α : Type} (a : α) (first second : Text) (pid n : Nat) (r : Root Evidence)
    {other : Link} (apart : other ≠ link) :
    let r' := stopped (atomicSymlink first link pid >>= fun _ =>
      atomicSymlink second other pid >>= fun _ => pure a) (some n) r
    SameFiles r r' ∧ r'.links =
      if n < linkSteps r link pid then r.links
      else if n < linkSteps r link pid + linkSteps r other pid then
        Function.update r.links link (some first)
      else Function.update (Function.update r.links link (some first)) other (some second) := by
  dsimp only
  rw [stopped_symlink]
  split
  · rename_i early
    refine ⟨applied_take_keeps symlink_files SameFiles.refl, ?_⟩
    rw [applied_symlink]
    have more : 0 < linkSteps r other pid := by
      unfold linkSteps
      split <;> decide
    by_cases before : n < linkSteps r link pid
    · rw [if_pos before, if_pos before]
    · rw [if_neg before, if_neg before, if_pos (by omega)]
  · rename_i late
    have files : SameFiles r (applied (symlinkChanges r first link pid) r) :=
      applied_keeps symlink_files SameFiles.refl
    obtain ⟨files', links⟩ := stopped_last a second other pid (n - linkSteps r link pid)
      (applied (symlinkChanges r first link pid) r)
    refine ⟨files.trans files', ?_⟩
    have passed : ¬ n < linkSteps r link pid := by omega
    rw [links, linkSteps_applied apart, applied_symlink_whole, if_neg passed]
    by_cases between : n < linkSteps r link pid + linkSteps r other pid
    · rw [if_pos between, if_pos (by omega)]
    · rw [if_neg between, if_neg (by omega)]

/-- The pointers after a switch: they name what they named before, and perhaps `sha`; what was
current is still named. -/
structure Switched (r r' : Root Evidence) (sha : Text) : Prop where
  files : SameFiles r r'
  targets : ∀ link t, r'.links link = some t → (∃ link', r.links link' = some t) ∨ t = sha
  kept : ∀ t, r.links .current = some t → ∃ link, r'.links link = some t

/-- One link replaced, where nothing is lost. -/
theorem Switched.of_current {r' : Root Evidence} (files : SameFiles r r')
    (links : r'.links = if n < linkSteps r .current pid then r.links
      else Function.update r.links .current (some sha))
    (kept : ∀ t, r.links .current = some t → t = sha) : Switched r r' sha := by
  constructor
  · exact files
  · intro link t set
    rw [links] at set
    split at set
    · exact .inl ⟨link, set⟩
    · by_cases current : link = .current
      · subst current
        rw [Function.update_self] at set
        exact .inr (Option.some.inj set).symm
      · rw [Function.update_of_ne current] at set
        exact .inl ⟨link, set⟩
  · intro t set
    refine ⟨.current, ?_⟩
    rw [links]
    split
    · exact set
    · rw [Function.update_self, kept t set]

/-- What a cut `swap_current` leaves. -/
theorem swap_cut (pid : Nat) (sha : CommitSha) (cut : Option Nat) (r : Root Evidence) :
    stopped (swapCurrent pid sha) cut r = r ∨ (r.releases.lookup sha.text).isSome ∧
      Switched r (stopped (swapCurrent pid sha) cut r) sha.text := by
  obtain ⟨n, same, -⟩ := stopped_number (swapCurrent pid sha) cut r 0
  rw [same]
  unfold swapCurrent
  rw [stopped_inspect]
  dsimp only [id]
  split
  · exact .inl (stopped_raise _)
  · rename_i installed
    refine .inr ⟨by simpa [Option.isSome_iff_ne_none] using installed, ?_⟩
    split
    · rename_i unset
      obtain ⟨files, links⟩ := stopped_last (none : Option Text) sha.text .current pid n r
      exact .of_current files links fun t set => by rw [unset] at set; cases set
    · rename_i old set
      split
      · rename_i other
        obtain ⟨files, links⟩ := stopped_both (some old) old sha.text pid n r
          (show Link.current ≠ .previous by decide)
        constructor
        · exact files
        · intro link t named
          rw [links] at named
          split_ifs at named
          · exact .inl ⟨link, named⟩
          · cases link
            · exact .inl ⟨.current, by simpa [Function.update_apply] using named⟩
            · exact .inl ⟨.current, by simpa [Function.update_apply, set] using named⟩
          · cases link
            · exact .inr (by simpa [Function.update_apply, eq_comm] using named)
            · exact .inl ⟨.current, by simpa [Function.update_apply, set] using named⟩
        · intro t named
          rw [set] at named
          cases named
          rw [links]
          split_ifs
          · exact ⟨.current, set⟩
          · exact ⟨.previous, by simp⟩
          · exact ⟨.previous, by simp⟩
      · rename_i same
        obtain ⟨files, links⟩ := stopped_last (some old) sha.text .current pid n r
        exact .of_current files links fun t named => by
          rw [set] at named
          rw [← Option.some.inj named, of_not_not same]

/-- A rollback that dies after the first link is replaced and before the second one is. -/
structure DiesBetween (r : Root Evidence) (pid n : Nat) (current previous : Text) : Prop where
  current_set : r.links .current = some current
  previous_set : r.links .previous = some previous
  installed : (r.releases.lookup previous).isSome = true
  apart : current ≠ previous
  first : linkSteps r .current pid ≤ n
  second : n < linkSteps r .current pid + linkSteps r .previous pid

/-- What a cut `rollback` leaves. It loses what was current only where it dies between the two
links. -/
theorem rollback_cut (pid n : Nat) (r : Root Evidence) :
    let r' := stopped (rollback pid) (some n) r
    SameFiles r r' ∧ (∀ link t, r'.links link = some t → ∃ link', r.links link' = some t) ∧
      ∀ t, r.links .current = some t →
        ((∃ link, r'.links link = some t) ↔ ¬ ∃ previous, DiesBetween r pid n t previous) := by
  dsimp only
  unfold rollback
  rw [stopped_inspect]
  dsimp only [id]
  have unchanged : ∀ r', r' = r → (∀ t previous, ¬ DiesBetween r pid n t previous) →
      SameFiles r r' ∧ (∀ link t, r'.links link = some t → ∃ link', r.links link' = some t) ∧
      ∀ t, r.links .current = some t →
        ((∃ link, r'.links link = some t) ↔ ¬ ∃ previous, DiesBetween r pid n t previous) := by
    rintro r' rfl never
    exact ⟨.refl, fun link t set => ⟨link, set⟩, fun t set =>
      ⟨fun _ dies => never t _ dies.choose_spec, fun _ => ⟨_, set⟩⟩⟩
  split
  · rename_i unset
    refine unchanged _ (stopped_raise _) fun t previous dies => ?_
    rw [dies.previous_set] at unset
    cases unset
  · rename_i previous set
    split
    · rename_i missing
      refine unchanged _ (stopped_raise _) fun t other dies => ?_
      rw [dies.previous_set] at set
      cases set
      rw [Option.isNone_iff_eq_none] at missing
      have there := dies.installed
      rw [missing] at there
      cases there
    · rename_i there
      have installed : (r.releases.lookup previous).isSome = true := by
        simpa [Option.isSome_iff_ne_none] using there
      split
      · rename_i unset
        obtain ⟨files, links⟩ := stopped_last previous previous .current pid n r
        refine ⟨files, ?_, fun t named => by rw [unset] at named; cases named⟩
        intro link t named
        rw [links] at named
        split_ifs at named
        · exact ⟨link, named⟩
        · cases link
          · exact ⟨.previous, by simpa [Function.update_apply, set] using named⟩
          · exact ⟨.previous, by simpa [Function.update_apply] using named⟩
      · rename_i current set'
        obtain ⟨files, links⟩ := stopped_both previous previous current pid n r
          (show Link.previous ≠ .current by decide)
        refine ⟨files, ?_, ?_⟩
        · intro link t named
          rw [links] at named
          split_ifs at named
          · exact ⟨link, named⟩
          · cases link
            · exact ⟨.previous, by simpa [Function.update_apply, set] using named⟩
            · exact ⟨.previous, by simpa [Function.update_apply] using named⟩
          · cases link
            · exact ⟨.previous, by simpa [Function.update_apply, set] using named⟩
            · exact ⟨.current, by simpa [Function.update_apply, set'] using named⟩
        · intro t named
          rw [set'] at named
          cases named
          rw [links]
          split_ifs with early between
          · refine ⟨fun _ dies => ?_, fun _ => ⟨.current, set'⟩⟩
            have late := dies.choose_spec.first
            omega
          · constructor
            · rintro ⟨link, kept⟩ ⟨other, dies⟩
              rw [dies.previous_set] at set
              cases set
              have apart := dies.apart
              cases link
              · exact apart (by simpa [eq_comm] using kept)
              · exact apart (by simpa [Function.update_apply, dies.previous_set, eq_comm] using kept)
            · intro never
              by_cases same : current = previous
              · subst same
                exact ⟨.current, by simp⟩
              · exact absurd ⟨previous, set', set, installed, same, by omega, between⟩ never
          · refine ⟨fun _ dies => ?_, fun _ => ⟨.previous, by simp⟩⟩
            have early := dies.choose_spec.second
            omega

/-! ### Removal -/

/-- What removals in `shas` leave alone. -/
structure KeptOutside (shas : List Text) (r r' : Root Evidence) : Prop where
  links : r'.links = r.links
  journal : r'.journal = r.journal
  receipts : r'.receipts = r.receipts
  artifacts : r'.artifacts = r.artifacts
  releases : ∀ sha, sha ∉ shas → r'.releases.lookup sha = r.releases.lookup sha

variable {shas : List Text}

theorem KeptOutside.refl : KeptOutside shas r r := ⟨rfl, rfl, rfl, rfl, fun _ _ => rfl⟩

theorem KeptOutside.trans {r' r'' : Root Evidence} (h : KeptOutside shas r r')
    (h' : KeptOutside shas r' r'') : KeptOutside shas r r'' :=
  ⟨h'.links.trans h.links, h'.journal.trans h.journal, h'.receipts.trans h.receipts,
    h'.artifacts.trans h.artifacts,
    fun sha outside => (h'.releases sha outside).trans (h.releases sha outside)⟩

theorem removeChanges_frame {f : Root Evidence → Root Evidence} (inside : f ∈ removeChanges R sha)
    (there : sha ∈ shas) (r : Root Evidence) : KeptOutside shas r (f r) := by
  have other : ∀ t, t ∉ shas → t ≠ sha := fun t outside same => outside (same ▸ there)
  simp only [removeChanges, List.mem_append, List.mem_map, List.mem_singleton] at inside
  rcases inside with ⟨entry, -, rfl⟩ | rfl
  · unfold unlinkEntry
    split
    · exact .refl
    · exact ⟨rfl, rfl, rfl, rfl, fun t outside => AList.lookup_insert_ne (other t outside)⟩
  · unfold removeDir
    split
    · exact .refl
    · split
      · exact ⟨rfl, rfl, rfl, rfl, fun t outside => AList.lookup_erase_ne (other t outside)⟩
      · exact .refl

/-- The trees go one after the other. -/
theorem stopped_removeTrees : stopped (removeTrees R shas) (some n) r =
    applied ((shas.flatMap (removeChanges R)).take n) r := by
  induction shas generalizing n r with
  | nil =>
    rw [removeTrees, stopped_pure]
    simp
  | cons sha rest ih =>
    have shape : removeTrees R (sha :: rest) = changes (removeChanges R sha) >>= fun _ =>
      removeTrees R rest >>= fun removed => pure (sha :: removed) := rfl
    rw [shape, stopped_bind_changes, List.flatMap_cons, List.take_append]
    split
    · rename_i early
      rw [Nat.sub_eq_zero_of_le early, List.take_zero, List.append_nil]
    · rename_i late
      have past : (removeChanges R sha).length ≤ n := by omega
      rw [stopped_map, ih, applied_append, List.take_of_length_le past]

/-- How many changes the removal of several releases makes. -/
def offset (R : Rules Evidence) (shas : List Text) : Nat :=
  (shas.flatMap (@removeChanges Evidence R)).length

theorem prune_refused {keep : Int} {protect : List Text} {e : StoreError}
    (seen : retentionCandidates r keep = .error e) (cut : Option Nat) :
    stopped (prune R keep protect) cut r = r := by
  obtain ⟨n, same, -⟩ := stopped_number (prune R keep protect) cut r 0
  rw [same]
  exact stopped_check_error (s := r) seen

/-- What a cut `prune` leaves. -/
theorem prune_cut {keep : Int} {protect candidates victims : List Text}
    (seen : retentionCandidates r keep = .ok candidates)
    (wanted : candidates.filter (fun sha => !protect.contains sha) = victims) (cut : Option Nat) :
    stopped (prune R keep protect) cut r =
      applied ((victims.flatMap (removeChanges R)).take (cut.getD (offset R victims))) r := by
  subst wanted
  obtain ⟨n, same, number⟩ := stopped_number (prune R keep protect) cut r
    (offset R (candidates.filter fun sha => !protect.contains sha))
  rw [same]
  refine (stopped_check (s := r) seen).trans ?_
  rw [stopped_removeTrees]
  rcases number with rfl | ⟨rfl, late⟩
  · rfl
  · rw [Option.getD_none, offset, List.take_length, List.take_of_length_le late.le]

theorem removals_frame (n : Nat) (r : Root Evidence) :
    KeptOutside shas r (applied ((shas.flatMap (removeChanges R)).take n) r) := by
  refine applied_take_keeps (fun f inside r' kept => ?_) .refl
  obtain ⟨sha, there, inside⟩ := List.mem_flatMap.mp inside
  exact kept.trans (removeChanges_frame inside there r')

theorem KeptOutside.mono {more : List Text} {r' : Root Evidence} (kept : KeptOutside shas r r')
    (sub : ∀ sha ∈ shas, sha ∈ more) : KeptOutside more r r' :=
  ⟨kept.links, kept.journal, kept.receipts, kept.artifacts,
    fun sha outside => kept.releases sha fun inside => outside (sub sha inside)⟩

theorem prune_frame (keep : Int) (protect : List Text) (cut : Option Nat) (r : Root Evidence) :
    stopped (prune R keep protect) cut r = r ∨ ∃ candidates,
      retentionCandidates r keep = .ok candidates ∧
      KeptOutside candidates r (stopped (prune R keep protect) cut r) := by
  cases seen : retentionCandidates r keep with
  | error e => exact .inl (prune_refused seen cut)
  | ok candidates =>
    refine .inr ⟨candidates, rfl, ?_⟩
    rw [prune_cut seen rfl]
    exact (removals_frame _ r).mono fun sha inside => List.mem_of_mem_filter inside

/-- Retention wants nothing that a link names. -/
theorem named_kept {keep : Int} {candidates : List Text}
    (seen : retentionCandidates r keep = .ok candidates) (named : r.links link = some sha) :
    sha ∉ candidates := by
  unfold retentionCandidates at seen
  split at seen
  · cases seen
  · obtain ⟨releases, -, seen⟩ := bind_ok seen
    cases seen
    intro inside
    have free := (List.mem_filter.mp inside).2
    cases link <;> simp [named] at free

/-! ### Files -/

/-- The disk after an exclusive create and the write of the content, cut after `n` of the two. -/
def exclusive {α : Type} (n : Nat) (file : Option (JsonFile α)) (value : α) : Option (JsonFile α) :=
  match n with
  | 0 => file
  | 1 => some .blank
  | _ + 2 => some (.object value)

theorem begin_cut (receiptId : Text) (fromSha : Option Text) (toSha : Text)
    (transitionId : Option Text) (n : Nat) (r : Root Evidence) :
    stopped (beginActivation receiptId fromSha toSha transitionId) (some n) r =
      if r.journal.isSome then r
      else { r with
        journal := exclusive n r.journal
          ⟨receiptId, fromSha, toSha, "prepared".toList, transitionId⟩ } := by
  unfold beginActivation
  rw [stopped_inspect]
  dsimp only [id]
  split
  · exact stopped_raise _
  · rw [stopped_changes]
    match n with
    | 0 | 1 => rfl
    | n + 2 => simp [exclusive]

theorem record_cut (stage : Text) (n : Nat) (r : Root Evidence) :
    stopped (recordActivationStage stage) (some n) r = r ∨
      ∃ journal, r.journal = some (.object journal) ∧
        stopped (recordActivationStage stage) (some n) r =
          { r with journal := some (.object { journal with stage := stage }) } := by
  unfold recordActivationStage
  match file : r.journal with
  | none => exact .inl ((stopped_check (s := r) (by rw [file]; rfl)).trans (stopped_pure _))
  | some .blank => exact .inl (stopped_check_error (s := r) (by rw [file]; rfl))
  | some .other => exact .inl ((stopped_check (s := r) (by rw [file]; rfl)).trans (stopped_pure _))
  | some (.object journal) =>
    rw [stopped_check (s := r) (by rw [file]; rfl)]
    dsimp only
    rw [stopped_changes]
    cases n with
    | zero => exact .inl rfl
    | succ n => exact .inr ⟨journal, rfl, by simp⟩

theorem end_cut (n : Nat) (r : Root Evidence) :
    stopped endActivation (some n) r = if n = 0 then r else { r with journal := none } := by
  unfold endActivation
  rw [stopped_changes]
  cases n with
  | zero => rfl
  | succ n => simp

theorem receipt_cut (receipt : ActivationReceipt) (n : Nat) (r : Root Evidence) :
    ∃ receipts, stopped (writeReceipt receipt) (some n) r = { r with receipts := receipts } := by
  unfold writeReceipt
  rw [stopped_inspect]
  dsimp only [id]
  split
  · exact ⟨r.receipts, stopped_raise _⟩
  · rw [stopped_changes]
    match n with
    | 0 => exact ⟨_, rfl⟩
    | 1 => exact ⟨_, rfl⟩
    | n + 2 => exact ⟨_, by simp; rfl⟩

theorem artifact_cut (reclamation : Evidence) (n : Nat) (r : Root Evidence) :
    let digest := digestOf R reclamation
    let artifactId := artifactIdOf digest
    let r' := stopped (writeWorkerReclamationArtifact R reclamation) (some n) r
    r' = r ∧ (r.artifacts.lookup artifactId = none → n = 0) ∨
      r.artifacts.lookup artifactId = none ∧
      (n = 1 ∧ r' = { r with artifacts := r.artifacts.insert artifactId .blank } ∨
        1 < n ∧ r' = { r with
          artifacts := r.artifacts.insert artifactId (.object ⟨artifactId, digest, reclamation⟩) }) := by
  dsimp only
  unfold writeWorkerReclamationArtifact
  dsimp only
  rw [stopped_inspect]
  dsimp only [id]
  split
  · rename_i taken
    refine .inl ⟨?_, fun free => by rw [free] at taken; cases taken⟩
    split
    · exact stopped_raise _
    · split
      · exact stopped_raise _
      · exact stopped_pure _
  · rename_i free
    rw [stopped_map, stopped_changes]
    match n with
    | 0 => exact .inl ⟨rfl, fun _ => rfl⟩
    | 1 => exact .inr ⟨by simpa using free, .inl ⟨rfl, rfl⟩⟩
    | n + 2 =>
      refine .inr ⟨by simpa using free, .inr ⟨by omega, ?_⟩⟩
      simp [AList.insert_insert]

/-! ### Any call -/

variable {l : Label Evidence}

/-- The calls that neither switch nor remove write other files. -/
theorem writes_after (swap : ∀ pid sha, l.request ≠ .swapCurrent pid sha)
    (roll : ∀ pid, l.request ≠ .rollback pid)
    (remove : ∀ keep protect, l.request ≠ .prune keep protect) :
    (after R r l).links = r.links ∧ (after R r l).releases = r.releases := by
  obtain ⟨request, cut⟩ := l
  unfold after
  cases request with
  | swapCurrent pid sha => exact absurd rfl (swap pid sha)
  | rollback pid => exact absurd rfl (roll pid)
  | prune keep protect => exact absurd rfl (remove keep protect)
  | beginActivation receiptId fromSha toSha transitionId =>
    obtain ⟨n, same, -⟩ :=
      stopped_number (beginActivation receiptId fromSha toSha transitionId) cut r 0
    dsimp only
    rw [same, begin_cut]
    split <;> exact ⟨rfl, rfl⟩
  | recordActivationStage stage =>
    obtain ⟨n, same, -⟩ := stopped_number (recordActivationStage stage) cut r 0
    dsimp only
    rw [same]
    rcases record_cut stage n r with none | ⟨journal, -, some⟩
    · rw [none]
      exact ⟨rfl, rfl⟩
    · rw [some]
      exact ⟨rfl, rfl⟩
  | endActivation =>
    obtain ⟨n, same, -⟩ := stopped_number endActivation cut r 0
    dsimp only
    rw [same, end_cut]
    split <;> exact ⟨rfl, rfl⟩
  | writeReceipt receipt =>
    obtain ⟨n, same, -⟩ := stopped_number (writeReceipt receipt) cut r 0
    obtain ⟨receipts, files⟩ := receipt_cut receipt n r
    dsimp only
    rw [same, files]
    exact ⟨rfl, rfl⟩
  | writeWorkerReclamationArtifact reclamation =>
    obtain ⟨n, same, -⟩ := stopped_number (writeWorkerReclamationArtifact R reclamation) cut r 0
    dsimp only
    rw [same]
    rcases artifact_cut (R := R) reclamation n r with ⟨none, -⟩ | ⟨-, ⟨-, some⟩ | ⟨-, some⟩⟩
    · rw [none]
      exact ⟨rfl, rfl⟩
    · rw [some]
      exact ⟨rfl, rfl⟩
    · rw [some]
      exact ⟨rfl, rfl⟩

theorem links_after (swap : ∀ pid sha, l.request ≠ .swapCurrent pid sha)
    (roll : ∀ pid, l.request ≠ .rollback pid) : (after R r l).links = r.links := by
  obtain ⟨request, cut⟩ := l
  by_cases remove : ∃ keep protect, request = .prune keep protect
  · obtain ⟨keep, protect, rfl⟩ := remove
    change (stopped (prune R keep protect) cut r).links = r.links
    rcases prune_frame keep protect cut r with same | ⟨_, -, kept⟩
    · rw [same]
    · exact kept.links
  · exact (writes_after swap roll fun keep protect same => remove ⟨keep, protect, same⟩).1

/-- What retention does not want stays, whatever is called. -/
theorem releases_after (unwanted : ∀ keep candidates,
      retentionCandidates r keep = .ok candidates → sha ∉ candidates) :
    (after R r l).releases.lookup sha = r.releases.lookup sha := by
  obtain ⟨request, cut⟩ := l
  by_cases swap : ∃ pid sha, request = .swapCurrent pid sha
  · obtain ⟨pid, target, rfl⟩ := swap
    change (stopped (swapCurrent pid target) cut r).releases.lookup sha = _
    rcases swap_cut pid target cut r with same | ⟨-, switched⟩
    · rw [same]
    · rw [switched.files.releases]
  · by_cases roll : ∃ pid, request = .rollback pid
    · obtain ⟨pid, rfl⟩ := roll
      obtain ⟨n, same, -⟩ := stopped_number (rollback pid) cut r 0
      change (stopped (rollback pid) cut r).releases.lookup sha = _
      rw [same, (rollback_cut pid n r).1.releases]
    · by_cases remove : ∃ keep protect, request = .prune keep protect
      · obtain ⟨keep, protect, rfl⟩ := remove
        change (stopped (prune R keep protect) cut r).releases.lookup sha = _
        rcases prune_frame keep protect cut r with same | ⟨candidates, seen, kept⟩
        · rw [same]
        · exact kept.releases sha (unwanted keep candidates seen)
      · rw [(writes_after (fun pid sha same => swap ⟨pid, sha, same⟩)
          (fun pid same => roll ⟨pid, same⟩) fun keep protect same => remove ⟨keep, protect, same⟩).2]

end RepoForge.Activation
