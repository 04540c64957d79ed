import RepoForge.Guarantees.Transaction.NoWedge
import RepoForge.Source.Workspace.Mutate

/-!
# The disk between keyed calls

Before the marker of a keyed commit the key is unclaimed: the disk can be recovered to the
files of the start, and a receipt that is already out is named by the manifest that the
recovery will roll back (`Unclaimed`). From the marker on it is claimed: the receipt and the
files of the plan are there, and the journal, if it still has a manifest, is committed
(`Claimed`). `commit_spec` says that a commit leads from the one to the other and leaves
nothing else behind, wherever it stops.
-/
namespace RepoForge

open Interruptible Interruptible.Proc

section Unclaimed

/-- A plan that recovery can undo, on a tree with the files `F`. -/
structure Base (F : FileMap) (T : Tree) (actions : List (TransactionAction Path)) : Prop where
  wellFormed : T.WellFormed
  files : ∀ p, T.fileAt p = F p
  enabled : EnabledPlan T actions
  replayable : Replayable T actions
  separate : Separate T actions

/-- A receipt under this name is there only while the manifest names it. -/
def Silent (name : Text) (v : View) : Prop :=
  name ∈ v.receipts → ∃ m, v.manifest = some m ∧ m.commitReceipt = some name

def Unclaimed (E : Engine) (id name : Text) (T : Tree) (actions : List (TransactionAction Path))
    (v : View) : Prop :=
  Recoverable E id T actions v ∧ OrderlyDisk E id T actions v ∧ Silent name v

/-- Nothing is pending, the files are `F`, and the key is free. -/
structure Rested (F : FileMap) (name : Text) (v : View) : Prop where
  journal : v.tx = none
  wellFormed : v.tree.WellFormed
  files : ∀ p, v.tree.fileAt p = F p
  free : name ∉ v.receipts

variable {E : Engine} {o : CommitOptions} {id name : Text} {F : FileMap} {T : Tree}
  {actions : List (TransactionAction Path)} {R : AList fun _ : Text => Bytes} {v w : View}

theorem silent_commitInvariant (new : name ∉ R) :
    CommitInvariant E id T actions R (Silent name) where
  unprepared v h there := by
    rw [h.receipts] at there
    exact absurd there new
  rising v m _ manifest published there := by
    rcases published with same | ⟨n, payload, named, -, inserted⟩
    · rw [same] at there
      exact absurd there new
    · rw [inserted, AList.mem_insert] at there
      rcases there with rfl | old
      · exact ⟨m, manifest, named⟩
      · exact absurd old new
  cleaning := by
    have none : ∀ v w : View, Unprepared T R v → w.receipts = v.receipts → Silent name w := by
      intro v w h same there
      rw [same, h.receipts] at there
      exact absurd there new
    refine Spec.pointwise fun v h => (removeUnprepared_spec E v).weaken (fun _ h => h)
      (fun _ w gone => none v w h gone.2.2) (fun _ _ h => h.elim) ?_
    rintro w (shrunk | purged)
    · exact none v w h shrunk.receipts
    · exact none v w h purged.receipts
  handling m _ := by
    refine (rollback_silent E m name).weaken ?_ (fun _ _ h there => absurd there h)
      (fun _ _ h there => absurd there h) fun _ h there => absurd there h
    rintro v ⟨-, published⟩ there
    rcases published with same | ⟨n, payload, named, -, inserted⟩
    · rw [same] at there
      exact absurd there new
    · rw [inserted, AList.mem_insert] at there
      rcases there with rfl | old
      · exact named
      · exact absurd old new

/-- The key stays unclaimed at every step of a commit before its marker. -/
theorem unclaimed_commitInvariant (base : Base F T actions) (new : name ∉ R) :
    CommitInvariant E id T actions R (Unclaimed E id name T actions) := by
  have recoverable : CommitInvariant E id T actions R (Recoverable E id T actions) :=
    (recoverable_crashInvariant base.wellFormed base.enabled base.replayable R).commitInvariant
  have orderly : CommitInvariant E id T actions R (OrderlyDisk E id T actions) :=
    (orderly_crashInvariant base.wellFormed base.enabled base.separate R).commitInvariant
  have silent : CommitInvariant E id T actions R (Silent name) := silent_commitInvariant new
  exact recoverable.both (orderly.both silent)

/-- At rest the key is unclaimed, with nothing to undo. -/
theorem Rested.unclaimed (rested : Rested F name v) :
    Base F v.tree [] ∧ Unclaimed E id name v.tree [] v := by
  have none : v.manifest = none := by simp [View.manifest, rested.journal]
  refine ⟨⟨rested.wellFormed, rested.files, by simp [EnabledPlan], ?_, ?_⟩,
    .inr ⟨none, fun _ => rfl⟩, ⟨.inl none, .refl rested.wellFormed rfl⟩,
    fun there => absurd there rested.free⟩
  · exact ⟨by simp, by simp, by simp, by simp⟩
  · have nowhere : ∀ p, ¬ OnPath [] p := by
      rintro p ⟨a, member, -⟩
      cases member
    exact ⟨fun p on => absurd on (nowhere p), fun p q on => absurd on (nowhere p)⟩

end Unclaimed

section Recovering

variable {E : Engine} {id name : Text} {F : FileMap} {T : Tree}
  {actions : List (TransactionAction Path)} {v w : View}

/-- The recovery of this disk is not blocked: a journal has its manifest, and where that is
still prepared no created file has lost both its staged copy and its parent directory. -/
def Resumable (w : World) : Prop :=
  ∀ id d, w.journal.lookup id = some d → ∃ m, d.manifest = some m ∧ (m.phase = .prepared →
    ∀ path stage mode parents, .create path stage mode parents ∈ m.actions →
      d.slots.lookup stage = none → w.tree.present path.dropLast = true)

theorem resumable_of_empty {w : World} (empty : w.journal = ∅) : Resumable w := by
  intro id d found
  rw [empty] at found
  simp at found

theorem Resumable.manifest (resumable : Resumable (crashed id v)) (there : v.tx ≠ none) :
    ∃ m, v.manifest = some m ∧ (m.phase = .prepared →
      ∀ path stage mode parents, .create path stage mode parents ∈ m.actions →
        v.slot stage = none → v.tree.present path.dropLast = true) := by
  obtain ⟨d, tx⟩ := Option.ne_none_iff_exists'.mp there
  have found : (crashed id v).journal.lookup id = some d := by
    rw [World.crashed_journal_some tx, AList.lookup_insert]
  obtain ⟨m, manifest, parents⟩ := resumable id d found
  refine ⟨m, by simp [View.manifest, tx, manifest], fun phase path stage mode ps entry gone => ?_⟩
  refine parents phase path stage mode ps entry ?_
  simpa [View.slot, tx] using gone

theorem mem_serializeFrom (T : Tree) {a : TransactionAction Path} : ∀ {actions k} (i : Nat),
    actions[k]? = some a → serializeAction T (i + k) a ∈ serializeFrom T i actions
  | [], _, _, h => by simp at h
  | b :: actions, 0, i, h => by
    simp only [List.getElem?_cons_zero, Option.some.injEq] at h
    subst h
    exact List.mem_cons_self
  | b :: actions, k + 1, i, h => by
    have later := mem_serializeFrom T (i + 1) (show actions[k]? = some a by simpa using h)
    rw [show i + 1 + k = i + (k + 1) by omega] at later
    exact List.mem_cons_of_mem _ later

/-- A resumable disk under an unclaimed key is brought to rest. -/
theorem recoverTransaction_unclaimed (base : Base F T actions)
    (unclaimed : Unclaimed E id name T actions v) (resumable : Resumable (crashed id v))
    (there : v.tx ≠ none) :
    Spec (· = v) (recoverTransaction E id) (fun _ => Rested F name) (fun _ _ => False)
      (Unclaimed E id name T actions) := by
  obtain ⟨recoverable, orderly, silent⟩ := unclaimed
  obtain ⟨m, manifest, parents⟩ := resumable.manifest there
  obtain ⟨plan, pending⟩ := recoverable.resolve_right fun h => by
    rw [manifest] at h
    cases h.1
  have ⟨receipt, safe, found⟩ := plan
  obtain rfl := Option.some.inj (manifest.symm.trans found)
  have first : Spec (fun v => PlanManifest E id T actions v.manifest ∧ Pending T actions v)
      (rollback E { preparedManifest E id T actions with commitReceipt := receipt }) _ _
      (Recoverable E id T actions) :=
    rollback_keeps base.wellFormed base.enabled base.replayable rfl
  have second : Spec (· = v)
      (rollback E { preparedManifest E id T actions with commitReceipt := receipt }) _ _
      (OrderlyDisk E id T actions) :=
    rollback_orderly base.enabled base.separate base.wellFormed rfl plan orderly.2
  have third := rollback_silent E
    { preparedManifest E id T actions with commitReceipt := receipt } name
  have rolled : Spec (· = v)
      (rollback E { preparedManifest E id T actions with commitReceipt := receipt })
      (fun _ => Rested F name) (fun _ _ => False) (Unclaimed E id name T actions) := by
    refine (((first.weaken (by rintro w rfl; exact ⟨plan, pending⟩) (fun _ _ h => h)
      (fun _ _ h => h) fun _ h => h).both second).both (third.weaken ?_ (fun _ _ h => h)
        (fun _ _ h => h) fun _ h => h)).weaken (fun _ h => h) ?_ ?_ ?_
    · rintro w rfl out
      obtain ⟨m', manifest', named⟩ := silent out
      rw [manifest] at manifest'
      cases manifest'
      exact named
    · rintro _ w ⟨⟨⟨-, files⟩, gone, disk⟩, free⟩
      exact ⟨gone, disk.2.wellFormed, fun p => (files p).trans (base.files p), free⟩
    · rintro _ w ⟨⟨-, -, k, path, data, mode, ha, gone, orphan⟩, -⟩
      have on : OnPath actions path :=
        ⟨_, List.mem_of_getElem? ha, by simp [TransactionAction.paths]⟩
      have entry := mem_serializeFrom T 0 ha
      rw [Nat.zero_add] at entry
      have present := parents rfl path (.staged k) mode _ entry gone
      exact orphan ((Tree.present_iff.mp present).resolve_left fun file =>
        file (orderly.2.no_file_above base.enabled base.separate on (List.prefix_refl _)))
    · rintro w ⟨⟨kept, disk⟩, free⟩
      exact ⟨kept, disk, fun out => absurd out free⟩
  refine Spec.of_run_eq (recoverTransaction_prepared E id manifest (readManifest_prepared E safe)
    rfl) ?_
  exact Spec.bind (Spec.handle (E := fun _ _ => False) rolled fun _ =>
    Spec.pointwise fun _ h => h.elim) fun _ => Spec.ret _ fun _ h => h

theorem recoverPending_unclaimed (base : Base F T actions)
    (unclaimed : Unclaimed E id name T actions v) (resumable : Resumable (crashed id v)) :
    Spec (· = crashed id v) (recoverPending E)
      (fun _ w => ∃ u, w = crashed id u ∧ Rested F name u) (fun _ _ => False)
      (fun w => ∃ u, w = crashed id u ∧ Unclaimed E id name T actions u) := by
  by_cases there : v.tx = none
  · have none : v.manifest = none := by simp [View.manifest, there]
    obtain ⟨recoverable, orderly, silent⟩ := unclaimed
    have files : ∀ p, v.tree.fileAt p = T.fileAt p := by
      rcases recoverable with ⟨⟨_, -, manifest⟩, -⟩ | ⟨-, files⟩
      · rw [none] at manifest
        cases manifest
      · exact files
    refine Spec.of_run_eq (recoverPending_clean E (World.crashed_journal_none there))
      (Spec.ret _ ?_)
    rintro w rfl
    refine ⟨v, rfl, there, orderly.2.wellFormed, fun p => (files p).trans (base.files p), ?_⟩
    intro out
    obtain ⟨m, manifest, -⟩ := silent out
    rw [none] at manifest
    cases manifest
  · refine (recoverPending_spec E (recoverTransaction_unclaimed base unclaimed resumable there) rfl
      there).weaken (fun _ h => h) ?_ ?_ fun _ h => h
    · rintro _ w ⟨-, u, -, rfl, rested⟩
      exact ⟨u, rfl, rested⟩
    · rintro _ w ⟨_, -, none⟩
      exact none

/-- The commit stands: its files and its receipt are there, and what is left of the journal is
committed. -/
structure Claimed (E : Engine) (F : FileMap) (name : Text) (payload : Bytes) (v : View) : Prop where
  files : ∀ p, v.tree.fileAt p = F p
  receipt : v.receipts.lookup name = some payload
  manifest : v.manifest = none ∨ ∃ m, v.manifest = some m ∧ m.phase = .committed ∧
    readManifest E m = .ok m

theorem Claimed.shrunk {payload : Bytes} (h : Claimed E F name payload v)
    (cut : Shrunk v w ∨ Purged v w) : Claimed E F name payload w := by
  rcases cut with cut | cut
  · refine ⟨fun p => cut.tree ▸ h.files p, cut.receipts ▸ h.receipt, ?_⟩
    rcases cut.manifest with same | none
    · exact same ▸ h.manifest
    · exact .inl none
  · exact ⟨fun p => cut.tree ▸ h.files p, cut.receipts ▸ h.receipt,
      .inl (by simp [View.manifest, cut.journal])⟩

theorem recoverPending_claimed {payload : Bytes} (claimed : Claimed E F name payload v)
    (resumable : Resumable (crashed id v)) :
    Spec (· = crashed id v) (recoverPending E)
      (fun _ w => ∃ u, w = crashed id u ∧ u.tx = none ∧ Claimed E F name payload u)
      (fun _ _ => False) (fun w => ∃ u, w = crashed id u ∧ Claimed E F name payload u) := by
  by_cases there : v.tx = none
  · refine Spec.of_run_eq (recoverPending_clean E (World.crashed_journal_none there))
      (Spec.ret _ ?_)
    rintro w rfl
    exact ⟨v, rfl, there, claimed⟩
  · obtain ⟨m, manifest, -⟩ := resumable.manifest there
    obtain ⟨m', manifest', phase, read⟩ := claimed.manifest.resolve_left (by simp [manifest])
    have purged : Spec (· = v) (recoverTransaction E id)
        (fun _ u => u.tx = none ∧ Claimed E F name payload u) (fun _ _ => False)
        (Claimed E F name payload) := by
      refine Spec.of_run_eq (recoverTransaction_committed E id manifest' read phase) ?_
      exact Spec.bind ((purge_spec E there).weaken (fun _ h => h)
        (fun _ u h => ⟨h.journal, claimed.shrunk (.inr h)⟩) (fun _ _ h => h)
        fun u h => claimed.shrunk h) fun _ => Spec.ret _ fun _ h => h
    refine (recoverPending_spec E purged rfl there).weaken (fun _ h => h) ?_ ?_ fun _ h => h
    · rintro _ w ⟨-, u, -, rfl, done⟩
      exact ⟨u, rfl, done⟩
    · rintro _ w ⟨_, -, none⟩
      exact none

end Recovering

section Committing

variable {E : Engine} {o : CommitOptions} {id name : Text} {F : FileMap} {T : Tree}
  {actions : List (TransactionAction Path)} {R : AList fun _ : Text => Bytes} {v w : View}

/-- Every receipt of this commit goes by one name. -/
def Keyed (o : CommitOptions) (name : Text) : Prop :=
  ∃ factory, o.commitReceiptFactory = some factory ∧
    ∀ id changed t n payload, factory id changed t = .ok (n, payload) → n = name

/-- A commit claims the key at its marker, with the receipt it asked for on the tree it made. -/
theorem commitTransaction_keyed (base : Base F T actions) (new : name ∉ R) (keyed : Keyed o name) :
    Spec (· = (⟨T, none, R⟩ : View)) (commitTransaction E o id actions)
      (fun receipt w => receipt = ⟨id, changedPaths actions⟩ ∧ w.tx = none ∧ ∃ payload,
        Asked o id actions w.tree name payload ∧
        Claimed E (levelFiles T actions actions.length) name payload w)
      (fun _ => Unclaimed E id name T actions)
      (fun w => Unclaimed E id name T actions w ∨ ∃ payload,
        Asked o id actions w.tree name payload ∧
        Claimed E (levelFiles T actions actions.length) name payload w) := by
  have inv : CommitInvariant E id T actions R (Unclaimed E id name T actions) :=
    unclaimed_commitInvariant base new
  refine Spec.bind (((inv.untilMarker_spec base.wellFormed base.enabled).both
    (untilMarker_returns base.wellFormed base.enabled)).weaken (fun _ h => h) (fun _ _ h => h.2)
      (fun _ _ h => h.1) fun _ h => .inl h.1) fun m => Spec.pointwise ?_
  rintro v ⟨receipt, v₁, rfl, last, published⟩
  obtain ⟨factory, given, named⟩ := keyed
  obtain ⟨n, rfl⟩ : ∃ n, receipt = some n := by
    cases receipt with
    | some n => exact ⟨n, rfl⟩
    | none =>
      have unkeyed := (published.unkeyed rfl).1
      rw [given] at unkeyed
      cases unkeyed
  obtain ⟨safe, -, payload, asked, receipts⟩ := published.keyed n rfl
  obtain rfl : n = name := by
    obtain ⟨factory', given', made⟩ := asked
    rw [given] at given'
    cases given'
    exact named _ _ _ _ _ made
  have claimed : ∀ w, Marked { preparedManifest E id T actions with commitReceipt := some n } v w →
      Asked o id actions w.tree n payload ∧
        Claimed E (levelFiles T actions actions.length) n payload w := by
    intro w marked
    have tree : w.tree = v₁.tree := marked.tree.trans published.tree
    refine ⟨tree ▸ asked, fun p => by rw [tree, last.level.files], ?_, ?_⟩
    · rw [marked.receipts, receipts, AList.lookup_insert]
    · rcases marked.manifest with manifest | none
      · exact .inr ⟨_, manifest, rfl, readManifest_prepared E fun _ h => by cases h; exact safe⟩
      · exact .inl none
  refine Spec.bind (Q := fun _ w => w.tx = none ∧ ∃ payload, Asked o id actions w.tree n payload ∧
      Claimed E (levelFiles T actions actions.length) n payload w)
    (Spec.handle (E := fun _ _ => False) ((finish_spec E _ published.journal).weaken (fun _ h => h)
      (fun _ w h => ⟨h.2, payload, claimed w h.1⟩) (fun _ _ h => h)
      fun w h => .inr ⟨payload, claimed w h⟩) fun _ => Spec.pointwise fun _ h => h.elim)
    fun _ => Spec.ret _ fun w h => ⟨rfl, h⟩

/-- The disks of an unclaimed key. -/
def UnclaimedDisk (E : Engine) (F : FileMap) (name : Text) (w : World) : Prop :=
  ∃ id v T actions, w = crashed id v ∧ Base F T actions ∧ Unclaimed E id name T actions v

/-- The disk after a commit of `plan` on `t` claimed the key. -/
def Settled (E : Engine) (o : CommitOptions) (id name : Text) (t : Tree)
    (plan : List (TransactionAction Text)) (v : View) : Prop :=
  ∃ actions payload, validatePlan t o.commitReceiptFactory.isSome plan = .ok actions ∧
    Asked o id actions v.tree name payload ∧
    Claimed E (levelFiles t actions actions.length) name payload v

theorem commit_keyed (rested : Rested F name v) (keyed : Keyed o name)
    {plan : List (TransactionAction Text)}
    (well : ∀ actions, validatePlan v.tree o.commitReceiptFactory.isSome plan = .ok actions →
      Replayable v.tree actions ∧ Separate v.tree actions) :
    Spec (· = crashed id v) (commit E o id plan)
      (fun receipt w => ∃ u actions, w = crashed id u ∧ u.tx = none ∧
        validatePlan v.tree o.commitReceiptFactory.isSome plan = .ok actions ∧
        receipt = ⟨id, changedPaths actions⟩ ∧ Settled E o id name v.tree plan u)
      (fun _ => UnclaimedDisk E F name)
      (fun w => UnclaimedDisk E F name w ∨ ∃ u, w = crashed id u ∧
        Settled E o id name v.tree plan u) := by
  refine Spec.bind (Q := fun actions w => w = crashed id v ∧
    validatePlan v.tree o.commitReceiptFactory.isSome plan = .ok actions) (Spec.check ?_ ?_)
    fun actions => Spec.pointwise ?_
  · rintro w rfl actions accepted
    exact ⟨rfl, accepted⟩
  · rintro w rfl e _
    obtain ⟨base, unclaimed⟩ := rested.unclaimed
    exact ⟨id, v, v.tree, [], rfl, base, unclaimed⟩
  rintro w ⟨rfl, accepted⟩
  obtain ⟨replayable, separate⟩ := well actions accepted
  have base : Base F v.tree actions :=
    ⟨rested.wellFormed, rested.files, validatePlan_enabled accepted, replayable, separate⟩
  refine Spec.bind (Q := fun _ w => w = crashed id v) (Spec.of_run_eq
    (recoverPending_clean E (World.crashed_journal_none rested.journal)) (Spec.ret _ fun _ h => h))
    fun _ => ?_
  have start : v = ⟨v.tree, none, v.receipts⟩ := by
    rw [← rested.journal]
  refine (World.inTransaction_spec (commitTransaction_keyed base rested.free keyed) start).weaken
    (fun _ h => h) ?_ ?_ ?_
  · rintro receipt w ⟨u, rfl, rfl, idle, payload, asked, claimed⟩
    exact ⟨u, actions, rfl, idle, accepted, rfl, actions, payload, accepted, asked, claimed⟩
  · rintro e w ⟨u, rfl, unclaimed⟩
    exact ⟨id, u, v.tree, actions, rfl, base, unclaimed⟩
  · rintro w ⟨u, rfl, unclaimed | ⟨payload, asked, claimed⟩⟩
    · exact .inl ⟨id, u, v.tree, actions, rfl, base, unclaimed⟩
    · exact .inr ⟨u, rfl, actions, payload, accepted, asked, claimed⟩

end Committing

end RepoForge
