import RepoForge.Spec.Transaction.Recovery

/-!
# Where a commit can stop

A crash leaves a state that `commit` passed through; an exception is handled in such a
state. `Stops` names the states between the first manifest and the marker, together with
the actions that have not begun, and `CrashPoint` every state that a crash before the
marker can leave, the steps of the handlers included. `CrashPoint.induct` is the rule by
which an invariant is shown to hold at all of them.
-/
namespace RepoForge

open Interruptible Interruptible.Proc

/-- From the last action to the replacement that makes the marker. -/
def sealing (o : CommitOptions) (id : Text) (actions : List (TransactionAction Path))
    (m : Manifest) : Step Unit := do
  let name ← stageCommitReceipt o id actions
  publishReceipt { m with commitReceipt := name }
  writeManifestTmp

/-- The application of `actions` from `v` is cut short in `w` with `left` not yet begun. -/
inductive StopsIn : Nat → List (TransactionAction Path) → View →
    List (TransactionAction Path) → View → Prop
  | inside {index a rest v w} : w ∈ (applyAction index a v).visited →
      StopsIn index (a :: rest) v rest w
  | later {index a rest v left w} : (applyAction index a v).result = .ok () →
      StopsIn (index + 1) rest (applyAction index a v).state left w →
      StopsIn index (a :: rest) v left w

/-- `commit` stops after its manifest and before its marker, with `left` not yet begun. -/
inductive Stops (E : Engine) (o : CommitOptions) (id : Text)
    (actions : List (TransactionAction Path)) (v : View) :
    List (TransactionAction Path) → View → Prop
  | prepared {m} : (prepare E id actions v).result = .ok m →
      Stops E o id actions v actions (prepare E id actions v).state
  | applying {m left w} : (prepare E id actions v).result = .ok m →
      StopsIn 0 actions (prepare E id actions v).state left w → Stops E o id actions v left w
  | sealing {m w} : (prepare E id actions v).result = .ok m →
      (applyFrom 0 actions (prepare E id actions v).state).result = .ok () →
      w ∈ (sealing o id actions m (applyFrom 0 actions (prepare E id actions v).state).state).visited →
      Stops E o id actions v [] w

section Stops

variable {E : Engine} {o : CommitOptions} {id : Text} {actions left : List (TransactionAction Path)}
  {v w : View}

theorem stopsIn_visited {index : Nat} {rest : List (TransactionAction Path)}
    (stop : StopsIn index rest v left w) : w ∈ (applyFrom index rest v).visited := by
  induction stop with
  | inside h => exact visited_bind_left h
  | later ok _ ih => exact visited_bind_right ok ih

theorem prepare_state_visited {m : Manifest} (ok : (prepare E id actions v).result = .ok m) :
    (prepare E id actions v).state ∈ (prepare E id actions v).visited := by
  have last : ∀ (m : Manifest) (u : View), (writeManifest m u).result = .ok () →
      (writeManifest m u).state ∈ (writeManifest m u).visited := by
    intro m u h
    unfold writeManifest at h ⊢
    obtain ⟨_, htmp, hrep, hstate⟩ := bind_returns h
    rw [hstate]
    refine visited_bind_right htmp ?_
    unfold replaceManifest step at hrep ⊢
    split at hrep
    · simp
    · cases hrep
  unfold prepare at ok ⊢
  obtain ⟨_, hdir, h, hs⟩ := bind_returns ok
  obtain ⟨_, hstage, h, hs'⟩ := bind_returns h
  obtain ⟨t, ht, h, hs''⟩ := bind_returns h
  obtain ⟨_, hw, h, hs'''⟩ := bind_returns h
  rw [hs, hs', hs'', hs''']
  exact visited_bind_right hdir (visited_bind_right hstage (visited_bind_right ht
    (visited_bind_left (last _ _ hw))))

theorem sealing_spec {m : Manifest} {v₁ : View} (manifest : v₁.manifest = some m)
    (journal : v₁.tx ≠ none) (unnamed : m.commitReceipt = none) :
    Spec (· = v₁) (sealing o id actions m) (fun _ _ => True)
      (fun _ v => ∃ name, Sealing o id actions m v₁ name v)
      (fun v => ∃ name, Sealing o id actions m v₁ name v) := by
  refine Spec.bind ((stageCommitReceipt_spec manifest journal).weaken (fun _ h => h)
    (fun _ _ h => h) (fun _ _ h => ⟨none, h⟩) fun _ h => ⟨none, h⟩) fun name => ?_
  exact (Spec.bind (publishReceipt_spec unnamed name) fun _ =>
    writeManifestTmp_spec unnamed name).weaken (fun _ h => h) (fun _ _ _ => trivial)
      (fun _ _ h => ⟨name, h⟩) fun _ h => ⟨name, h⟩

/-- Every such stop is a state that `commit` passes through before its marker. -/
theorem stops_visited (stop : Stops E o id actions v left w) :
    w ∈ (untilMarker E o id actions v).visited := by
  cases stop with
  | prepared ok => exact visited_bind_left (visited_handle (prepare_state_visited ok))
  | applying ok inside =>
    refine visited_bind_right (by rw [handle_run ok]; exact ok) ?_
    rw [handle_run ok]
    exact visited_bind_left (visited_handle (visited_bind_left (stopsIn_visited inside)))
  | @sealing m w ok applied inside =>
    refine visited_bind_right (by rw [handle_run ok]; exact ok) ?_
    rw [handle_run ok]
    unfold RepoForge.sealing at inside
    cases hname : (stageCommitReceipt o id actions
        (applyFrom 0 actions (prepare E id actions v).state).state).result with
    | error e =>
      rw [bind_run_error hname] at inside
      exact visited_bind_left (visited_handle (visited_bind_right applied inside))
    | ok name =>
      have both : ((do applyFrom 0 actions; stageCommitReceipt o id actions : Step (Option Text))
          (prepare E id actions v).state).result = .ok name := by
        rw [bind_run applied]
        exact hname
      rw [bind_run hname] at inside
      rcases List.mem_append.mp inside with inside | inside
      · exact visited_bind_left (visited_handle (visited_bind_right applied inside))
      · refine visited_bind_right (by rw [handle_run both]; exact both) ?_
        rw [handle_run both, bind_run applied]
        exact visited_bind_left (visited_handle inside)

variable {T : Tree} {M : Option Manifest} {R : AList fun _ : Text => Bytes}

theorem stopsIn_level (enabled : EnabledPlan T actions) {index : Nat}
    {rest : List (TransactionAction Path)} (stop : StopsIn index rest v left w) :
    actions.drop index = rest → Ready T actions M R index v →
      ∃ m, m < actions.length ∧ left = actions.drop (m + 1) ∧ Running T actions M R m w := by
  induction stop with
  | @inside index a rest v w inside =>
    intro split ready
    obtain ⟨ha, split'⟩ := head_of_drop split
    exact ⟨index, (List.getElem?_eq_some_iff.mp ha).1, split'.symm,
      (applyAction_spec enabled ha).visits _ ready w inside⟩
  | later ok _ ih =>
    intro split ready
    obtain ⟨ha, split'⟩ := head_of_drop split
    exact ih split' ((applyAction_spec enabled ha).returns _ ready () ok)

end Stops

/-- Where a crash of `commit` before its marker can fall: between two of its own steps, or
between two steps of the handler that an exception in any of them sets off. -/
inductive CrashPoint (E : Engine) (o : CommitOptions) (id : Text)
    (actions : List (TransactionAction Path)) (v₀ : View) : View → Prop
  | passed {v} : v ∈ (untilMarker E o id actions v₀).visited → CrashPoint E o id actions v₀ v
  | cleaning {v₁ v} : v₁ ∈ (prepare E id actions v₀).visited →
      v ∈ (removeUnprepared E v₁).visited → CrashPoint E o id actions v₀ v
  | handling {left v₁ name v} : Stops E o id actions v₀ left v₁ →
      v ∈ (rollback E { preparedManifest E id v₀.tree actions with commitReceipt := name }
        v₁).visited → CrashPoint E o id actions v₀ v

section Invariant

variable {E : Engine} {o : CommitOptions} {id : Text} {T : Tree}
  {actions left : List (TransactionAction Path)} {R : AList fun _ : Text => Bytes} {v : View}

theorem staged_ne_none {k m : Nat} {a : TransactionAction Path} (staged : Staged actions m v)
    (le : m ≤ k) (ha : actions[k]? = some a) (path : Path) (data : Bytes) (mode : Int)
    (create : a = .createFile path data mode) : v.slot (.staged k) ≠ none := by
  subst create
  have copy : v.slot (.staged k) = some ⟨data, mode.toNat⟩ := staged k _ le ha
  simp [copy]

/-- The manifest on disk is the one this plan was prepared with. -/
def PlanManifest (E : Engine) (id : Text) (T : Tree) (actions : List (TransactionAction Path))
    (m : Option Manifest) : Prop :=
  ∃ name, (∀ n, name = some n → safeReceiptName n = true) ∧
    m = some { preparedManifest E id T actions with commitReceipt := name }

theorem planManifest_prepared :
    PlanManifest E id T actions (some (preparedManifest E id T actions)) :=
  ⟨none, by simp, rfl⟩

/-- The plan on its way up: at a level or inside a write, with every creation that has not
happened still staged. -/
def Rising (E : Engine) (id : Text) (T : Tree) (actions : List (TransactionAction Path))
    (v : View) : Prop :=
  PlanManifest E id T actions v.manifest ∧ ∃ count files, Journaled T actions count files v ∧
    Standing T actions count files ∧ ∀ k path data mode, count ≤ k →
      actions[k]? = some (.createFile path data mode) → v.slot (.staged k) ≠ none

theorem Running.rising {m : Nat}
    (run : Running T actions (some (preparedManifest E id T actions)) R m v) :
    Rising E id T actions v := by
  refine ⟨run.manifest ▸ planManifest_prepared, ?_⟩
  have later : ∀ k path data mode, m + 1 ≤ k → actions[k]? = some (.createFile path data mode) →
      v.slot (.staged k) ≠ none := fun k path data mode le ha =>
    staged_ne_none run.staged le ha path data mode rfl
  rcases run.level with ⟨level, own⟩ | ⟨path, data, preserveMode, ha, j, -⟩ | level
  · refine ⟨m, _, level, .inl rfl, fun k path data mode le ha => ?_⟩
    by_cases he : k = m
    · subst he
      exact own path data mode ha
    · exact later k path data mode (by omega) ha
  · exact ⟨m + 1, _, j, .inr ⟨m, rfl, .inr ⟨path, data, preserveMode, ha, rfl⟩⟩, later⟩
  · exact ⟨m + 1, _, level, .inl rfl, later⟩

/-- Between the last action and the marker the plan is at its last level. -/
theorem Sealing.rising {v₁ : View} {name : Option Text}
    (last : AtLevel T actions actions.length v₁)
    (sealed : Sealing o id actions (preparedManifest E id T actions) v₁ name v) :
    Rising E id T actions v := by
  refine ⟨?_, actions.length, _, last.of_same_tree sealed.tree sealed.slots sealed.journal, .inl rfl,
    fun k path data mode le ha => ?_⟩
  · rcases sealed.receipt with ⟨manifest, -⟩ | ⟨name, payload, -, ok, -, -, manifest, -⟩
    · rw [manifest]
      exact planManifest_prepared
    · rw [manifest]
      exact ⟨some name, fun n hn => by cases hn; exact ok, rfl⟩
  · rw [List.getElem?_eq_none le] at ha
    cases ha

theorem prepare_ready (wf : T.WellFormed) {m : Manifest}
    (ok : (prepare E id actions ⟨T, none, R⟩).result = .ok m) :
    m = preparedManifest E id T actions ∧
      Ready T actions (some (preparedManifest E id T actions)) R 0
        (prepare E id actions ⟨T, none, R⟩).state := by
  obtain ⟨rfl, ready⟩ := (prepare_spec E id wf).returns _ rfl m ok
  exact ⟨rfl, ready⟩

theorem Stops.rising (wf : T.WellFormed) (enabled : EnabledPlan T actions)
    (stop : Stops E o id actions ⟨T, none, R⟩ left v) : Rising E id T actions v := by
  cases stop with
  | prepared ok => exact (prepare_ready wf ok).2.running.rising
  | applying ok inside =>
    obtain ⟨m, -, -, run⟩ := stopsIn_level enabled inside (by simp) (prepare_ready wf ok).2
    exact run.rising
  | sealing ok applied inside =>
    obtain ⟨rfl, ready⟩ := prepare_ready wf ok
    have last := (applyFrom_spec enabled actions 0 rfl (by omega)).returns _ ready () applied
    obtain ⟨name, sealed⟩ := (sealing_spec last.manifest last.level.journal rfl).visits _ rfl v inside
    exact sealed.rising last.level

/-- What an invariant of crashes has to satisfy. -/
structure CrashInvariant (E : Engine) (id : Text) (T : Tree)
    (actions : List (TransactionAction Path)) (R : AList fun _ : Text => Bytes) (J : View → Prop) :
    Prop where
  unprepared : ∀ v, Unprepared T R v → J v
  rising : ∀ v, Rising E id T actions v → J v
  cleaning : Spec (fun v => Unprepared T R v ∨
      (PlanManifest E id T actions v.manifest ∧ AtLevel T actions 0 v)) (removeUnprepared E)
    (fun _ => J) (fun _ => J) J
  handling : ∀ m : Manifest, m.actions = serializeFrom T 0 actions →
    Spec (Rising E id T actions) (rollback E m) (fun _ => J) (fun _ => J) J

/-- The receipts are those of the start, or there is one more, which `m` names. -/
def Published (R : AList fun _ : Text => Bytes) (m : Manifest) (v : View) : Prop :=
  v.receipts = R ∨ ∃ name payload, m.commitReceipt = some name ∧ name ∉ R ∧
    v.receipts = R.insert name payload

/-- What an invariant of the steps of `commit` itself has to satisfy. The handlers of `commit`
roll back a manifest that names every receipt it has published. -/
structure CommitInvariant (E : Engine) (id : Text) (T : Tree)
    (actions : List (TransactionAction Path)) (R : AList fun _ : Text => Bytes) (J : View → Prop) :
    Prop where
  unprepared : ∀ v, Unprepared T R v → J v
  rising : ∀ v m, Rising E id T actions v → v.manifest = some m → Published R m v → J v
  cleaning : Spec (Unprepared T R) (removeUnprepared E) (fun _ => J) (fun _ => J) J
  handling : ∀ m : Manifest, m.actions = serializeFrom T 0 actions →
    Spec (fun v => Rising E id T actions v ∧ Published R m v) (rollback E m) (fun _ => J)
      (fun _ => J) J

variable {J : View → Prop}

theorem CrashInvariant.commitInvariant (inv : CrashInvariant E id T actions R J) :
    CommitInvariant E id T actions R J where
  unprepared := inv.unprepared
  rising v _ h _ _ := inv.rising v h
  cleaning := inv.cleaning.weaken (fun _ h => .inl h) (fun _ _ h => h) (fun _ _ h => h) fun _ h => h
  handling m entries := (inv.handling m entries).weaken (fun _ h => h.1) (fun _ _ h => h)
    (fun _ _ h => h) fun _ h => h

theorem Sealing.published {m : Manifest} {v₁ : View} {name : Option Text}
    (unchanged : v₁.receipts = R) (sealed : Sealing o id actions m v₁ name v) :
    Published R { m with commitReceipt := name } v ∧
      ∃ m', v.manifest = some m' ∧ Published R m' v := by
  rcases sealed.receipt with ⟨manifest, same⟩ | ⟨n, payload, rfl, -, new, -, manifest, receipts⟩
  · exact ⟨.inl (same.trans unchanged), m, manifest, .inl (same.trans unchanged)⟩
  · have published : Published R { m with commitReceipt := some n } v := by
      rcases receipts with same | inserted
      · exact .inl (same.trans unchanged)
      · exact .inr ⟨n, payload, rfl, unchanged ▸ new, unchanged ▸ inserted⟩
    exact ⟨published, _, manifest, published⟩

namespace CommitInvariant

theorem both {J' : View → Prop} (inv : CommitInvariant E id T actions R J)
    (inv' : CommitInvariant E id T actions R J') :
    CommitInvariant E id T actions R fun v => J v ∧ J' v where
  unprepared v h := ⟨inv.unprepared v h, inv'.unprepared v h⟩
  rising v m h manifest published :=
    ⟨inv.rising v m h manifest published, inv'.rising v m h manifest published⟩
  cleaning := inv.cleaning.both inv'.cleaning
  handling m entries := (inv.handling m entries).both (inv'.handling m entries)

theorem of_running (inv : CommitInvariant E id T actions R J) {m : Nat}
    (run : Running T actions (some (preparedManifest E id T actions)) R m v) : J v :=
  inv.rising v _ run.rising run.manifest (.inl run.receipts)

theorem of_sealing (inv : CommitInvariant E id T actions R J) {v₁ : View} {name : Option Text}
    (last : Ready T actions (some (preparedManifest E id T actions)) R actions.length v₁)
    (sealed : Sealing o id actions (preparedManifest E id T actions) v₁ name v) : J v := by
  obtain ⟨-, m, manifest, published⟩ := sealed.published last.receipts
  exact inv.rising v m (sealed.rising last.level) manifest published

theorem rollbackAndRaise (inv : CommitInvariant E id T actions R J) {α : Type}
    {Q : α → View → Prop} {m : Manifest} (entries : m.actions = serializeFrom T 0 actions)
    (primary : TransactionError) :
    Spec (fun v => Rising E id T actions v ∧ Published R m v) (rollbackAndRaise E m primary) Q
      (fun _ => J) J := by
  refine Spec.bind (Q := fun _ => J) (Spec.handle (inv.handling m entries) fun _ =>
    Spec.raise _ fun _ h => h) fun _ => Spec.raise _ fun _ h => h

/-- An invariant of the steps of `commit` holds at every step before its marker. -/
theorem untilMarker_spec (inv : CommitInvariant E id T actions R J)
    (wf : T.WellFormed) (enabled : EnabledPlan T actions) :
    Spec (· = (⟨T, none, R⟩ : View)) (untilMarker E o id actions) (fun _ _ => True) (fun _ => J)
      J := by
  refine Spec.bind (Q := fun m v => m = preparedManifest E id T actions ∧
    Ready T actions (some m) R 0 v) (Spec.handle ((prepare_spec E id wf).weaken (fun _ h => h)
      (fun _ _ h => h) (fun _ _ h => h) ?_) fun e => ?_) fun m => Spec.pointwise ?_
  · rintro v (h | h)
    · exact inv.unprepared v h
    · exact inv.of_running h.running
  · exact Spec.bind inv.cleaning fun _ => Spec.raise _ fun _ h => h
  rintro v₀ ⟨rfl, ready⟩
  refine Spec.bind (Q := fun name v => ∃ v₁,
      Ready T actions (some (preparedManifest E id T actions)) R actions.length v₁ ∧
      ReceiptStaged o id actions (preparedManifest E id T actions) v₁ name v) (Spec.handle
    (E := fun _ v => Rising E id T actions v ∧ Published R (preparedManifest E id T actions) v) ?_
      fun e => inv.rollbackAndRaise rfl e) fun name => Spec.pointwise ?_
  · refine Spec.bind ((applyFrom_spec enabled actions 0 rfl (by omega)).weaken (by
      rintro v rfl; exact ready) (fun _ _ h => h) ?_ ?_) fun _ => Spec.pointwise fun v₁ last => ?_
    · rintro _ v ⟨m, -, run⟩
      exact ⟨run.rising, .inl run.receipts⟩
    · rintro v ⟨m, -, run⟩
      exact inv.of_running run
    · exact (stageCommitReceipt_spec last.manifest last.level.journal).weaken (fun _ h => h)
        (fun name v h => ⟨v₁, last, h⟩)
        (fun _ v h => ⟨h.rising last.level, (h.published last.receipts).1⟩)
        fun v h => inv.of_sealing last h
  · rintro v ⟨v₁, last, staged⟩
    refine Spec.bind (Q := fun _ _ => True) (Spec.handle
      (E := fun _ v => Rising E id T actions v ∧
        Published R { preparedManifest E id T actions with commitReceipt := name } v) ?_
      fun e => inv.rollbackAndRaise rfl e) fun _ => Spec.ret _ fun _ _ => trivial
    exact (Spec.bind (publishReceipt_spec rfl name) fun _ => writeManifestTmp_spec rfl name).weaken
      (by rintro w rfl; exact staged) (fun _ _ _ => trivial)
      (fun _ v h => ⟨h.rising last.level, (h.published last.receipts).1⟩)
      fun v h => inv.of_sealing last h

end CommitInvariant

/-- An invariant of crashes holds at every crash before the marker. -/
theorem CrashPoint.induct (inv : CrashInvariant E id T actions R J) (wf : T.WellFormed)
    (enabled : EnabledPlan T actions) (crash : CrashPoint E o id actions ⟨T, none, R⟩ v) : J v := by
  cases crash with
  | passed visited =>
    exact (inv.commitInvariant.untilMarker_spec wf enabled).visits _ rfl v visited
  | cleaning before visited =>
    refine inv.cleaning.visits _ ?_ v visited
    rcases (prepare_spec E id wf).visits _ rfl _ before with h | h
    · exact .inl h
    · exact .inr ⟨h.manifest ▸ planManifest_prepared, h.level⟩
  | handling stop visited =>
    exact (inv.handling _ rfl).visits _ (stop.rising wf enabled) v visited

end Invariant

/-- From the marker to the end of the journal. -/
def finish (E : Engine) (m : Manifest) : Step Unit := do
  replaceManifest (markerWritten m)
  purge E

/-- Where a crash of `commit` can fall. After the marker there are the steps of the purge, and
those of the rollback that an exception in the purge sets off. -/
inductive CommitCrash (E : Engine) (o : CommitOptions) (id : Text)
    (actions : List (TransactionAction Path)) (v₀ : View) : View → Prop
  | unmarked {v} : CrashPoint E o id actions v₀ v → CommitCrash E o id actions v₀ v
  | marked {m v} : (untilMarker E o id actions v₀).result = .ok m →
      v ∈ (finish E m (untilMarker E o id actions v₀).state).visited →
      CommitCrash E o id actions v₀ v
  | unmarking {m v₁ v} : (untilMarker E o id actions v₀).result = .ok m →
      v₁ ∈ (finish E m (untilMarker E o id actions v₀).state).visited →
      v ∈ (rollback E m v₁).visited → CommitCrash E o id actions v₀ v

/-- The marker is in place or the journal is on its way out; nothing else has changed. -/
structure Marked (m : Manifest) (v w : View) : Prop where
  tree : w.tree = v.tree
  receipts : w.receipts = v.receipts
  manifest : w.manifest = some (markerWritten m) ∨ w.manifest = none

theorem finish_spec (E : Engine) (m : Manifest) {v : View} (journal : v.tx ≠ none) :
    Spec (· = v) (finish E m) (fun _ w => Marked m v w ∧ w.tx = none) (fun _ _ => False)
      (Marked m v) := by
  obtain ⟨d, tx⟩ := Option.ne_none_iff_exists'.mp journal
  refine Spec.bind (Q := fun _ w => w.tree = v.tree ∧ w.receipts = v.receipts ∧ w.tx ≠ none ∧
    w.manifest = some (markerWritten m)) (Spec.step ?_ ?_) fun _ => Spec.pointwise ?_
  · rintro w rfl u hu
    simp only [View.onTx, tx, Except.ok.injEq] at hu
    subst hu
    exact ⟨⟨rfl, rfl, .inl rfl⟩, rfl, rfl, by simp, rfl⟩
  · rintro w rfl e refused
    simp [View.onTx, tx] at refused
  · rintro w ⟨tree, receipts, journal, manifest⟩
    have purged : ∀ u, Purged w u → Marked m v u ∧ u.tx = none := fun u h =>
      ⟨⟨h.tree.trans tree, h.receipts.trans receipts, .inr (by simp [View.manifest, h.journal])⟩,
        h.journal⟩
    refine (purge_spec E journal).weaken (fun _ h => h) (fun _ u h => purged u h) (fun _ _ h => h) ?_
    rintro u (h | h)
    · exact ⟨h.tree.trans tree, h.receipts.trans receipts, h.manifest.imp_left fun h => h.trans manifest⟩
    · exact (purged u h).1

/-- Before the marker the manifest on disk, if any, is the prepared one. -/
theorem planManifest_crashInvariant (E : Engine) (id : Text) (T : Tree)
    (actions : List (TransactionAction Path)) (R : AList fun _ : Text => Bytes) :
    CrashInvariant E id T actions R
      fun v => v.manifest = none ∨ PlanManifest E id T actions v.manifest := by
  have kept : ∀ v w : View, PlanManifest E id T actions v.manifest →
      w.manifest = v.manifest ∨ w.manifest = none →
      w.manifest = none ∨ PlanManifest E id T actions w.manifest := by
    rintro v w plan (same | none)
    · exact .inr (same ▸ plan)
    · exact .inl none
  refine ⟨fun v h => .inl h.manifest, fun v h => .inr h.1, ?_, ?_⟩
  · refine Spec.pointwise fun v start => (removeUnprepared_spec E v).weaken (fun _ h => h)
      (fun _ w h => .inl (by simp [View.manifest, h.1])) (fun _ _ h => h.elim) ?_
    rintro w (h | h)
    · rcases start with unprepared | ⟨plan, -⟩
      · exact .inl (h.manifest.elim (fun h => h.trans unprepared.manifest) fun h => h)
      · exact kept v w plan h.manifest
    · exact .inl (by simp [View.manifest, h.journal])
  · intro m _
    refine Spec.pointwise fun v rising => ?_
    exact (rollback_frame (manifest_rollbackFrame v.manifest) E m).weaken (fun w h => h ▸ .inl rfl)
      (fun _ w h => kept v w rising.1 h) (fun _ w h => kept v w rising.1 h)
      fun w h => kept v w rising.1 h

section CommitCrash

variable {E : Engine} {o : CommitOptions} {id : Text} {T : Tree}
  {actions : List (TransactionAction Path)} {R : AList fun _ : Text => Bytes} {v : View}

/-- After the marker the manifest on disk, if any, is the committed one. -/
theorem CommitCrash.committed_or_unmarked (wf : T.WellFormed) (enabled : EnabledPlan T actions)
    (crash : CommitCrash E o id actions ⟨T, none, R⟩ v) :
    CrashPoint E o id actions ⟨T, none, R⟩ v ∨ ∃ name,
      (∀ n, name = some n → safeReceiptName n = true) ∧
      (v.manifest = some (markerWritten { preparedManifest E id T actions with commitReceipt := name }) ∨
        v.manifest = none) := by
  have marked : ∀ {m v₁}, (untilMarker E o id actions ⟨T, none, R⟩).result = .ok m →
      v₁ ∈ (finish E m (untilMarker E o id actions ⟨T, none, R⟩).state).visited →
      ∃ name, (∀ n, name = some n → safeReceiptName n = true) ∧
        m = { preparedManifest E id T actions with commitReceipt := name } ∧
        (v₁.manifest = some (markerWritten m) ∨ v₁.manifest = none) := by
    intro m v₁ ok visited
    obtain ⟨name, v₂, hm, last, published⟩ := (untilMarker_returns wf enabled).returns _ rfl m ok
    exact ⟨name, fun n hn => (published.keyed n hn).1, hm,
      ((finish_spec E m published.journal).visits _ rfl v₁ visited).manifest⟩
  cases crash with
  | unmarked crash => exact .inl crash
  | marked ok visited =>
    obtain ⟨name, safe, rfl, manifest⟩ := marked ok visited
    exact .inr ⟨name, safe, manifest⟩
  | unmarking ok before visited =>
    obtain ⟨name, safe, rfl, manifest⟩ := marked ok before
    exact .inr ⟨name, safe, (rollback_frame (manifest_rollbackFrame _) E _).visits _ manifest v visited⟩

theorem CommitCrash.manifest {m : Manifest} (wf : T.WellFormed) (enabled : EnabledPlan T actions)
    (crash : CommitCrash E o id actions ⟨T, none, R⟩ v) (found : v.manifest = some m) :
    (∃ name, (∀ n, name = some n → safeReceiptName n = true) ∧
      m = { preparedManifest E id T actions with commitReceipt := name }) ∨
    (∃ name, (∀ n, name = some n → safeReceiptName n = true) ∧
      m = markerWritten { preparedManifest E id T actions with commitReceipt := name }) := by
  rcases crash.committed_or_unmarked wf enabled with unmarked | ⟨name, safe, manifest⟩
  · rcases unmarked.induct (planManifest_crashInvariant E id T actions R) wf enabled with
      none | ⟨name, safe, manifest⟩
    · rw [found] at none
      cases none
    · exact .inl ⟨name, safe, Option.some.inj (found.symm.trans manifest)⟩
  · rcases manifest with manifest | none
    · exact .inr ⟨name, safe, Option.some.inj (found.symm.trans manifest)⟩
    · rw [found] at none
      cases none

theorem CommitCrash.unmarked_of_prepared {m : Manifest} (wf : T.WellFormed)
    (enabled : EnabledPlan T actions) (crash : CommitCrash E o id actions ⟨T, none, R⟩ v)
    (found : v.manifest = some m) (phase : m.phase = .prepared) :
    CrashPoint E o id actions ⟨T, none, R⟩ v := by
  rcases crash.committed_or_unmarked wf enabled with unmarked | ⟨name, -, manifest | none⟩
  · exact unmarked
  · obtain rfl := Option.some.inj (found.symm.trans manifest)
    cases phase
  · rw [found] at none
    cases none

end CommitCrash

end RepoForge
