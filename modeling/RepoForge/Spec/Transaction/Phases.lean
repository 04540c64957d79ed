import RepoForge.Spec.Transaction.Cleanup

/-!
# The phases of a commit

`prepare_spec` is everything before the first manifest, `applyFrom_spec` the application of
the actions, `stageCommitReceipt_spec` and `publishReceipt_spec` what lies between the last
action and the committed marker. Each says which states a crash can leave.
-/
namespace RepoForge

open Interruptible

section WriteStaged

/-- Only the slot `s` may differ. -/
structure OnlySlot (s : Slot) (v w : View) : Prop where
  tree : w.tree = v.tree
  framed : View.Framed v w
  slots : ∀ r, r ≠ s → w.slot r = v.slot r

theorem OnlySlot.insert {s : Slot} {v w : View} {d : TxDir} (h : OnlySlot s v w) (tx : w.tx = some d)
    (f : File) : OnlySlot s v { w with tx := some { d with slots := d.slots.insert s f } } where
  tree := h.tree
  framed :=
    { journal := by simp
      manifest := by rw [← h.framed.manifest]; simp [View.manifest, tx]
      receipts := h.framed.receipts }
  slots r hr := by
    rw [View.slot_insert w w.tree, if_neg hr, ← h.slots r hr]
    simp [View.slot, tx]

theorem OnlySlot.refl (s : Slot) (v : View) : OnlySlot s v v :=
  ⟨rfl, ⟨id, rfl, rfl⟩, fun _ _ => rfl⟩

theorem writeStaged_spec (s : Slot) (data : Bytes) (mode : Nat) (v : View) :
    Spec (· = v) (writeStaged s data mode)
      (fun _ w => OnlySlot s v w ∧ w.slot s = some ⟨data, mode⟩) (fun _ => OnlySlot s v)
      (OnlySlot s v) := by
  have put : ∀ (f : File), Spec (OnlySlot s v)
      (Proc.step (View.onTx fun d => .ok { d with slots := d.slots.insert s f }))
      (fun _ w => OnlySlot s v w ∧ w.slot s = some f) (fun _ => OnlySlot s v) (OnlySlot s v) := by
    intro f
    refine Spec.step ?_ fun w h _ _ => h
    intro w h u hu
    obtain ⟨d, d', tx, hd, rfl⟩ := View.onTx_ok hu
    cases hd
    refine ⟨h.insert tx f, h.insert tx f, ?_⟩
    rw [View.slot_insert w w.tree, if_pos rfl]
  refine Spec.bind (Q := fun _ => OnlySlot s v) (Spec.step ?_ ?_) fun _ => ?_
  · rintro w rfl u hu
    obtain ⟨d, d', tx, hd, rfl⟩ := View.onTx_ok hu
    split at hd
    · cases hd
    · cases hd
      have opened := (OnlySlot.refl s w).insert tx ⟨[], 0o644⟩
      exact ⟨opened, opened⟩
  · rintro w rfl _ _
    exact .refl s w
  · exact Spec.bind ((put _).weaken (fun _ h => h) (fun _ _ h => h.1) (fun _ _ h => h) fun _ h => h)
      fun _ => put _

end WriteStaged

section Prepare

variable {T : Tree} {actions : List (TransactionAction Path)}
  {R : AList fun _ : Text => Bytes}

/-- Before the manifest is in place the workspace is untouched. -/
structure Unprepared (T : Tree) (R : AList fun _ : Text => Bytes) (v : View) : Prop where
  tree : v.tree = T
  receipts : v.receipts = R
  manifest : v.manifest = none

/-- The first `i` actions are staged, and nothing else is in the journal. -/
structure Staging (T : Tree) (actions : List (TransactionAction Path))
    (R : AList fun _ : Text => Bytes) (i : Nat) (v : View) : Prop where
  unprepared : Unprepared T R v
  journal : v.tx ≠ none
  staged : ∀ k a, k < i → actions[k]? = some a → StagedCopy k v a
  empty : ∀ s, (∀ k, k < i → s ≠ .staged k) → v.slot s = none

theorem Unprepared.onlySlot {s : Slot} {v w : View} (h : Unprepared T R v) (only : OnlySlot s v w) :
    Unprepared T R w :=
  ⟨only.tree.trans h.tree, only.framed.receipts.trans h.receipts,
    only.framed.manifest.trans h.manifest⟩

theorem StagedCopy.onlySlot {k i : Nat} {v w : View} {a : TransactionAction Path} (ne : k ≠ i)
    (only : OnlySlot (.staged i) v w) (h : StagedCopy k v a) : StagedCopy k w a :=
  h.of_other ne fun r hr _ _ => only.slots r hr

/-- One more copy is staged. -/
theorem Staging.next {i : Nat} {v w : View} {a : TransactionAction Path} {f : File}
    (h : Staging T actions R i v) (ha : actions[i]? = some a)
    (only : OnlySlot (.staged i) v w) (copy : w.slot (.staged i) = some f)
    (right : StagedCopy i w a) : Staging T actions R (i + 1) w where
  unprepared := h.unprepared.onlySlot only
  journal := only.framed.journal h.journal
  staged k b hk hb := by
    by_cases he : k = i
    · subst he
      rw [ha] at hb
      cases hb
      exact right
    · exact (h.staged k b (by omega) hb).onlySlot he only
  empty s hs := by
    rw [only.slots s (hs i (by omega))]
    exact h.empty s fun k hk => hs k (by omega)

theorem stageAction_spec {i : Nat} {a : TransactionAction Path} (ha : actions[i]? = some a) :
    Spec (Staging T actions R i) (stageAction i a) (fun _ => Staging T actions R (i + 1))
      (fun _ => Unprepared T R) (Unprepared T R) := by
  have stage : ∀ (data : Bytes) (mode : Nat),
      (∀ w : View, w.slot (.staged i) = some ⟨data, mode⟩ → StagedCopy i w a) →
      Spec (Staging T actions R i) (writeStaged (.staged i) data mode)
        (fun _ => Staging T actions R (i + 1)) (fun _ => Unprepared T R) (Unprepared T R) := by
    intro data mode right
    refine Spec.pointwise fun v hv => (writeStaged_spec _ data mode v).weaken (fun _ h => h)
      (fun _ w h => hv.next ha h.1 h.2 (right w h.2)) (fun _ w h => hv.unprepared.onlySlot h)
      fun w h => hv.unprepared.onlySlot h
  have idle : (∀ v, StagedCopy i v a) → ∀ v, Staging T actions R i v → Staging T actions R (i + 1) v := by
    intro right v h
    refine ⟨h.unprepared, h.journal, fun k b hk hb => ?_, fun s hs => h.empty s fun k hk =>
      hs k (by omega)⟩
    by_cases he : k = i
    · subst he
      rw [ha] at hb
      cases hb
      exact right v
    · exact h.staged k b (by omega) hb
  cases a with
  | writeFile path data preserveMode => exact stage data stageMode fun w h => h
  | createFile path data mode => exact stage data mode.toNat fun w h => h
  | deleteFile path => exact Spec.ret () (idle fun _ => trivial)
  | moveFile source destination => exact Spec.ret () (idle fun _ => trivial)

theorem stageFrom_spec :
    ∀ (rest : List (TransactionAction Path)) (i : Nat), actions.drop i = rest → i ≤ actions.length →
      Spec (Staging T actions R i) (stageFrom i rest) (fun _ => Staging T actions R actions.length)
        (fun _ => Unprepared T R) (Unprepared T R)
  | [], i, split, bound => by
    have : i = actions.length := by
      have := List.drop_eq_nil_iff.mp split
      omega
    exact this ▸ Spec.ret () fun _ h => h
  | a :: rest, i, split, bound => by
    obtain ⟨ha, split'⟩ := head_of_drop split
    have lt : i < actions.length := by
      by_contra h
      rw [List.drop_eq_nil_of_le (by omega)] at split
      cases split
    exact Spec.bind (stageAction_spec ha) fun _ => stageFrom_spec rest (i + 1) split' lt

/-- With everything staged the plan is at level zero. -/
theorem Staging.ready {v w : View} {d : TxDir} {M : Manifest} (h : Staging T actions R actions.length v)
    (wf : T.WellFormed) (tx : v.tx = some d)
    (written : w = { v with tx := some { d with manifestTmp := false, manifest := some M } }) :
    Ready T actions (some M) R 0 w := by
  have slots : ∀ s, w.slot s = v.slot s := by
    intro s
    simp [View.slot, written, tx]
  have tree : w.tree = T := by rw [written]; exact h.unprepared.tree
  refine ⟨⟨by omega, by simp [written], tree ▸ wf, fun p => by rw [tree, levelFiles_zero], ?_, ?_, ?_,
    ?_, ?_, ?_⟩, ?_, by simp [View.manifest, written], by rw [written]; exact h.unprepared.receipts⟩
  · intro k a hk
    omega
  · intro k a _ _
    cases a <;> simp [Unsaved, slots, h.empty]
  · intro p hp
    exact tree ▸ hp
  · intro k p hk hp
    obtain rfl : k = 0 := by omega
    rw [levelFiles_zero] at hp
    rw [tree]
    exact wf p fun hn => hp (Tree.fileAt_eq_none.mpr (.inl hn))
  · intro p hp
    exact .inl (tree ▸ hp)
  · intro k p hk held hp
    obtain rfl : k = 0 := by omega
    rw [levelFiles_zero] at held
    exact absurd (tree ▸ hp : T.IsDir p).fileAt held
  · intro k a _ ha
    have lt : k < actions.length := (List.getElem?_eq_some_iff.mp ha).1
    have := h.staged k a lt ha
    cases a <;> simp_all [StagedCopy]

theorem prepare_spec (E : Engine) (id : Text) (wf : T.WellFormed) :
    Spec (· = (⟨T, none, R⟩ : View)) (prepare E id actions)
      (fun m v => m = preparedManifest E id T actions ∧ Ready T actions (some m) R 0 v)
      (fun _ => Unprepared T R)
      (fun v => Unprepared T R v ∨ Ready T actions (some (preparedManifest E id T actions)) R 0 v) := by
  refine Spec.bind (Q := fun _ => Staging T actions R 0) (Spec.step ?_ ?_) fun _ => ?_
  · rintro v rfl w hw
    cases hw
    have fresh : Unprepared T R ⟨T, some .fresh, R⟩ := ⟨rfl, rfl, rfl⟩
    exact ⟨.inl fresh, ⟨fresh, by simp, fun k a hk => by omega, fun s _ => rfl⟩⟩
  · rintro v rfl e refused
    cases refused
  refine Spec.bind ((stageFrom_spec actions 0 rfl (by omega)).weaken (fun _ h => h) (fun _ _ h => h)
    (fun _ _ h => h) fun _ h => .inl h) fun _ => ?_
  refine Spec.bind (Q := fun t v => t = T ∧ Staging T actions R actions.length v)
    (Spec.inspect fun v h => ⟨h.unprepared.tree, h⟩) fun t => ?_
  refine Spec.pointwise ?_
  rintro v ⟨rfl, h⟩
  obtain ⟨d, tx⟩ := Option.ne_none_iff_exists'.mp h.journal
  refine Spec.bind (Q := fun _ w => Ready t actions (some (preparedManifest E id t actions)) R 0 w)
    ?_ fun _ => Spec.ret _ fun w ready => ⟨rfl, ready⟩
  refine Spec.bind (Q := fun _ w => w = { v with tx := some { d with manifestTmp := true } })
    (Spec.step ?_ ?_) fun _ => Spec.step ?_ ?_
  · rintro w rfl u hu
    simp only [View.onTx, tx, Except.ok.injEq] at hu
    subst hu
    refine ⟨.inl ⟨h.unprepared.tree, h.unprepared.receipts, ?_⟩, rfl⟩
    have := h.unprepared.manifest
    simpa [View.manifest, tx] using this
  · rintro w rfl e refused
    simp [View.onTx, tx] at refused
  · rintro w rfl u hu
    simp only [View.onTx, Except.ok.injEq] at hu
    have ready := h.ready (w := u) wf tx hu.symm
    exact ⟨.inr ready, ready⟩
  · rintro w rfl e refused
    simp [View.onTx] at refused

end Prepare

section Apply

variable {T : Tree} {actions : List (TransactionAction Path)} {M : Option Manifest}
  {R : AList fun _ : Text => Bytes}

/-- The application of the actions from `i` on. -/
theorem applyFrom_spec (enabled : EnabledPlan T actions) :
    ∀ (rest : List (TransactionAction Path)) (i : Nat), actions.drop i = rest →
      i ≤ actions.length →
      Spec (Ready T actions M R i) (applyFrom i rest) (fun _ => Ready T actions M R actions.length)
        (fun _ v => ∃ m, m < actions.length ∧ Running T actions M R m v)
        (fun v => ∃ m, m < actions.length ∧ Running T actions M R m v)
  | [], i, split, bound => by
    have : i = actions.length := by
      have := List.drop_eq_nil_iff.mp split
      omega
    exact this ▸ Spec.ret () fun _ h => h
  | a :: rest, i, split, bound => by
    obtain ⟨ha, split'⟩ := head_of_drop split
    have lt : i < actions.length := (List.getElem?_eq_some_iff.mp ha).1
    exact Spec.bind ((applyAction_spec enabled ha).weaken (fun _ h => h) (fun _ _ h => h)
      (fun _ v h => ⟨i, lt, h⟩) fun v h => ⟨i, lt, h⟩) fun _ =>
        applyFrom_spec enabled rest (i + 1) split' lt

end Apply

section Receipt

variable {o : CommitOptions} {id : Text} {actions : List (TransactionAction Path)} {m : Manifest}
  {v v₁ : View}

/-- The receipt that this commit asks for, on the tree it has made. -/
def Asked (o : CommitOptions) (id : Text) (actions : List (TransactionAction Path)) (t : Tree)
    (name : Text) (payload : Bytes) : Prop :=
  ∃ factory, o.commitReceiptFactory = some factory ∧
    factory id (changedPaths actions) t = .ok (name, payload)

/-- Between the last action and the marker only the receipt and the manifest move. `name` is
the receipt that is published by then, if any. -/
structure Sealing (o : CommitOptions) (id : Text) (actions : List (TransactionAction Path))
    (m : Manifest) (v₁ : View) (name : Option Text) (v : View) : Prop where
  tree : v.tree = v₁.tree
  journal : v.tx ≠ none
  slots : ∀ r, r ≠ .commitReceipt → v.slot r = v₁.slot r
  receipt : (v.manifest = some m ∧ v.receipts = v₁.receipts) ∨ ∃ n payload, name = some n ∧
    safeReceiptName n = true ∧ n ∉ v₁.receipts ∧ Asked o id actions v₁.tree n payload ∧
    v.manifest = some { m with commitReceipt := some n } ∧
    (v.receipts = v₁.receipts ∨ v.receipts = v₁.receipts.insert n payload)

/-- The receipt is staged, and no manifest names it yet. -/
structure ReceiptStaged (o : CommitOptions) (id : Text) (actions : List (TransactionAction Path))
    (m : Manifest) (v₁ : View) (name : Option Text) (v : View) : Prop where
  tree : v.tree = v₁.tree
  journal : v.tx ≠ none
  slots : ∀ r, r ≠ .commitReceipt → v.slot r = v₁.slot r
  manifest : v.manifest = some m
  receipts : v.receipts = v₁.receipts
  unkeyed : name = none → o.commitReceiptFactory = none
  keyed : ∀ n, name = some n → safeReceiptName n = true ∧ n ∉ v₁.receipts ∧ ∃ payload,
    Asked o id actions v₁.tree n payload ∧ v.slot .commitReceipt = some ⟨payload, stageMode⟩

theorem callback_ok {α : Type} {result : Except String α} {value : α}
    (h : callback result = .ok value) : result = .ok value := by
  cases result with
  | ok other =>
    cases h
    rfl
  | error message => cases h

theorem Sealing.of_onlySlot {w : View} (manifest : v₁.manifest = some m) (journal : v₁.tx ≠ none)
    (only : OnlySlot .commitReceipt v₁ w) : Sealing o id actions m v₁ none w where
  tree := only.tree
  journal := only.framed.journal journal
  slots := only.slots
  receipt := .inl ⟨only.framed.manifest.trans manifest, only.framed.receipts⟩

theorem stageCommitReceipt_spec (manifest : v₁.manifest = some m) (journal : v₁.tx ≠ none) :
    Spec (· = v₁) (stageCommitReceipt o id actions) (ReceiptStaged o id actions m v₁)
      (fun _ => Sealing o id actions m v₁ none) (Sealing o id actions m v₁ none) := by
  have same : Sealing o id actions m v₁ none v₁ :=
    .of_onlySlot manifest journal (OnlySlot.refl .commitReceipt v₁)
  refine Spec.bind (Q := fun _ w => w = v₁) (Spec.check (fun _ h _ _ => h) ?_) fun _ => ?_
  · rintro w rfl _ _
    exact same
  split
  · rename_i unkeyed
    refine Spec.ret none ?_
    rintro w rfl
    exact ⟨rfl, journal, fun _ _ => rfl, manifest, rfl, fun _ => unkeyed, fun n hn => by cases hn⟩
  · rename_i factory keyed
    refine Spec.bind (Q := fun asked w => w = v₁ ∧
      factory id (changedPaths actions) v₁.tree = .ok asked) (Spec.check ?_ ?_) ?_
    · rintro w rfl asked h
      exact ⟨rfl, callback_ok h⟩
    · rintro w rfl _ _
      exact same
    rintro ⟨name, payload⟩
    refine Spec.bind (Q := fun _ w => ReceiptStaged o id actions m v₁ (some name) w) ?_
      fun _ => Spec.ret _ fun w h => h
    refine Spec.bind (Q := fun _ w => w = v₁ ∧ safeReceiptName name = true ∧ name ∉ v₁.receipts ∧
      factory id (changedPaths actions) v₁.tree = .ok (name, payload)) (Spec.check ?_ ?_) fun _ => ?_
    · rintro w ⟨rfl, asked⟩ _ passed
      split at passed
      · cases passed
      · rename_i safe
        split at passed
        · cases passed
        · rename_i new
          exact ⟨rfl, by simpa using safe, new, asked⟩
    · rintro w ⟨rfl, -⟩ _ _
      exact same
    refine Spec.pointwise ?_
    rintro w ⟨rfl, safe, new, asked⟩
    refine (writeStaged_spec .commitReceipt payload stageMode w).weaken (fun _ h => h) ?_
      (fun _ u h => .of_onlySlot manifest journal h) fun u h => .of_onlySlot manifest journal h
    rintro _ u ⟨only, copy⟩
    refine ⟨only.tree, only.framed.journal journal, only.slots, only.framed.manifest.trans manifest,
      only.framed.receipts, by simp, ?_⟩
    rintro n hn
    cases hn
    exact ⟨safe, new, payload, ⟨factory, keyed, asked⟩, copy⟩

/-- The receipt is where readers look for it, and the manifest names it. -/
structure ReceiptPublished (o : CommitOptions) (id : Text)
    (actions : List (TransactionAction Path)) (m : Manifest) (v₁ : View) (name : Option Text)
    (v : View) : Prop where
  tree : v.tree = v₁.tree
  journal : v.tx ≠ none
  slots : ∀ r, r ≠ .commitReceipt → v.slot r = v₁.slot r
  manifest : v.manifest = some { m with commitReceipt := name }
  unkeyed : name = none → o.commitReceiptFactory = none ∧ v.receipts = v₁.receipts
  keyed : ∀ n, name = some n → safeReceiptName n = true ∧ n ∉ v₁.receipts ∧ ∃ payload,
    Asked o id actions v₁.tree n payload ∧ v.receipts = v₁.receipts.insert n payload

theorem ReceiptPublished.sealing {name : Option Text} (unnamed : m.commitReceipt = none)
    (h : ReceiptPublished o id actions m v₁ name v) : Sealing o id actions m v₁ name v := by
  refine ⟨h.tree, h.journal, h.slots, ?_⟩
  cases name with
  | none => exact .inl ⟨by rw [h.manifest, ← unnamed], (h.unkeyed rfl).2⟩
  | some n =>
    obtain ⟨safe, new, payload, asked, published⟩ := h.keyed n rfl
    exact .inr ⟨n, payload, rfl, safe, new, asked, h.manifest, .inr published⟩

theorem publishReceipt_spec (unnamed : m.commitReceipt = none) (name : Option Text) :
    Spec (ReceiptStaged o id actions m v₁ name) (publishReceipt { m with commitReceipt := name })
      (fun _ => ReceiptPublished o id actions m v₁ name) (fun _ => Sealing o id actions m v₁ name)
      (Sealing o id actions m v₁ name) := by
  cases name with
  | none =>
    refine Spec.ret () fun w h => ⟨h.tree, h.journal, h.slots, ?_, fun _ => ⟨h.unkeyed rfl, h.receipts⟩,
      fun n hn => by cases hn⟩
    rw [h.manifest, ← unnamed]
  | some name =>
    refine Spec.pointwise fun v h => ?_
    obtain ⟨safe, new, payload, asked, copy⟩ := h.keyed name rfl
    obtain ⟨d, tx⟩ := Option.ne_none_iff_exists'.mp h.journal
    have lookup : d.slots.lookup .commitReceipt = some ⟨payload, stageMode⟩ := by
      simpa [View.slot, tx] using copy
    have others : ∀ r, r ≠ .commitReceipt → d.slots.lookup r = v₁.slot r := by
      intro r hr
      have := h.slots r hr
      simpa [View.slot, tx] using this
    have tmp : Sealing o id actions m v₁ (some name) { v with tx := some { d with manifestTmp := true } } := by
      refine ⟨h.tree, by simp, others, .inl ⟨?_, h.receipts⟩⟩
      have := h.manifest
      simpa [View.manifest, tx] using this
    have named : Sealing o id actions m v₁ (some name) { v with tx := some { d with
        manifestTmp := false, manifest := some { m with commitReceipt := some name } } } :=
      ⟨h.tree, by simp, others, .inr ⟨name, payload, rfl, safe, new, asked, rfl, .inl h.receipts⟩⟩
    refine Spec.bind (Q := fun _ w => w = { v with tx := some { d with
      manifestTmp := false, manifest := some { m with commitReceipt := some name } } }) ?_ fun _ => ?_
    · refine Spec.bind (Q := fun _ w => w = { v with tx := some { d with manifestTmp := true } })
        (Spec.step ?_ ?_) fun _ => Spec.step ?_ ?_
      · rintro w rfl u hu
        simp only [View.onTx, tx, Except.ok.injEq] at hu
        subst hu
        exact ⟨tmp, rfl⟩
      · rintro w rfl e refused
        simp [View.onTx, tx] at refused
      · rintro w rfl u hu
        simp only [View.onTx, Except.ok.injEq] at hu
        subst hu
        exact ⟨named, rfl⟩
      · rintro w rfl e refused
        simp [View.onTx] at refused
    · refine Spec.step ?_ ?_
      · rintro w rfl u hu
        split at hu
        · cases hu
        · simp only [lookup, Except.ok.injEq] at hu
          have done : ReceiptPublished o id actions m v₁ (some name) u := by
            subst hu
            refine ⟨h.tree, by simp, fun r hr => ?_, rfl, by simp, ?_⟩
            · rw [View.slot, ← others r hr]
              simp [AList.lookup_erase_ne hr]
            · rintro n hn
              cases hn
              exact ⟨safe, new, payload, asked, by rw [h.receipts]⟩
          exact ⟨done.sealing unnamed, done⟩
      · rintro w rfl e _
        exact named

/-- The temporary file of the committed manifest changes nothing that is read. -/
theorem writeManifestTmp_spec (unnamed : m.commitReceipt = none) (name : Option Text) :
    Spec (ReceiptPublished o id actions m v₁ name) writeManifestTmp
      (fun _ => ReceiptPublished o id actions m v₁ name) (fun _ => Sealing o id actions m v₁ name)
      (Sealing o id actions m v₁ name) := by
  refine Spec.step ?_ fun v h _ _ => h.sealing unnamed
  intro v h w hw
  obtain ⟨d, d', tx, hd, rfl⟩ := View.onTx_ok hw
  cases hd
  have written : ReceiptPublished o id actions m v₁ name
      { v with tx := some { d with manifestTmp := true } } := by
    refine ⟨h.tree, by simp, fun r hr => ?_, ?_, h.unkeyed, h.keyed⟩
    · rw [← h.slots r hr]
      simp [View.slot, tx]
    · rw [← h.manifest]
      simp [View.manifest, tx]
  exact ⟨written.sealing unnamed, written⟩

end Receipt

end RepoForge
