import RepoForge.Library.SortedListing
import RepoForge.Spec.Operations.RecoveryCells

/-!
# The listings of the recovery pass

Both listings take the names in the store first and then read one file after the other, so a
record that nobody else touches is listed as it stands at the beginning (`listWork_spec`,
`listOperations_spec`). With nobody else there a listing is a function of the stores
(`listWork_calm`, `listOperations_calm`).
-/
namespace RepoForge

open Clients Client RecoveryContext

section Scan

variable {β : Type} {read : Text → Pass (Option β)} {name : β → Text} {ids : List Text}
  {D : Text → Prop} {env : Interference Stores} {w : Session Stores RecoveryRequest}
  {found : List (Option β)}

theorem skipUnreadable_about {id : Text} {m : Pass (Option β)} (h : AboutRecord id m) :
    AboutRecord id (skipUnreadable m) := h.rescue fun _ => about_ret none

theorem skipUnreadable_ok (m : Pass (Option β)) (env : Interference Stores)
    (w : Session Stores RecoveryRequest) :
    (skipUnreadable m env w).1 = .ok ((m env w).1.toOption.join) := by
  unfold skipUnreadable Client.rescue
  rcases m env w with ⟨_ | b, after⟩
  · rfl
  · rfl

theorem scan_ok (read : Text → Pass (Option β)) (ids : List Text) (env : Interference Stores)
    (w : Session Stores RecoveryRequest) :
    ∃ found, (collect (fun id => skipUnreadable (read id)) ids env w).1 = .ok found := by
  induction ids generalizing w with
  | nil => exact ⟨[], rfl⟩
  | cons id ids ih =>
    rcases result : skipUnreadable (read id) env w with ⟨_ | b, after⟩
    · have first := skipUnreadable_ok (read id) env w
      rw [result] at first
      cases first
    · obtain ⟨found, rest⟩ := ih after
      refine ⟨b :: found, ?_⟩
      rw [collect_returned (f := fun id => skipUnreadable (read id)) result, rest]
      rfl

theorem scan_values (about : ∀ id, AboutRecord id (read id)) (touches : Touches Stores.cell D env)
    (nodup : ids.Nodup)
    (ok : (collect (fun id => skipUnreadable (read id)) ids env w).1 = .ok found) :
    List.Forall₂ (fun id b => ∃ w', (skipUnreadable (read id) env w').1 = .ok b ∧ (¬ D id →
      Stores.cell id w'.state = Stores.cell id w.state)) ids found := by
  have values := collect_values
    (fun id => skipUnreadable_about (about id)) touches (by rwa [List.map_id']) ok
  apply values.imp
  intro id b h
  obtain ⟨w', returned, own⟩ := h
  exact ⟨w', returned, fun free => congrArg Prod.fst (own free).1⟩

variable (named : ∀ id b, Returns (read id) (some b) → name b = id)
include named

theorem returned_named {id : Text} {b : β} (h : (skipUnreadable (read id) env w).1 = .ok (some b)) :
    name b = id := by
  rw [skipUnreadable_ok] at h
  rcases result : (read id env w).1 with _ | value
  · rw [result] at h
    cases h
  · rw [result] at h
    cases h
    exact named id b ⟨env, w, result⟩

/-- The names of what a scan has found, in the order of the scan. -/
theorem scan_sublist (values : List.Forall₂ (fun id b => ∃ w' : Session Stores RecoveryRequest,
      (skipUnreadable (read id) env w').1 = .ok b) ids found) :
    ((found.filterMap fun b => b).map name).Sublist ids := by
  induction values with
  | nil => exact .slnil
  | @cons id b ids found first _ ih =>
    obtain ⟨w', returned⟩ := first
    cases b with
    | none => exact ih.cons id
    | some b =>
      have own := returned_named named returned
      simp only [List.filterMap_cons, List.map_cons, own]
      exact ih.cons_cons id

variable (about : ∀ id, AboutRecord id (read id)) (touches : Touches Stores.cell D env)
  (nodup : ids.Nodup) (ok : (collect (fun id => skipUnreadable (read id)) ids env w).1 = .ok found)
include about touches nodup ok

theorem scan_nodup : ((found.filterMap fun b => b).map name).Nodup := by
  have reads : List.Forall₂ (fun id b => ∃ w' : Session Stores RecoveryRequest,
      (skipUnreadable (read id) env w').1 = .ok b) ids found := by
    apply (scan_values about touches nodup ok).imp
    intro id b h
    obtain ⟨w', returned, -⟩ := h
    exact ⟨w', returned⟩
  exact (scan_sublist named reads).nodup nodup

/-- A record that nobody else touches is found as it stood at first. -/
theorem mem_scan {b : β} (free : ¬ D (name b)) : b ∈ (found.filterMap fun b => b) ↔
    name b ∈ ids ∧ (read (name b) calm ⟨w.state, []⟩).1 = .ok (some b) := by
  have values := scan_values about touches nodup ok
  have alike : ∀ w' : Session Stores RecoveryRequest,
      (¬ D (name b) → Stores.cell (name b) w'.state = Stores.cell (name b) w.state) →
      (skipUnreadable (read (name b)) env w').1 =
        .ok ((read (name b) calm ⟨w.state, []⟩).1.toOption.join) := by
    intro w' same
    have ends := (skipUnreadable_about (about (name b))).decided D env D calm w' ⟨w.state, []⟩
      touches touches_calm free free (same free)
    rw [ends.value, skipUnreadable_ok]
  simp only [List.mem_filterMap, exists_eq_right]
  constructor
  · intro member
    obtain ⟨id, listed, w', returned, same⟩ := partner values.flip member
    obtain rfl := returned_named named returned
    have value := alike w' same
    rw [returned] at value
    rcases alone : (read (name b) calm ⟨w.state, []⟩).1 with _ | _ | b'
    · rw [alone] at value
      cases value
    · rw [alone] at value
      cases value
    · rw [alone] at value
      cases value
      exact ⟨listed, rfl⟩
  · intro h
    obtain ⟨listed, found_b⟩ := h
    obtain ⟨b', member, w', returned, same⟩ := partner values listed
    have value := alike w' same
    rw [returned, found_b] at value
    cases value
    exact member

end Scan

section Listing

variable {β γ : Type} {q : RecoveryRequest} {names : Stores → List Text × Bool}
  {read : Text → Pass (Option β)} {page : List (Option β) → γ} {D : Text → Prop}
  {env : Interference Stores} {w w' : Session Stores RecoveryRequest}

/-- The shape of both listings. -/
def listing (q : RecoveryRequest) (names : Stores → List Text × Bool)
    (read : Text → Pass (Option β)) (page : List (Option β) → γ) : Pass (γ × Bool) := do
  let (ids, truncated) ← ask q fun s => .ok (names s, s)
  let found ← collect (fun id => skipUnreadable (read id)) ids
  ret (page found, truncated)

/-- The session once the names are known. -/
def namesKnown (q : RecoveryRequest) (env : Interference Stores)
    (w : Session Stores RecoveryRequest) : Session Stores RecoveryRequest :=
  ⟨env w.asked.length w.state, w.asked ++ [(q, env w.asked.length w.state)]⟩

theorem listing_eq (env : Interference Stores) {found : List (Option β)}
    (ok : (collect (fun id => skipUnreadable (read id)) (names (env w.asked.length w.state)).1 env
      (namesKnown q env w)).1 = .ok found) :
    listing q names read page env w = (.ok (page found, (names (env w.asked.length w.state)).2),
      (collect (fun id => skipUnreadable (read id)) (names (env w.asked.length w.state)).1 env
        (namesKnown q env w)).2) := by
  change Client.andThen (collect _ _) _ env (namesKnown q env w) = _
  unfold Client.andThen
  rcases result : collect (fun id => skipUnreadable (read id)) (names (env w.asked.length w.state)).1
    env (namesKnown q env w) with ⟨_ | found', after⟩
  · rw [result] at ok
    cases ok
  · rw [result] at ok
    cases ok
    rfl

theorem namesKnown_view (touches : Touches Stores.cell D env) (silent : q.on = none) {x : Text}
    (free : ¬ D x) : view Stores.cell RecoveryRequest.on x (namesKnown q env w) =
      view Stores.cell RecoveryRequest.on x w := by
  apply Prod.ext
  · exact touches _ _ x free
  · simp [view, log, namesKnown, silent]

/-- A listing among others at work, and one with nobody else there of what they leave alone. -/
theorem listing_undisturbed (about : ∀ id, AboutRecord id (read id))
    (touches : Touches Stores.cell D env) (silent : q.on = none)
    (nodup : ∀ s, (names s).1.Nodup)
    (rest : ∀ id, id ∈ (names w'.state).1 ↔ id ∈ (names (env w.asked.length w.state)).1 ∧ ¬ D id)
    (alike : ∀ x, ¬ D x → view Stores.cell RecoveryRequest.on x w =
      view Stores.cell RecoveryRequest.on x w') :
    ∀ x, ¬ D x → view Stores.cell RecoveryRequest.on x (listing q names read page env w).2 =
      view Stores.cell RecoveryRequest.on x (listing q names read page calm w').2 := by
  obtain ⟨found, ok⟩ := scan_ok read (names (env w.asked.length w.state)).1 env
    (namesKnown q env w)
  obtain ⟨found', ok'⟩ := scan_ok read (names w'.state).1 calm (namesKnown q calm w')
  intro x free
  rw [listing_eq env ok, listing_eq calm ok']
  refine (collect_undisturbed
    (fun id => skipUnreadable_about (about id)) touches (by rw [List.map_id']; exact nodup _)
    (by rw [List.map_id']; exact nodup _) rest ?_ ok).2 x free
  intro y free
  rw [namesKnown_view touches silent free, alike y free,
    namesKnown_view (D := D) touches_calm silent free]

end Listing

section Pages

variable (ctx : RecoveryContext) {D : Text → Prop} {env : Interference Stores}
  {w : Session Stores RecoveryRequest}

def workPage (found : List (Option (StateEnvelope OperationWorkItem))) : List OperationWorkItem :=
  ((found.filterMap fun found => found).insertionSort (workNewer · ·)).map (·.value)

def operationPage (found : List (Option OperationTask)) : List OperationTask :=
  (found.filterMap fun found => found).insertionSort (operationNewer · ·)

def readWork (id : Text) : Pass (Option (StateEnvelope OperationWorkItem)) :=
  ask (.readWork id) (Stores.readWork ctx.codec id)

def readOperation (id : Text) : Pass (Option OperationTask) :=
  ask (.readOperation id) (Stores.readOperation ctx.policy id)

theorem listWork_eq : ctx.listWork = listing .workIds Stores.workIds (readWork ctx) workPage := rfl

theorem listOperations_eq : ctx.listOperations =
    listing .operationIds Stores.operationIds (readOperation ctx) operationPage := rfl

theorem readWork_about (id : Text) : AboutRecord id (readWork ctx id) := readWork_local.ask rfl

theorem readOperation_about (id : Text) : AboutRecord id (readOperation ctx id) :=
  readOperation_local.ask rfl

theorem readWork_ok {id : Text} {e : StateEnvelope OperationWorkItem} {s s' : Stores}
    (h : Stores.readWork ctx.codec id s = .ok (some e, s')) :
    Repository.read ctx.codec id s.work.files = .ok (some e) := by
  unfold Stores.readWork at h
  obtain ⟨found, read, h⟩ := bind_ok h
  cases h
  exact asState_ok read

theorem readOperation_ok {id : Text} {t : OperationTask} {s s' : Stores}
    (h : Stores.readOperation ctx.policy id s = .ok (some t, s')) :
    OperationStore.read ctx.policy id s.operations = .ok (some t) := by
  unfold Stores.readOperation at h
  obtain ⟨found, read, h⟩ := bind_ok h
  cases h
  exact asOperation_ok read

theorem readWork_named (id : Text) (e : StateEnvelope OperationWorkItem)
    (h : Returns (readWork ctx id) (some e)) : e.value.operationId = id := by
  obtain ⟨s, s', answered⟩ := returns_ask h
  obtain ⟨-, found⟩ := Repository.read_eq_some (readWork_ok ctx answered)
  exact s.work.named id e.revision e.value found

theorem readOperation_named (id : Text) (t : OperationTask)
    (h : Returns (readOperation ctx id) (some t)) : t.operationId = id := by
  obtain ⟨s, s', answered⟩ := returns_ask h
  obtain ⟨file, -, decoded⟩ := store_read_ok (readOperation_ok ctx answered)
  exact (decode_ok decoded).1

theorem readWork_value (id : Text) (w : Session Stores RecoveryRequest) :
    (readWork ctx id calm w).1 = asState (Repository.read ctx.codec id w.state.work.files) := by
  rw [readWork, calm_value, Stores.readWork]
  rcases asState (Repository.read ctx.codec id w.state.work.files) with e | found
  · rfl
  · rfl

theorem readOperation_value (id : Text) (w : Session Stores RecoveryRequest) :
    (readOperation ctx id calm w).1 =
      asOperation (OperationStore.read ctx.policy id w.state.operations) := by
  rw [readOperation, calm_value, Stores.readOperation]
  rcases asOperation (OperationStore.read ctx.policy id w.state.operations) with e | found
  · rfl
  · rfl

theorem readWork_alone {id : Text} {s : Stores} {e : StateEnvelope OperationWorkItem} :
    (readWork ctx id calm ⟨s, []⟩).1 = .ok (some e) ↔
      Repository.read ctx.codec id s.work.files = .ok (some e) := by
  rw [readWork_value]
  constructor
  · intro h
    exact asState_ok h
  · intro h
    rw [h]
    rfl

theorem readOperation_alone {id : Text} {s : Stores} {t : OperationTask} :
    (readOperation ctx id calm ⟨s, []⟩).1 = .ok (some t) ↔
      OperationStore.read ctx.policy id s.operations = .ok (some t) := by
  rw [readOperation_value]
  constructor
  · intro h
    exact asOperation_ok h
  · intro h
    rw [h]
    rfl

theorem workIds_nodup (s : Stores) : s.workIds.1.Nodup :=
  (((List.perm_insertionSort _ _).nodup_iff.mpr s.work.files.keys_nodup).drop).take

theorem operationIds_nodup (s : Stores) : s.operationIds.1.Nodup :=
  ((List.perm_insertionSort _ _).nodup_iff.mpr (s.operations.keys_nodup.filter _)).take

theorem listing_quiet {β γ : Type} {q : RecoveryRequest} {names : Stores → List Text × Bool}
    {read : Text → Pass (Option β)} {page : List (Option β) → γ}
    (quiet : ∀ id, Keeps (fun s => s) (read id)) : Keeps (fun s => s) (listing q names read page) := by
  apply (keeps_ask ?_).bind
  · intro ids
    apply (Keeps.collect (fun id => (quiet id).rescue fun _ => keeps_ret none) _).bind
    intro found
    exact keeps_ret _
  · intro s a s' answered
    cases answered
    rfl

theorem readWork_quiet (id : Text) : Keeps (fun s => s) (readWork ctx id) := by
  apply keeps_ask
  intro s a s' answered
  obtain ⟨found, -, answered⟩ := bind_ok answered
  cases answered
  rfl

theorem readOperation_quiet (id : Text) : Keeps (fun s => s) (readOperation ctx id) := by
  apply keeps_ask
  intro s a s' answered
  obtain ⟨found, -, answered⟩ := bind_ok answered
  cases answered
  rfl

theorem listWork_quiet : Keeps (fun s => s) ctx.listWork := listing_quiet (readWork_quiet ctx)

theorem listOperations_quiet : Keeps (fun s => s) ctx.listOperations :=
  listing_quiet (readOperation_quiet ctx)

/-- A listing never raises. -/
theorem listing_returns {β γ : Type} (q : RecoveryRequest) (names : Stores → List Text × Bool)
    (read : Text → Pass (Option β)) (page : List (Option β) → γ) (env : Interference Stores)
    (w : Session Stores RecoveryRequest) : ∃ listed, (listing q names read page env w).1 = .ok listed := by
  obtain ⟨found, scanned⟩ := scan_ok read (names (env w.asked.length w.state)).1 env
    (namesKnown q env w)
  exact ⟨_, by rw [listing_eq env scanned]⟩

/-- What a scan finds with nobody else there. -/
theorem scan_calm {β : Type} {read : Text → Pass (Option β)} (value : Text → Option β)
    {w : Session Stores RecoveryRequest} (quiet : ∀ id, Keeps (fun s => s) (read id))
    (values : ∀ id asked, (read id calm ⟨w.state, asked⟩).1.toOption.join = value id)
    (ids : List Text) :
    (collect (fun id => skipUnreadable (read id)) ids calm w).1 = .ok (ids.map value) := by
  induction ids generalizing w with
  | nil => rfl
  | cons id ids ih =>
    have first := skipUnreadable_ok (read id) calm w
    have kept := ((quiet id).rescue fun _ => keeps_ret none).state w
    rw [values id w.asked] at first
    change (skipUnreadable (read id) calm w).2.state = w.state at kept
    rcases result : skipUnreadable (read id) calm w with ⟨_ | b, after⟩
    · rw [result] at first
      cases first
    · rw [result] at first kept
      cases first
      rw [collect_returned (f := fun id => skipUnreadable (read id)) result,
        ih (w := after) (by rw [kept]; exact values)]
      rfl

/-- The work items of the stores, as the pass lists them. -/
def listedWork (s : Stores) : List OperationWorkItem :=
  workPage (s.workIds.1.map fun id => (Repository.read ctx.codec id s.work.files).toOption.join)

/-- The operations of the stores, as the pass lists them. -/
def listedOperations (s : Stores) : List OperationTask :=
  operationPage
    (s.operationIds.1.map fun id => (OperationStore.read ctx.policy id s.operations).toOption.join)

theorem listWork_calm : (ctx.listWork calm w).1 = .ok (listedWork ctx w.state, w.state.workIds.2) := by
  have scanned := scan_calm (w := namesKnown .workIds calm w)
    (fun id => (Repository.read ctx.codec id w.state.work.files).toOption.join) (readWork_quiet ctx) (by
      intro id asked
      rw [readWork_value]
      change (asState (Repository.read ctx.codec id w.state.work.files)).toOption.join = _
      rcases Repository.read ctx.codec id w.state.work.files with e | found
      · rfl
      · rfl) w.state.workIds.1
  rw [listWork_eq, listing_eq calm scanned]
  rfl

theorem listOperations_calm : (ctx.listOperations calm w).1 =
    .ok (listedOperations ctx w.state, w.state.operationIds.2) := by
  have scanned := scan_calm (w := namesKnown .operationIds calm w)
    (fun id => (OperationStore.read ctx.policy id w.state.operations).toOption.join)
    (readOperation_quiet ctx) (by
      intro id asked
      rw [readOperation_value]
      change (asOperation (OperationStore.read ctx.policy id w.state.operations)).toOption.join = _
      rcases OperationStore.read ctx.policy id w.state.operations with e | found
      · rfl
      · rfl) w.state.operationIds.1
  rw [listOperations_eq, listing_eq calm scanned]
  rfl

theorem mem_workIds {s : Stores} (whole : s.workIds.2 = false) {id : Text} :
    id ∈ s.workIds.1 ↔ s.work.files.lookup id ≠ none := by
  have perm : s.workIds.1.Perm s.work.files.keys := by
    have short : (Repository.sortedIds s.work.files).length ≤ maxListed := by
      simpa [Stores.workIds, Repository.listIds] using whole
    change (((Repository.sortedIds s.work.files).drop 0).take maxListed).Perm _
    rw [List.drop_zero, List.take_of_length_le short]
    exact List.perm_insertionSort _ _
  rw [perm.mem_iff, ← AList.mem_keys, ne_eq, AList.lookup_eq_none, not_not]

theorem mem_operationIds {s : Stores} (whole : s.operationIds.2 = false) {id : Text} :
    id ∈ s.operationIds.1 ↔ s.operations.lookup id ≠ none ∧ "op-".toList.isPrefixOf id = true := by
  have perm : s.operationIds.1.Perm (s.operations.keys.filter ("op-".toList.isPrefixOf ·)) := by
    have short : s.operationNames.length ≤ maxListed := by
      simpa [Stores.operationIds] using whole
    change (s.operationNames.take maxListed).Perm _
    rw [List.take_of_length_le short]
    exact List.perm_insertionSort _ _
  rw [perm.mem_iff, List.mem_filter, ← AList.mem_keys, ne_eq, AList.lookup_eq_none, not_not]

/-- Fewer files are listed whole as well. -/
theorem workIds_whole {s t : Stores} (whole : t.workIds.2 = false)
    (fewer : ∀ id, s.work.files.lookup id ≠ none → t.work.files.lookup id ≠ none) :
    s.workIds.2 = false := by
  have short : t.work.files.keys.length ≤ maxListed := by
    simpa [Stores.workIds, Repository.listIds, Repository.sortedIds] using whole
  have less : s.work.files.keys.length ≤ t.work.files.keys.length := by
    apply (List.subperm_of_subset s.work.files.keys_nodup ?_).length_le
    intro id member
    have there := fewer id
    simp only [ne_eq, AList.lookup_eq_none, not_not, AList.mem_keys] at there member ⊢
    exact there member
  simpa [Stores.workIds, Repository.listIds, Repository.sortedIds] using less.trans short

theorem operationIds_whole {s t : Stores} (whole : t.operationIds.2 = false)
    (fewer : ∀ id, s.operations.lookup id ≠ none → t.operations.lookup id ≠ none) :
    s.operationIds.2 = false := by
  have short : (t.operations.keys.filter ("op-".toList.isPrefixOf ·)).length ≤ maxListed := by
    simpa [Stores.operationIds, Stores.operationNames] using whole
  have less : (s.operations.keys.filter ("op-".toList.isPrefixOf ·)).length ≤
      (t.operations.keys.filter ("op-".toList.isPrefixOf ·)).length := by
    apply (List.subperm_of_subset (s.operations.keys_nodup.filter _) ?_).length_le
    intro id member
    obtain ⟨member, named⟩ := List.mem_filter.mp member
    have there := fewer id
    simp only [ne_eq, AList.lookup_eq_none, not_not] at there
    exact List.mem_filter.mpr ⟨AList.mem_keys.mp (there (AList.mem_keys.mpr member)), named⟩
  simpa [Stores.operationIds, Stores.operationNames] using less.trans short

variable {ctx} (touches : Touches Stores.cell D env)
include touches

theorem known_cell {q : RecoveryRequest} {x : Text} (free : ¬ D x) :
    (namesKnown q env w).state.cell x = w.state.cell x := touches _ _ x free

/-- The work items that the pass lists. -/
theorem listWork_spec {items : List OperationWorkItem} {truncated : Bool}
    (ok : (ctx.listWork env w).1 = .ok (items, truncated)) :
    truncated = (env w.asked.length w.state).workIds.2 ∧ (items.map (·.operationId)).Nodup ∧
    ∀ item, ¬ D item.operationId → (item ∈ items ↔
      item.operationId ∈ (env w.asked.length w.state).workIds.1 ∧
      ∃ e, Repository.read ctx.codec item.operationId w.state.work.files = .ok (some e) ∧
        e.value = item) := by
  obtain ⟨found, scanned⟩ := scan_ok (readWork ctx) (env w.asked.length w.state).workIds.1 env
    (namesKnown .workIds env w)
  rw [listWork_eq, listing_eq env scanned] at ok
  cases ok
  have nodup := workIds_nodup (env w.asked.length w.state)
  have perm := List.perm_insertionSort (fun a b => workNewer a b = true)
    (found.filterMap fun found => found)
  refine ⟨rfl, ?_, ?_⟩
  · have distinct := scan_nodup (readWork_named ctx) (readWork_about ctx) touches nodup scanned
    unfold workPage
    rw [List.map_map]
    exact (perm.map _).nodup_iff.mpr distinct
  · intro item free
    have kept := known_cell (q := .workIds) (w := w) touches free
    simp only [workPage, List.mem_map, perm.mem_iff]
    constructor
    · intro h
      obtain ⟨e, member, rfl⟩ := h
      obtain ⟨listed, alone⟩ :=
        (mem_scan (readWork_named ctx) (readWork_about ctx) touches nodup scanned free).mp member
      rw [readWork_alone, repository_read_congr kept] at alone
      exact ⟨listed, e, alone, rfl⟩
    · intro h
      obtain ⟨listed, e, alone, rfl⟩ := h
      refine ⟨e, ?_, rfl⟩
      apply (mem_scan (readWork_named ctx) (readWork_about ctx) touches nodup scanned free).mpr
      rw [readWork_alone, repository_read_congr kept]
      exact ⟨listed, alone⟩

/-- The operations that the pass lists. -/
theorem listOperations_spec {operations : List OperationTask} {truncated : Bool}
    (ok : (ctx.listOperations env w).1 = .ok (operations, truncated)) :
    truncated = (env w.asked.length w.state).operationIds.2 ∧
    (operations.map (·.operationId)).Nodup ∧
    ∀ t, ¬ D t.operationId → (t ∈ operations ↔
      t.operationId ∈ (env w.asked.length w.state).operationIds.1 ∧
      OperationStore.read ctx.policy t.operationId w.state.operations = .ok (some t)) := by
  obtain ⟨found, scanned⟩ := scan_ok (readOperation ctx)
    (env w.asked.length w.state).operationIds.1 env (namesKnown .operationIds env w)
  rw [listOperations_eq, listing_eq env scanned] at ok
  cases ok
  have nodup := operationIds_nodup (env w.asked.length w.state)
  have perm := List.perm_insertionSort (fun a b => operationNewer a b = true)
    (found.filterMap fun found => found)
  refine ⟨rfl, ?_, ?_⟩
  · have distinct := scan_nodup (readOperation_named ctx) (readOperation_about ctx) touches nodup
      scanned
    exact (perm.map _).nodup_iff.mpr distinct
  · intro t free
    have kept := known_cell (q := .operationIds) (w := w) touches free
    simp only [operationPage, perm.mem_iff]
    rw [mem_scan (readOperation_named ctx) (readOperation_about ctx) touches nodup scanned free,
      readOperation_alone, store_read_congr kept]

end Pages

end RepoForge
