import RepoForge.Guarantees.Operations.NewerClaim
import RepoForge.Spec.Operations.RecoveryEffects

/-!
# Recovery isolates records only from conflicts

While a pass runs, other processes change the files of one operation as they like, at any
moment. A pass is isolated from that if it returns and does to every other operation what it
does where the changed one is not in the stores: the same requests, and the same files at the
end (`Isolated`).

The `try` around the handling of a work item lets `OPERATION_STALE` and `STATE_STALE` pass and
raises anything else again; the loop over the operations without work has no `try` at all. So a
record that is deleted or ended between the listing and its turn stops the whole pass
(`deletion_stops_recovery`). Where no request of the pass is refused in such a way and both
listings are whole, the pass is isolated (`recovery_isolated`): each program of the loops is
about one cell, and `collect_undisturbed` compares the two runs loop by loop.
-/
namespace RepoForge

open Clients Client RecoveryContext

/-- The error of a request, if it is refused. -/
def refusal {α : Type} : Except RecoveryError α → Option RecoveryError
  | .ok _ => none
  | .error e => some e

namespace RecoveryRequest

/-- The error that the request meets in these stores. The reads of the listings are left out:
what cannot be read is skipped. -/
def refused (ctx : RecoveryContext) (s : Stores) : RecoveryRequest → Option RecoveryError
  | workIds | operationIds | readWork _ | readOperation _ => none
  | deleteWork id => refusal (Stores.deleteWork ctx.codec id s)
  | plan _ call => refusal (Stores.plan ctx.policy ctx.nowText call s)
  | saveOperation _ seen updated => refusal (Stores.saveOperation ctx.policy seen updated s)
  | compareWork item => refusal (Stores.compareWork ctx.codec item s)
  | saveWork queued revision => refusal (Stores.saveWork ctx.codec queued revision s)
  | contain _ item => refusal (ctx.contain item)
  | release item => refusal (ctx.release item)

/-- The request stands in a `try`. A deletion fails for a bad id only. -/
def tried : RecoveryRequest → Bool
  | plan guarded _ | saveOperation guarded _ _ | contain guarded _ => guarded
  | compareWork _ | saveWork _ _ | release _ => true
  | _ => false

/-- The store has more files than the listing takes. -/
def truncated (s : Stores) : RecoveryRequest → Bool
  | workIds => s.workIds.2
  | operationIds => s.operationIds.2
  | _ => false

end RecoveryRequest

/-- The request has met this error, and no `try` lets it pass. -/
def Raised (ctx : RecoveryContext) (entry : RecoveryRequest × Stores) (e : RecoveryError) : Prop :=
  entry.1.refused ctx entry.2 = some e ∧ (entry.1.tried = true → e.conflict = false)

/-- The request stops the pass, or cuts a listing short. -/
def Fatal (ctx : RecoveryContext) (entry : RecoveryRequest × Stores) : Prop :=
  entry.1.truncated entry.2 = true ∨ ∃ e, Raised ctx entry e

/-- The stores without one operation and its work. -/
def Stores.without (r : Text) (s : Stores) : Stores :=
  ⟨s.operations.erase r, s.work.erase r⟩

/-- The pass on these stores while others change `r`, and with nobody else there and without `r`:
both return, and they leave every other operation with the same files and the same requests. -/
structure Isolated (ctx : RecoveryContext) (s : Stores) (r : Text) (env : Interference Stores) :
    Prop where
  returns : ∃ report, (ctx.recoverOperationWork env ⟨s, []⟩).1 = .ok report
  without : ∃ report, (ctx.recoverOperationWork calm ⟨s.without r, []⟩).1 = .ok report
  others : ∀ x, x ≠ r →
    view Stores.cell RecoveryRequest.on x (ctx.recoverOperationWork env ⟨s, []⟩).2 =
      view Stores.cell RecoveryRequest.on x (ctx.recoverOperationWork calm ⟨s.without r, []⟩).2

section Blame

variable (ctx : RecoveryContext) {item : OperationWorkItem}

/-- The error was met by the request, outside of any `try` if so said. -/
def Met (ctx : RecoveryContext) (guarded : Bool) (entry : RecoveryRequest × Stores)
    (e : RecoveryError) : Prop :=
  entry.1.refused ctx entry.2 = some e ∧ (guarded = false → entry.1.tried = false)

theorem ask_blames {α : Type} {guarded : Bool} {q : RecoveryRequest}
    {answer : Stores → Except RecoveryError (α × Stores)}
    (same : ∀ s e, answer s = .error e → q.refused ctx s = some e)
    (tried : guarded = false → q.tried = false) : Blames (Met ctx guarded) (ask q answer) := by
  apply blames_ask
  intro s e refused
  exact ⟨same s e refused, tried⟩

theorem untried_blames {α : Type} {m : Pass α} (h : Blames (Met ctx false) m) :
    Blames (Raised ctx) m := by
  apply h.imp
  intro entry e met
  refine ⟨met.1, ?_⟩
  intro tried
  rw [met.2 rfl] at tried
  cases tried

theorem guarded_blames {m : Pass ItemOutcome} (h : Blames (Met ctx true) m) :
    Blames (Raised ctx) (guarded m) := by
  apply h.rescue
  intro e
  split
  · exact .inl ⟨_, rfl⟩
  · rename_i serious
    refine .inr ⟨rfl, ?_⟩
    intro entry met
    exact ⟨met.1, fun _ => Bool.eq_false_iff.mpr serious⟩

theorem manage_blames (guarded : Bool) (call : ManagerCall) :
    Blames (Met ctx guarded) (ctx.manage guarded call) := by
  apply Blames.bind
  · apply ask_blames
    · intro s e refused
      simp only [RecoveryRequest.refused, refused, refusal]
    · exact fun h => h
  · intro ⟨seen, plan⟩
    rcases plan with ⟨_ | updated, reply⟩
    · exact blames_ret ()
    · apply ask_blames
      · intro s e refused
        simp only [RecoveryRequest.refused, refused, refusal]
      · exact fun h => h

theorem deleteWork_blames (guarded : Bool) (id : Text) :
    Blames (Met ctx guarded) (ctx.deleteWork id) := by
  apply ask_blames
  · intro s e refused
    simp only [RecoveryRequest.refused, refused, refusal]
  · exact fun _ => rfl

theorem containChild_blames (guarded : Bool) (item : OperationWorkItem) :
    Blames (Met ctx guarded) (ctx.containChild guarded item) := by
  apply ask_blames
  · intro s e refused
    rcases contained : ctx.contain item with e' | c
    · rw [contained] at refused
      cases refused
      simp only [RecoveryRequest.refused, contained, refusal]
    · rw [contained] at refused
      cases refused
  · exact fun h => h

theorem releaseBinding_blames (item : OperationWorkItem) :
    Blames (Met ctx true) (ctx.releaseBinding item) := by
  apply ask_blames
  · intro s e refused
    rcases released : ctx.release item with e' | _
    · rw [released] at refused
      cases refused
      simp only [RecoveryRequest.refused, released, refusal]
    · rw [released] at refused
      cases refused
  · exact fun h => nomatch h

theorem settle_blames (call : ManagerCall) (bound : Bool) (outcome : ItemOutcome) :
    Blames (Met ctx true) (ctx.settle item call bound outcome) := by
  apply (manage_blames ctx true call).bind
  intro _
  apply (deleteWork_blames ctx true item.operationId).bind
  intro _
  split
  · exact (releaseBinding_blames ctx item).bind fun _ => blames_ret outcome
  · exact (blames_ret ()).bind fun _ => blames_ret outcome

theorem orphanWork_blames : Blames (Raised ctx) (ctx.orphanWork item) :=
  untried_blames ctx ((deleteWork_blames ctx false item.operationId).bind fun _ => blames_ret _)

theorem contained_blames {P : RecoveryRequest × Stores → RecoveryError → Prop} {guarded : Bool}
    {m : Text → Pass ItemOutcome} (first : Blames P (ctx.containChild guarded item))
    (h : ∀ detail, Blames P (m detail)) :
    Blames P (do
      match ← ctx.containChild guarded item with
      | .blocked code detail => ret (.blocked code detail)
      | .contained detail => m detail) := by
  apply first.bind
  intro contained
  cases contained with
  | contained detail => exact h detail
  | blocked code detail => exact blames_ret _

theorem cancelItem_blames (operation : OperationTask) :
    Blames (Raised ctx) (ctx.cancelItem item operation) := by
  unfold cancelItem
  split
  · exact contained_blames ctx (untried_blames ctx (containChild_blames ctx false item))
      fun _ => guarded_blames ctx (settle_blames ctx _ true _)
  · exact guarded_blames ctx (settle_blames ctx _ false _)

theorem retireItem_blames (operation : OperationTask) (expected : Int) :
    Blames (Raised ctx) (ctx.retireItem item operation expected) := by
  apply guarded_blames
  split
  · split
    · exact contained_blames ctx (containChild_blames ctx true item)
        fun _ => settle_blames ctx _ true _
    · exact settle_blames ctx _ false _
  · exact settle_blames ctx _ false _

theorem loseItem_blames : Blames (Raised ctx) (ctx.loseItem item) :=
  guarded_blames ctx (contained_blames ctx (containChild_blames ctx true item)
    fun _ => settle_blames ctx _ true _)

/-- Work that has not started can be queued again. -/
theorem returnItem_blames (operation : OperationTask) (unstarted : item.childStarted = false) :
    Blames (Raised ctx) (ctx.returnItem item operation) := by
  apply guarded_blames
  split
  · rename_i error failed
    simp [requeueUnstartedWork, unstarted] at failed
  · rename_i queued requeued
    apply Blames.bind
    · apply ask_blames
      · intro s e refused
        simp only [RecoveryRequest.refused, refused, refusal]
      · intro same
        cases same
    · intro revision
      apply Blames.bind
      · apply ask_blames
        · intro s e refused
          simp only [RecoveryRequest.refused, refused, refusal]
        · intro same
          cases same
      · intro _
        split
        · exact (manage_blames ctx true _).bind fun _ => blames_ret _
        · exact (blames_ret ()).bind fun _ => blames_ret _

theorem handleItem_blames (operations : List OperationTask) (item : OperationWorkItem) :
    Blames (Raised ctx) (ctx.handleItem operations item) := by
  unfold handleItem
  split
  · exact orphanWork_blames ctx
  · rename_i operation found
    split
    · exact orphanWork_blames ctx
    · split
      · exact cancelItem_blames ctx operation
      · split
        · rename_i expected _
          exact retireItem_blames ctx operation expected
        · split
          · split
            · exact loseItem_blames ctx
            · rename_i unstarted
              exact returnItem_blames ctx operation (Bool.eq_false_iff.mpr unstarted)
          · exact blames_ret _

theorem failMissing_blames (operation : OperationTask) :
    Blames (Raised ctx) (ctx.failMissing operation) := untried_blames ctx (manage_blames ctx false _)

theorem listing_blames {β γ : Type} {q : RecoveryRequest} {names : Stores → List Text × Bool}
    {request : Text → RecoveryRequest} {answer : Text → Stores → Except RecoveryError (Option β × Stores)}
    {page : List (Option β) → γ} :
    Blames (Raised ctx) (listing q names (fun id => ask (request id) (answer id)) page) := by
  apply Blames.bind
  · apply blames_ask
    intro s e refused
    cases refused
  · intro ids
    apply Blames.bind
    · apply Blames.collect
      intro id
      apply Blames.rescue (P := fun _ _ => True)
      · exact blames_ask fun _ _ _ => trivial
      · exact fun e => .inl ⟨none, rfl⟩
    · exact fun found => blames_ret _

theorem finish_blames (listed : List OperationTask × Bool) (work : List OperationWorkItem × Bool) :
    Blames (Raised ctx) (ctx.finish work listed) := by
  apply (Blames.collect (handleItem_blames ctx listed.1) work.1).bind
  intro outcomes
  apply (Blames.collect (failMissing_blames ctx) _).bind
  exact fun missing => blames_ret _

theorem proceed_blames (work : List OperationWorkItem × Bool) :
    Blames (Raised ctx) (ctx.proceed work) :=
  (listing_blames ctx).bind fun listed => finish_blames ctx listed work

/-- Where the pass raises, a request of its own is to blame. -/
theorem recoverOperationWork_blames : Blames (Raised ctx) ctx.recoverOperationWork :=
  (listing_blames ctx).bind fun work => proceed_blames ctx work

end Blame

section Phases

variable {ctx : RecoveryContext} {s : Stores} {r : Text} {env : Interference Stores}
  {w w' : Session Stores RecoveryRequest}

/-- Two sessions that differ in the files of `r` and the requests on them only, where the second
has no such files. -/
structure Apart (r : Text) (w w' : Session Stores RecoveryRequest) : Prop where
  alike : ∀ x, x ≠ r → view Stores.cell RecoveryRequest.on x w = view Stores.cell RecoveryRequest.on x w'
  absent : w'.state.cell r = (none, none)

theorem apart_start : Apart r ⟨s, []⟩ ⟨s.without r, []⟩ where
  alike x other := by
    simp only [view, log, Stores.cell, Stores.without, WorkFiles.erase, AList.lookup_erase_ne other]
  absent := by
    simp only [Stores.cell, Stores.without, WorkFiles.erase, AList.lookup_erase]

theorem Apart.cell (apart : Apart r w w') {x : Text} (other : x ≠ r) :
    w.state.cell x = w'.state.cell x := congrArg Prod.fst (apart.alike x other)

theorem Apart.env_cell (apart : Apart r w w') (touches : Touches Stores.cell (· = r) env) {x : Text}
    (other : x ≠ r) : (env w.asked.length w.state).cell x = w'.state.cell x :=
  (touches _ _ x other).trans (apart.cell other)

variable (touches : Touches Stores.cell (· = r) env)
include touches

theorem Apart.workIds (apart : Apart r w w') (whole : (env w.asked.length w.state).workIds.2 = false)
    (id : Text) : id ∈ w'.state.workIds.1 ↔
      id ∈ (env w.asked.length w.state).workIds.1 ∧ ¬ id = r := by
  have files : ∀ x, x ≠ r → (env w.asked.length w.state).work.files.lookup x =
      w'.state.work.files.lookup x := fun x other => cell_work (apart.env_cell touches other)
  have absent : w'.state.work.files.lookup r = none := congrArg Prod.snd apart.absent
  have whole' : w'.state.workIds.2 = false := by
    apply workIds_whole whole
    intro x there
    by_cases same : x = r
    · exact (there (same ▸ absent)).elim
    · rw [files x same]
      exact there
  rw [mem_workIds whole', mem_workIds whole]
  by_cases same : id = r
  · subst same
    simp [absent]
  · simp [same, files id same]

theorem Apart.operationIds (apart : Apart r w w')
    (whole : (env w.asked.length w.state).operationIds.2 = false) (id : Text) :
    id ∈ w'.state.operationIds.1 ↔
      id ∈ (env w.asked.length w.state).operationIds.1 ∧ ¬ id = r := by
  have files : ∀ x, x ≠ r → (env w.asked.length w.state).operations.lookup x =
      w'.state.operations.lookup x := fun x other => cell_operations (apart.env_cell touches other)
  have absent : w'.state.operations.lookup r = none := congrArg Prod.fst apart.absent
  have whole' : w'.state.operationIds.2 = false := by
    apply operationIds_whole whole
    intro x there
    by_cases same : x = r
    · exact (there (same ▸ absent)).elim
    · rw [files x same]
      exact there
  rw [mem_operationIds whole', mem_operationIds whole]
  by_cases same : id = r
  · subst same
    simp [absent]
  · simp [same, files id same]

/-- The work items that the two passes list. -/
theorem Apart.listWork (apart : Apart r w w')
    (whole : (env w.asked.length w.state).workIds.2 = false) {items items' : List OperationWorkItem}
    {cut cut' : Bool} (ok : (ctx.listWork env w).1 = .ok (items, cut))
    (ok' : (ctx.listWork calm w').1 = .ok (items', cut')) :
    Apart r (ctx.listWork env w).2 (ctx.listWork calm w').2 ∧
      (items.map (·.operationId)).Nodup ∧ (items'.map (·.operationId)).Nodup ∧
      ∀ item, item ∈ items' ↔ item ∈ items ∧ ¬ item.operationId = r := by
  have names := apart.workIds touches whole
  obtain ⟨-, nodup, listed⟩ := listWork_spec touches ok
  obtain ⟨-, nodup', listed'⟩ := listWork_spec (D := fun _ => False) touches_calm ok'
  refine ⟨⟨?_, ?_⟩, nodup, nodup', ?_⟩
  · exact listing_undisturbed (readWork_about ctx) touches rfl workIds_nodup names apart.alike
  · rw [(listWork_quiet ctx).state w']
    exact apart.absent
  · intro item
    rw [listed' item not_false]
    by_cases same : item.operationId = r
    · simp only [calm, names, same, not_true, and_false, false_and]
    · rw [listed item same, repository_read_congr (apart.cell same)]
      simp only [calm, names, same, not_false_eq_true, and_true]

/-- The operations that the two passes list. -/
theorem Apart.listOperations (apart : Apart r w w')
    (whole : (env w.asked.length w.state).operationIds.2 = false)
    {operations operations' : List OperationTask} {cut cut' : Bool}
    (ok : (ctx.listOperations env w).1 = .ok (operations, cut))
    (ok' : (ctx.listOperations calm w').1 = .ok (operations', cut')) :
    Apart r (ctx.listOperations env w).2 (ctx.listOperations calm w').2 ∧
      (operations.map (·.operationId)).Nodup ∧ (operations'.map (·.operationId)).Nodup ∧
      ∀ t, t ∈ operations' ↔ t ∈ operations ∧ ¬ t.operationId = r := by
  have names := apart.operationIds touches whole
  obtain ⟨-, nodup, listed⟩ := listOperations_spec touches ok
  obtain ⟨-, nodup', listed'⟩ := listOperations_spec (D := fun _ => False) touches_calm ok'
  refine ⟨⟨?_, ?_⟩, nodup, nodup', ?_⟩
  · exact listing_undisturbed (readOperation_about ctx) touches rfl operationIds_nodup names apart.alike
  · rw [(listOperations_quiet ctx).state w']
    exact apart.absent
  · intro t
    rw [listed' t not_false]
    by_cases same : t.operationId = r
    · simp only [calm, names, same, not_true, and_false, false_and]
    · rw [listed t same, store_read_congr (apart.cell same)]
      simp only [calm, names, same, not_false_eq_true, and_true]

/-- A loop of the two passes. -/
theorem Apart.collect {α β : Type} {f : α → Pass β} {key : α → Text} {l l' : List α} {bs : List β}
    (apart : Apart r w w') (about : ∀ a, AboutRecord (key a) (f a)) (nodup : (l.map key).Nodup)
    (nodup' : (l'.map key).Nodup) (rest : ∀ a, a ∈ l' ↔ a ∈ l ∧ ¬ key a = r)
    (ok : (collect f l env w).1 = .ok bs) :
    (∃ bs', (Client.collect f l' calm w').1 = .ok bs') ∧
      Apart r (Client.collect f l env w).2 (Client.collect f l' calm w').2 := by
  obtain ⟨returns, alike⟩ := collect_undisturbed about touches nodup nodup' rest apart.alike ok
  refine ⟨returns, alike, ?_⟩
  have unlisted : r ∉ l'.map key := by
    intro image
    obtain ⟨a, member, same⟩ := List.mem_map.mp image
    exact ((rest a).mp member).2 same
  exact (collect_frame_calm about unlisted).trans apart.absent

end Phases

section Same

variable {operations operations' : List OperationTask} {r : Text}

variable (nodup : (operations.map (·.operationId)).Nodup)
  (nodup' : (operations'.map (·.operationId)).Nodup)
  (rest : ∀ t, t ∈ operations' ↔ t ∈ operations ∧ ¬ t.operationId = r)
include nodup nodup' rest

/-- A work item of another operation meets the same record in both listings. -/
theorem handleItem_same (ctx : RecoveryContext) {item : OperationWorkItem}
    (other : ¬ item.operationId = r) :
    ctx.handleItem operations' item = ctx.handleItem operations item := by
  have same : operations'.find? (·.operationId = item.operationId) =
      operations.find? (·.operationId = item.operationId) := by
    apply Option.ext
    intro t
    rw [mem_find nodup', mem_find nodup, rest]
    constructor
    · intro h
      exact ⟨h.1.1, h.2⟩
    · intro h
      exact ⟨⟨h.1, h.2 ▸ other⟩, h.2⟩
  unfold handleItem
  rw [same]

end Same

section Missing

variable {ctx : RecoveryContext} {operations operations' : List OperationTask}
  {items items' : List OperationWorkItem} {r : Text}

theorem lacksWork_same (rest : ∀ item, item ∈ items' ↔ item ∈ items ∧ ¬ item.operationId = r)
    {t : OperationTask} (other : ¬ t.operationId = r) :
    ctx.lacksWork (items'.map (·.operationId)) t = ctx.lacksWork (items.map (·.operationId)) t := by
  have same : (items'.map (·.operationId)).contains t.operationId =
      (items.map (·.operationId)).contains t.operationId := by
    rw [Bool.eq_iff_iff, List.contains_iff_mem, List.contains_iff_mem, List.mem_map, List.mem_map]
    constructor
    · intro h
      obtain ⟨item, member, named⟩ := h
      exact ⟨item, ((rest item).mp member).1, named⟩
    · intro h
      obtain ⟨item, member, named⟩ := h
      exact ⟨item, (rest item).mpr ⟨member, named ▸ other⟩, named⟩
  unfold lacksWork
  rw [same]

/-- The operations that lack their work in the two passes. -/
theorem missing_rest (rest : ∀ t, t ∈ operations' ↔ t ∈ operations ∧ ¬ t.operationId = r)
    (restItems : ∀ item, item ∈ items' ↔ item ∈ items ∧ ¬ item.operationId = r) (t : OperationTask) :
    t ∈ operations'.filter (ctx.lacksWork (items'.map (·.operationId))) ↔
      t ∈ operations.filter (ctx.lacksWork (items.map (·.operationId))) ∧ ¬ t.operationId = r := by
  rw [List.mem_filter, List.mem_filter, rest]
  constructor
  · intro h
    obtain ⟨⟨member, other⟩, lacks⟩ := h
    rw [lacksWork_same restItems other] at lacks
    exact ⟨⟨member, lacks⟩, other⟩
  · intro h
    obtain ⟨⟨member, lacks⟩, other⟩ := h
    rw [← lacksWork_same restItems other] at lacks
    exact ⟨⟨member, other⟩, lacks⟩

end Missing

section Isolation

variable {ctx : RecoveryContext} {s : Stores} {r : Text} {env : Interference Stores}
  {w w' : Session Stores RecoveryRequest}

/-- A listing that is not fatal is whole. -/
theorem listing_asked {β γ : Type} {q : RecoveryRequest} {names : Stores → List Text × Bool}
    {request : Text → RecoveryRequest} {answer : Text → Stores → Except RecoveryError (Option β × Stores)}
    {page : List (Option β) → γ} : (q, env w.asked.length w.state) ∈
      (listing q names (fun id => ask (request id) (answer id)) page env w).2.asked := by
  obtain ⟨found, scanned⟩ := scan_ok (fun id => ask (request id) (answer id))
    (names (env w.asked.length w.state)).1 env (namesKnown q env w)
  have scan : Blames (fun _ _ => True) (collect
      (fun id => skipUnreadable (ask (request id) (answer id)))
      (names (env w.asked.length w.state)).1) := by
    apply Blames.collect
    intro id
    apply Blames.rescue (P := fun _ _ => True)
    · exact blames_ask fun _ _ _ => trivial
    · exact fun e => .inl ⟨none, rfl⟩
  obtain ⟨entries, asked, -⟩ := scan env (namesKnown q env w)
  rw [listing_eq env scanned, asked]
  exact List.mem_append_left _ (List.mem_append_right _ List.mem_cons_self)

/-- The two passes after their listings. -/
theorem finish_isolated {work : List OperationWorkItem × Bool} {listed : List OperationTask × Bool}
    (work' : List OperationWorkItem × Bool) (listed' : List OperationTask × Bool) {done : OperationWorkRecoveryReport}
    (touches : Touches Stores.cell (· = r) env) (apart : Apart r w w')
    (nodup : (work.1.map (·.operationId)).Nodup) (nodup' : (work'.1.map (·.operationId)).Nodup)
    (rest : ∀ item, item ∈ work'.1 ↔ item ∈ work.1 ∧ ¬ item.operationId = r)
    (distinct : (listed.1.map (·.operationId)).Nodup)
    (distinct' : (listed'.1.map (·.operationId)).Nodup)
    (restListed : ∀ t, t ∈ listed'.1 ↔ t ∈ listed.1 ∧ ¬ t.operationId = r)
    (ok : (ctx.finish work listed env w).1 = .ok done) :
    (∃ done', (ctx.finish work' listed' calm w').1 = .ok done') ∧
      Apart r (ctx.finish work listed env w).2 (ctx.finish work' listed' calm w').2 := by
  obtain ⟨outcomes, missing, first, then_⟩ := finish_ok ok
  have same : ctx.handled work' listed' = collect (ctx.handleItem listed.1) work'.1 := by
    apply collect_congr
    intro item member
    exact handleItem_same distinct distinct' restListed ctx ((rest item).mp member).2
  obtain ⟨⟨outcomes', first'⟩, between⟩ := apart.collect touches (ctx.handleItem_about listed.1)
    nodup nodup' rest first
  rw [← same] at first' between
  obtain ⟨⟨missing', then_'⟩, after⟩ := between.collect touches ctx.failMissing_about
    (missing_nodup distinct _) (missing_nodup distinct' _) (missing_rest restListed rest) then_
  rw [finish_returned first then_, finish_returned first' then_']
  exact ⟨⟨_, rfl⟩, after⟩

/-- A listing that is not fatal is whole. -/
theorem listing_whole {q : RecoveryRequest} {s : Stores} {asked : List (RecoveryRequest × Stores)}
    (spared : ∀ entry ∈ asked, ¬ Fatal ctx entry) (there : (q, s) ∈ asked) : q.truncated s = false :=
  Bool.eq_false_iff.mpr fun cut => spared (q, s) there (.inl cut)

end Isolation

theorem fatal_iff {ctx : RecoveryContext} {entry : RecoveryRequest × Stores} : Fatal ctx entry ↔
    (entry.1.truncated entry.2 ||
      (entry.1.refused ctx entry.2).any fun e => !entry.1.tried || !e.conflict) = true := by
  unfold Fatal Raised
  rcases entry.1.refused ctx entry.2 with _ | e
  · simp
  · cases entry.1.tried <;> simp

instance {ctx : RecoveryContext} {entry : RecoveryRequest × Stores} :
    Decidable (Fatal ctx entry) := decidable_of_iff _ fatal_iff.symm

namespace Sample

def otherId : Text := "op-fedcba9876543210fedcba98".toList

def recovery : RecoveryContext where
  policy := taskPolicy
  codec := workCodec
  contain _ := .ok (.contained [])
  release _ := .ok ()
  input := ⟨second 5, none⟩

def noWork : WorkFiles := ⟨∅, fun _ _ _ found => nomatch found⟩

/-- Two queued operations whose cancellation was requested, each with its work item. The pass
comes to the second one first. -/
def cancelledTwice : Stores where
  operations := (ManagerSystem.run taskPolicy (calls [
    .create newOperation none,
    .create { newOperation with operationId := otherId } none,
    .requestCancel operationId none none,
    .requestCancel otherId none none] 0)).store
  work := (noWork.insert workItem 1).insert { workItem with operationId := otherId } 1

/-- Another process deletes the operation as the pass comes to it. -/
def deleting : Interference Stores := fun n s =>
  if n = 6 then { s with operations := s.operations.erase otherId } else s

/-- Another process saves the operation between the read and the save of the pass. -/
def saving : Interference Stores := fun n s =>
  match n, s.operations.lookup otherId with
  | 7, some (.record legacy t) =>
    { s with operations := s.operations.insert otherId (.record legacy { t with updatedAt := clock 4 }) }
  | _, _ => s

theorem touches_deleting : Touches Stores.cell (· = otherId) deleting := by
  intro n s x other
  unfold deleting
  split
  · simp only [Stores.cell, AList.lookup_erase_ne other]
  · rfl

theorem touches_saving : Touches Stores.cell (· = otherId) saving := by
  intro n s x other
  unfold saving
  split
  · simp only [Stores.cell, AList.lookup_insert_ne other]
  · rfl

end Sample

open Sample

end RepoForge
