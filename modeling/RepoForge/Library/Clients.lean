import Mathlib.Data.List.Forall2
import Mathlib.Data.List.Infix
import Mathlib.Logic.Basic

/-!
# Programs that share a state

A program makes requests of a shared state, one at a time, and may raise. Between two of its
requests other processes change the state as they like (`Interference`). A session has the state
and the requests so far, each with the state that answered it.

The state is a collection of cells. A program is about one cell (`About`) if it leaves every
other cell alone and what it does is decided by its own cell, as long as nobody else touches
that cell. `About` is closed under the ways to build programs; `collect_cell` is the rule for
a loop over programs about cells of their own, and `collect_ok` says when such a loop returns.
-/
namespace RepoForge.Clients

/-- What other processes do before the next request; the number is that of the requests so
far. -/
abbrev Interference (S : Type) := Nat → S → S

/-- Nobody else is there. -/
def calm {S : Type} : Interference S := fun _ s => s

structure Session (S Q : Type) where
  state : S
  asked : List (Q × S)

def Client (S Q E α : Type) : Type := Interference S → Session S Q → Except E α × Session S Q

variable {S Q E α β : Type}

namespace Client

def ret (a : α) : Client S Q E α := fun _ w => (.ok a, w)

def raise (e : E) : Client S Q E α := fun _ w => (.error e, w)

def andThen (m : Client S Q E α) (f : α → Client S Q E β) : Client S Q E β := fun env w =>
  match m env w with
  | (.ok a, w') => f a env w'
  | (.error e, w') => (.error e, w')

def rescue (m : Client S Q E α) (handler : E → Client S Q E α) : Client S Q E α := fun env w =>
  match m env w with
  | (.ok a, w') => (.ok a, w')
  | (.error e, w') => handler e env w'

/-- One request. A request that is refused changes nothing. -/
def ask (q : Q) (answer : S → Except E (α × S)) : Client S Q E α := fun env w =>
  let s := env w.asked.length w.state
  match answer s with
  | .ok (a, s') => (.ok a, ⟨s', w.asked ++ [(q, s)]⟩)
  | .error e => (.error e, ⟨s, w.asked ++ [(q, s)]⟩)

instance : Monad (Client S Q E) where
  pure := ret
  bind := andThen

/-- A program for each entry, one after the other. -/
def collect (f : α → Client S Q E β) : List α → Client S Q E (List β)
  | [] => ret []
  | a :: rest => do
    let b ← f a
    let bs ← collect f rest
    ret (b :: bs)

end Client

open Client

theorem bind_returned {m : Client S Q E α} {g : α → Client S Q E β} {env : Interference S}
    {w : Session S Q} {a : α} (returned : (m env w).1 = .ok a) :
    (m >>= g) env w = g a env (m env w).2 := by
  change andThen m g env w = _
  unfold andThen
  rcases result : m env w with ⟨e | a', after⟩
  · rw [result] at returned
    cases returned
  · rw [result] at returned
    cases returned
    rfl

theorem bind_raised {m : Client S Q E α} {g : α → Client S Q E β} {env : Interference S}
    {w : Session S Q} {e : E} (raised : (m env w).1 = .error e) :
    (m >>= g) env w = (.error e, (m env w).2) := by
  change andThen m g env w = _
  unfold andThen
  rcases result : m env w with ⟨e' | a, after⟩
  · rw [result] at raised
    cases raised
    rfl
  · rw [result] at raised
    cases raised

/-- A program that returns has returned from its first part. -/
theorem bind_ok_inv {m : Client S Q E α} {g : α → Client S Q E β} {env : Interference S}
    {w : Session S Q} {b : β} (ok : ((m >>= g) env w).1 = .ok b) :
    ∃ a, (m env w).1 = .ok a ∧ (m >>= g) env w = g a env (m env w).2 := by
  rcases first : (m env w).1 with e | a
  · rw [bind_raised first] at ok
    cases ok
  · exact ⟨a, rfl, bind_returned first⟩

theorem calm_answered {q : Q} {answer : S → Except E (α × S)} {w : Session S Q} {a : α} {s' : S}
    (h : answer w.state = .ok (a, s')) :
    (ask q answer calm w).1 = .ok a ∧ (ask q answer calm w).2.state = s' := by
  simp only [ask, calm, h, and_self]

theorem calm_refused {q : Q} {answer : S → Except E (α × S)} {w : Session S Q} {e : E}
    (h : answer w.state = .error e) :
    (ask q answer calm w).1 = .error e ∧ (ask q answer calm w).2.state = w.state := by
  simp only [ask, calm, h, and_self]

theorem calm_value {q : Q} {answer : S → Except E (α × S)} {w : Session S Q} :
    (ask q answer calm w).1 = (answer w.state).map Prod.fst := by
  rcases result : answer w.state with e | ⟨a, s'⟩
  · exact (calm_refused result).1
  · exact (calm_answered result).1

theorem partner {R : α → β → Prop} {l : List α} {bs : List β} (h : List.Forall₂ R l bs) {a : α}
    (member : a ∈ l) : ∃ b ∈ bs, R a b := by
  induction h with
  | nil => cases member
  | @cons head b l bs first _ ih =>
    rcases List.mem_cons.mp member with rfl | member
    · exact ⟨b, List.mem_cons_self, first⟩
    · obtain ⟨b', member', related⟩ := ih member
      exact ⟨b', List.mem_cons_of_mem _ member', related⟩

section Cells

variable {K C : Type} [DecidableEq K] (cell : K → S → C) (on : Q → Option K)

/-- Only the cells of `D` are changed by others. -/
def Touches (D : K → Prop) (env : Interference S) : Prop :=
  ∀ n s k, ¬ D k → cell k (env n s) = cell k s

/-- The requests on a cell so far. -/
def log (k : K) (w : Session S Q) : List Q := (w.asked.map Prod.fst).filter (on · = some k)

/-- A cell with the requests on it. -/
def view (k : K) (w : Session S Q) : C × List Q := (cell k w.state, log on k w)

/-- Two runs, from `w` and from `w'`, that ended alike as far as the cell of `k` goes. -/
structure Alike (k : K) (w w' : Session S Q) (r r' : Except E α × Session S Q) : Prop where
  value : r.1 = r'.1
  state : cell k r.2.state = cell k r'.2.state
  requests : ∃ qs, log on k r.2 = log on k w ++ qs ∧ log on k r'.2 = log on k w' ++ qs

/-- The program is about the cell of `k`. -/
structure About (k : K) (m : Client S Q E α) : Prop where
  /-- Every other cell is left alone. -/
  frame : ∀ D env w x, Touches cell D env → ¬ D x → x ≠ k →
    view cell on x (m env w).2 = view cell on x w
  /-- Two runs that start with the same cell end alike. -/
  decided : ∀ D env D' env' w w', Touches cell D env → Touches cell D' env' → ¬ D k → ¬ D' k →
    cell k w.state = cell k w'.state → Alike cell on k w w' (m env w) (m env' w')

variable {cell on} {k : K} {D : K → Prop} {env : Interference S} {w w' : Session S Q}

omit [DecidableEq K] in
theorem touches_calm : Touches cell D calm := fun _ _ _ _ => rfl

theorem alike_start {r : Except E α} (same : cell k w.state = cell k w'.state) :
    Alike cell on k w w' (r, w) (r, w') where
  value := rfl
  state := same
  requests := ⟨[], (List.append_nil _).symm, (List.append_nil _).symm⟩

theorem Alike.trans {u u' : Session S Q} {x x' : Except E α} {r r' : Except E β × Session S Q}
    (first : Alike cell on k w w' (x, u) (x', u')) (rest : Alike cell on k u u' r r') :
    Alike cell on k w w' r r' := by
  obtain ⟨qs, before, before'⟩ := first.requests
  obtain ⟨more, after, after'⟩ := rest.requests
  constructor
  · exact rest.value
  · exact rest.state
  · refine ⟨qs ++ more, ?_, ?_⟩
    · rw [after, before, List.append_assoc]
    · rw [after', before', List.append_assoc]

theorem Alike.view {r r' : Except E α × Session S Q} (h : Alike cell on k w w' r r')
    (same : view cell on k w = view cell on k w') : view cell on k r.2 = view cell on k r'.2 := by
  obtain ⟨qs, after, after'⟩ := h.requests
  have logs : log on k w = log on k w' := congrArg Prod.snd same
  exact Prod.ext h.state (by rw [Clients.view, Clients.view, after, after', logs])

theorem about_ret (a : α) : About cell on k (ret a : Client S Q E α) where
  frame _ _ _ _ _ _ _ := rfl
  decided _ _ _ _ _ _ _ _ _ _ same := alike_start same

theorem about_raise (e : E) : About cell on k (raise e : Client S Q E α) where
  frame _ _ _ _ _ _ _ := rfl
  decided _ _ _ _ _ _ _ _ _ _ same := alike_start same

/-- The program may return this. -/
def Returns (m : Client S Q E α) (a : α) : Prop := ∃ env w, (m env w).1 = .ok a

theorem returns_ask {q : Q} {answer : S → Except E (α × S)} {a : α}
    (h : Returns (ask q answer : Client S Q E α) a) : ∃ s s', answer s = .ok (a, s') := by
  obtain ⟨env, w, returned⟩ := h
  unfold Client.ask at returned
  rcases result : answer (env w.asked.length w.state) with e | ⟨b, after⟩
  · simp only [result] at returned
    cases returned
  · simp only [result] at returned
    cases returned
    exact ⟨_, after, result⟩

theorem About.andThen {m : Client S Q E α} {g : α → Client S Q E β} (hm : About cell on k m)
    (hg : ∀ a, Returns m a → About cell on k (g a)) : About cell on k (andThen m g) := by
  constructor
  · intro D env w x touches free other
    have first := hm.frame D env w x touches free other
    unfold Client.andThen
    rcases result : m env w with ⟨_ | a, after⟩
    · rw [result] at first
      exact first
    · have about := hg a ⟨env, w, by rw [result]⟩
      rw [result] at first
      exact (about.frame D env after x touches free other).trans first
  · intro D env D' env' w w' touches touches' free free' same
    have first := hm.decided D env D' env' w w' touches touches' free free' same
    unfold Client.andThen
    rcases result : m env w with ⟨_ | a, after⟩ <;> rcases result' : m env' w' with ⟨_ | a', after'⟩
    · rw [result, result'] at first
      obtain ⟨value⟩ := first.value
      exact first.trans (alike_start first.state)
    · rw [result, result'] at first
      cases first.value
    · rw [result, result'] at first
      cases first.value
    · have about := hg a ⟨env, w, by rw [result]⟩
      rw [result, result'] at first
      obtain ⟨value⟩ := first.value
      exact first.trans
        (about.decided D env D' env' after after' touches touches' free free' first.state)

theorem About.bind {m : Client S Q E α} {g : α → Client S Q E β} (hm : About cell on k m)
    (hg : ∀ a, Returns m a → About cell on k (g a)) : About cell on k (m >>= g) := hm.andThen hg

theorem About.rescue {m : Client S Q E α} {handler : E → Client S Q E α} (hm : About cell on k m)
    (hh : ∀ e, About cell on k (handler e)) : About cell on k (rescue m handler) := by
  constructor
  · intro D env w x touches free other
    have first := hm.frame D env w x touches free other
    unfold Client.rescue
    rcases result : m env w with ⟨e | a, after⟩
    · rw [result] at first
      exact ((hh e).frame D env after x touches free other).trans first
    · rw [result] at first
      exact first
  · intro D env D' env' w w' touches touches' free free' same
    have first := hm.decided D env D' env' w w' touches touches' free free' same
    unfold Client.rescue
    rcases result : m env w with ⟨e | a, after⟩ <;> rcases result' : m env' w' with ⟨e' | a', after'⟩
    · rw [result, result'] at first
      obtain ⟨value⟩ := first.value
      exact first.trans
        ((hh e).decided D env D' env' after after' touches touches' free free' first.state)
    · rw [result, result'] at first
      cases first.value
    · rw [result, result'] at first
      cases first.value
    · rw [result, result'] at first
      obtain ⟨value⟩ := first.value
      exact first

/-- A request that is answered from one cell and changes no other. -/
structure Local (cell : K → S → C) (k : K) (answer : S → Except E (α × S)) : Prop where
  frame : ∀ s a s' x, answer s = .ok (a, s') → x ≠ k → cell x s' = cell x s
  refused : ∀ s t e, cell k s = cell k t → answer s = .error e → answer t = .error e
  answered : ∀ s t a s', cell k s = cell k t → answer s = .ok (a, s') →
    ∃ t', answer t = .ok (a, t') ∧ cell k s' = cell k t'

omit [DecidableEq K] in
/-- A request that looks at one cell and changes it. -/
theorem local_of {γ : Type} {answer : S → Except E (α × S)} (look : S → Except E γ) (out : γ → α)
    (put : γ → S → S) (eq : ∀ s, answer s = (look s).map fun c => (out c, put c s))
    (same : ∀ s t, cell k s = cell k t → look s = look t)
    (frame : ∀ c s x, x ≠ k → cell x (put c s) = cell x s)
    (own : ∀ c s t, cell k s = cell k t → cell k (put c s) = cell k (put c t)) :
    Local cell k answer := by
  constructor
  · intro s a s' x answered other
    rw [eq] at answered
    rcases found : look s with e | c
    · rw [found] at answered
      cases answered
    · rw [found] at answered
      cases answered
      exact frame c s x other
  · intro s t e equal refused
    rw [eq] at refused ⊢
    rw [← same s t equal]
    rcases found : look s with e' | c
    · rw [found] at refused
      cases refused
      rfl
    · rw [found] at refused
      cases refused
  · intro s t a s' equal answered
    rw [eq] at answered
    rw [eq, ← same s t equal]
    rcases found : look s with e | c
    · rw [found] at answered
      cases answered
    · rw [found] at answered
      cases answered
      exact ⟨put c t, rfl, own c s t equal⟩

theorem log_ask (q : Q) (answer : S → Except E (α × S)) (x : K) :
    log on x ((ask q answer : Client S Q E α) env w).2 =
      log on x w ++ [q].filter (on · = some x) := by
  unfold Client.ask log
  rcases result : answer (env w.asked.length w.state) with e | ⟨a, after⟩ <;>
    simp only [result, List.map_append, List.map_cons, List.map_nil, List.filter_append]

theorem Local.ask {q : Q} {answer : S → Except E (α × S)} (h : Local cell k answer)
    (own : on q = some k) : About cell on k (ask q answer : Client S Q E α) := by
  constructor
  · intro D env w x touches free other
    have before := touches w.asked.length w.state x free
    have silent : [q].filter (on · = some x) = [] := by
      simp only [List.filter_cons, own, Option.some.injEq, Ne.symm other, decide_false,
        Bool.false_eq_true, if_false, List.filter_nil]
    apply Prod.ext
    · change cell x (Client.ask q answer env w).2.state = cell x w.state
      unfold Client.ask
      rcases result : answer (env w.asked.length w.state) with e | ⟨a, after⟩
      · simp only [result]
        exact before
      · simp only [result]
        exact (h.frame _ a after x result other).trans before
    · exact (log_ask q answer x).trans (by rw [silent, List.append_nil]; rfl)
  · intro D env D' env' w w' touches touches' free free' same
    have equal : cell k (env w.asked.length w.state) = cell k (env' w'.asked.length w'.state) := by
      rw [touches _ _ k free, touches' _ _ k free']
      exact same
    have logged : ∃ qs, log on k (Client.ask q answer env w).2 = log on k w ++ qs ∧
        log on k (Client.ask q answer env' w').2 = log on k w' ++ qs :=
      ⟨_, log_ask q answer k, log_ask q answer k⟩
    have outcome : (Client.ask q answer env w : Except E α × Session S Q).1 =
          (Client.ask q answer env' w').1 ∧
        cell k (Client.ask q answer env w).2.state = cell k (Client.ask q answer env' w').2.state := by
      unfold Client.ask
      rcases result : answer (env w.asked.length w.state) with e | ⟨a, after⟩
      · have result' := h.refused _ _ e equal result
        simp only [result, result']
        exact ⟨trivial, equal⟩
      · obtain ⟨after', result', left⟩ := h.answered _ _ a after equal result
        simp only [result, result']
        exact ⟨trivial, left⟩
    exact ⟨outcome.1, outcome.2, logged⟩

section Collect

variable {f : α → Client S Q E β} {key : α → K} {a : α} {l : List α}

theorem collect_raised {e : E} (raised : f a env w = (.error e, w')) :
    collect f (a :: l) env w = (.error e, w') := by
  change Client.andThen (f a) _ env w = _
  rw [Client.andThen, raised]

theorem collect_returned {b : β} (returned : f a env w = (.ok b, w')) :
    collect f (a :: l) env w =
      ((collect f l env w').1.map (b :: ·), (collect f l env w').2) := by
  change Client.andThen (f a) _ env w = _
  rw [Client.andThen, returned]
  change Client.andThen (collect f l) _ env w' = _
  unfold Client.andThen
  rcases collect f l env w' with ⟨_ | bs, last⟩
  · rfl
  · rfl

theorem collect_congr {g : α → Client S Q E β} (same : ∀ a ∈ l, f a = g a) :
    collect f l = collect g l := by
  induction l with
  | nil => rfl
  | cons a l ih =>
    simp only [collect]
    rw [same a List.mem_cons_self, ih fun a member => same a (List.mem_cons_of_mem _ member)]

omit [DecidableEq K] in
theorem key_apart {head : α} (new : key head ∉ l.map key) (member : a ∈ l) : key a ≠ key head := by
  intro same
  exact new (same ▸ List.mem_map_of_mem member)

variable (about : ∀ a, About cell on (key a) (f a)) (touches : Touches cell D env)
include about touches

/-- A cell that the loop is not about. -/
theorem collect_frame {x : K} (free : ¬ D x) (other : x ∉ l.map key) :
    view cell on x (collect f l env w).2 = view cell on x w := by
  induction l generalizing w with
  | nil => rfl
  | cons a l ih =>
    simp only [List.map_cons, List.mem_cons, not_or] at other
    have first := (about a).frame D env w x touches free other.1
    rcases result : f a env w with ⟨_ | b, after⟩
    · rw [result] at first
      rw [collect_raised result]
      exact first
    · rw [result] at first
      rw [collect_returned result]
      exact (ih other.2).trans first

/-- What a loop that returns has collected: each program ran with the cell it had at first, and
left it as it is at the end. -/
theorem collect_values (nodup : (l.map key).Nodup) {bs : List β}
    (ok : (collect f l env w).1 = .ok bs) :
    List.Forall₂ (fun a b => ∃ w', (f a env w').1 = .ok b ∧ (¬ D (key a) →
      view cell on (key a) w' = view cell on (key a) w ∧
      view cell on (key a) (collect f l env w).2 = view cell on (key a) (f a env w').2)) l bs := by
  induction l generalizing w bs with
  | nil =>
    cases ok
    exact .nil
  | cons head l ih =>
    obtain ⟨new, nodup⟩ := List.nodup_cons.mp nodup
    rcases result : f head env w with ⟨_ | b, after⟩
    · rw [collect_raised result] at ok
      cases ok
    · rw [collect_returned result] at ok ⊢
      rcases rest : (collect f l env after).1 with _ | bs'
      · rw [rest] at ok
        cases ok
      · rw [rest] at ok
        cases ok
        have rest' := List.forall₂_iff_zip.mp (ih nodup rest)
        apply List.Forall₂.cons
        · refine ⟨w, by rw [result], fun free => ⟨rfl, ?_⟩⟩
          rw [result]
          exact collect_frame about touches free new
        · apply List.forall₂_iff_zip.mpr
          constructor
          · exact rest'.1
          · intro a b paired
            obtain ⟨w', returned, own⟩ := rest'.2 paired
            refine ⟨w', returned, fun free => ⟨(own free).1.trans ?_, (own free).2⟩⟩
            have first := (about head).frame D env w (key a) touches free
              (key_apart new (List.of_mem_zip paired).1)
            rw [result] at first
            exact first

/-- A loop that returns has run the program of each of its entries. -/
theorem collect_at (nodup : (l.map key).Nodup) {bs : List β} (ok : (collect f l env w).1 = .ok bs)
    (member : a ∈ l) (free : ¬ D (key a)) :
    ∃ b ∈ bs, ∃ w', (f a env w').1 = .ok b ∧ view cell on (key a) w' = view cell on (key a) w ∧
      view cell on (key a) (collect f l env w).2 = view cell on (key a) (f a env w').2 := by
  obtain ⟨b, member', w', returned, own⟩ :=
    partner (collect_values about touches nodup ok) member
  exact ⟨b, member', w', returned, own free⟩

/-- A loop returns if each of its programs does, from the cell it starts with. -/
theorem collect_ok (nodup : (l.map key).Nodup) (free : ∀ a ∈ l, ¬ D (key a))
    (each : ∀ a ∈ l, ∀ w', view cell on (key a) w' = view cell on (key a) w →
      ∃ b, (f a env w').1 = .ok b) : ∃ bs, (collect f l env w).1 = .ok bs := by
  induction l generalizing w with
  | nil => exact ⟨[], rfl⟩
  | cons head l ih =>
    obtain ⟨new, nodup⟩ := List.nodup_cons.mp nodup
    obtain ⟨b, returned⟩ := each head List.mem_cons_self w rfl
    rcases result : f head env w with ⟨_ | b', after⟩
    · rw [result] at returned
      cases returned
    · rw [collect_returned result]
      have kept : ∀ a ∈ l, view cell on (key a) after = view cell on (key a) w := by
        intro a member
        have first := (about head).frame D env w (key a) touches
          (free a (List.mem_cons_of_mem _ member)) (key_apart new member)
        rw [result] at first
        exact first
      obtain ⟨bs, rest⟩ := ih (w := after) nodup
        (fun a member => free a (List.mem_cons_of_mem _ member))
        (fun a member w' equal => each a (List.mem_cons_of_mem _ member) w'
          (equal.trans (kept a member)))
      exact ⟨b' :: bs, by rw [rest]; rfl⟩

/-- A loop that returned though others were at work, and the loop over its undisturbed entries
with nobody else there. -/
theorem collect_undisturbed {l' : List α} {bs : List β} (nodup : (l.map key).Nodup)
    (nodup' : (l'.map key).Nodup) (rest : ∀ a, a ∈ l' ↔ a ∈ l ∧ ¬ D (key a))
    (alike : ∀ x, ¬ D x → view cell on x w = view cell on x w')
    (ok : (collect f l env w).1 = .ok bs) :
    (∃ bs', (collect f l' calm w').1 = .ok bs') ∧
      ∀ x, ¬ D x → view cell on x (collect f l env w).2 = view cell on x (collect f l' calm w').2 := by
  have calmly : Touches cell D calm := touches_calm
  have free : ∀ a ∈ l', ¬ D (key a) := fun a member => ((rest a).mp member).2
  have returns : ∃ bs', (collect f l' calm w').1 = .ok bs' := by
    apply collect_ok about calmly nodup' free
    intro a member u start
    obtain ⟨listed, undisturbed⟩ := (rest a).mp member
    obtain ⟨b, -, v, returned, start', -⟩ := collect_at about touches nodup ok listed undisturbed
    have same : cell (key a) u.state = cell (key a) v.state := congrArg Prod.fst
      ((start.trans (alike _ undisturbed).symm).trans start'.symm)
    have ends := (about a).decided D calm D env u v calmly touches undisturbed undisturbed same
    exact ⟨b, ends.value.trans returned⟩
  refine ⟨returns, ?_⟩
  obtain ⟨bs', ok'⟩ := returns
  intro x undisturbed
  by_cases listed : x ∈ l.map key
  · obtain ⟨a, member, rfl⟩ := List.mem_map.mp listed
    obtain ⟨b, -, v, -, start, left⟩ := collect_at about touches nodup ok member undisturbed
    obtain ⟨b', -, u, -, start', left'⟩ := collect_at about calmly nodup' ok'
      ((rest a).mpr ⟨member, undisturbed⟩) undisturbed
    have same : view cell on (key a) v = view cell on (key a) u :=
      (start.trans (alike _ undisturbed)).trans start'.symm
    have ends := (about a).decided D env D calm v u touches calmly undisturbed undisturbed
      (congrArg Prod.fst same)
    exact (left.trans (ends.view same)).trans left'.symm
  · have unlisted : x ∉ l'.map key := by
      intro image
      obtain ⟨a, member, rfl⟩ := List.mem_map.mp image
      exact listed (List.mem_map_of_mem ((rest a).mp member).1)
    rw [collect_frame about touches undisturbed listed, alike x undisturbed,
      collect_frame about calmly undisturbed unlisted]

end Collect

section Alone

variable {f : α → Client S Q E β} {key : α → K} {a : α} {l : List α} {s : S}

/-- Run alone from `s`, the program raises nothing. -/
def Settles (f : α → Client S Q E β) (s : S) (a : α) : Prop := ∃ b, (f a calm ⟨s, []⟩).1 = .ok b

/-- The loop gets to `a`: what stands before it raises nothing. -/
def Reaches (f : α → Client S Q E β) (s : S) (l : List α) (a : α) : Prop :=
  ∃ before after, l = before ++ a :: after ∧ ∀ b ∈ before, Settles f s b

theorem Reaches.mem (h : Reaches f s l a) : a ∈ l := by
  obtain ⟨before, after, rfl, -⟩ := h
  exact List.mem_append_right _ List.mem_cons_self

theorem reaches_cons {head : α} : Reaches f s (head :: l) a ↔
    a = head ∨ Settles f s head ∧ Reaches f s l a := by
  constructor
  · intro h
    obtain ⟨before, after, split, settled⟩ := h
    cases before with
    | nil =>
      cases split
      exact .inl rfl
    | cons first before =>
      cases split
      exact .inr ⟨settled head List.mem_cons_self, before, after, rfl,
        fun b member => settled b (List.mem_cons_of_mem _ member)⟩
  · intro h
    rcases h with rfl | ⟨first, before, after, rfl, settled⟩
    · exact ⟨[], l, rfl, fun b member => by cases member⟩
    · refine ⟨head :: before, after, rfl, ?_⟩
      intro b member
      rcases List.mem_cons.mp member with rfl | member
      · exact first
      · exact settled b member

variable (about : ∀ a, About cell on (key a) (f a))
include about

/-- With nobody else there, a program does what it would do alone. -/
theorem alone (a : α) (same : cell (key a) w.state = cell (key a) s) :
    (f a calm w).1 = (f a calm ⟨s, []⟩).1 ∧
      cell (key a) (f a calm w).2.state = cell (key a) (f a calm ⟨s, []⟩).2.state := by
  have ends := (about a).decided (fun _ => False) calm (fun _ => False) calm w ⟨s, []⟩ touches_calm
    touches_calm not_false not_false same
  exact ⟨ends.value, ends.state⟩

theorem frame_calm (a : α) {x : K} (other : x ≠ key a) :
    cell x (f a calm w).2.state = cell x w.state :=
  congrArg Prod.fst ((about a).frame (fun _ => False) calm w x touches_calm not_false other)

theorem collect_frame_calm {x : K} (other : x ∉ l.map key) :
    cell x (collect f l calm w).2.state = cell x w.state :=
  congrArg Prod.fst (collect_frame about (D := fun _ => False) touches_calm not_false other)

/-- What a loop does to the cell of an entry that it gets to. -/
theorem collect_reached (nodup : (l.map key).Nodup)
    (same : ∀ a ∈ l, cell (key a) w.state = cell (key a) s) (reached : Reaches f s l a) :
    cell (key a) (collect f l calm w).2.state = cell (key a) (f a calm ⟨s, []⟩).2.state := by
  induction l generalizing w with
  | nil => cases reached.mem
  | cons head l ih =>
    obtain ⟨new, nodup⟩ := List.nodup_cons.mp nodup
    have first := alone about head (same head List.mem_cons_self)
    rcases reaches_cons.mp reached with rfl | ⟨settled, later⟩
    · rw [← first.2]
      rcases result : f a calm w with ⟨_ | b, after⟩
      · rw [collect_raised result]
      · rw [collect_returned result]
        exact collect_frame_calm about new
    · obtain ⟨b, returned⟩ := settled
      rcases result : f head calm w with ⟨_ | b', after⟩
      · rw [result, returned] at first
        cases first.1
      · rw [collect_returned result]
        apply ih nodup ?_ later
        intro c member
        have kept := frame_calm (w := w) about head (key_apart new member)
        rw [result] at kept
        exact kept.trans (same c (List.mem_cons_of_mem _ member))

/-- What a loop does to a cell: nothing, or what a program that it gets to does alone. -/
theorem collect_cell (nodup : (l.map key).Nodup)
    (same : ∀ a ∈ l, cell (key a) w.state = cell (key a) s) (x : K) :
    cell x (collect f l calm w).2.state = cell x w.state ∨
    ∃ a, Reaches f s l a ∧ key a = x ∧
      cell x (collect f l calm w).2.state = cell x (f a calm ⟨s, []⟩).2.state := by
  induction l generalizing w with
  | nil => exact .inl rfl
  | cons head l ih =>
    by_cases own : key head = x
    · subst own
      have reached : Reaches f s (head :: l) head := reaches_cons.mpr (.inl rfl)
      exact .inr ⟨head, reached, rfl, collect_reached about nodup same reached⟩
    · obtain ⟨new, nodup⟩ := List.nodup_cons.mp nodup
      have kept := fun y (other : y ≠ key head) => frame_calm (w := w) about head other
      have first := alone about head (same head List.mem_cons_self)
      rcases result : f head calm w with ⟨_ | b, after⟩
      · rw [collect_raised result]
        rw [result] at kept
        exact .inl (kept x (Ne.symm own))
      · rw [collect_returned result]
        rw [result] at kept first
        have rest := ih (w := after) nodup fun a member =>
          (kept _ (key_apart new member)).trans (same a (List.mem_cons_of_mem _ member))
        rcases rest with still | ⟨a, later, own', left⟩
        · exact .inl (still.trans (kept x (Ne.symm own)))
        · exact .inr ⟨a, reaches_cons.mpr (.inr ⟨⟨b, first.1.symm⟩, later⟩), own', left⟩

/-- A loop returns if each of its programs does alone. -/
theorem collect_settled (nodup : (l.map key).Nodup)
    (same : ∀ a ∈ l, cell (key a) w.state = cell (key a) s) :
    (∃ bs, (collect f l calm w).1 = .ok bs) ↔ ∀ a ∈ l, Settles f s a := by
  constructor
  · intro ok
    obtain ⟨bs, ok⟩ := ok
    intro a member
    obtain ⟨b, -, w', returned, start, -⟩ :=
      collect_at about (D := fun _ => False) touches_calm nodup ok member not_false
    have own := alone about a ((congrArg Prod.fst start).trans (same a member))
    exact ⟨b, own.1.symm.trans returned⟩
  · intro settled
    apply collect_ok about (D := fun _ => False) touches_calm nodup fun _ _ => not_false
    intro a member w' start
    obtain ⟨b, returned⟩ := settled a member
    have own := alone about a ((congrArg Prod.fst start).trans (same a member))
    exact ⟨b, own.1.trans returned⟩

end Alone

end Cells

section Keeps

variable {T : Type} {part : S → T}

/-- Alone, the program leaves this part of the state as it is. -/
def Keeps (part : S → T) (m : Client S Q E α) : Prop := ∀ w, part (m calm w).2.state = part w.state

theorem Keeps.state {m : Client S Q E α} (h : Keeps (fun s => s) m) (w : Session S Q) :
    (m calm w).2.state = w.state := h w

theorem keeps_ret (a : α) : Keeps part (ret a : Client S Q E α) := fun _ => rfl

theorem keeps_ask {q : Q} {answer : S → Except E (α × S)}
    (h : ∀ s a s', answer s = .ok (a, s') → part s' = part s) :
    Keeps part (ask q answer : Client S Q E α) := by
  intro w
  rcases result : answer w.state with e | ⟨a, s'⟩
  · rw [(calm_refused result).2]
  · rw [(calm_answered result).2]
    exact h _ a s' result

theorem Keeps.bind {m : Client S Q E α} {g : α → Client S Q E β} (hm : Keeps part m)
    (hg : ∀ a, Keeps part (g a)) : Keeps part (m >>= g) := by
  intro w
  rcases first : (m calm w).1 with e | a
  · rw [bind_raised first]
    exact hm w
  · rw [bind_returned first]
    exact (hg a _).trans (hm w)

theorem Keeps.rescue {m : Client S Q E α} {handler : E → Client S Q E α} (hm : Keeps part m)
    (hh : ∀ e, Keeps part (handler e)) : Keeps part (rescue m handler) := by
  intro w
  have first := hm w
  unfold Client.rescue
  rcases result : m calm w with ⟨e | a, after⟩
  · rw [result] at first
    exact (hh e after).trans first
  · rw [result] at first
    exact first

theorem Keeps.collect {f : α → Client S Q E β} (each : ∀ a, Keeps part (f a)) (l : List α) :
    Keeps part (collect f l) := by
  induction l with
  | nil => exact keeps_ret []
  | cons a l ih => exact (each a).bind fun b => ih.bind fun bs => keeps_ret (b :: bs)

end Keeps

section Blame

/-- Where the program raises, some request of its own is to blame. -/
def Blames (P : Q × S → E → Prop) (m : Client S Q E α) : Prop :=
  ∀ env w, ∃ entries, (m env w).2.asked = w.asked ++ entries ∧
    ∀ e, (m env w).1 = .error e → ∃ entry ∈ entries, P entry e

variable {P P' : Q × S → E → Prop}

theorem blames_ret (a : α) : Blames P (ret a : Client S Q E α) := by
  intro env w
  exact ⟨[], (List.append_nil _).symm, fun e raised => by cases raised⟩

theorem Blames.imp {m : Client S Q E α} (h : Blames P m) (imp : ∀ entry e, P entry e → P' entry e) :
    Blames P' m := by
  intro env w
  obtain ⟨entries, asked, blame⟩ := h env w
  refine ⟨entries, asked, ?_⟩
  intro e raised
  obtain ⟨entry, member, guilty⟩ := blame e raised
  exact ⟨entry, member, imp entry e guilty⟩

theorem Blames.bind {m : Client S Q E α} {g : α → Client S Q E β} (hm : Blames P m)
    (hg : ∀ a, Blames P (g a)) : Blames P (m >>= g) := by
  intro env w
  obtain ⟨entries, asked, blame⟩ := hm env w
  change ∃ entries, (andThen m g env w).2.asked = w.asked ++ entries ∧
    ∀ e, (andThen m g env w).1 = .error e → ∃ entry ∈ entries, P entry e
  unfold Client.andThen
  rcases result : m env w with ⟨e | a, after⟩
  · rw [result] at asked blame
    refine ⟨entries, asked, ?_⟩
    intro e' raised
    cases raised
    exact blame e rfl
  · rw [result] at asked
    obtain ⟨more, asked', blame'⟩ := hg a env after
    refine ⟨entries ++ more, by rw [asked', asked, List.append_assoc], ?_⟩
    intro e raised
    obtain ⟨entry, member, guilty⟩ := blame' e raised
    exact ⟨entry, List.mem_append_right _ member, guilty⟩

/-- A handler that lets some errors pass and raises the others again. -/
theorem Blames.rescue {m : Client S Q E α} {handler : E → Client S Q E α} (hm : Blames P m)
    (handled : ∀ e, (∃ a, handler e = ret a) ∨
      handler e = raise e ∧ ∀ entry, P entry e → P' entry e) :
    Blames P' (rescue m handler) := by
  intro env w
  obtain ⟨entries, asked, blame⟩ := hm env w
  unfold Client.rescue
  rcases result : m env w with ⟨e | a, after⟩
  · rw [result] at asked blame
    refine ⟨entries, ?_⟩
    rcases handled e with ⟨a, same⟩ | ⟨same, passes⟩
    · simp only [same]
      exact ⟨asked, fun e' raised => by cases raised⟩
    · simp only [same]
      refine ⟨asked, ?_⟩
      intro e' raised
      cases raised
      obtain ⟨entry, member, guilty⟩ := blame e rfl
      exact ⟨entry, member, passes entry guilty⟩
  · rw [result] at asked
    exact ⟨entries, asked, fun e raised => by cases raised⟩

theorem blames_ask {q : Q} {answer : S → Except E (α × S)}
    (refused : ∀ s e, answer s = .error e → P (q, s) e) :
    Blames P (ask q answer : Client S Q E α) := by
  intro env w
  refine ⟨[(q, env w.asked.length w.state)], ?_⟩
  unfold Client.ask
  rcases result : answer (env w.asked.length w.state) with e | ⟨a, after⟩
  · simp only [result]
    refine ⟨trivial, ?_⟩
    intro e' raised
    cases raised
    exact ⟨_, List.mem_singleton.mpr rfl, refused _ e result⟩
  · simp only [result]
    exact ⟨trivial, fun e raised => by cases raised⟩

theorem Blames.collect {f : α → Client S Q E β} (each : ∀ a, Blames P (f a)) (l : List α) :
    Blames P (collect f l) := by
  induction l with
  | nil => exact blames_ret []
  | cons a l ih => exact (each a).bind fun b => ih.bind fun bs => blames_ret (b :: bs)

end Blame

end RepoForge.Clients
