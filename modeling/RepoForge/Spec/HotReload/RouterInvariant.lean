import Mathlib.Data.Multiset.Count
import Mathlib.Data.Multiset.UnionInter
import Mathlib.Data.List.Perm.Basic
import RepoForge.Source.HotReload.ServiceRouter

/-!
# What the router keeps

`Kept` relates a router to the containers that requests hold, those that have been handed over to
be disposed of, and those that were ever installed. There is one lemma for each block of the
router that runs under its lock; what a `RouterMachine` does is put together from them.
-/
namespace RepoForge.HotReload

open PyStr PyDict

/-- How many requests hold a container of the generation. -/
def heldBy (holders : Multiset GenerationServiceContainer) (g : Int) : Nat :=
  holders.countP fun c => c.generation = g

theorem heldBy_cons {holders : Multiset GenerationServiceContainer} {g : Int}
    {c : GenerationServiceContainer} :
    heldBy (c ::ₘ holders) g = heldBy holders g + if c.generation = g then 1 else 0 :=
  Multiset.countP_cons _ _ _

theorem heldBy_pos {holders : Multiset GenerationServiceContainer}
    {c : GenerationServiceContainer} (held : c ∈ holders) : 0 < heldBy holders c.generation :=
  Multiset.countP_pos.mpr ⟨c, held, rfl⟩

/-- The invariant of the router. A router whose requests are empty has been closed for good. -/
structure Kept (r : AtomicServiceRouter) (holders handed : Multiset GenerationServiceContainer)
    (installed : List GenerationServiceContainer) : Prop where
  counted : ∀ g, (get r.activeRequests g).getD 0 = (heldBy holders g : Int)
  pinned : ∀ c ∈ holders, c = r.active ∨ get r.retired c.generation = some c
  retiring : ∀ g c, get r.retired g = some c →
    c.generation = g ∧ g ≠ r.active.generation ∧ c ∈ holders
  tracked : r.activeRequests ≠ [] →
    (get r.activeRequests r.active.generation).isSome = true ∧ r.active ∉ handed
  emptied : r.activeRequests = [] → r.closed = true ∧ r.active ∈ handed
  once : handed.Nodup
  known : ∀ c ∈ handed, c ∈ installed
  activeKnown : r.active ∈ installed
  retiredKnown : ∀ g c, get r.retired g = some c → c ∈ installed ∧ c ∉ handed
  accounted : ∀ c ∈ installed, c = r.active ∨ c ∈ handed ∨ get r.retired c.generation = some c

variable {r r' : AtomicServiceRouter} {holders handed : Multiset GenerationServiceContainer}
  {installed : List GenerationServiceContainer} {c candidate : GenerationServiceContainer}
  {dispose : Option GenerationServiceContainer}

theorem kept_init (initial : GenerationServiceContainer) : Kept (.init initial) 0 0 [initial] where
  counted g := by
    simp only [AtomicServiceRouter.init, get_cons, get_nil, heldBy, Multiset.countP_zero]
    split_ifs <;> rfl
  pinned := by simp
  retiring := by simp [AtomicServiceRouter.init, get_nil]
  tracked := by simp [AtomicServiceRouter.init, get_cons]
  emptied := by simp [AtomicServiceRouter.init]
  once := Multiset.nodup_zero
  known := by simp
  activeKnown := by simp [AtomicServiceRouter.init]
  retiredKnown := by simp [AtomicServiceRouter.init, get_nil]
  accounted := by simp [AtomicServiceRouter.init]

/-- A held container is not handed over. -/
theorem Kept.held_apart (kept : Kept r holders handed installed) (held : c ∈ holders) :
    c ∉ handed := by
  rcases kept.pinned c held with rfl | retired
  · by_cases empty : r.activeRequests = []
    · have count := kept.counted r.active.generation
      rw [empty, get_nil] at count
      have positive := heldBy_pos held
      simp only [Option.getD_none] at count
      omega
    · exact (kept.tracked empty).2
  · exact (kept.retiredKnown _ _ retired).2

/-- Two installed containers in use, one of them active, have different generations. -/
theorem Kept.holder_of_generation (kept : Kept r holders handed installed) (held : c ∈ holders)
    {old : GenerationServiceContainer} (retired : get r.retired c.generation = some old) :
    c = old := by
  rcases kept.pinned c held with rfl | here
  · exact absurd rfl (kept.retiring _ _ retired).2.1
  · rw [here] at retired
    exact Option.some.inj retired

theorem acquire_kept (kept : Kept r holders handed installed) (ok : r.acquire = .ok (c, r')) :
    Kept r' (c ::ₘ holders) handed installed := by
  unfold AtomicServiceRouter.acquire at ok
  split_ifs at ok with closed
  simp only [Except.ok.injEq, Prod.mk.injEq] at ok
  obtain ⟨rfl, rfl⟩ := ok
  have live : r.activeRequests ≠ [] := fun empty => closed (kept.emptied empty).1
  constructor
  case counted =>
    intro g
    have before := kept.counted g
    by_cases here : g = r.active.generation
    · subst here
      simp [get_assign, heldBy_cons, before]
    · have other : ¬ r.active.generation = g := fun same => here same.symm
      simp [get_assign, heldBy_cons, here, other, before]
  case pinned =>
    intro c held
    rcases Multiset.mem_cons.mp held with rfl | held
    · exact .inl rfl
    · exact kept.pinned c held
  case retiring =>
    intro g c retired
    obtain ⟨own, other, held⟩ := kept.retiring g c retired
    exact ⟨own, other, Multiset.mem_cons_of_mem held⟩
  case tracked => exact fun _ => ⟨by simp [get_assign], (kept.tracked live).2⟩
  case emptied => exact fun empty => absurd empty assign_ne_nil
  case once => exact kept.once
  case known => exact kept.known
  case activeKnown => exact kept.activeKnown
  case retiredKnown => exact kept.retiredKnown
  case accounted => exact kept.accounted

/-- The requests after one more has ended: its count is lower by one. -/
structure Recounted (r : AtomicServiceRouter) (holders : Multiset GenerationServiceContainer)
    (requests : List (Int × Int)) : Prop where
  counts : ∀ g, (get requests g).getD 0 = (heldBy holders g : Int)
  active : (get requests r.active.generation).isSome = true

theorem recounted_of_kept (kept : Kept r (c ::ₘ holders) handed installed) :
    r.activeRequests ≠ [] ∧ ∃ count, get r.activeRequests c.generation = some count ∧
      count = heldBy holders c.generation + 1 ∧
      Recounted r holders (assign r.activeRequests c.generation (count - 1)) := by
  have counted := kept.counted c.generation
  rw [heldBy_cons, if_pos rfl] at counted
  have live : r.activeRequests ≠ [] := by
    intro empty
    rw [empty, get_nil] at counted
    simp only [Option.getD_none] at counted
    omega
  cases found : get r.activeRequests c.generation with
  | none =>
    rw [found] at counted
    simp only [Option.getD_none] at counted
    omega
  | some count =>
    rw [found, Option.getD_some] at counted
    refine ⟨live, count, rfl, by omega, ?_, ?_⟩
    · intro g
      have before := kept.counted g
      by_cases here : g = c.generation
      · subst here
        simp only [get_assign, if_true, Option.getD_some]
        omega
      · have other : ¬ c.generation = g := fun same => here same.symm
        simpa [get_assign, heldBy_cons, here, other] using before
    · rw [get_assign]
      split_ifs
      · rfl
      · exact (kept.tracked live).1

theorem ne_nil_of_isSome {requests : List (Int × Int)} {g : Int}
    (found : (get requests g).isSome = true) : requests ≠ [] := by
  intro empty
  rw [empty, get_nil] at found
  cases found

/-- The container stays where it is while others hold it, or it is active. -/
theorem Kept.stays (kept : Kept r (c ::ₘ holders) handed installed) {requests : List (Int × Int)}
    (recounted : Recounted r holders requests) (live : r.activeRequests ≠ [])
    (held : get r.retired c.generation = some c → c ∈ holders) :
    Kept { r with activeRequests := requests } holders handed installed where
  counted := recounted.counts
  pinned c held := kept.pinned c (Multiset.mem_cons_of_mem held)
  retiring g old retired := by
    obtain ⟨own, other, holding⟩ := kept.retiring g old retired
    rcases Multiset.mem_cons.mp holding with rfl | holding
    · exact ⟨own, other, held (own ▸ retired)⟩
    · exact ⟨own, other, holding⟩
  tracked _ := ⟨recounted.active, (kept.tracked live).2⟩
  emptied empty := absurd empty (ne_nil_of_isSome recounted.active)
  once := kept.once
  known := kept.known
  activeKnown := kept.activeKnown
  retiredKnown := kept.retiredKnown
  accounted := kept.accounted

/-- The last request of a retired container hands it over. -/
theorem Kept.leaves (kept : Kept r (c ::ₘ holders) handed installed) {requests : List (Int × Int)}
    (recounted : Recounted r holders requests) (retired : get r.retired c.generation = some c)
    (last : heldBy holders c.generation = 0) :
    Kept { r with activeRequests := pop requests c.generation
                  retired := pop r.retired c.generation }
      holders (c ::ₘ handed) installed := by
  obtain ⟨-, apart, -⟩ := kept.retiring _ _ retired
  have others : ∀ d ∈ holders, d.generation ≠ c.generation := by
    intro d held same
    have positive := heldBy_pos held
    rw [same] at positive
    omega
  have active : (get (pop requests c.generation) r.active.generation).isSome = true := by
    rw [get_pop, if_neg (fun same => apart same.symm)]
    exact recounted.active
  constructor
  case counted =>
    intro g
    dsimp only
    rw [get_pop]
    split_ifs with here
    · subst here
      simp [last]
    · exact recounted.counts g
  case pinned =>
    intro d held
    dsimp only
    rw [get_pop, if_neg (others d held)]
    exact kept.pinned d (Multiset.mem_cons_of_mem held)
  case retiring =>
    intro g d found
    dsimp only at found
    rw [get_pop] at found
    split_ifs at found with here
    obtain ⟨own, other, held⟩ := kept.retiring g d found
    refine ⟨own, other, (Multiset.mem_cons.mp held).resolve_left ?_⟩
    rintro rfl
    exact here own.symm
  case tracked =>
    refine fun _ => ⟨active, ?_⟩
    rw [Multiset.mem_cons, not_or]
    refine ⟨fun same => apart (by rw [← same]), ?_⟩
    have counted := kept.counted c.generation
    have positive := heldBy_pos (Multiset.mem_cons_self c holders)
    refine (kept.tracked fun empty => ?_).2
    rw [empty, get_nil] at counted
    simp only [Option.getD_none] at counted
    omega
  case emptied => exact fun empty => absurd empty (ne_nil_of_isSome active)
  case once => exact Multiset.nodup_cons.mpr ⟨(kept.retiredKnown _ _ retired).2, kept.once⟩
  case known =>
    intro d there
    rcases Multiset.mem_cons.mp there with rfl | there
    · exact (kept.retiredKnown _ _ retired).1
    · exact kept.known d there
  case activeKnown => exact kept.activeKnown
  case retiredKnown =>
    intro g d found
    dsimp only at found
    rw [get_pop] at found
    split_ifs at found with here
    obtain ⟨known, free⟩ := kept.retiredKnown g d found
    refine ⟨known, ?_⟩
    rw [Multiset.mem_cons, not_or]
    refine ⟨fun same => here ?_, free⟩
    rw [← (kept.retiring g d found).1, same]
  case accounted =>
    intro d known
    dsimp only
    rw [get_pop]
    rcases kept.accounted d known with active | there | found
    · exact .inl active
    · exact .inr (.inl (Multiset.mem_cons_of_mem there))
    · split_ifs with here
      · rw [here, retired] at found
        exact .inr (.inl (Multiset.mem_cons.mpr (.inl (Option.some.inj found).symm)))
      · exact .inr (.inr found)

/-- A request that ends finds its count, and hands its container over exactly if it is the last one
of a retired generation. -/
theorem release_kept (kept : Kept r (c ::ₘ holders) handed installed) :
    ∃ dispose r', r.release c = .ok (dispose, r') ∧
      Kept r' holders (dispose.toList + handed) installed := by
  obtain ⟨live, count, found, counted, recounted⟩ := recounted_of_kept kept
  unfold AtomicServiceRouter.release
  simp only [found]
  cases retired : get r.retired c.generation with
  | none => exact ⟨none, _, rfl, by simpa using kept.stays recounted live (by simp [retired])⟩
  | some old =>
    obtain rfl := kept.holder_of_generation (Multiset.mem_cons_self c holders) retired
    dsimp only
    split_ifs with last
    · exact ⟨some c, _, rfl, by simpa using kept.leaves recounted retired (by omega)⟩
    · obtain ⟨d, held, same⟩ := Multiset.countP_pos.mp
        (show 0 < heldBy holders c.generation by omega)
      obtain rfl := kept.holder_of_generation (Multiset.mem_cons_of_mem held) (same ▸ retired)
      exact ⟨none, _, rfl, by simpa using kept.stays recounted live fun _ => held⟩

theorem validateSwapLocked_ok (ok : r.validateSwapLocked candidate = .ok ()) :
    r.closed = false ∧ candidate.generation ≠ r.active.generation ∧
      get r.retired candidate.generation = none := by
  unfold AtomicServiceRouter.validateSwapLocked at ok
  split_ifs at ok with closed same retired
  exact ⟨by simpa using closed, same, by simpa using retired⟩

/-- A swap takes effect on a router that is open, and the candidate's generation is not in use. -/
theorem commitSwap_ok {previous : GenerationServiceContainer} {commit : Except Raised Unit}
    (ok : r.commitSwap candidate commit = .ok (previous, dispose, r')) :
    commit = .ok () ∧ r.closed = false ∧ candidate.generation ≠ r.active.generation ∧
      get r.retired candidate.generation = none ∧
      r.installLocked candidate = (previous, dispose, r') := by
  obtain ⟨_, valid, ok⟩ := bind_ok ok
  obtain ⟨_, committed, ok⟩ := bind_ok ok
  obtain ⟨closed, other, free⟩ := validateSwapLocked_ok valid
  exact ⟨committed, closed, other, free, Except.ok.inj ok⟩

/-- A generation that is not in use is held by no request. -/
theorem heldBy_unused (kept : Kept r holders handed installed)
    (other : candidate.generation ≠ r.active.generation)
    (free : get r.retired candidate.generation = none) :
    heldBy holders candidate.generation = 0 := by
  by_contra some
  obtain ⟨d, held, same⟩ := Multiset.countP_pos.mp (Nat.pos_of_ne_zero some)
  rcases kept.pinned d held with rfl | retired
  · exact other same.symm
  · rw [same, free] at retired
    cases retired

/-- The requests with an entry for a generation that no request holds. -/
structure Prepared (r : AtomicServiceRouter) (candidate : GenerationServiceContainer)
    (holders : Multiset GenerationServiceContainer) (requests : List (Int × Int)) : Prop where
  counts : ∀ g, (get requests g).getD 0 = (heldBy holders g : Int)
  candidate : (get requests candidate.generation).isSome = true

theorem prepared_of_kept (kept : Kept r holders handed installed)
    (unused : heldBy holders candidate.generation = 0) :
    Prepared r candidate holders
      (if (get r.activeRequests candidate.generation).isSome then r.activeRequests
        else assign r.activeRequests candidate.generation 0) := by
  split_ifs with present
  · exact ⟨kept.counted, present⟩
  · refine ⟨fun g => ?_, by simp [get_assign]⟩
    rw [get_assign]
    split_ifs with here
    · simp [here, unused]
    · exact kept.counted g

section Install

variable (kept : Kept r holders handed installed) (live : r.activeRequests ≠ [])
  (other : candidate.generation ≠ r.active.generation)
  (free : get r.retired candidate.generation = none) (fresh : candidate ∉ installed)
  {requests : List (Int × Int)} (prepared : Prepared r candidate holders requests)

include kept live other free fresh prepared

/-- A container that no request holds is handed over when it is replaced. -/
theorem Kept.replaces (idle : heldBy holders r.active.generation = 0) :
    Kept { r with active := candidate
                  activeRequests := pop requests r.active.generation }
      holders (r.active ::ₘ handed) (installed ++ [candidate]) := by
  have entry : (get (pop requests r.active.generation) candidate.generation).isSome = true := by
    rw [get_pop, if_neg other]
    exact prepared.candidate
  constructor
  case counted =>
    intro g
    dsimp only
    rw [get_pop]
    split_ifs with here
    · simp [here, idle]
    · exact prepared.counts g
  case pinned =>
    intro d held
    rcases kept.pinned d held with rfl | retired
    · have positive := heldBy_pos held
      omega
    · exact .inr retired
  case retiring =>
    intro g d retired
    obtain ⟨own, -, held⟩ := kept.retiring g d retired
    refine ⟨own, fun same => ?_, held⟩
    rw [same, free] at retired
    cases retired
  case tracked =>
    refine fun _ => ⟨entry, fun there => fresh ?_⟩
    rcases Multiset.mem_cons.mp there with same | there
    · change candidate = r.active at same
      rw [same]
      exact kept.activeKnown
    · exact kept.known _ there
  case emptied => exact fun empty => absurd empty (ne_nil_of_isSome entry)
  case once => exact Multiset.nodup_cons.mpr ⟨(kept.tracked live).2, kept.once⟩
  case known =>
    intro d there
    rcases Multiset.mem_cons.mp there with rfl | there
    · exact List.mem_append_left _ kept.activeKnown
    · exact List.mem_append_left _ (kept.known d there)
  case activeKnown => simp
  case retiredKnown =>
    intro g d retired
    obtain ⟨known, apart⟩ := kept.retiredKnown g d retired
    obtain ⟨own, otherwise, -⟩ := kept.retiring g d retired
    refine ⟨List.mem_append_left _ known, ?_⟩
    rw [Multiset.mem_cons, not_or]
    exact ⟨fun same => otherwise (by rw [← own, same]), apart⟩
  case accounted =>
    intro d known
    rcases List.mem_append.mp known with known | last
    · rcases kept.accounted d known with rfl | there | retired
      · exact .inr (.inl (Multiset.mem_cons_self _ _))
      · exact .inr (.inl (Multiset.mem_cons_of_mem there))
      · exact .inr (.inr retired)
    · exact .inl (List.mem_singleton.mp last)

/-- A container that requests hold is retired when it is replaced. -/
theorem Kept.retires (busy : heldBy holders r.active.generation ≠ 0) :
    Kept { r with active := candidate
                  activeRequests := requests
                  retired := assign r.retired r.active.generation r.active }
      holders handed (installed ++ [candidate]) := by
  have unretired : get r.retired r.active.generation = none := by
    cases there : get r.retired r.active.generation with
    | none => rfl
    | some d => exact absurd rfl (kept.retiring _ _ there).2.1
  constructor
  case counted => exact prepared.counts
  case pinned =>
    intro d held
    dsimp only
    rw [get_assign]
    rcases kept.pinned d held with rfl | retired
    · exact .inr (if_pos rfl)
    · refine .inr ?_
      rw [if_neg (fun same => ?_), retired]
      rw [same, unretired] at retired
      cases retired
  case retiring =>
    intro g d found
    dsimp only at found
    rw [get_assign] at found
    split_ifs at found with here
    · cases found
      obtain ⟨d, held, same⟩ := Multiset.countP_pos.mp (Nat.pos_of_ne_zero busy)
      rcases kept.pinned d held with rfl | retired
      · exact ⟨here.symm, fun again => other (by rw [← again, here]), held⟩
      · rw [same, unretired] at retired
        cases retired
    · obtain ⟨own, -, held⟩ := kept.retiring g d found
      refine ⟨own, fun same => ?_, held⟩
      rw [same, free] at found
      cases found
  case tracked =>
    exact fun _ => ⟨prepared.candidate, fun there => fresh (kept.known _ there)⟩
  case emptied => exact fun empty => absurd empty (ne_nil_of_isSome prepared.candidate)
  case once => exact kept.once
  case known => exact fun d there => List.mem_append_left _ (kept.known d there)
  case activeKnown => simp
  case retiredKnown =>
    intro g d found
    dsimp only at found
    rw [get_assign] at found
    split_ifs at found with here
    · cases found
      exact ⟨List.mem_append_left _ kept.activeKnown, (kept.tracked live).2⟩
    · obtain ⟨known, apart⟩ := kept.retiredKnown g d found
      exact ⟨List.mem_append_left _ known, apart⟩
  case accounted =>
    intro d known
    dsimp only
    rw [get_assign]
    rcases List.mem_append.mp known with known | last
    · rcases kept.accounted d known with rfl | there | retired
      · exact .inr (.inr (if_pos rfl))
      · exact .inr (.inl there)
      · refine .inr (.inr ?_)
        rw [if_neg (fun same => ?_), retired]
        rw [same, unretired] at retired
        cases retired
    · exact .inl (List.mem_singleton.mp last)

end Install

/-- A swap to a container that was never installed before. -/
theorem commitSwap_kept (kept : Kept r holders handed installed) {commit : Except Raised Unit}
    {previous : GenerationServiceContainer}
    (ok : r.commitSwap candidate commit = .ok (previous, dispose, r'))
    (fresh : candidate ∉ installed) :
    Kept r' holders (dispose.toList + handed) (installed ++ [candidate]) := by
  obtain ⟨-, opened, other, free, ok⟩ := commitSwap_ok ok
  have live : r.activeRequests ≠ [] := by
    intro empty
    rw [(kept.emptied empty).1] at opened
    cases opened
  have prepared := prepared_of_kept kept (heldBy_unused kept other free)
  unfold AtomicServiceRouter.installLocked at ok
  dsimp only at ok
  generalize (if (get r.activeRequests candidate.generation).isSome then r.activeRequests
    else assign r.activeRequests candidate.generation 0) = requests at prepared ok
  have count := prepared.counts r.active.generation
  split at ok
  · rename_i idle
    cases ok
    simpa using kept.replaces live other free fresh prepared (by omega)
  · rename_i busy
    cases ok
    simpa using kept.retires live other free fresh prepared (by omega)

theorem close_kept (kept : Kept r holders handed installed) :
    Kept { r with closed := true } holders handed installed where
  counted := kept.counted
  pinned := kept.pinned
  retiring := kept.retiring
  tracked := kept.tracked
  emptied empty := ⟨rfl, (kept.emptied empty).2⟩
  once := kept.once
  known := kept.known
  activeKnown := kept.activeKnown
  retiredKnown := kept.retiredKnown
  accounted := kept.accounted

/-- A `close` that finds no requests hands over the active container, and nothing is retired. -/
theorem closeLoop_kept (kept : Kept r holders handed installed) (closed : r.closed = true)
    (live : r.activeRequests ≠ []) {expired : Bool} {rest : List GenerationServiceContainer}
    (through : r.closeLoop expired = .through rest r') :
    Kept r' holders (rest + handed) installed := by
  unfold AtomicServiceRouter.closeLoop at through
  split_ifs at through with busy
  cases through
  have none_held : holders = 0 := by
    refine Multiset.eq_zero_of_forall_notMem fun d held => busy ?_
    have counted := kept.counted d.generation
    have positive := heldBy_pos held
    cases found : get r.activeRequests d.generation with
    | none =>
      rw [found] at counted
      simp only [Option.getD_none] at counted
      omega
    | some n =>
      rw [found, Option.getD_some] at counted
      refine List.any_eq_true.mpr ⟨_, mem_of_get found, ?_⟩
      simp only [ne_eq, decide_eq_true_eq]
      omega
  have none_retired : r.retired = [] := by
    refine eq_nil_of_get fun g => ?_
    cases found : get r.retired g with
    | none => rfl
    | some d =>
      have held := (kept.retiring g d found).2.2
      simp [none_held] at held
  subst none_held
  simp only [none_retired, List.map_nil, List.nil_append]
  constructor
  case counted => simp [get_nil, heldBy]
  case pinned => simp
  case retiring => simp [get_nil]
  case tracked => simp
  case emptied => simp [closed]
  case once => simpa using Multiset.nodup_cons.mpr ⟨(kept.tracked live).2, kept.once⟩
  case known =>
    intro d there
    rcases Multiset.mem_add.mp there with same | there
    · rw [List.mem_singleton.mp same]
      exact kept.activeKnown
    · exact kept.known d there
  case activeKnown => exact kept.activeKnown
  case retiredKnown => simp [get_nil]
  case accounted =>
    intro d known
    rcases kept.accounted d known with rfl | there | retired
    · exact .inl rfl
    · exact .inr (.inl (Multiset.mem_add.mpr (.inr there)))
    · rw [none_retired, get_nil] at retired
      cases retired

end RepoForge.HotReload
