import RepoForge.Library.Runs
import RepoForge.Source.Runtime.AdmissionEpoch

/-!
# Permits are used once, in their epoch

The slot of the record is followed back through a run: an unused permit was put there by the last
call that rewrote the slot, in the state and the epoch that the record still has.
-/
namespace RepoForge.Admission

open Runs

/-- The number of the epoch. -/
def epochOf (file : EpochFile) : Int := (readAll file).epoch

def AdmissionCall.token : AdmissionCall → Option Text
  | .issuePermit _ token => some token
  | _ => none

/-- The tokens that a run draws. -/
def drawn (calls : List AdmissionCall) : List Text := calls.filterMap AdmissionCall.token

/-- A call that leaves the slot to the permit in it. -/
def AdmissionCall.keeps : AdmissionCall → Bool
  | .claimPermit _ _ _ => true
  | .fails => true
  | _ => false

/-- No claim of the token succeeds in the run. -/
def Unclaimed (token : Text) (file : EpochFile) (calls : List AdmissionCall) : Prop :=
  ∀ before epoch target after, calls = before ++ .claimPermit epoch token target :: after →
    claims epoch token target (run step file before) = false

/-- What the permit in the slot says of the run so far. -/
structure Issued (start : EpochFile) (calls : List AdmissionCall) (permit : Permit) : Prop where
  split : ∃ before after, calls = before ++ .issuePermit permit.target permit.token :: after ∧
    (∀ call ∈ after, call.keeps = true) ∧ epochOf (run step start before) = permit.epoch ∧
    epochOf (run step start calls) = permit.epoch ∧
    (permit.used = false → Unclaimed permit.token
      (issuePermit permit.target permit.token (run step start before)) after)

variable {start file : EpochFile} {calls : List AdmissionCall} {permit : Permit} {epoch : Int}
  {token : Text} {target : Option Text} {record : EpochRecord}

theorem claimable_some (ok : claimable epoch token target record = some permit) :
    record.state = .closing ∧ record.epoch = epoch ∧ record.permit = some permit ∧
      permit.epoch = epoch ∧ permit.used = false ∧ permit.token = token ∧
      (permit.target = none ∨ permit.target = target) := by
  unfold claimable at ok
  split at ok
  · cases ok
  · rename_i closing
    split at ok
    · cases ok
    · rename_i there
      split_ifs at ok with other used bound
      cases ok
      simp only [not_or, not_not] at closing
      simp only [not_or, not_not, Bool.not_eq_true] at used
      refine ⟨closing.1, closing.2, there, not_not.mp other, used.1, used.2, ?_⟩
      by_cases free : permit.target = none
      · exact .inl free
      · exact .inr (not_not.mp fun different => bound ⟨free, different⟩)

/-- What a step does to the epoch. -/
theorem epochOf_step (call : AdmissionCall) :
    epochOf (step file call) = epochOf file + if call = .openNext then 1 else 0 := by
  cases call with
  | openNext => rfl
  | close => exact (Int.add_zero _).symm
  | issuePermit target token => exact (Int.add_zero _).symm
  | claimPermit epoch token target =>
    rw [if_neg (by simp), Int.add_zero]
    unfold step claimPermit
    dsimp only
    split <;> rfl
  | fails => exact (Int.add_zero _).symm

theorem epochOf_run : epochOf file ≤ epochOf (run step file calls) := by
  induction calls generalizing file with
  | nil => exact Int.le_refl _
  | cons call rest ih =>
    have first := @epochOf_step file call
    have later := @ih (step file call)
    rw [run_cons]
    split_ifs at first <;> omega

theorem claims_claimable (ok : claims epoch token target file = true) :
    ∃ permit, claimable epoch token target (readAll file) = some permit :=
  Option.isSome_iff_exists.mp ok

/-- A call that keeps the slot keeps the epoch. -/
theorem epochOf_keeps {call : AdmissionCall} (keeps : call.keeps = true) :
    epochOf (step file call) = epochOf file := by
  rw [epochOf_step, if_neg, Int.add_zero]
  rintro rfl
  cases keeps

/-- One more call that keeps the slot, and does not claim its token. -/
theorem Issued.keeps {call : AdmissionCall} (issued : Issued start calls permit)
    (keeps : call.keeps = true)
    (missed : permit.used = false → ∀ epoch target, call = .claimPermit epoch permit.token target →
      claims epoch permit.token target (run step start calls) = false) :
    Issued start (calls ++ [call]) permit := by
  obtain ⟨before, after, split, kept, issuedAt, now, unclaimed⟩ := issued.split
  refine ⟨before, after ++ [call], by rw [split]; simp, ?_, issuedAt, ?_, fun unused => ?_⟩
  · intro other inside
    rcases List.mem_append.mp inside with old | new
    · exact kept other old
    · rw [List.mem_singleton.mp new]
      exact keeps
  · rw [run_append, run_cons, run_nil, epochOf_keeps keeps, now]
  · intro early epoch target late here
    rcases List.eq_nil_or_concat late with rfl | ⟨late, last, rfl⟩
    · obtain ⟨rfl, same⟩ := List.append_inj' here rfl
      have place : run step start calls =
          run step (issuePermit permit.target permit.token (run step start before)) after := by
        rw [split, run_append, run_cons]
        rfl
      rw [← place]
      exact missed unused epoch target (List.singleton_inj.mp same)
    · have cut : after ++ [call] = (early ++ .claimPermit epoch permit.token target :: late) ++
          [last] := by
        rw [here]
        simp
      obtain ⟨same, -⟩ := List.append_inj' cut rfl
      exact unclaimed unused early epoch target late same

/-- The permit in the slot is followed back to the call that issued it. -/
theorem issued_run (calls : List AdmissionCall) (permit : Permit)
    (there : (readAll (run step none calls)).permit = some permit) : Issued none calls permit := by
  induction calls using List.reverseRecOn generalizing permit with
  | nil => cases there
  | append_singleton calls call ih =>
    rw [run_append, run_cons, run_nil] at there
    cases call with
    | openNext => cases there
    | close => cases there
    | issuePermit target token =>
      cases there
      refine ⟨calls, [], rfl, by simp, rfl, ?_, fun _ before epoch target after none => ?_⟩
      · rw [run_append]
        rfl
      · cases before <;> cases none
    | fails =>
      exact (ih permit there).keeps rfl fun _ epoch target same => by cases same
    | claimPermit epoch token target =>
      cases taken : claimable epoch token target (readAll (run step none calls)) with
      | none =>
        have same : step (run step none calls) (.claimPermit epoch token target) =
            run step none calls := by
          change claimPermit epoch token target (run step none calls) = _
          unfold claimPermit
          dsimp only
          rw [taken]
        rw [same] at there
        refine (ih permit there).keeps rfl fun _ epoch' target' same => ?_
        cases same
        rw [claims, taken]
        rfl
      | some old =>
        have same : step (run step none calls) (.claimPermit epoch token target) =
            some ⟨(readAll (run step none calls)).epoch, (readAll (run step none calls)).state,
              some { old with used := true }⟩ := by
          change claimPermit epoch token target (run step none calls) = _
          unfold claimPermit
          dsimp only
          rw [taken]
        rw [same] at there
        cases there
        obtain ⟨-, -, slot, -⟩ := claimable_some taken
        obtain ⟨before, after, split, kept, issuedAt, now, -⟩ := (ih old slot).split
        exact (Issued.mk ⟨before, after, split, kept, issuedAt, now, fun used => by cases used⟩ :
          Issued none calls { old with used := true }).keeps rfl fun used => by cases used

/-- What holds of a run on a store that was never written. -/
structure PermitsSingleUse (calls : List AdmissionCall) : Prop where
  epochs : ∀ before after, calls = before ++ after →
    epochOf (run step none before) ≤ epochOf (run step none calls)
  opens : ∀ before after, calls = before ++ .openNext :: after →
    epochOf (run step none before) < epochOf (run step none (before ++ [.openNext]))
  once : ∀ before epoch token target between epoch' target' after,
    calls = before ++ .claimPermit epoch token target :: between ++
      .claimPermit epoch' token target' :: after →
    claims epoch token target (run step none before) = true →
    claims epoch' token target'
      (run step none (before ++ .claimPermit epoch token target :: between)) = false
  /-- A claim that succeeds comes from the last call before it that wrote the slot. -/
  bound : ∀ before epoch token target after,
    calls = before ++ .claimPermit epoch token target :: after →
    claims epoch token target (run step none before) = true →
    (readAll (run step none before)).state = .closing ∧ epochOf (run step none before) = epoch ∧
      ∃ early issuedTarget late, before = early ++ .issuePermit issuedTarget token :: late ∧
        epochOf (run step none early) = epoch ∧ (issuedTarget = none ∨ issuedTarget = target) ∧
        ∀ call ∈ late, call.keeps = true

theorem claim_issued (ok : claims epoch token target (run step none calls) = true) :
    ∃ permit, Issued none calls permit ∧ permit.token = token ∧ permit.used = false ∧
      permit.epoch = epoch ∧ (permit.target = none ∨ permit.target = target) ∧
      (readAll (run step none calls)).state = .closing ∧
      epochOf (run step none calls) = epoch := by
  obtain ⟨permit, taken⟩ := claims_claimable ok
  obtain ⟨closing, now, slot, epochs, unused, named, bound⟩ := claimable_some taken
  exact ⟨permit, issued_run calls permit slot, named, unused, epochs, bound, closing, now⟩

theorem drawn_append {calls others : List AdmissionCall} :
    drawn (calls ++ others) = drawn calls ++ drawn others := List.filterMap_append

theorem drawn_issue {target : Option Text} {token : Text} :
    drawn (.issuePermit target token :: calls) = token :: drawn calls := rfl

theorem permits_single_use (calls : List AdmissionCall) (fresh : (drawn calls).Nodup) :
    PermitsSingleUse calls := by
  refine ⟨?_, ?_, ?_, ?_⟩
  · intro before after split
    rw [split, run_append]
    exact epochOf_run
  · intro before after _
    rw [run_append, run_cons, run_nil, epochOf_step, if_pos rfl]
    omega
  · intro before epoch token target between epoch' target' after split first
    by_contra second
    rw [Bool.not_eq_false] at second
    obtain ⟨permit, issued, named, unused, -⟩ := claim_issued second
    obtain ⟨early, late, place, -, -, -, unclaimed⟩ := issued.split
    rw [named] at place
    rcases List.append_eq_append_iff.mp place with ⟨k, later, rest⟩ | ⟨k, sooner, rest⟩
    · -- The token is issued after the first claim of it, and it was issued before that one too.
      cases k with
      | nil => cases rest
      | cons call k =>
        obtain ⟨rfl, -⟩ := List.cons.inj rest
        obtain ⟨permit', issued', named', -⟩ := claim_issued first
        obtain ⟨early', late', place', -⟩ := issued'.split
        have silent : drawn (.claimPermit epoch token target :: k) = drawn k := rfl
        rw [split, place, later, place', named', drawn_append, drawn_append, drawn_append,
          drawn_append, drawn_issue, drawn_issue, silent] at fresh
        simp only [List.append_assoc, List.cons_append] at fresh
        have again := (List.nodup_cons.mp (List.nodup_append.mp fresh).2.1).1
        exact again (by simp)
    · cases k with
      | nil => cases rest
      | cons call k =>
        obtain ⟨rfl, rest⟩ := List.cons.inj rest
        have missed := unclaimed unused k epoch target between (by
          rw [named]
          exact (List.cons.inj rest).2)
        rw [sooner, run_append, run_cons] at first
        rw [named] at missed
        exact Bool.false_ne_true (missed.symm.trans first)
  · intro before epoch token target after _ ok
    obtain ⟨permit, issued, rfl, -, rfl, bound, closing, now⟩ := claim_issued ok
    obtain ⟨early, late, split, kept, issuedAt, -⟩ := issued.split
    exact ⟨closing, now, early, permit.target, late, split, issuedAt, bound, kept⟩

/-- A permit that is issued in a closed epoch and claimed there. -/
theorem permits_single_use_claimed : PermitsSingleUse
    [.close, .issuePermit (some ['a']) ['t'], .claimPermit 1 ['t'] (some ['a']), .openNext] :=
  permits_single_use _ (by decide)

end RepoForge.Admission
