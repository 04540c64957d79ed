import Mathlib.Logic.Basic

/-!
# Runs of a system

A system is a step function on states and labels, and a run is a list of labels. `Along` says
of every step of a run what holds of the state before it and its label, `Throughout` what
holds of every state it passes through, the first and the last included. `Along.invariant` is
the rule for both: what holds at the start and is kept by every step that meets a condition
holds after, and during, every run whose steps all meet it.
-/
namespace RepoForge.Runs

variable {S L : Type} (step : S → L → S)

def run (s : S) (labels : List L) : S := labels.foldl step s

def Along (P : S → L → Prop) (s : S) (labels : List L) : Prop :=
  ∀ done l rest, labels = done ++ l :: rest → P (run step s done) l

def Throughout (Q : S → Prop) (s : S) (labels : List L) : Prop :=
  ∀ done rest, labels = done ++ rest → Q (run step s done)

variable {step} {P P' : S → L → Prop} {Q Q' : S → Prop} {s : S} {l : L} {labels more : List L}

@[simp] theorem run_nil : run step s [] = s := rfl

@[simp] theorem run_cons : run step s (l :: labels) = run step (step s l) labels := rfl

theorem run_append : run step s (labels ++ more) = run step (run step s labels) more :=
  List.foldl_append

theorem along_nil : Along step P s [] := by
  intro done l rest split
  simp at split

theorem along_cons : Along step P s (l :: labels) ↔ P s l ∧ Along step P (step s l) labels := by
  constructor
  · intro h
    refine ⟨h [] l labels rfl, ?_⟩
    intro done y rest split
    exact h (l :: done) y rest (by rw [split]; rfl)
  · rintro ⟨first, later⟩ done y rest split
    cases done with
    | nil =>
      cases split
      exact first
    | cons x done =>
      cases split
      exact later done y rest rfl

/-- Whether every step of a run passes a test. -/
def passes (step : S → L → S) (ok : S → L → Bool) : S → List L → Bool
  | _, [] => true
  | s, l :: labels => ok s l && passes step ok (step s l) labels

theorem along_of_passes {ok : S → L → Bool} (implies : ∀ s l, ok s l = true → P s l)
    (h : passes step ok s labels = true) : Along step P s labels := by
  induction labels generalizing s with
  | nil => exact along_nil
  | cons l labels ih =>
    obtain ⟨first, later⟩ : ok s l = true ∧ passes step ok (step s l) labels = true := by
      simpa [passes] using h
    exact along_cons.mpr ⟨implies s l first, ih later⟩

theorem along_of_forall (h : ∀ l ∈ labels, ∀ s, P s l) : Along step P s labels :=
  fun _ l _ split => h l (by rw [split]; simp) _

theorem Along.imp (h : Along step P s labels) (implies : ∀ s l, P s l → P' s l) :
    Along step P' s labels :=
  fun done l rest split => implies _ _ (h done l rest split)

theorem Along.both (h : Along step P s labels) (h' : Along step P' s labels) :
    Along step (fun s l => P s l ∧ P' s l) s labels :=
  fun done l rest split => ⟨h done l rest split, h' done l rest split⟩

/-- A stretch of a run is a run. -/
theorem Along.within {before after : List L} (h : Along step P s (before ++ labels ++ after)) :
    Along step P (run step s before) labels := by
  intro done l rest split
  have there := h (before ++ done) l (rest ++ after) (by rw [split]; simp)
  rwa [run_append] at there

theorem throughout_nil (start : Q s) : Throughout step Q s [] := by
  intro done rest split
  obtain ⟨rfl, -⟩ := List.append_eq_nil_iff.mp split.symm
  exact start

theorem throughout_cons :
    Throughout step Q s (l :: labels) ↔ Q s ∧ Throughout step Q (step s l) labels := by
  constructor
  · intro h
    refine ⟨h [] (l :: labels) rfl, ?_⟩
    intro done rest split
    exact h (l :: done) rest (by rw [split]; rfl)
  · rintro ⟨first, later⟩ done rest split
    cases done with
    | nil => exact first
    | cons x done =>
      cases split
      exact later done rest rfl

theorem throughout_append (first : Throughout step Q s labels)
    (later : Throughout step Q (run step s labels) more) : Throughout step Q s (labels ++ more) := by
  induction labels generalizing s with
  | nil => exact later
  | cons l labels ih =>
    obtain ⟨start, rest⟩ := throughout_cons.mp first
    exact throughout_cons.mpr ⟨start, ih rest later⟩

/-- Every step of a run starts and ends in a state of the run. -/
theorem Throughout.along (h : Throughout step Q s labels) :
    Along step (fun s l => Q s ∧ Q (step s l)) s labels := by
  intro done l rest split
  refine ⟨h done (l :: rest) split, ?_⟩
  have last := h (done ++ [l]) rest (by rw [split]; simp)
  rwa [run_append] at last

/-- An invariant of the steps that meet `P` is an invariant of the runs that do. -/
theorem Along.invariant (keeps : ∀ s l, Q s → P s l → Q (step s l)) (h : Along step P s labels)
    (start : Q s) : Throughout step Q s labels := by
  induction labels generalizing s with
  | nil => exact throughout_nil start
  | cons l labels ih =>
    obtain ⟨first, later⟩ := along_cons.mp h
    exact throughout_cons.mpr ⟨start, ih later (keeps s l start first)⟩

theorem Throughout.last (h : Throughout step Q s labels) : Q (run step s labels) :=
  h labels [] (List.append_nil _).symm

end RepoForge.Runs
