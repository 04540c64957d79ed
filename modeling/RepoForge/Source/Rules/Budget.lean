import Mathlib.Algebra.GroupWithZero.Nat
import RepoForge.Library.PyText

/-!
# Fitting a context pack

`fit_to_budgets` of `application/rules/budget.py`. The costs come from the caller.
-/
namespace RepoForge.PackBudget

inductive PackPartKind where
  | rules | taskDecisions | advisory | skillCatalog | examples
  deriving DecidableEq, Repr

/-- `DROP_ORDER` -/
def dropOrder : List PackPartKind := [.examples, .skillCatalog, .advisory, .taskDecisions, .rules]

inductive OmissionReason where
  | tokenBudget | byteBudget | bothBudgets
  deriving DecidableEq, Repr

inductive BudgetError where
  | notPositive (name : String)
  /-- `list.pop` at an index that the list does not have. -/
  | popIndex
  deriving DecidableEq, Repr

structure PackPart where
  kind : PackPartKind
  identifier : Text
  tokenCost : Nat
  byteCost : Nat
  identified : identifier ≠ []
  deriving DecidableEq

structure OmittedPart where
  kind : PackPartKind
  identifier : Text
  reason : OmissionReason
  deriving DecidableEq, Repr

structure BudgetOutcome where
  kept : List PackPart
  omitted : List OmittedPart
  tokenCost : Nat
  byteCost : Nat
  deriving DecidableEq

/-- `_positive` -/
def positive (value : Int) (name : String) : Except BudgetError Unit :=
  if value < 1 then .error (.notPositive name) else .ok ()

def reason (overTokens overBytes : Bool) : OmissionReason :=
  if overTokens && overBytes then .bothBudgets
  else if overTokens then .tokenBudget else .byteBudget

/-- `totals` -/
def tokenTotal (items : List PackPart) : Nat := (items.map (·.tokenCost)).sum
def byteTotal (items : List PackPart) : Nat := (items.map (·.byteCost)).sum

section Fitting

variable (tokenBudget byteBudget : Int)

def overTokens (items : List PackPart) : Bool := tokenBudget < tokenTotal items
def overBytes (items : List PackPart) : Bool := byteBudget < byteTotal items

def fits (items : List PackPart) : Bool :=
  !(overTokens tokenBudget items || overBytes byteBudget items)

/-- `droppable`: the places of the parts of one kind. -/
def droppable (kind : PackPartKind) (kept : List PackPart) : List Nat :=
  (kept.zipIdx.filter fun item => item.1.kind = kind).map (·.2)

def omission (kept : List PackPart) (victim : PackPart) : OmittedPart :=
  ⟨victim.kind, victim.identifier,
    reason (overTokens tokenBudget kept) (overBytes byteBudget kept)⟩

/-- The inner loop, over the places that are left. -/
def dropAt : List Nat → List PackPart → List OmittedPart →
    Except BudgetError (List PackPart × List OmittedPart)
  | [], kept, omitted => .ok (kept, omitted)
  | index :: rest, kept, omitted =>
    if fits tokenBudget byteBudget kept then .ok (kept, omitted)
    else
      match kept[index]? with
      | none => .error .popIndex
      | some victim => dropAt rest (kept.eraseIdx index)
          (omitted ++ [omission tokenBudget byteBudget kept victim])

/-- The loop over the kinds. -/
def dropKinds : List PackPartKind → List PackPart → List OmittedPart →
    Except BudgetError (List PackPart × List OmittedPart)
  | [], kept, omitted => .ok (kept, omitted)
  | kind :: rest, kept, omitted =>
    if fits tokenBudget byteBudget kept then .ok (kept, omitted)
    else do
      let (kept, omitted) ← dropAt tokenBudget byteBudget (droppable kind kept).reverse kept omitted
      dropKinds rest kept omitted

def fitToBudgets (parts : List PackPart) : Except BudgetError BudgetOutcome := do
  positive tokenBudget "token_budget"
  positive byteBudget "byte_budget"
  let (kept, omitted) ← dropKinds tokenBudget byteBudget dropOrder parts []
  .ok ⟨kept, omitted, tokenTotal kept, byteTotal kept⟩

end Fitting

end RepoForge.PackBudget
