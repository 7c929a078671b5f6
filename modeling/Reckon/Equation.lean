import Reckon.Evaluation

namespace Reckon

-- Why an equation is not solved.
inductive EquationError where
  | square
  | denominator
  | remainder
  | power
  | noVariable
  | unknownVariable (name : String)
  -- a call in the equation has no value
  | operand (error : EvaluationError)
deriving DecidableEq, Repr

namespace EquationError

def code : EquationError → String
  | square => "UNSUPPORTED_X_SQUARE"
  | denominator => "UNSUPPORTED_X_DENOMINATOR"
  | remainder => "UNSUPPORTED_REMAINDER"
  | power => "UNSUPPORTED_POWER"
  | noVariable => "NO_VARIABLE"
  | unknownVariable _ => "UNKNOWN_VARIABLE"
  | operand error => error.code

def message : EquationError → String
  | square =>
    "Equation contains the variable squared, only linear equations are supported"
  | denominator =>
    "Equation divides by the variable, only linear equations are supported"
  | remainder => "Remainder of the variable is not supported"
  | power => "Power with the variable is not supported"
  | noVariable =>
    "The variable cancels out, the equation is either always true or never true"
  | unknownVariable name => s!"Unknown variable `{name}`"
  | operand error => error.message

end EquationError

-- slope · x + intercept
structure LinearForm (α : Type) where
  slope : α
  intercept : α
deriving Repr, BEq, DecidableEq

namespace LinearForm

open Arithmetic

variable {α : Type} [Arithmetic α]

abbrev Result (β : Type) := Except (Halt EquationError) β

def constant (value : α) : LinearForm α := ⟨zero, value⟩

-- The unknown itself.
def unknown : LinearForm α := ⟨one, zero⟩

-- The form of an operation on two forms, where it is linear. A slope of zero of either sign
-- counts as absent.
def combine : Operation → LinearForm α → LinearForm α → Except EquationError (LinearForm α)
  | .add, l, r => .ok ⟨l.slope + r.slope, l.intercept + r.intercept⟩
  | .sub, l, r => .ok ⟨l.slope - r.slope, l.intercept - r.intercept⟩
  | .mul, l, r =>
    if isZero (l.slope * r.slope) then
      .ok ⟨l.slope * r.intercept + r.slope * l.intercept, l.intercept * r.intercept⟩
    else .error .square
  | .div, l, r =>
    if isZero r.slope then .ok ⟨l.slope / r.intercept, l.intercept / r.intercept⟩
    else .error .denominator
  | .rem, l, r =>
    if isZero l.slope && isZero r.slope then .ok (constant (rem l.intercept r.intercept))
    else .error .remainder
  | .pow, l, r =>
    if isZero l.slope && isZero r.slope then .ok (constant (pow l.intercept r.intercept))
    else .error .power

abbrev Pending (α : Type) := Operation × (Unit → Result (LinearForm α))

-- Combines the operations of a chain from left to right.
def combineAll : LinearForm α → List (Pending α) → Result (LinearForm α)
  | form, [] => .ok form
  | form, (operation, rhs) :: pending => do
    let other ← rhs ()
    let form ← (combine operation form other).mapError .fault
    combineAll form pending

section

variable (store : Store α) (limit : Nat) (scope : Scope α) (x : String)

-- The form of an operand with the rest of the chain that it starts.
def chain : Operand α → (pending : List (Pending α)) → Result (LinearForm α)
  | .number value, pending => combineAll (constant value) pending
  | .symbol name, pending =>
    if name = x then combineAll unknown pending
    else match store.get? scope name with
      | some value => combineAll (constant value) pending
      | none => .error (.fault (.unknownVariable name))
  | .term operation lhs rhs, pending =>
    chain lhs ((operation, fun _ => chain rhs []) :: pending)
  | .call name args, pending => do
    let value ← (Evaluation.evaluate store limit scope (.call name args)).mapError
      (Halt.map .operand)
    combineAll (constant value) pending

def ofOperand (t : Operand α) : Result (LinearForm α) := chain store limit scope x t []

end

-- The solution of left = right.
def isolate (left right : LinearForm α) : Except EquationError α :=
  let slope := left.slope - right.slope
  if isZero slope then .error .noVariable
  else .ok ((right.intercept - left.intercept) / slope)

end LinearForm

-- The value of `x` that makes both sides equal.
def solveFor {α : Type} [Arithmetic α] (store : Store α) (limit : Nat) (scope : Scope α)
    (lhs rhs : Operand α) (x : String) : LinearForm.Result α := do
  let left ← LinearForm.ofOperand store limit scope x lhs
  let right ← LinearForm.ofOperand store limit scope x rhs
  (LinearForm.isolate left right).mapError .fault

end Reckon
