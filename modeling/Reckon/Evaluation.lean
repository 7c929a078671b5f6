import Reckon.Environment
/-!
Evaluation of operands. Right operands and arguments nest, while the left edge of a term is
walked in a loop that keeps the right operands for later; so a chain may be as long as a line
allows. Only calls of defined functions can go on for ever, and a limit on how deeply they nest
cuts such an evaluation off: it ends as `runaway`, which is neither a value nor an error.
-/
namespace Reckon

-- Why a computation did not come to a value.
inductive Halt (ε : Type) where
  | fault (error : ε)
  | runaway
deriving DecidableEq, Repr

def Halt.map {ε δ : Type} (f : ε → δ) : Halt ε → Halt δ
  | fault error => fault (f error)
  | runaway => runaway

namespace Evaluation

variable {α : Type}

abbrev Result (α : Type) := Except (Halt EvaluationError) α

-- An operation of a chain with its right operand, which is evaluated when its turn comes.
abbrev Pending (α : Type) := Operation × (Unit → Result α)

-- Applies the operations of a chain from left to right.
def applyAll [Arithmetic α] : α → List (Pending α) → Result α
  | value, [] => .ok value
  | value, (operation, rhs) :: pending => do
    let other ← rhs ()
    applyAll (operation.apply value other) pending

def checkCount (name : String) (f : Function α) (actual : Nat) : Result Unit :=
  if f.arity = actual then .ok () else .error (.fault (.wrongCount name f.arity actual))

section

variable [Arithmetic α]
-- How a function is applied to the values of its arguments.
variable (apply : String → Function α → List α → Scope α → Result α)
variable (store : Store α) (scope : Scope α)

mutual

-- The value of an operand with the rest of the chain that it starts.
def chain : Operand α → (pending : List (Pending α)) → Result α
  | .number value, pending => applyAll value pending
  | .symbol name, pending =>
    match store.get? scope name with
    | some value => applyAll value pending
    | none => .error (.fault (.unknownSymbol name))
  | .term operation lhs rhs, pending =>
    chain lhs ((operation, fun _ => chain rhs []) :: pending)
  | .call name args, pending =>
    match store.function? scope.root name with
    | none => .error (.fault (.unknownFunction name))
    | some f => do
      checkCount name f args.length
      let values ← arguments args
      let value ← apply name f values scope
      applyAll value pending

-- The values of arguments, from left to right.
def arguments : List (Operand α) → Result (List α)
  | [] => .ok []
  | arg :: args => do
    let value ← chain arg []
    let values ← arguments args
    return value :: values

end

end

variable [Arithmetic α]

-- The scope that the body of a defined function is evaluated in.
def calleeScope (params : List String) (captured : Option (Scope α)) (values : List α)
    (caller : Scope α) : Scope α :=
  (captured.getD caller.topLevel).push (.ofList (params.zip values))

-- Applies a function to values, for a call made in the scope `caller`. The limit is the number
-- of further levels of calls that may be open.
def apply (store : Store α) :
    (limit : Nat) → String → Function α → List α → (caller : Scope α) → Result α
  | limit, name, f, values, caller => do
    checkCount name f values.length
    match f, values with
    | .builtin b, value :: _ => return Arithmetic.apply b value
    | .builtin _, [] => .error (.fault (.wrongCount name 1 0))
    | .custom params body captured, values =>
      match limit with
      | 0 => .error .runaway
      | limit + 1 =>
        let callee := calleeScope params captured values caller
        chain (apply store limit) store callee body []

def evaluate (store : Store α) (limit : Nat) (scope : Scope α) (t : Operand α) : Result α :=
  chain (apply store limit) store scope t []

end Evaluation

end Reckon
