import Reckon.Equation
import Reckon.Statement.Reader

namespace Reckon

structure Session (α : Type) where
  store : Store α
  root : Nat
deriving Repr

-- What a statement gives.
inductive Outcome (α : Type) where
  | void
  | number (value : α)
  | solved (unknown : String) (value : α)
  | plot (name : String)
deriving Repr, BEq, DecidableEq

inductive StatementError where
  | malformed (error : SyntaxError)
  | evaluation (error : EvaluationError)
  | equation (error : EquationError)
deriving DecidableEq, Repr

namespace StatementError

def code : StatementError → String
  | malformed error => error.code
  | evaluation error => error.code
  | equation error => error.code

def message : StatementError → String
  | malformed error => error.message
  | evaluation error => error.message
  | equation error => error.message

end StatementError

-- What can be told about the execution of a line.
inductive Event (α : Type) where
  | parsed (line : String) (statement : Statement α)
  | assigned (name : String) (value : α)
  | defined (name : String) (params : List String)
  | normalized (unknown : String) (left right : LinearForm α)
  | failed (line : String) (error : StatementError)
  | overrun (line : String)

-- The session after a statement, what the statement gave, and what happened.
structure Step (α : Type) where
  session : Session α
  result : Except (Halt StatementError) (Outcome α)
  events : List (Event α)

namespace Session

variable {α : Type}

def new (constants : List (String × α)) : Session α :=
  let (root, store) := Store.empty.create constants
  ⟨store, root⟩

-- The scope that statements are executed in.
def scope (s : Session α) : Scope α := .ofRoot s.root

-- A step that leaves the session as it is.
def unchanged (s : Session α) (result : Except (Halt StatementError) (Outcome α))
    (events : List (Event α)) : Step α :=
  ⟨s, result, events⟩

variable [Arithmetic α]

def evaluate (s : Session α) (limit : Nat) (t : Operand α) : Evaluation.Result α :=
  Evaluation.evaluate s.store limit s.scope t

def assign (s : Session α) (limit : Nat) (target : String) (t : Operand α) : Step α :=
  match s.evaluate limit t with
  | .error halt => s.unchanged (.error (halt.map .evaluation)) []
  | .ok value =>
    match s.store.put s.root target value with
    | .error error => s.unchanged (.error (.fault (.evaluation error))) []
    | .ok store => ⟨{ s with store }, .ok .void, [.assigned target value]⟩

-- A definition captures a snapshot of the variables.
def define (s : Session α) (name : String) (params : List String) (body : Operand α) : Step α :=
  let (captured, store) := s.store.snapshot s.root
  let f := Function.custom params body (some (.ofRoot captured))
  ⟨{ s with store := store.putFunction s.root name f }, .ok .void, [.defined name params]⟩

def solve (s : Session α) (limit : Nat) (lhs rhs : Operand α) (x : String) : Step α :=
  let form := LinearForm.ofOperand s.store limit s.scope x
  match form lhs with
  | .error halt => s.unchanged (.error (halt.map .equation)) []
  | .ok left =>
    match form rhs with
    | .error halt => s.unchanged (.error (halt.map .equation)) []
    | .ok right =>
      let result := match LinearForm.isolate left right with
        | .error error => .error (.fault (.equation error))
        | .ok value => .ok (.solved x value)
      s.unchanged result [.normalized x left right]

def perform (s : Session α) (limit : Nat) : Statement α → Step α
  | .expression t =>
    s.unchanged
      (match s.evaluate limit t with
        | .error halt => .error (halt.map .evaluation)
        | .ok value => .ok (.number value))
      []
  | .assignment target t => s.assign limit target t
  | .solve lhs rhs x => s.solve limit lhs rhs x
  | .definition name params body => s.define name params body
  | .plot name => s.unchanged (.ok (.plot name)) []

-- The constants of a calculator.
def constants : List (String × Float) :=
  [("pi", 3.141592653589793), ("e", 2.718281828459045), ("tau", 6.283185307179586)]

def fresh : Session Float := new constants

-- Executes one line, with calls that may nest up to a limit.
def execute (s : Session Float) (limit : Nat) (line : String) : Step Float :=
  match Statement.parse line.toList with
  | .error error => s.unchanged (.error (.fault (.malformed error))) []
  | .ok statement =>
    let step := s.perform limit statement
    { step with events := .parsed line statement :: step.events }

-- Executes one line and tells also how it failed.
def run (s : Session Float) (limit : Nat) (line : String) : Step Float :=
  let step := s.execute limit line
  match step.result with
  | .ok _ => step
  | .error (.fault error) => { step with events := step.events ++ [.failed line error] }
  | .error .runaway => { step with events := step.events ++ [.overrun line] }

end Session

end Reckon
