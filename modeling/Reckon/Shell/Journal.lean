import Reckon.Number.Shortest
import Reckon.Session
import Reckon.Text.Quoted

namespace Reckon

inductive Severity where
  | debug
  | info
  | warning
  | error
deriving DecidableEq, Repr

namespace Severity

def all : List Severity := [debug, info, warning, error]

def name : Severity → String
  | debug => "DEBUG"
  | info => "INFO"
  | warning => "WARNING"
  | error => "ERROR"

def ofName? (name : String) : Option Severity := all.find? fun s => s.name == name

def rank : Severity → Nat
  | debug => 0
  | info => 1
  | warning => 2
  | error => 3

end Severity

-- The name under which the calculator presents itself.
def programName : String := "linecalc"

-- The part of the calculator that tells something.
inductive Origin where
  | parser
  | calculator
  | solver
  | api
  | shell
  | plotting
deriving DecidableEq, Repr

def Origin.name : Origin → String
  | parser => "parser"
  | calculator => "calculator"
  | solver => "solver"
  | api => "api"
  | shell => "cli"
  | plotting => "plotting"

structure Entry where
  severity : Severity
  origin : Origin
  message : String
deriving DecidableEq, Repr

namespace Entry

-- Without the time, which the keeper of the journal puts in front.
def text (entry : Entry) : String :=
  s!"[{entry.severity.name}] {programName}.{entry.origin.name}: {entry.message}"

-- Whether an entry is kept where entries below `least` are not.
def isKept (least : Severity) (entry : Entry) : Bool := least.rank ≤ entry.severity.rank

end Entry

-- What a statement is called.
def Statement.kindName {α : Type} : Statement α → String
  | expression _ => "Expression"
  | assignment _ _ => "Assignment"
  | solve _ _ _ => "SolveFor"
  | definition _ _ _ => "FunctionDefinition"
  | plot _ => "PlotRequest"

def LinearForm.summary (form : LinearForm Float) : String :=
  s!"NormalForm(a1={Number.fullText form.slope}, a0={Number.fullText form.intercept})"

def Event.entry : Event Float → Entry
  | parsed line statement =>
    ⟨.debug, .parser, s!"parsed {Text.quoted line} as {statement.kindName}"⟩
  | assigned name value =>
    ⟨.debug, .calculator, s!"assigned {name} = {Number.fullText value}"⟩
  | defined name params =>
    ⟨.debug, .calculator, s!"defined {name}(" ++ ", ".intercalate params ++ ")"⟩
  | normalized unknown left right =>
    ⟨.debug, .solver,
      s!"normalized for {unknown}: lhs={left.summary} rhs={right.summary}"⟩
  | failed line error =>
    ⟨.debug, .api,
      s!"statement {Text.quoted line} failed: {error.message} ({error.code})"⟩
  | overrun line =>
    ⟨.warning, .api, s!"recursion limit reached while executing {Text.quoted line}"⟩

end Reckon
