import Reckon.Shell.Health
import Reckon.Text.Blank

namespace Reckon

inductive Command where
  | quit
  | help
  | listVariables
  | listFunctions (withBuiltins : Bool)
  | health
deriving DecidableEq, Repr

-- Commands may be written in capitals.
def Command.ofText? (text : String) : Option Command :=
  match String.ofList (text.toList.map Char.toLower) with
  | "quit" | "exit" => some quit
  | "help" => some help
  | "vars" => some listVariables
  | "funcs" => some (listFunctions false)
  | "funcs all" => some (listFunctions true)
  | "health" => some health
  | _ => none

def programVersion : String := "1.0.0"

def helpText : String :=
  "\n".intercalate
    [s!"linecalc version {programVersion}",
      "",
      "STATEMENTS (one per line):",
      "  1 + 2 * 3 ^ 2               expression (^ binds tightest, right-associative)",
      "  a := 6                       assign a variable",
      "  f(x, y) := y - x             define a function",
      "  f(1, a) % 4                  call it",
      "  solve 3 * x - 2 = x + a for x",
      "                               solve a linear equation for one variable",
      "  plot f                       plot a one-parameter function",
      "",
      "OPERATORS: + - * / % ^        (% is the floating-point remainder)",
      "CONSTANTS: pi, e, tau          (cannot be reassigned)",
      "FUNCTIONS: sin cos tan asin acos atan sinh cosh tanh asinh acosh atanh",
      "           exp ln log log2 sqrt abs",
      "",
      "REPL COMMANDS:",
      "  help                         show this help message",
      "  vars                         list variables",
      "  funcs [all]                  list user-defined functions (all: with built-ins)",
      "  health                       run health check",
      "  quit, exit                   leave the calculator",
      ""]

-- The variables of a session, one on a line.
def Session.variableLines (s : Session Float) (precision : Int) : List String :=
  (s.store.sortedVariables s.root).map fun (name, v) =>
    name ++ " = " ++ Number.display precision v.value ++ (if v.constant then " (constant)" else "")

def noFunctions : String := "No functions defined. Define one with: f(x) := x ^ 2"

-- The functions of a session, one on a line.
def Session.functionLines (s : Session Float) (describe : Operand Float → Except Raised String)
    (withBuiltins : Bool) : List (Except Raised String) :=
  let shown := (s.store.sortedFunctions s.root).filter fun (_, f) => withBuiltins || f.isCustom
  if shown.isEmpty then [.ok noFunctions]
  else shown.map fun (name, f) => f.description describe name

def farewell : String := "Goodbye.\n"

-- Lines that are written one after another until something is raised.
def writeLines : List (Except Raised String) → List Output × Option Raised
  | [] => ([], none)
  | .ok line :: lines =>
    let (outputs, raised?) := writeLines lines
    (.shown (line ++ "\n") :: outputs, raised?)
  | .error raised :: _ => ([], some raised)

-- What a command writes, and what is raised meanwhile, if anything is.
def Command.outputs (c : Command) (s : Session Float) (lib : Libraries) (limit : Nat)
    (settings : Settings) : List Output × Option Raised :=
  match c with
  | quit => ([.shown farewell], none)
  | help => writeLines [.ok helpText]
  | listVariables => writeLines ((s.variableLines settings.precision).map .ok)
  | listFunctions withBuiltins => writeLines (s.functionLines lib.describe withBuiltins)
  | health => ((Health.run limit).2, none)

end Reckon
