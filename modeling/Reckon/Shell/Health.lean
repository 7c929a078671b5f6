import Reckon.Session.Report
import Reckon.Shell.Answer

namespace Reckon.Health

structure Check where
  name : String
  lines : List String
  expected : Outcome Float

def checks : List Check :=
  [⟨"Basic evaluation", ["1 + 2 * 3"], .number 7.0⟩,
    ⟨"Function definition", ["fun(x, y) := y - x", "fun(1 + 2, 3 * 9) - 4"], .number 20.0⟩,
    ⟨"Basic solving", ["solve 3 * x - 2 = x + 6 for x"], .solved "x" 4.0⟩]

-- The parts that numbers, formulas and plots are listed under.
def parts : List String := ["numpy", "sympy", "matplotlib"]

-- Whether an outcome has the kind and the value of the one expected.
def isExpected : Outcome Float → Outcome Float → Bool
  | .number x, .number y => x == y
  | .solved _ x, .solved _ y => x == y
  | _, _ => false

-- The steps of lines executed one after the other.
def steps (s : Session Float) (limit : Nat) : List String → List (Step Float)
  | [] => []
  | line :: lines =>
    let step := s.run limit line
    step :: steps step.session limit lines

-- What is written about a check, by the result of its last line.
def Check.verdict (c : Check) : Option (Except (Halt StatementError) (Outcome Float)) →
    Bool × String
  | some result =>
    let report := (Report.ofResult result).summary
    match result with
    | .ok outcome =>
      if isExpected c.expected outcome then (true, s!"[OK] {c.name} works\n")
      else (false, s!"[FAIL] {c.name} failed: {report}\n")
    | .error _ => (false, s!"[FAIL] {c.name} failed: {report}\n")
  | none => (false, s!"[FAIL] {c.name} failed: None\n")

-- Whether a check passes, and all that is written about it.
def Check.run (limit : Nat) (c : Check) : Bool × List Output :=
  let steps := steps Session.fresh limit c.lines
  let (passed, text) := c.verdict (steps.getLast?.map Step.result)
  let notes := steps.flatMap fun step => step.events.map fun event => Output.noted event.entry
  (passed, notes ++ [.shown text])

def rule : String := String.ofList (List.replicate 50 '-') ++ "\n"

-- Whether all is well, and what is written about it.
def run (limit : Nat) : Bool × List Output :=
  let results := checks.map (Check.run limit)
  let failed := (results.filter fun r => !r.1).length
  let passed := parts.length + (results.length - failed)
  let verdict :=
    if failed = 0 then "\n[OK] All health checks passed!\n"
    else "\n[WARN] Some health checks failed. Core functionality may be impaired.\n"
  (failed = 0,
    [.shown "Running linecalc health check...\n", .shown rule] ++
      parts.map (fun part => .shown s!"[OK] {part} imported successfully\n") ++
      results.flatMap Prod.snd ++
      [.shown rule, .shown s!"Results: {passed} passed, {failed} failed\n", .shown verdict])

end Reckon.Health
