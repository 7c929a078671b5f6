import Reckon.Number.Shortest
import Reckon.Session
import Reckon.Text.Quoted

namespace Reckon

-- A line that failed has a message and a code.
inductive Report where
  | success (outcome : Outcome Float)
  | failure (message code : String)
deriving BEq, Repr

-- A value of a field.
inductive Field where
  | flag (value : Bool)
  | text (value : String)
  | number (value : Float)
deriving BEq, Repr

namespace Report

def recursionLimit : Report :=
  failure "Evaluation exceeded the maximum recursion depth" "RECURSION_LIMIT"

def ofResult : Except (Halt StatementError) (Outcome Float) → Report
  | .ok outcome => success outcome
  | .error (.fault error) => failure error.message error.code
  | .error .runaway => recursionLimit

def isSuccess : Report → Bool
  | success _ => true
  | failure _ _ => false

-- The fields in the order in which they are shown.
def fields : Report → List (String × Field)
  | success .void => [("ok", .flag true), ("type", .text "void")]
  | success (.number value) =>
    [("ok", .flag true), ("type", .text "number"), ("value", .number value)]
  | success (.solved unknown value) =>
    [("ok", .flag true), ("type", .text "solved"), ("value", .number value),
      ("variable", .text unknown)]
  | success (.plot name) =>
    [("ok", .flag true), ("type", .text "plot"), ("function", .text name)]
  | failure message code =>
    [("ok", .flag false), ("error", .text message), ("error_code", .text code)]

-- One line of text with all that a report holds.
def summary : Report → String
  | success .void => "ExecResult(ok=True, result_type='void')"
  | success (.number value) =>
    s!"ExecResult(ok=True, result_type='number', value={Number.fullText value})"
  | success (.solved unknown value) =>
    s!"ExecResult(ok=True, result_type='solved', value={Number.fullText value}, " ++
      s!"variable={Text.quoted unknown})"
  | success (.plot name) =>
    s!"ExecResult(ok=True, result_type='plot', function={Text.quoted name})"
  | failure message code =>
    s!"ExecResult(ok=False, error={Text.quoted message}, error_code={Text.quoted code})"

end Report

-- A scope as one line of text: its innermost bindings, or the sizes of a root.
def Store.summary (store : Store Float) (scope : Scope Float) : String :=
  match scope.frames with
  | frame :: _ =>
    let entry (e : String × Float) : String := Text.quoted e.1 ++ ": " ++ Number.fullText e.2
    "ScopedEnvironment(bindings=\x7b" ++ ", ".intercalate (frame.entries.map entry) ++ "\x7d)"
  | [] =>
    let variableCount := (store.sortedVariables scope.root).length
    let functionCount := (store.sortedFunctions scope.root).length
    s!"Environment(variables={variableCount}, functions={functionCount})"

end Reckon
