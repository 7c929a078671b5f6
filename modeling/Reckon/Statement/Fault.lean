import Reckon.Token

namespace Reckon

-- A fault names its cause and the tokens it is about; the fragment of the line that it quotes, its
-- position and its wording are computed from them. `at?` is the token where reading stopped, `none`
-- at the end of the line.
inductive Fault where
  | tooLong (limit : Nat)
  | unbalanced (position : Nat)
  | stray (stray : Token.Stray)
  -- a nesting that is too deep, seen at a token or only in the finished operand
  | tooDeep (limit : Nat) (at? : Option Token)
  | invalidNumber (negative : Bool) (literal : Token)
  | operandExpected (at? : Option Token)
  | argumentExpected (separator : Token)
  | operationExpected (found : Token)
  | unexpected (found : Token)
  | unclosedGroup (opening : Token) (at? : Option Token)
  | unclosedCall (name : Token) (at? : Option Token)
  | emptyStatement
  | statementExpected (keyword : Token)
  | solveLeftMissing (at? : Option Token)
  | equalsExpected (at? : Option Token)
  | solveRightMissing (at? : Option Token)
  | forExpected (at? : Option Token)
  | solveVariableExpected (at? : Option Token)
  | plotNameMissing
  | plotNameExpected (found : Token)
  | targetMissing (assign : Token)
  | functionNameMissing (opening : Token)
  | targetExpected (found : Token)
  | assignExpected (at? : Option Token)
  | assignedMissing
  | parameterExpected (at? : Option Token)
  | duplicateParameter (function : String) (param : Token)
  | separatorExpected (at? : Option Token)
  | bodyMissing
  -- a statement of another form where only an expression is allowed
  | expressionExpected
deriving DecidableEq, Repr

namespace Fault

variable (source : List Char)

-- Where a token starts, or the end of the line.
def positionOf (at? : Option Token) : Nat := (at?.map Token.position).getD source.length

def textOf (at? : Option Token) : String := (at?.map Token.text).getD ""

-- The line from a position on, without the blanks around it.
def stripped (position : Nat) : String := String.ofList (Text.strip (source.drop position))

-- The rest of the line from a token on, without the blanks around it.
def restOf (at? : Option Token) : String := stripped source (positionOf source at?)

def characterAt (position : Nat) : String := String.ofList (source.drop position |>.take 1)

-- A literal with the sign that touches it.
def signedText (negative : Bool) (literal : Token) : String :=
  if negative then "-" ++ literal.text else literal.text

def code : Fault → String
  | tooLong _ => "TOO_LONG"
  | unbalanced _ => "INVALID_EXPRESSION"
  | stray _ => "INVALID_EXPRESSION"
  | tooDeep _ _ => "TOO_DEEP"
  | invalidNumber _ _ => "INVALID_NUMBER"
  | operandExpected _ => "INVALID_OPERAND"
  | argumentExpected _ => "EXPECTED_PARAM_EXPRESSION"
  | operationExpected _ => "INVALID_OPERATION"
  | unexpected _ => "INVALID_EXPRESSION"
  | unclosedGroup _ _ => "INVALID_EXPRESSION"
  | unclosedCall _ _ => "INVALID_EXPRESSION"
  | emptyStatement => "EMPTY_STATEMENT"
  | statementExpected _ => "INVALID_STATEMENT"
  | solveLeftMissing _ => "MISSING_SOLVE_LEFT"
  | equalsExpected _ => "INVALID_EXPRESSION"
  | solveRightMissing _ => "MISSING_SOLVE_RIGHT"
  | forExpected _ => "INVALID_EXPRESSION"
  | solveVariableExpected _ => "MISSING_SOLVE_SYMBOL"
  | plotNameMissing => "PLOT_MISSING_FUNCTION"
  | plotNameExpected _ => "PLOT_UNEXPECTED_SYMBOL"
  | targetMissing _ => "MISSING_ASSIGNMENT_TARGET"
  | functionNameMissing _ => "MISSING_FUNCTION_NAME"
  | targetExpected _ => "INVALID_SYMBOL"
  | assignExpected _ => "MISSING_ASSIGNMENT"
  | assignedMissing => "MISSING_ASSIGNMENT_EXPRESSION"
  | parameterExpected _ => "INVALID_SYMBOL"
  | duplicateParameter _ _ => "DUPLICATE_PARAMETER"
  | separatorExpected _ => "INVALID_EXPRESSION"
  | bodyMissing => "MISSING_FUNCTION_BODY"
  | expressionExpected => "INVALID_STATEMENT"

-- The fragment of the line that the fault is about.
def text : Fault → String
  | tooLong _ | emptyStatement | plotNameMissing | functionNameMissing _ => ""
  | forExpected _ | assignedMissing | bodyMissing => ""
  | unbalanced position => characterAt source position
  | stray s => String.singleton s.character
  | tooDeep _ at? => textOf at?
  | invalidNumber negative literal => signedText negative literal
  | operandExpected at? => textOf at?
  | argumentExpected t | operationExpected t | unexpected t | statementExpected t => t.text
  | unclosedGroup _ at? | unclosedCall _ at? => textOf at?
  | solveLeftMissing at? | equalsExpected at? | solveRightMissing at? => textOf at?
  | solveVariableExpected at? => textOf at?
  | plotNameExpected t | targetMissing t => restOf source (some t)
  | targetExpected t => t.text
  | assignExpected at? | parameterExpected at? | separatorExpected at? => textOf at?
  | duplicateParameter _ param => param.text
  | expressionExpected => stripped source 0

-- The offset of that fragment, where the fault has a place.
def position? : Fault → Option Nat
  | tooLong _ | emptyStatement | plotNameMissing | expressionExpected => none
  | unbalanced position => some position
  | stray s => some s.position
  | tooDeep _ at? => at?.map Token.position
  | invalidNumber negative literal =>
    some (if negative then literal.position - 1 else literal.position)
  | operandExpected at? | unclosedGroup _ at? | unclosedCall _ at? =>
    some (positionOf source at?)
  | argumentExpected t | operationExpected t | unexpected t | statementExpected t =>
    some t.position
  | solveLeftMissing at? | equalsExpected at? | solveRightMissing at? | forExpected at? =>
    some (positionOf source at?)
  | solveVariableExpected at? => some (positionOf source at?)
  | plotNameExpected t | targetMissing t | functionNameMissing t | targetExpected t =>
    some t.position
  | assignExpected at? | parameterExpected at? | separatorExpected at? =>
    some (positionOf source at?)
  | assignedMissing | bodyMissing => some source.length
  | duplicateParameter _ param => some param.position

def message : Fault → String
  | tooLong limit => s!"Input too long (max {limit} characters)"
  | unbalanced position =>
    s!"Invalid expression - unbalanced parenthesis at position {position}"
  | stray s =>
    s!"Invalid expression - unexpected character `{s.character}` at position {s.position}"
  | tooDeep limit _ => s!"Expression too deeply nested (>{limit} levels)"
  | invalidNumber negative literal =>
    s!"Invalid number - expected a floating number `{signedText negative literal}`"
  | operandExpected at? =>
    let found := (at?.map Token.text).getD "end of input"
    s!"Invalid operand - expected variable, number or term, but got `{found}`"
  | argumentExpected t => s!"Expected expression as parameter value, but got `{t.text}`"
  | operationExpected t =>
    s!"Invalid operation - expected +, -, *, /, %, or ^ `{t.text}`"
  | unexpected t =>
    s!"Invalid expression - unexpected `{t.text}` at position {t.position}"
  | unclosedGroup opening _ =>
    s!"Invalid expression - missing `)` for `(` at position {opening.position}"
  | unclosedCall name _ => s!"Invalid expression - missing `)` for call of `{name.text}`"
  | emptyStatement => "Expected statement, but got an empty line"
  | statementExpected t =>
    "Invalid statement - expected assignment, expression, or solve statement, " ++
      s!"but got `{restOf source (some t)}`"
  | solveLeftMissing at? =>
    s!"Expected expression in solve left from the `=`, but got `{restOf source at?}`"
  | equalsExpected at? =>
    s!"Invalid expression - expected `=` in solve, but got `{restOf source at?}`"
  | solveRightMissing at? =>
    s!"Expected expression in solve right from the `=`, but got `{restOf source at?}`"
  | forExpected _ => "Invalid expression - expected `for` after the equation, but got nothing"
  | solveVariableExpected at? =>
    s!"Expected variable name after `for`, but got `{restOf source at?}`"
  | plotNameMissing => "Plot is missing a function name, but got nothing"
  | plotNameExpected t => s!"Expected function name, but got {restOf source (some t)}"
  | targetMissing t =>
    s!"Missing assignment target - expected symbol, but got `{restOf source (some t)}`"
  | functionNameMissing _ => "No function name found"
  | targetExpected t => s!"Invalid symbol - expected a name, but got `{t.text}`"
  | assignExpected at? => s!"Expected an assignment `:=`, but got `{restOf source at?}`"
  | assignedMissing => s!"Expected an expression, but got `{restOf source none}`"
  | parameterExpected at? =>
    s!"Invalid symbol - expected parameter name, but got `{textOf at?}`"
  | duplicateParameter function param =>
    s!"Parameter `{param.text}` is declared twice in `{function}`"
  | separatorExpected at? =>
    "Invalid expression - expected `,` or `)` in parameter list, " ++
      s!"but got `{textOf at?}`"
  | bodyMissing => "Expected expression as function body, but got nothing"
  | expressionExpected =>
    s!"Invalid statement - expected an expression, but got `{stripped source 0}`"

end Fault

-- A fault together with the line it was found in.
structure SyntaxError where
  source : List Char
  fault : Fault
deriving DecidableEq, Repr

namespace SyntaxError

def code (e : SyntaxError) : String := e.fault.code

def message (e : SyntaxError) : String := e.fault.message e.source

def text (e : SyntaxError) : String := e.fault.text e.source

def position? (e : SyntaxError) : Option Nat := e.fault.position? e.source

end SyntaxError

end Reckon
