import Reckon.Number.Reading
import Reckon.Parenthesis
import Reckon.Statement
import Reckon.Statement.Fault
/-!
Reading a line. Operands are read by precedence climbing over the tokens. Nesting is bounded by a
budget that every operator, group and call draws on while it is open; the loops over a chain of
operators and over arguments end because each round takes tokens away.
-/
namespace Reckon

-- The bounds on a line: its length in characters, and the depth of its operands.
structure Limits where
  length : Nat
  depth : Nat

def Limits.standard : Limits := ⟨10000, 100⟩

-- Operators nest as well as parentheses, so reading may open twice as many levels as an operand
-- may have; the depth of the finished operand is checked afterwards.
def Limits.budget (limits : Limits) : Nat := 2 * limits.depth

namespace Reader

-- What is read from the tokens at hand, and the tokens that are left.
abbrev Step (β : Type) := List Token → Except Fault (β × List Token)

-- A token that cannot follow a complete operand.
def leftover (t : Token) : Fault :=
  match t.kind with
  | .number | .name | .opening => .operationExpected t
  | _ => .unexpected t

-- The next token, if it is one that is accepted.
def expect (accepted : Token → Bool) (missing : Option Token → Fault) : Step Token
  | [] => .error (missing none)
  | t :: rest => if accepted t then .ok (t, rest) else .error (missing (some t))

-- Looks at the next token, which may not be one that is refused; nothing is read.
def require (refused : Token → Bool) (missing : Option Token → Fault) :
    List Token → Except Fault Unit
  | [] => .error (missing none)
  | t :: _ => if refused t then .error (missing (some t)) else .ok ()

def expectEnd : List Token → Except Fault Unit
  | [] => .ok ()
  | t :: _ => .error (leftover t)

def number (negative : Bool) (literal : Token) : Except Fault (Operand Float) :=
  match Number.readUnsigned? literal.text.toList with
  | some value => .ok (.number (if negative then -value else value))
  | none => .error (.invalidNumber negative literal)

-- What is told where an argument should start.
def argumentMissing : Option Token → Fault
  | none => .operandExpected none
  | some t => .argumentExpected t

-- The arguments of a call up to its closing parenthesis, of which there is at least one. The
-- bound is the number of tokens at hand; without a token there is no argument.
def arguments (read : Step (Operand Float)) (name : Token) :
    (bound : Nat) → Step (List (Operand Float))
  | 0, _ => .error (.operandExpected none)
  | bound + 1, tokens => do
    require (fun t => t.kind == .comma || t.kind == .closing) argumentMissing tokens
    let (arg, rest) ← read tokens
    let (separator, rest) ← expect (fun t => t.kind == .comma || t.kind == .closing)
      (fun at? => at?.elim (.unclosedCall name none) leftover) rest
    if separator.kind = .comma then do
      let (args, rest) ← arguments read name bound rest
      return (arg :: args, rest)
    else return ([arg], rest)

-- How to read operators of at least some precedence one level further in, asked at the token
-- that opens the level.
abbrev Inner := Token → Except Fault ((least : Nat) → Step (Operand Float))

-- What follows the opening parenthesis of a call.
def call (inner : Inner) (name opening : Token) : Step (Operand Float) := fun tokens => do
  let read ← inner opening
  if (tokens.head?.map Token.kind) = some .closing then return (.call name.text [], tokens.tail)
  else do
    let (args, rest) ← arguments (read 1) name tokens.length tokens
    return (.call name.text args, rest)

-- What follows the opening parenthesis of a group.
def group (inner : Inner) (opening : Token) : Step (Operand Float) := fun tokens => do
  let read ← inner opening
  let (operand, rest) ← read 1 tokens
  let (_, rest) ← expect (·.kind == .closing)
    (fun at? => at?.elim (.unclosedGroup opening none) leftover) rest
  return (operand, rest)

-- A number, symbol, call or group. A minus belongs to the number that it touches.
def atom (inner : Inner) : Step (Operand Float)
  | [] => throw (.operandExpected none)
  | t :: rest => do
    match t.kind with
    | .number => return (← number false t, rest)
    | .operator .sub =>
      match rest with
      | literal :: rest =>
        if literal.kind = .number ∧ literal.position = t.position + 1 then
          return (← number true literal, rest)
        else throw (.operandExpected (some t))
      | [] => throw (.operandExpected (some t))
    | .name =>
      if t.isSymbol then
        match rest with
        | opening :: rest =>
          if opening.kind = .opening then call inner t opening rest
          else return (.symbol t.text, opening :: rest)
        | [] => return (.symbol t.text, [])
      else throw (.operandExpected (some t))
    | .opening => group inner t rest
    | _ => throw (.operandExpected (some t))

-- The operators of at least the given precedence that follow an operand, with their right
-- operands. The bound is the number of tokens at hand.
def chainFrom (inner : Inner) (least : Nat) :
    (bound : Nat) → (lhs : Operand Float) → Step (Operand Float)
  | 0, lhs, tokens => .ok (lhs, tokens)
  | _, lhs, [] => .ok (lhs, [])
  | bound + 1, lhs, t :: rest =>
    match t.kind with
    | .operator operation =>
      if operation.precedence < least then .ok (lhs, t :: rest)
      else do
        let read ← inner t
        let (rhs, rest) ← read operation.rightPrecedence rest
        chainFrom inner least bound (.term operation lhs rhs) rest
    | _ => .ok (lhs, t :: rest)

def level (inner : Inner) (least : Nat) : Step (Operand Float) := fun tokens => do
  let (lhs, rest) ← atom inner tokens
  chainFrom inner least rest.length lhs rest

-- An operand whose operators have at least the given precedence, with a budget of levels. The
-- limit is only for the wording of the fault.
def operand (limit : Nat) : (budget : Nat) → (least : Nat) → Step (Operand Float)
  | 0 => level fun t => .error (.tooDeep limit (some t))
  | budget + 1 => level fun _ => .ok (operand limit budget)

section Forms

-- How to read an operand of any precedence.
variable (read : Step (Operand Float))

def expression : List Token → Except Fault (Statement Float) := fun tokens => do
  let (operand, rest) ← read tokens
  expectEnd rest
  return .expression operand

-- After `solve`: an equation, `for`, and a variable.
def solve : List Token → Except Fault (Statement Float) := fun tokens => do
  require (·.kind == .equals) .solveLeftMissing tokens
  let (lhs, rest) ← read tokens
  let (_, rest) ← expect (·.kind == .equals)
    (fun at? => at?.elim (.equalsExpected none) leftover) rest
  require (·.isKeyword "for") .solveRightMissing rest
  let (rhs, rest) ← read rest
  let (_, rest) ← expect (·.isKeyword "for")
    (fun at? => at?.elim (.forExpected none) leftover) rest
  let (unknown, rest) ← expect (·.isSymbol) .solveVariableExpected rest
  expectEnd rest
  return .solve lhs rhs unknown.text

-- After `plot`: the name of a function.
def plot : List Token → Except Fault (Statement Float)
  | [] => .error .plotNameMissing
  | [t] => if t.isSymbol then .ok (.plot t.text) else .error (.plotNameExpected t)
  | t :: _ => .error (.plotNameExpected t)

def expectAssign : Step Token := expect (·.kind == .assign) .assignExpected

-- Parameter names up to the closing parenthesis, of which there is at least one.
def parameters (function : String) (seen : List String) : Step (List String)
  | [] => .error (.parameterExpected none)
  | [t] => if t.isSymbol then
      if seen.contains t.text then .error (.duplicateParameter function t)
      else .error (.separatorExpected none)
    else .error (.parameterExpected (some t))
  | t :: separator :: rest =>
    if !t.isSymbol then .error (.parameterExpected (some t))
    else if seen.contains t.text then .error (.duplicateParameter function t)
    else match separator.kind with
      | .closing => .ok (seen ++ [t.text], rest)
      | .comma => parameters function (seen ++ [t.text]) rest
      | _ => .error (.separatorExpected (some separator))

-- What follows the opening parenthesis of a definition, which may be closed at once.
def parameterList (function : String) : Step (List String) := fun tokens =>
  if (tokens.head?.map Token.kind) = some .closing then .ok ([], tokens.tail)
  else parameters function [] tokens

-- What a line assigns, or the body that it defines: an operand behind `:=` up to the end.
def assigned (missing : Fault) : List Token → Except Fault (Operand Float) := fun tokens => do
  let (_, rest) ← expectAssign tokens
  require (fun _ => false) (fun _ => missing) rest
  let (operand, rest) ← read rest
  expectEnd rest
  return operand

-- After the opening parenthesis that follows the name of a function.
def function (name : String) : List Token → Except Fault (Statement Float) := fun tokens => do
  let (params, rest) ← parameterList name tokens
  let body ← assigned read .bodyMissing rest
  return .definition name params body

-- A line with `:=`: an assignment, or the definition of a function.
def definition : List Token → Except Fault (Statement Float)
  | [] => .error .emptyStatement
  | t :: rest =>
    if t.kind = .assign then .error (.targetMissing t)
    else if t.kind = .opening then .error (.functionNameMissing t)
    else if !t.isSymbol then .error (.targetExpected t)
    else if (rest.head?.map Token.kind) = some .opening then function read t.text rest.tail
    else do
      let operand ← assigned read .assignedMissing rest
      return .assignment t.text operand

-- The form of a statement is told by its first token and by whether there is a `:=`.
def statement : List Token → Except Fault (Statement Float)
  | [] => .error .emptyStatement
  | t :: rest =>
    if t.isKeyword "solve" then solve read rest
    else if t.isKeyword "plot" then plot rest
    else if (t :: rest).any (·.kind == .assign) then definition read (t :: rest)
    else if t.kind = .name ∧ !t.isSymbol then .error (.statementExpected t)
    else expression read (t :: rest)

end Forms

-- The statement that the tokens of a line make, without regard to the depth of its operands.
def ofTokens (limit budget : Nat) (tokens : List Token) : Except Fault (Statement Float) :=
  statement (operand limit budget 1) tokens

end Reader

namespace Statement

-- The tokens of a line within the bounds, if its parentheses balance.
def tokens (limits : Limits) (source : List Char) : Except Fault (List Token) :=
  if limits.length < source.length then .error (.tooLong limits.length)
  else match Parenthesis.fault? source with
    | some position => .error (.unbalanced position)
    | none => (Token.scan source).mapError .stray

def checkDepth (limits : Limits) (s : Statement Float) : Except Fault Unit :=
  if s.operands.any fun t => limits.depth < t.depthByStack then .error (.tooDeep limits.depth none)
  else .ok ()

def parse (source : List Char) : Except SyntaxError (Statement Float) :=
  let limits := Limits.standard
  let result : Except Fault (Statement Float) := do
    let s ← Reader.ofTokens limits.depth limits.budget (← tokens limits source)
    checkDepth limits s
    return s
  result.mapError (SyntaxError.mk source)

-- A line that has to be an expression.
def parseOperand (source : List Char) : Except SyntaxError (Operand Float) := do
  match ← parse source with
  | .expression operand => return operand
  | _ => throw ⟨source, .expressionExpected⟩

end Statement

end Reckon
