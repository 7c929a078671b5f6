import Reckon.Environment
import Reckon.Number.Exact

namespace Reckon

-- What breaks off that nothing is told to handle.
structure Raised where
  cause : String
deriving DecidableEq, Repr

-- The algebra that displayed expressions are built in. It simplifies them as it builds them, and
-- may raise.
structure Algebra (ε : Type) where
  integer : Int → ε
  float : Float → ε
  symbol : String → ε
  add : ε → ε → Except Raised ε
  sub : ε → ε → Except Raised ε
  mul : ε → ε → Except Raised ε
  div : ε → ε → Except Raised ε
  mod : ε → ε → Except Raised ε
  pow : ε → ε → Except Raised ε
  builtin : Builtin → ε → Except Raised ε
  call : String → List ε → Except Raised ε
  text : ε → String

-- The whole number that a float is, if it is one.
def Number.whole? (x : Float) : Option Int :=
  match (exact x).floor, (exact x).ceil with
  | .ok below, .ok above => if below = above then some below else none
  | _, _ => none

namespace Algebra

variable {ε : Type} (a : Algebra ε)

def number (value : Float) : ε :=
  match Number.whole? value with
  | some n => a.integer n
  | none => a.float value

def combine : Operation → ε → ε → Except Raised ε
  | .add => a.add
  | .sub => a.sub
  | .mul => a.mul
  | .div => a.div
  | .rem => a.mod
  | .pow => a.pow

-- The built-in functions of one argument are known, all else stays as it is written.
def apply (name : String) (args : List ε) : Except Raised ε :=
  match Builtin.ofName? name, args with
  | some b, [arg] => a.builtin b arg
  | _, _ => a.call name args

end Algebra

namespace Operand

variable {ε : Type} (a : Algebra ε)

mutual

-- The expression that an operand is. Names stand for themselves, so nothing is looked up.
def expression : Operand Float → Except Raised ε
  | number value => .ok (a.number value)
  | symbol name => .ok (a.symbol name)
  | term operation lhs rhs => do
    let l ← lhs.expression
    let r ← rhs.expression
    a.combine operation l r
  | call name args => do
    a.apply name (← expressions args)

def expressions : List (Operand Float) → Except Raised (List ε)
  | [] => .ok []
  | arg :: args => do
    let e ← arg.expression
    let es ← expressions args
    return e :: es

end

-- Powers are written with a caret.
def withCarets : List Char → List Char
  | '*' :: '*' :: cs => '^' :: withCarets cs
  | c :: cs => c :: withCarets cs
  | [] => []

def description (t : Operand Float) : Except Raised String := do
  return String.ofList (withCarets (a.text (← t.expression a)).toList)

end Operand

def Function.description (describe : Operand Float → Except Raised String) (f : Function Float)
    (name : String) : Except Raised String :=
  match f with
  | .custom params body _ => do
    let body ← describe body
    return name ++ "(" ++ ", ".intercalate params ++ ") := " ++ body
  | .builtin _ => .ok s!"{name}({Builtin.parameter}) (built-in)"

end Reckon
