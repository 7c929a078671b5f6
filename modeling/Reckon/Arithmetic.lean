import Reckon.Number.Remainder

namespace Reckon

inductive Operation where
  | add
  | sub
  | mul
  | div
  | rem
  | pow
deriving DecidableEq, Repr, Inhabited

namespace Operation

def all : List Operation := [add, sub, mul, div, rem, pow]

def sign : Operation → Char
  | add => '+'
  | sub => '-'
  | mul => '*'
  | div => '/'
  | rem => '%'
  | pow => '^'

def ofSign? (c : Char) : Option Operation := all.find? fun o => o.sign == c

-- Sums bind loosest and powers tightest.
def precedence : Operation → Nat
  | add | sub => 1
  | mul | div | rem => 2
  | pow => 3

-- The least precedence of an operation inside the right operand. Powers nest to the right, the
-- others to the left.
def rightPrecedence : Operation → Nat
  | pow => 3
  | o => o.precedence + 1

end Operation

-- The built-in functions, all of one argument. `ln` is the natural and `log` the decimal
-- logarithm.
inductive Builtin where
  | sin
  | cos
  | tan
  | asin
  | acos
  | atan
  | sinh
  | cosh
  | tanh
  | asinh
  | acosh
  | atanh
  | exp
  | ln
  | log
  | log2
  | sqrt
  | abs
deriving DecidableEq, Repr, Inhabited

namespace Builtin

def all : List Builtin :=
  [sin, cos, tan, asin, acos, atan, sinh, cosh, tanh, asinh, acosh, atanh, exp, ln, log, log2,
    sqrt, abs]

def name : Builtin → String
  | sin => "sin"
  | cos => "cos"
  | tan => "tan"
  | asin => "asin"
  | acos => "acos"
  | atan => "atan"
  | sinh => "sinh"
  | cosh => "cosh"
  | tanh => "tanh"
  | asinh => "asinh"
  | acosh => "acosh"
  | atanh => "atanh"
  | exp => "exp"
  | ln => "ln"
  | log => "log"
  | log2 => "log2"
  | sqrt => "sqrt"
  | abs => "abs"

def ofName? (name : String) : Option Builtin := all.find? fun b => b.name == name

-- The parameter that a built-in function shows.
def parameter : String := "x"

end Builtin

class Arithmetic (α : Type) extends Add α, Sub α, Mul α, Div α where
  zero : α
  one : α
  rem : α → α → α
  pow : α → α → α
  -- Whether a coefficient counts as absent.
  isZero : α → Bool
  apply : Builtin → α → α

-- What an operation does to two values. No operation fails: a carrier answers in its own way
-- where a result is not defined.
def Operation.apply {α : Type} [Arithmetic α] : Operation → α → α → α
  | add, x, y => x + y
  | sub, x, y => x - y
  | mul, x, y => x * y
  | div, x, y => x / y
  | rem, x, y => Arithmetic.rem x y
  | pow, x, y => Arithmetic.pow x y

def Builtin.onFloat : Builtin → Float → Float
  | sin => Float.sin
  | cos => Float.cos
  | tan => Float.tan
  | asin => Float.asin
  | acos => Float.acos
  | atan => Float.atan
  | sinh => Float.sinh
  | cosh => Float.cosh
  | tanh => Float.tanh
  | asinh => Float.asinh
  | acosh => Float.acosh
  | atanh => Float.atanh
  | exp => Float.exp
  | ln => Float.log
  | log => Float.log10
  | log2 => Float.log2
  | sqrt => Float.sqrt
  | abs => Float.abs

-- Floats divide by zero into infinities, and both zeros count as absent.
instance : Arithmetic Float where
  zero := 0.0
  one := 1.0
  rem := Number.remainder
  pow := Float.pow
  isZero x := x == 0.0
  apply := Builtin.onFloat

end Reckon
