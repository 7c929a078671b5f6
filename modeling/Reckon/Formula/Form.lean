import Reckon.Formula.Quantity
import Reckon.Arithmetic
/-!
Formulas in the form in which they are displayed. Sums and products are flat, have at least two
parts, and hold at most one number, which comes first; the other parts follow in a fixed order, so
equal formulas are equal data.
-/
namespace Reckon.Formula

inductive Constant where
  | e
  | pi
  | i
deriving DecidableEq, Repr

-- What a call applies: a known function, or one that is only a name. Logarithms to a base and
-- roots are written by other means.
inductive Head where
  | builtin (function : Builtin)
  | cotangent
  | remainder
  | realPart
  | imaginaryPart
  | unknown (name : String)
deriving DecidableEq, Repr

inductive Form where
  | number (value : Quantity)
  | constant (value : Constant)
  | symbol (name : String)
  | sum (terms : List Form)
  | product (factors : List Form)
  | power (base exponent : Form)
  | call (head : Head) (args : List Form)
deriving BEq, Repr

namespace Constant

def name : Constant → String
  | e => "E"
  | pi => "pi"
  | i => "I"

end Constant

namespace Head

def name : Head → String
  | builtin .ln => "log"
  | builtin .abs => "Abs"
  | builtin b => b.name
  | cotangent => "cot"
  | remainder => "Mod"
  | realPart => "re"
  | imaginaryPart => "im"
  | unknown name => name

def isUnknown : Head → Bool
  | unknown _ => true
  | _ => false

-- Functions that are only names come first.
def order (h k : Head) : Ordering :=
  (Ord.compare (!h.isUnknown) (!k.isUnknown)).then (Ord.compare h.name k.name)

end Head

namespace Form

instance : Inhabited Form := ⟨number .zero⟩

def ofInt (n : Int) : Form := number (.ofInt n)

def ofRat (r : Rat) : Form := number (.exact r)

def zero : Form := number .zero

def one : Form := number .one

def half : Form := ofRat (mkRat 1 2)

def minusOne : Form := ofInt (-1)

def e : Form := constant .e

def pi : Form := constant .pi

def i : Form := constant .i

def unbounded : Form := number .unbounded

def undefined : Form := number .undefined

def apply (b : Builtin) (f : Form) : Form := call (.builtin b) [f]

-- The whole number that a form is.
def whole? : Form → Option Int
  | number value => value.whole?
  | _ => none

-- The exact number that a form is.
def quotient? : Form → Option Rat
  | number (.exact value) => some value
  | _ => none

def isNumber : Form → Bool
  | number _ => true
  | _ => false

def isSum : Form → Bool
  | sum _ => true
  | _ => false

mutual

-- An order in which only equal forms are equal.
def order : Form → Form → Ordering
  | number x, number y => x.order y
  | number _, _ => .lt
  | _, number _ => .gt
  | constant c, constant d => Ord.compare c.name d.name
  | constant _, _ => .lt
  | _, constant _ => .gt
  | symbol x, symbol y => Ord.compare x y
  | symbol _, _ => .lt
  | _, symbol _ => .gt
  | power b n, power c m => (b.order c).then (n.order m)
  | power _ _, _ => .lt
  | _, power _ _ => .gt
  | product fs, product gs => orderAll fs gs
  | product _, _ => .lt
  | _, product _ => .gt
  | sum fs, sum gs => orderAll fs gs
  | sum _, _ => .lt
  | _, sum _ => .gt
  | call h fs, call k gs => (h.order k).then (orderAll fs gs)

def orderAll : List Form → List Form → Ordering
  | [], [] => .eq
  | [], _ :: _ => .lt
  | _ :: _, [] => .gt
  | f :: fs, g :: gs => (f.order g).then (orderAll fs gs)

end

mutual

-- The number of parts, those of parts included.
def size : Form → Nat
  | number _ | constant _ | symbol _ => 1
  | sum ts => sizes ts + 1
  | product fs => sizes fs + 1
  | power b n => b.size + n.size + 1
  | call _ args => sizes args + 1

def sizes : List Form → Nat
  | [] => 0
  | f :: fs => f.size + sizes fs

end

mutual

-- Whether a form has neither symbols nor unknown functions.
def isConstant : Form → Bool
  | number _ | constant _ => true
  | symbol _ => false
  | sum ts => areConstant ts
  | product fs => areConstant fs
  | power b n => b.isConstant && n.isConstant
  | call head args => !head.isUnknown && areConstant args

def areConstant : List Form → Bool
  | [] => true
  | f :: fs => f.isConstant && areConstant fs

end

mutual

-- Whether a symbol occurs in a form.
def hasSymbol : Form → Bool
  | number _ | constant _ => false
  | symbol _ => true
  | sum ts => haveSymbol ts
  | product fs => haveSymbol fs
  | power b n => b.hasSymbol || n.hasSymbol
  | call _ args => haveSymbol args

def haveSymbol : List Form → Bool
  | [] => false
  | f :: fs => f.hasSymbol || haveSymbol fs

end

mutual

-- How many calls of a function a form holds.
def callCount (head : Head) : Form → Nat
  | number _ | constant _ | symbol _ => 0
  | sum ts => callCounts head ts
  | product fs => callCounts head fs
  | power b n => callCount head b + callCount head n
  | call h args => (if h = head then 1 else 0) + callCounts head args

def callCounts (head : Head) : List Form → Nat
  | [] => 0
  | f :: fs => callCount head f + callCounts head fs

end

mutual

-- The factors of nested products.
def flatFactors : Form → List Form
  | product fs => allFlatFactors fs
  | f => [f]

def allFlatFactors : List Form → List Form
  | [] => []
  | f :: fs => f.flatFactors ++ allFlatFactors fs

end

mutual

-- The terms of nested sums.
def flatTerms : Form → List Form
  | sum ts => allFlatTerms ts
  | f => [f]

def allFlatTerms : List Form → List Form
  | [] => []
  | t :: ts => t.flatTerms ++ allFlatTerms ts

end

def terms : Form → List Form
  | sum ts => ts
  | f => [f]

def factors : Form → List Form
  | product fs => fs
  | f => [f]

-- The product of factors that need no further work.
def ofFactors : List Form → Form
  | [] => one
  | [f] => f
  | fs => product fs

-- The sum of terms that need no further work.
def ofTerms : List Form → Form
  | [] => zero
  | [t] => t
  | ts => sum ts

-- A form as a coefficient and what it multiplies.
def asTerm : Form → Quantity × Form
  | number value => if value = .unbounded then (.one, unbounded) else (value, one)
  | product (number value :: fs) =>
    if value = .unbounded then (.one, product (number value :: fs)) else (value, ofFactors fs)
  | f => (.one, f)

-- A coefficient put back before what it multiplies, which holds none.
def ofTerm (coefficient : Quantity) (rest : Form) : Form :=
  if coefficient = .one then rest
  else match rest with
    | number value => number (coefficient * value)
    | product fs => product (number coefficient :: fs)
    | rest => product [number coefficient, rest]

-- A form as a base with an exponent. The exponential function is a power of its own base, and a
-- whole reciprocal is turned over.
def asPower : Form → Form × Form
  | power (number (.exact r)) exponent =>
    if r.num = 1 ∧ r.den ≠ 1 then
      (ofInt r.den, let (c, rest) := exponent.asTerm; ofTerm (-c) rest)
    else (ofRat r, exponent)
  | power base exponent => (base, exponent)
  | call (.builtin .exp) [exponent] => (e, exponent)
  | f => (f, one)

end Form

end Reckon.Formula
