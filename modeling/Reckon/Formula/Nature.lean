import Reckon.Formula.Form

namespace Reckon.Formula

-- A complex number, approximately.
structure Approximation where
  re : Float
  im : Float

namespace Approximation

def ofReal (x : Float) : Approximation := ⟨x, 0.0⟩

def add (z w : Approximation) : Approximation := ⟨z.re + w.re, z.im + w.im⟩

def sub (z w : Approximation) : Approximation := ⟨z.re - w.re, z.im - w.im⟩

def mul (z w : Approximation) : Approximation :=
  if z.im == 0.0 && w.im == 0.0 then ofReal (z.re * w.re)
  else ⟨z.re * w.re - z.im * w.im, z.re * w.im + z.im * w.re⟩

def norm (z : Approximation) : Float := (z.re * z.re + z.im * z.im).sqrt

def inv (z : Approximation) : Approximation :=
  if z.im == 0.0 then ofReal (1.0 / z.re)
  else
    let square := z.re * z.re + z.im * z.im
    ⟨z.re / square, -z.im / square⟩

def div (z w : Approximation) : Approximation := z.mul w.inv

def exp (z : Approximation) : Approximation :=
  if z.im == 0.0 then ofReal z.re.exp
  else ⟨z.re.exp * z.im.cos, z.re.exp * z.im.sin⟩

def log (z : Approximation) : Approximation :=
  if z.im == 0.0 && 0.0 < z.re then ofReal z.re.log else ⟨z.norm.log, Float.atan2 z.im z.re⟩

def pow (z w : Approximation) : Approximation :=
  if z.im == 0.0 && w.im == 0.0 && (0.0 <= z.re || w.re.floor == w.re) then ofReal (z.re.pow w.re)
  else ((z.log).mul w).exp

def sqrt (z : Approximation) : Approximation := z.pow (ofReal 0.5)

def isDefined (z : Approximation) : Bool := !z.re.isNaN && !z.im.isNaN

private def i : Approximation := ⟨0.0, 1.0⟩

private def one : Approximation := ofReal 1.0

private def two : Approximation := ofReal 2.0

-- Sine and cosine of i times a number.
private def sinh (z : Approximation) : Approximation := (z.exp.sub z.exp.inv).div two

private def cosh (z : Approximation) : Approximation := (z.exp.add z.exp.inv).div two

private def asinh (z : Approximation) : Approximation := (z.add ((z.mul z).add one).sqrt).log

private def acosh (z : Approximation) : Approximation :=
  (z.add ((z.sub one).sqrt.mul (z.add one).sqrt)).log

private def atanh (z : Approximation) : Approximation :=
  ((one.add z).log.sub (one.sub z).log).div two

-- A function where its values or arguments are complex.
def complexValue (b : Builtin) (z : Approximation) : Approximation :=
  match b with
  | .sin => (sinh (z.mul i)).div i
  | .cos => cosh (z.mul i)
  | .tan => ((sinh (z.mul i)).div i).div (cosh (z.mul i))
  | .asin => (asinh (z.mul i)).div i
  | .acos => (ofReal (Float.acos 0.0)).sub ((asinh (z.mul i)).div i)
  | .atan => (atanh (z.mul i)).div i
  | .sinh => sinh z
  | .cosh => cosh z
  | .tanh => (sinh z).div (cosh z)
  | .asinh => asinh z
  | .acosh => acosh z
  | .atanh => atanh z
  | .exp => z.exp
  | .ln => z.log
  | .log => z.log.div (ofReal 10.0).log
  | .log2 => z.log.div two.log
  | .sqrt => z.sqrt
  | .abs => ofReal z.norm

def onBuiltin (b : Builtin) (z : Approximation) : Approximation :=
  let x := b.onFloat z.re
  if z.im == 0.0 && !x.isNaN then ofReal x else complexValue b z

end Approximation

namespace Form

mutual

-- The approximate value of a constant form.
def value? : Form → Option Approximation
  | number q => some (.ofReal q.toFloat)
  | constant .e => some (.ofReal (Float.exp 1.0))
  | constant .pi => some (.ofReal (Float.acos (-1.0)))
  | constant .i => some ⟨0.0, 1.0⟩
  | symbol _ => none
  | sum ts => (values? ts).map fun vs => vs.foldl .add (.ofReal 0.0)
  | product fs => (values? fs).map fun vs => vs.foldl .mul (.ofReal 1.0)
  | power b n => do
    let z := (← b.value?).pow (← n.value?)
    if z.isDefined then some z else none
  | call head args => do
    match head, ← values? args with
    | .builtin b, [z] =>
      let w := z.onBuiltin b
      if w.isDefined then some w else none
    | .cotangent, [z] => some (Approximation.inv (z.onBuiltin .tan))
    | .realPart, [z] => some (.ofReal z.re)
    | .imaginaryPart, [z] => some (.ofReal z.im)
    | _, _ => none

def values? : List Form → Option (List Approximation)
  | [] => some []
  | f :: fs => do
    let v ← f.value?
    let vs ← values? fs
    return v :: vs

end

end Form

-- What is known of a value. A real one may be known not to be below or above zero, or not to be
-- zero.
structure Nature where
  real : Bool
  nonnegative : Bool
  nonpositive : Bool
  nonzero : Bool
deriving DecidableEq, Repr

namespace Nature

def unknown : Nature := ⟨false, false, false, false⟩

def isPositive (n : Nature) : Bool := n.nonnegative && n.nonzero

def isNegative (n : Nature) : Bool := n.nonpositive && n.nonzero

def positive : Nature := ⟨true, true, false, true⟩

-- The slack within which an approximate value tells nothing.
def slack : Float := 1.0e-9

-- What an approximate value tells.
def ofValue (z : Approximation) : Nature :=
  if z.im.abs <= slack * z.norm then
    ⟨true, slack < z.re, z.re < -slack, slack < z.re.abs⟩
  else { unknown with nonzero := slack < z.norm }

def ofQuantity (q : Quantity) : Nature :=
  match q with
  | .unbounded | .undefined => unknown
  | q => ⟨true, !q.isNegative, q.isNegative || q.isZero, !q.isZero⟩

def add (m n : Nature) : Nature where
  real := m.real && n.real
  nonnegative := m.nonnegative && n.nonnegative
  nonpositive := m.nonpositive && n.nonpositive
  nonzero := (m.nonnegative && n.nonnegative || m.nonpositive && n.nonpositive) &&
    (m.nonzero || n.nonzero)

def mul (m n : Nature) : Nature where
  real := m.real && n.real
  nonnegative := m.nonnegative && n.nonnegative || m.nonpositive && n.nonpositive
  nonpositive := m.nonnegative && n.nonpositive || m.nonpositive && n.nonnegative
  nonzero := m.nonzero && n.nonzero

-- A power, given the exponent and what is known of it.
def pow (base : Nature) (exponent : Form) (n : Nature) : Nature :=
  match exponent.quotient? with
  | some r =>
    if r.den = 1 ∧ r.num % 2 = 0 ∧ base.real then
      ⟨true, true, false, base.nonzero⟩
    else if base.nonnegative then ⟨true, true, false, base.nonzero⟩
    else if r.den = 1 then ⟨base.real, false, base.nonpositive, base.nonzero⟩
    else { unknown with nonzero := base.nonzero }
  | none => if base.isPositive && n.real then positive else unknown

def ofCall (head : Head) (args : List Nature) : Nature :=
  match head, args with
  | .builtin .abs, [n] => ⟨true, true, false, n.nonzero⟩
  | .builtin .exp, [n] => if n.real then positive else { unknown with nonzero := true }
  | .builtin .cosh, [n] => if n.real then positive else unknown
  | .builtin b, [n] =>
    if n.real && [Builtin.sin, .cos, .tan, .atan, .sinh, .tanh, .asinh].contains b then
      match b with
      | .atan | .sinh | .tanh | .asinh => n
      | _ => { unknown with real := true }
    else if b = .ln && n.isPositive then { unknown with real := true }
    else unknown
  | .remainder, [_, n] =>
    if n.isPositive then ⟨true, true, false, false⟩
    else if n.isNegative then ⟨true, false, true, false⟩
    else unknown
  | .realPart, _ | .imaginaryPart, _ => { unknown with real := true }
  | _, _ => unknown

end Nature

namespace Form

-- The nature of a form from those of its parts, unless its value is known.
private def natureOr (f : Form) (n : Nature) : Nature :=
  match f.value? with
  | some z => .ofValue z
  | none => n

mutual

def nature : Form → Nature
  | number q => .ofQuantity q
  | constant c => natureOr (constant c) .unknown
  | symbol _ => .unknown
  | sum ts => natureOr (sum ts) ((natures ts).foldl .add ⟨true, true, true, false⟩)
  | product fs => natureOr (product fs) ((natures fs).foldl .mul .positive)
  | power b n => natureOr (power b n) (b.nature.pow n n.nature)
  | call head args => natureOr (call head args) (.ofCall head (natures args))

def natures : List Form → List Nature
  | [] => []
  | f :: fs => f.nature :: natures fs

end

mutual

-- Whether a form is known to be whole.
def isWhole : Form → Bool
  | number q => q.isExact && q.isWhole
  | constant _ | symbol _ => false
  | sum ts => areWhole ts
  | product fs => areWhole fs
  | power b n => b.isWhole && (n.whole?.map fun k => decide (0 ≤ k)).getD false
  | call .remainder args => areWhole args
  | call (.builtin .abs) args => areWhole args
  | call _ _ => false

def areWhole : List Form → Bool
  | [] => true
  | f :: fs => f.isWhole && areWhole fs

end

end Form

end Reckon.Formula
