import Reckon.Formula.Angle

namespace Reckon.Formula

open Number (Binary)

namespace Form

private def real (x : Binary) : Form := number (.ofBinary x)

private def imaginary (x : Binary) : Form := (real x).mul i

-- Whether a binary number lies beyond one, and is not negative.
private def beyondOne (x : Binary) : Bool := (x.compare .one).isGT

private def rightAngle : Binary := (Binary.piTo Number.binaryPlaces).half

-- A function of a binary number. Inverse functions have complex values outside of their domains.
def onRounded (b : Builtin) (x : Binary) : Form :=
  let halfTurn := Binary.piTo Number.binaryPlaces
  match b with
  | .sin => real x.sin
  | .cos => real x.cos
  | .tan => real x.tan
  | .asin =>
    if beyondOne x then (real rightAngle).sub (imaginary x.acosh)
    else if beyondOne x.neg then (imaginary x.neg.acosh).sub (real rightAngle)
    else real x.asin
  | .acos =>
    if beyondOne x then imaginary x.acosh
    else if beyondOne x.neg then (real halfTurn).sub (imaginary x.neg.acosh)
    else real x.acos
  | .atan => real x.atan
  | .sinh => real x.sinh
  | .cosh => real x.cosh
  | .tanh => real x.tanh
  | .asinh => real x.asinh
  | .acosh =>
    if !(x.compare .one).isLT then real x.acosh
    else if beyondOne x.neg then (real x.neg.acosh).add (imaginary halfTurn)
    else imaginary x.acos
  | .atanh =>
    if x = .one then number (.infinite false)
    else if x = Binary.one.neg then number (.infinite true)
    else if beyondOne x then (real (Binary.one.div x).atanh).sub (imaginary rightAngle)
    else if beyondOne x.neg then (real (Binary.one.div x).atanh).add (imaginary rightAngle)
    else real x.atanh
  | b => apply b (real x)

-- Odd functions turn their sign with that of the argument, even ones do not see it.
inductive Symmetry where
  | odd
  | even
  | neither
deriving DecidableEq

def symmetry : Builtin → Symmetry
  | .sin | .tan | .asin | .atan | .sinh | .tanh | .asinh | .atanh => .odd
  | .cos | .cosh => .even
  | _ => .neither

-- The function that has the values of another one along the axis of I, and whether these are
-- multiples of I.
private def alongI? : Builtin → Option (Builtin × Bool)
  | .sin => some (.sinh, true)
  | .cos => some (.cosh, false)
  | .tan => some (.tanh, true)
  | .asin => some (.asinh, true)
  | .atan => some (.atanh, true)
  | .sinh => some (.sin, true)
  | .cosh => some (.cos, false)
  | .tanh => some (.tan, true)
  | .asinh => some (.asin, true)
  | .atanh => some (.atan, true)
  | _ => none

private def square (f : Form) : Form := f.pow (ofInt 2)

-- sqrt(1 - x^2) and sqrt(1 + x^2)
private def cathetus (x : Form) : Form := (one.sub (square x)).sqrt

private def hypotenuse (x : Form) : Form := (one.add (square x)).sqrt

-- sqrt(x - 1) * sqrt(x + 1)
private def legs (x : Form) : Form := (x.sub one).sqrt.mul (x.add one).sqrt

-- A function of the value of another one.
private def composed? (outer inner : Builtin) (x : Form) : Option Form :=
  match outer, inner with
  | .sin, .asin | .cos, .acos | .tan, .atan | .sinh, .asinh | .cosh, .acosh | .tanh, .atanh => some x
  | .sin, .acos | .cos, .asin => some (cathetus x)
  | .sin, .atan => some (x.div (hypotenuse x))
  | .cos, .atan => some (one.div (hypotenuse x))
  | .tan, .asin => some (x.div (cathetus x))
  | .tan, .acos => some ((cathetus x).div x)
  | .sinh, .acosh => some (legs x)
  | .sinh, .atanh => some (x.div (cathetus x))
  | .cosh, .asinh => some (hypotenuse x)
  | .cosh, .atanh => some (one.div (cathetus x))
  | .tanh, .asinh => some (x.div (hypotenuse x))
  | .tanh, .acosh => some ((legs x).div x)
  | .asin, .sin => angleOfSine? x
  | .asin, .cos => (angleOfCosine? x).map fun f => (halfTurns (mkRat 1 2)).sub f
  | .acos, .cos => angleOfCosine? x
  | .acos, .sin => (angleOfSine? x).map fun f => (halfTurns (mkRat 1 2)).sub f
  | .atan, .tan => angleOfTangent? x
  | .asinh, .sinh | .atanh, .tanh => if x.isConstant && x.nature.real then some x else none
  | .acosh, .cosh => if x.isConstant && x.nature.real then some x.abs else none
  | _, _ => none

-- A value that has a name of its own.
private def named? (b : Builtin) (f : Form) : Option Form :=
  match b with
  | .sin => f.halfTurns?.map sineOf
  | .cos => f.halfTurns?.map cosineOf
  | .tan => f.halfTurns?.map tangentOf
  | .asin => (arcSine? f).map halfTurns
  | .acos => (arcSine? f).map fun r => halfTurns (mkRat 1 2 - r)
  | .atan => (arcTangent? f).map halfTurns
  | .sinh | .tanh => if f == zero then some zero else none
  | .cosh => if f == zero then some one else none
  | .asinh =>
    if f == zero then some zero
    else if f == one then some (log ((ofInt 2).sqrt.add one))
    else if f == minusOne then some (log ((ofInt 2).sqrt.sub one))
    else none
  | .acosh =>
    if f == one then some zero
    else (arcSine? f).map fun r => (halfTurns (mkRat 1 2 - r)).mul i
  | .atanh =>
    if f == zero then some zero
    else if f == one then some (number (.infinite false))
    else if f == minusOne then some (number (.infinite true))
    else none
  | _ => none

-- A function of what has no bounds.
private def ofUnbounded (b : Builtin) : Form :=
  match b with
  | .asin | .acos | .asinh | .acosh => unbounded
  | .atan | .atanh => apply b unbounded
  | _ => undefined

private def ofInfinite (b : Builtin) (negative : Bool) : Form :=
  match b with
  | .sinh | .asinh => number (.infinite negative)
  | .cosh | .acosh => number (.infinite false)
  | .tanh => if negative then minusOne else one
  | .atan => halfTurns (mkRat (if negative then -1 else 1) 2)
  | b => apply b (number (.infinite negative))

-- A function of a form whose sign is as it should be.
private def upright (b : Builtin) (f : Form) : Form :=
  let composed := match f with
    | call (.builtin inner) [x] => composed? b inner x
    | _ => none
  ((named? b f).orElse fun _ => composed).getD (apply b f)

private def signed (b : Builtin) (f : Form) : Form :=
  match named? b f, symmetry b, f.couldTurn with
  | none, .odd, true => (upright b f.neg).neg
  | none, .even, true => upright b f.neg
  | _, _, _ => upright b f

private def onForm (b : Builtin) (f : Form) : Form :=
  match f.imaginaryFactor?, alongI? b with
  | some g, some (c, turned) => if turned then (signed c g).mul i else signed c g
  | _, _ => signed b f

-- A built-in function of a form.
def ofBuiltin (b : Builtin) (f : Form) : Form :=
  match b, f with
  | .exp, f => f.exp
  | .ln, f => f.log
  | .log, f => f.logTo 10
  | .log2, f => f.logTo 2
  | .sqrt, f => f.sqrt
  | .abs, f => f.abs
  | _, number .undefined => undefined
  | b, number .unbounded => ofUnbounded b
  | b, number (.infinite negative) => ofInfinite b negative
  | b, number (.rounded x) => onRounded b x
  | b, f => onForm b f

end Form

end Reckon.Formula
