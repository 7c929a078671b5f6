import Reckon.Formula.Logarithm

namespace Reckon.Formula

namespace Form

-- The real part of a term, as a factor that is known to be real and a call on the rest.
private def realPartOfTerm (t : Form) : Form :=
  match t.imaginaryFactor? with
  | some f => if f.nature.real then zero else (call .imaginaryPart [f]).neg
  | none =>
    if t.nature.real then t
    else
      let (known, rest) := t.factors.partition fun f => f.nature.real
      multiply (known ++ [call .realPart [ofFactors rest]])

def realPart (f : Form) : Form := addAll (f.terms.map realPartOfTerm)

-- The absolute value of a form other than a product, where it is no call of its own.
def knownAbs? : Form → Option Form
  | number q => some (if q = .unbounded then number (.infinite false) else number q.abs)
  | call (.builtin .exp) [f] => some f.realPart.exp
  | power b n =>
    let f := power b n
    if b.nature.real then
      match n.whole? with
      | some k =>
        if k % 2 = 0 then some f else some (((knownAbs? b).getD (apply .abs b)).pow n)
      | none => if b.nature.nonnegative then some (b.pow n.realPart) else ofNature f
    else ofNature f
  | f => ofNature f
where
  ofNature (f : Form) : Option Form :=
    if f.nature.nonnegative then some f
    else if f.nature.nonpositive then some f.neg
    else none

-- The absolute value of a factor, if it is known. One below the line is turned over.
private def knownFactor? : Form → Option Form
  | power b n =>
    match n.whole? with
    | some k => if k < 0 then (knownAbs? b).map (·.pow n) else knownAbs? (power b n)
    | none => knownAbs? (power b n)
  | f => knownAbs? f

-- Turns a sum, also one under a whole power, which reads better with its sign turned. The sign does
-- not count in an absolute value.
private def turned : Form → Form
  | power b n => if n.whole?.isSome && b.isSum && b.couldTurn then b.neg.pow n else power b n
  | f => if f.isSum && f.couldTurn then f.neg else f

-- A call on all factors whose absolute values are not known, times the other absolute values.
private def absOfFactors (fs : List Form) : Form :=
  let (known, rest) := (fs.map turned).foldl
    (fun (known, rest) f => match knownFactor? f with
      | some g => (known ++ [g], rest)
      | none => (known, rest ++ [f]))
    ([], [])
  multiply (if rest.isEmpty then known else known ++ [apply .abs (multiply rest)])

-- The exact square of the absolute value of r + s · I.
private def squaredNorm? (f : Form) : Option Rat :=
  match f.terms with
  | [number (.exact r), t] => do
    let s ← t.imaginaryFactor?.bind quotient?
    return r * r + s * s
  | [t] => do
    let s ← t.imaginaryFactor?.bind quotient?
    return s * s
  | _ => none

private def absAbove (f : Form) : Form :=
  match squaredNorm? f with
  | some r => (ofRat r).sqrt
  | none =>
    match f with
    | product fs => absOfFactors fs
    | f => (knownAbs? f).getD (apply .abs (if f.isSum then turned f else f))

private def isBelow : Form → Bool
  | power _ n => n.asTerm.1.isNegative
  | _ => false

-- Where symbols stand below the line only, the absolute value is that of what is above it over that
-- of what is below.
def abs (f : Form) : Form :=
  let (below, above) := f.factors.partition isBelow
  if haveSymbol below && !haveSymbol above then
    (absAbove (multiply above)).div (absAbove (multiply (below.map fun g => g.pow minusOne)))
  else absAbove f

end Form

end Reckon.Formula
