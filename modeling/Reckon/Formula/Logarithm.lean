import Reckon.Formula.Power

namespace Reckon.Formula

namespace Form

-- What is multiplied with I in a form, if anything is.
def imaginaryFactor? : Form → Option Form
  | constant .i => some one
  | product fs =>
    if fs.contains i then
      match fs.erase i with
      | [f] => some f
      | fs => some (product fs)
    else none
  | _ => none

-- How often a base divides a quotient; the count is negative where it divides the denominator.
def multiplicity (base : Nat) (value : Rat) : Int :=
  let count (n : Nat) : Nat :=
    ((List.range (n.log2 + 1)).takeWhile fun k => n % Nat.pow base (k + 1) = 0).length
  (count value.num.natAbs : Int) - count value.den

-- The logarithm of a form that is not known to be negative.
private def logUpright (f : Form) : Form :=
  let ln := apply .ln f
  match f with
  | number (.exact r) =>
    if r = 0 then unbounded
    else if r = 1 then zero
    else if r.num = 1 then (apply .ln (ofInt r.den)).neg
    else ln
  | number (.rounded x) => number (.ofBinary x.log)
  | number q => if q = .infinite true then number (.infinite false) else f
  | constant .e => one
  | call (.builtin .exp) [g] => if g.nature.real then g else ln
  | _ => ln

private def quarterTurn : Form := product [half, i, pi]

-- The natural logarithm. A negative number is half a turn away from a positive one, a multiple of I
-- a quarter turn.
def log (f : Form) : Form :=
  match f.imaginaryFactor?.bind quotient? with
  | some r =>
    if r < 0 then addAll [quarterTurn.neg, logUpright (ofRat (-r))]
    else addAll [quarterTurn, logUpright (ofRat r)]
  | none =>
    match f with
    | number (.infinite _) => logUpright f
    | f =>
      if f.isConstant && f.nature.isNegative then addAll [product [i, pi], logUpright f.neg]
      else logUpright f

-- The logarithm to a base. Powers of the base come out of a number first.
def logTo (f : Form) (base : Nat) : Form :=
  let unit := log (ofInt base)
  let plain := (log f).div unit
  match f with
  | number (.exact r) =>
    let n := multiplicity base r
    if r = 0 ∨ n = 0 then plain
    else
      let rest := r * (Quantity.wholePower? (base : Rat) (-n)).getD 1
      (ofInt n).add ((log (ofRat rest)).div unit)
  | _ => plain

end Form

end Reckon.Formula
