import Reckon.Formula.Polynomial
import Reckon.Formula.Written
import Reckon.Formula.Power

namespace Reckon.Formula

namespace Quantity

-- The value of a finite quantity as a quotient.
def toRat : Quantity → Rat
  | exact value => value
  | rounded value => value.toRat
  | _ => 0

end Quantity

namespace Form

-- Sums to greater powers are not multiplied out.
def expandedExponent : Nat := 256

private def expansion? (base exponent : Form) : Option Nat :=
  if base.isSum then
    exponent.whole?.bind fun k =>
      if 0 < k ∧ k.natAbs ≤ expandedExponent then some k.natAbs else none
  else none

-- A generator with its exponent. What stands below the line is a generator of its own.
def asGenerator (f : Form) : Form × Nat :=
  let (base, k) := f.asWholePower
  (if k < 0 then base.pow minusOne else base, k.natAbs)

mutual

def generators : Form → List Form
  | number _ => []
  | sum ts => allGenerators ts
  | product fs => allGenerators fs
  | power b n =>
    if (expansion? b n).isSome then b.generators else [(asGenerator (power b n)).1]
  | f => [(asGenerator f).1]

def allGenerators : List Form → List Form
  | [] => []
  | f :: fs => f.generators ++ allGenerators fs

end

mutual

-- The numbers that a form is put together from.
def coefficients : Form → List Quantity
  | number q => [q]
  | sum ts => allCoefficients ts
  | product fs => allCoefficients fs
  | power b n => if (expansion? b n).isSome then b.coefficients else []
  | _ => []

def allCoefficients : List Form → List Quantity
  | [] => []
  | f :: fs => f.coefficients ++ allCoefficients fs

end

private def generatorMonomial (gens : List Form) (f : Form) : Polynomial gens.length :=
  let (base, k) := asGenerator f
  .monomial gens.length (gens.map fun g => if g == base then k else 0) 1

mutual

def polynomial (gens : List Form) : Form → Polynomial gens.length
  | number q => .ofRat gens.length q.toRat
  | sum ts => .sum gens.length (polynomials gens ts)
  | product fs => (polynomials gens fs).foldl (.mul gens.length) (.ofRat gens.length 1)
  | power b n =>
    match expansion? b n with
    | some k =>
      let p := polynomial gens b
      (List.replicate k p).foldl (.mul gens.length) (.ofRat gens.length 1)
    | none => generatorMonomial gens (power b n)
  | f => generatorMonomial gens f

def polynomials (gens : List Form) : List Form → List (Polynomial gens.length)
  | [] => []
  | f :: fs => polynomial gens f :: polynomials gens fs

end

-- Generators stand in the order of their names, but x to z come first and then p to w.
private def generatorKey (f : Form) : Nat × String × Nat :=
  let text := f.text
  let digits := (text.toList.reverse.takeWhile Char.isDigit).reverse
  let name := String.ofList (text.toList.take (text.length - digits.length))
  let group := match name.toList with
    | [c] => if 'x' ≤ c ∧ c ≤ 'z' then 1 else if 'p' ≤ c ∧ c ≤ 'w' then 2 else
        if 'a' ≤ c ∧ c ≤ 'o' then 3 else 4
    | _ => 4
  (group, name, (String.ofList digits).toNat?.getD 0)

private def compareKeys (x y : Nat × String × Nat) : Ordering :=
  (compare x.1 y.1).then ((compare x.2.1 y.2.1).then (compare x.2.2 y.2.2))

private def sortedGenerators (fs : List Form) : List Form :=
  let keyed := fs.eraseDups.map fun f => (f, generatorKey f)
  (keyed.mergeSort fun p q => (compareKeys p.2 q.2).isLE).map Prod.fst

-- The greatest common divisor of two forms. Whole coefficients keep their greatest common divisor;
-- in front of others a one stands, which is a binary number if one of them is.
def commonDivisor (f g : Form) : Form :=
  let coefficients := f.coefficients ++ g.coefficients
  let gens := sortedGenerators (f.generators ++ g.generators)
  if coefficients.all Quantity.isFinite then
    let n := gens.length
    let p := polynomial gens f
    let q := polynomial gens g
    let d := Polynomial.gcd n p q
    let rounded := coefficients.any Quantity.isRounded
    let whole := (Polynomial.terms n p ++ Polynomial.terms n q).all fun t => t.2.den = 1
    let d := if rounded || !whole then Polynomial.scale (Polynomial.leading n d).inv n d else d
    addAll ((Polynomial.terms n d).map fun (es, r) =>
      let coefficient : Quantity := if rounded then .rounded (.ofRat r) else .exact r
      multiply (number coefficient :: (gens.zip es).map fun (g, e) => g.pow (ofInt e)))
  else one

end Form

end Reckon.Formula
