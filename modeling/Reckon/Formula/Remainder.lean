import Reckon.Formula.Divisor

namespace Reckon.Formula

namespace Quantity

-- A finite quantity without its fraction.
def truncate : Quantity → Int
  | q => q.toRat.num.tdiv q.toRat.den

end Quantity

namespace Form

-- A real number without its fraction.
private def truncated? (f : Form) : Option Int :=
  match f with
  | number q => if q.isFinite then some q.truncate else none
  | f => do
    let z ← f.value?
    if f.nature.real then
      return (Quantity.rounded (← Number.Binary.ofFloat? z.re)).truncate
    else none

private def isInfinite : Form → Bool
  | number q => !q.isFinite
  | _ => false

-- A remainder that is known by its divisor and quotient.
private def remainderOfQuotient? (p q : Form) : Option Form :=
  let r := p.div q
  if r.isWhole then some zero
  else (truncated? r).map fun d =>
    let rest := p.sub (q.scale (.ofInt d))
    if (rest.mul q).nature.isNegative then rest.add q else rest

private def knownRemainder? (p q : Form) : Option Form :=
  if isInfinite p || isInfinite q then some undefined
  else if p == zero || p == q || p == q.neg || p.isWhole && q == one then some zero
  else match p, q with
    | number x, number y => (Quantity.rem? x y).map number
    | p, q => remainderOfQuotient? p q

-- The dividend and divisor of a remainder.
private def asRemainder? : Form → Option (Form × Form)
  | call .remainder [p, q] => some (p, q)
  | _ => none

-- The dividend when remainders by `q` among the terms of a sum are not taken.
private def withoutRemainders? (q : Form) (ts : List Form) : Option Form :=
  let inner := ts.filterMap asRemainder?
  if !inner.isEmpty && inner.all fun r => r.2 == q then
    some (addAll (ts.map fun t => ((asRemainder? t).map Prod.fst).getD t))
  else none

-- A remainder of a remainder, or of the negative of one.
private def remainderOfRemainder? (rem : Form → Form → Form) (p q : Form) : Option Form :=
  match asRemainder? p, asRemainder? p.neg with
  | some (f, m), _ =>
    if rem m q == zero then some (rem f q)
    else if (m.mul (q.sub m)).nature.nonnegative then some p
    else none
  | none, some (f, m) =>
    if rem m q == zero then some (rem f.neg q)
    else if (m.mul (q.add m)).nature.nonpositive then some p
    else none
  | none, none =>
    match p with
    | sum ts => (withoutRemainders? q ts).map fun f => rem f q
    | _ => none

-- The powers that all terms of a sum have in common, and the greatest common divisor of the
-- coefficients.
private def commonFactors (ts : List Form) : Quantity × List (Form × Int) :=
  let monomials := ts.map fun t =>
    (t.asTerm.1, (t.asTerm.2.factors.filter fun f => !f.isNumber).map asWholePower)
  let coefficient := monomials.foldl
    (fun g m => match g, m.1 with
      | .exact x, .exact y => .exact (Quantity.common x y)
      | _, _ => .one)
    Quantity.zero
  match monomials with
  | [] => (.one, [])
  | m :: ms =>
    let shared := m.2.filterMap fun (base, k) =>
      let exponents := ms.map fun m => exponentIn m.2 base
      let least := exponents.foldl min k
      let greatest := exponents.foldl max k
      if 0 < least then some (base, least) else if greatest < 0 then some (base, greatest) else none
    (coefficient, shared)

mutual

-- A form with the factors that all terms of its sums have in common taken out of them.
def factored : Form → Form
  | sum ts =>
    let (c, shared) := commonFactors ts
    let common := shared.map fun (base, k) => base.pow (ofInt k)
    let inverse := number (Quantity.one / c) :: shared.map fun (base, k) => base.pow (ofInt (-k))
    let rest := addAll (ts.map fun t => multiply (t :: inverse))
    multiply (number c :: common ++ [rest])
  | product fs => multiply (allFactored fs)
  | power b n => b.factored.pow n
  | f => f

def allFactored : List Form → List Form
  | [] => []
  | f :: fs => f.factored :: allFactored fs

end

-- A remainder as a factor times another remainder.
private structure Extracted where
  factor : Form
  dividend : Form
  divisor : Form

private def extractDivisor (p q : Form) : Extracted :=
  let g := commonDivisor p q
  if g == one || g == number (.rounded .one) then ⟨g, p, q⟩
  else ⟨g, (p.div g).factored, (q.div g).factored⟩

-- The terms of a sum are divided on their own where that leaves no remainder to be taken. Of
-- coefficients that are no quotients one that divides the other comes out.
private def simplifyTerms (rem : Form → Form → Form) (x : Extracted) : Extracted :=
  match x.dividend with
  | sum ts =>
    let worked := ts.map fun t =>
      let r := rem t x.divisor
      if t.callCount .remainder < r.callCount .remainder then t else r
    if worked == ts then x else { x with dividend := addAll worked }
  | p =>
    let (c, f) := p.asTerm
    let (d, g) := x.divisor.asTerm
    if c.isExact && d.isExact then x
    else match Quantity.rem? c d with
      | some r =>
        if r.isZero then ⟨x.factor.mul (number d), f.scale (.ofInt (c / d).truncate), g⟩ else x
      | none => x

private def turnBoth (x : Extracted) : Extracted :=
  if x.dividend.couldTurn && x.divisor.couldTurn then
    ⟨x.factor.neg, x.dividend.neg, x.divisor.neg⟩
  else x

-- The remainder that is left to be taken. A binary one in front of it goes inside.
private def Extracted.build (x : Extracted) (rem : Form → Form → Form) (before : Extracted) :
    Form :=
  let binaryOne := number (.rounded .one)
  if x.factor == binaryOne then call .remainder [x.dividend.mul binaryOne, x.divisor]
  else
    let (factor, dividend) := match x.factor with
      | product (f :: fs) =>
        if f == binaryOne then (ofFactors fs, x.dividend.mul binaryOne) else (x.factor, x.dividend)
      | f => (f, x.dividend)
    let rest :=
      if dividend == before.dividend && x.divisor == before.divisor then
        call .remainder [dividend, x.divisor]
      else rem dividend x.divisor
    factor.mul rest

def remWith : (fuel : Nat) → Form → Form → Form
  | 0, p, q => call .remainder [p, q]
  | fuel + 1, p, q =>
    let rem := remWith fuel
    match (knownRemainder? p q).orElse fun _ => remainderOfRemainder? rem p q with
    | some f => f
    | none =>
      let before := extractDivisor p q
      let x := turnBoth (simplifyTerms rem before)
      match knownRemainder? x.dividend x.divisor with
      | some f => f.mul x.factor
      | none => x.build rem before

-- What is left of one form below a whole multiple of another.
def rem : Form → Form → Form
  | number (.exact x), number (.exact y) =>
    if y = 0 then call .remainder [ofRat x, ofRat y] else ofRat (Quantity.remainder x y)
  | p, q => if q == zero then call .remainder [p, q] else remWith (p.size + q.size + 8) p q

end Form

end Reckon.Formula
