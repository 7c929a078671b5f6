import Reckon.Formula.Sum

namespace Reckon.Formula

open Number (Binary bitCount rootFloor)

-- How products, powers and values of the exponential function are put together from others.
structure Builder where
  mul : List Form → Form
  pow : Form → Form → Form
  exp : Form → Form

-- The base and exponent of a number that is a power, with the greatest exponent there is.
def perfectPower? (n : Nat) : Option (Nat × Nat) :=
  (List.range (bitCount n + 1)).reverse.findSome? fun k =>
    if k < 2 then none
    else
      let root := rootFloor k n
      if Nat.pow root k = n then some (root, k) else none

-- Powers with more binary digits are left as they are.
def powerDigits : Nat := 1048576

-- Whether a power of a number has too many digits to be worked out.
def isVast (x s : Rat) : Bool :=
  let digits := bitCount (max x.num.natAbs x.den)
  decide (1 < digits ∧ powerDigits < digits * s.floor.natAbs)

-- Trial division stops here.
def trialBound : Nat := 32768

-- The prime factors of a number with their exponents. What is left beyond the bound counts as
-- prime.
def factorization (n : Nat) : List (Nat × Nat) :=
  go trialBound 2 n []
where
  go : (tries : Nat) → (d n : Nat) → List (Nat × Nat) → List (Nat × Nat)
    | 0, _, n, found => if n = 1 then found.reverse else ((n, 1) :: found).reverse
    | tries + 1, d, n, found =>
      if n = 1 then found.reverse
      else if n < d * d then ((n, 1) :: found).reverse
      else
        let (k, rest) := divide (bitCount n) d n
        go tries (d + 1) rest (if k = 0 then found else (d, k) :: found)
  divide : (tries : Nat) → (d n : Nat) → Nat × Nat
    | 0, _, n => (0, n)
    | tries + 1, d, n =>
      if n % d = 0 then
        let (k, rest) := divide tries d (n / d)
        (k + 1, rest)
      else (0, n)

namespace Quantity

def isVast (x : Quantity) (s : Rat) : Bool :=
  match x with
  | exact r => Formula.isVast r s
  | _ => false

-- A number to a whole power.
def powWhole (x : Quantity) (n : Int) : Quantity :=
  match x with
  | exact r => ((wholePower? r n).map exact).getD unbounded
  | rounded y =>
    if y.significand = 0 then (if n < 0 then unbounded else zero) else ofBinary (y.pow n)
  | infinite negative =>
    if n < 0 then zero else if n = 0 then one else infinite (negative && n % 2 != 0)
  | unbounded => if n < 0 then zero else if n = 0 then one else unbounded
  | undefined => undefined

end Quantity

namespace Form

-- The places to which powers of binary numbers are computed before they are rounded.
private def powPlaces : Nat := 256

-- A positive binary number to any binary power.
private def binaryPow (places : Nat) (x y : Binary) : Binary :=
  if 2 * Binary.greatMagnitude < y.magnitude then
    match x.compare .one with
    | .gt => Binary.expTo places y
    | .eq => .one
    | .lt => Binary.expTo places y.neg
  else if 0 ≤ y.exponent then
    let n := y.toRat.num
    if n < 0 then Binary.divTo places .one (Binary.powTo (places + 64) x n.natAbs)
    else Binary.powTo places x n.natAbs
  else if y.exponent = -1 then
    let root := Binary.powTo (places + 64) (Binary.sqrtTo (places + 64) x) y.significand.natAbs
    if y.isNegative then Binary.divTo places .one root
    else Binary.rounded places root.significand root.exponent
  else Binary.expTo places (Binary.mulTo powPlaces y (Binary.logTo powPlaces x))

-- A binary number to a binary power. A negative one turns by that many half turns.
def powBinary (x y : Binary) : Form :=
  if x.significand = 0 then (if y.isNegative then unbounded else zero)
  else if !x.isNegative then number (.ofBinary (binaryPow Number.binaryPlaces x y))
  else if 0 ≤ y.exponent then
    let norm := binaryPow Number.binaryPlaces x.abs y
    number (.ofBinary (if y.exponent = 0 then norm.neg else norm))
  else
    let norm := binaryPow powPlaces x.abs y
    let (s, c) :=
      if y.exponent = -1 then
        (Binary.ofScaled (if y.significand % 4 = 1 then 1 else -1) 0, Binary.zero)
      else Binary.sinCosTo powPlaces (Binary.mulTo powPlaces (Binary.piTo powPlaces) y)
    let im := Binary.mul norm s
    addAll [number (.ofBinary (Binary.mul norm c)), product [number (.ofBinary im), i]]

-- A root of minus one.
private def powMinusOne (build : Builder) (s : Rat) : Form :=
  if s.den = 2 then build.pow i (ofInt s.num)
  else if s.floor = 0 then power minusOne (ofRat s)
  else
    build.mul [number (Quantity.powWhole (.ofInt (-1)) s.floor),
      power minusOne (ofRat (s - (s.floor : Rat)))]

-- What comes out of a root of a number: a whole factor, roots with smaller exponents, and the
-- primes that stay under the root with their exponents.
private structure Extraction where
  whole : Nat
  roots : List Form
  left : List (Nat × Nat)

private def extract (build : Builder) (s : Rat) (primes : List (Nat × Nat)) : Extraction :=
  primes.foldl
    (fun x (prime, k) =>
      let total := k * s.num.natAbs
      let whole := x.whole * Nat.pow prime (total / s.den)
      let rest := total % s.den
      let common := Nat.gcd rest s.den
      if rest = 0 then { x with whole := whole }
      else if common ≠ 1 then
        { x with
          whole := whole
          roots := x.roots ++ [build.pow (ofInt prime) (ofRat (mkRat rest s.den))] }
      else { x with whole := whole, left := x.left ++ [(prime, rest)] })
    ⟨1, [], []⟩

-- A whole number other than zero and ±1 to a positive fraction.
private def rootOfWhole (build : Builder) (n : Int) (s : Rat) : Form :=
  let size := n.natAbs
  let turn := if n < 0 then [build.pow minusOne (ofRat s)] else []
  let root := rootFloor s.den size
  if 1 < root ∧ Nat.pow root s.den = size then
    build.mul (ofInt (Nat.pow root s.num.natAbs : Nat) :: turn)
  else
    let primes := match perfectPower? size with
      | some p => [p]
      | none => factorization size
    let x := extract build s primes
    let common := x.left.foldl (fun g p => Nat.gcd g p.2) 0
    let base := x.left.foldl (fun b p => b * Nat.pow p.1 (p.2 / common)) 1
    if base = size ∧ x.whole = 1 ∧ x.roots.isEmpty then power (ofInt n) (ofRat s)
    else
      build.mul (ofInt x.whole :: x.roots ++
        [build.pow (ofInt base) (ofRat (mkRat common s.den))] ++ turn)

-- A number to a fraction that is not whole.
private def rootOf (build : Builder) (r s : Rat) : Form :=
  if r = -1 then powMinusOne build s
  else if r.den = 1 ∧ r < 0 ∧ s = mkRat 1 2 then build.mul [i, build.pow (ofRat (-r)) half]
  else if s < 0 then
    if r < 0 then build.mul [build.pow minusOne (ofRat s), build.pow (ofRat (-r).inv) (ofRat (-s))]
    else build.pow (ofRat r.inv) (ofRat (-s))
  else if r.den = 1 then rootOfWhole build r.num s
  else
    let outer := s.floor + 1
    build.mul ((if r.num = 1 then [] else [build.pow (ofInt r.num) (ofRat s)]) ++
      [build.pow (ofInt r.den) (ofRat ((outer : Rat) - s)),
        ofRat (mkRat 1 (Nat.pow r.den outer.toNat))])

-- Zero to a power that is no number: only the sign of the exponent counts.
private def powZero (build : Builder) (e : Form) : Form :=
  let n := e.nature
  if n.isPositive then zero
  else if n.isNegative then unbounded
  else
    let (c, rest) := e.asTerm
    if c.isNegative then build.pow unbounded rest
    else if c ≠ .one then build.pow zero rest
    else power zero e

-- A number to any power, which is neither zero nor one.
def powNumber (build : Builder) (b : Quantity) (e : Form) : Form :=
  match b, e with
  | .undefined, _ | _, .number .undefined => undefined
  | b, .number (.exact s) =>
    if b.isVast s then power (number b) e
    else if s.den = 1 then number (b.powWhole s.num)
    else match b with
      | .exact r =>
        if r = 0 then (if s < 0 then unbounded else zero) else rootOf build r s
      | .rounded x =>
        if s.num = 1 ∧ s.den % 2 = 1 ∧ x.isNegative then
          build.mul [power minusOne e, powBinary x.neg (.ofRat s)]
        else powBinary x (.ofRat s)
      | .infinite negative =>
        if s < 0 then zero else if negative then power (number b) e else number b
      | b => if s < 0 then zero else number b
  | .exact r, .number (.rounded y) => powBinary (.ofRat r) y
  | .rounded x, .number (.rounded y) => powBinary x y
  | .infinite negative, .number (.rounded y) =>
    if y.isNegative then zero else if negative then power (number b) e else number b
  | .unbounded, .number (.rounded y) => if y.isNegative then zero else unbounded
  | .exact r, e => if r = 0 then powZero build e else power (ofRat r) e
  | b, e => power (number b) e

end Form

end Reckon.Formula
