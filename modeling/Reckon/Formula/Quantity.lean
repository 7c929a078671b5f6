import Reckon.Number.Shortest
import Reckon.Number.Elementary

namespace Reckon.Formula

open Number (Binary)

-- Whole literals, and what is computed from them alone, stay exact; any other literal is a binary
-- number, and so is all that is computed with one. Dividing by zero leaves a quantity without
-- bounds.
inductive Quantity where
  | exact (value : Rat)
  | rounded (value : Binary)
  | infinite (negative : Bool)
  | unbounded
  | undefined
deriving DecidableEq, Repr

namespace Quantity

instance : Inhabited Quantity := ⟨exact 0⟩

def zero : Quantity := exact 0

def one : Quantity := exact 1

def ofInt (n : Int) : Quantity := exact (n : Rat)

-- Binary numbers of a greater magnitude are infinite, and those with as many places after the point
-- are zero.
def greatestMagnitude : Nat := 4194304

-- Nothing is left of a binary number that is zero.
def ofBinary (x : Binary) : Quantity :=
  if x.significand = 0 ∨ x.magnitude < -greatestMagnitude then zero
  else if greatestMagnitude < x.magnitude then infinite x.isNegative
  else rounded x

def ofLiteral (x : Float) : Quantity :=
  match Number.exact x with
  | .finite negative m q => rounded (.ofScaled (Number.signed negative m) q)
  | .infinite negative => infinite negative
  | .undefined => undefined

def toBinary : Quantity → Binary
  | exact value => .ofRat value
  | rounded value => value
  | _ => .zero

def toFloat : Quantity → Float
  | exact value => (Binary.ofRat value).toFloat
  | rounded value => value.toFloat
  | infinite negative => if negative then -1.0 / 0.0 else 1.0 / 0.0
  | unbounded | undefined => 0.0 / 0.0

def isFinite : Quantity → Bool
  | exact _ | rounded _ => true
  | _ => false

def isExact : Quantity → Bool
  | exact _ => true
  | _ => false

def isRounded : Quantity → Bool
  | rounded _ => true
  | _ => false

-- Whether a quantity is zero, of either kind.
def isZero : Quantity → Bool
  | exact value => value == 0
  | rounded value => value.significand == 0
  | _ => false

def isNegative : Quantity → Bool
  | exact value => decide (value < 0)
  | rounded value => value.isNegative
  | infinite negative => negative
  | _ => false

def isPositive (x : Quantity) : Bool :=
  match x with
  | unbounded | undefined => false
  | x => !x.isZero && !x.isNegative

-- The whole number that an exact quantity is.
def whole? : Quantity → Option Int
  | exact value => if value.den = 1 then some value.num else none
  | _ => none

-- Whether a quantity has the value of a whole number.
def isWhole : Quantity → Bool
  | exact value => value.den == 1
  | rounded value => decide (0 ≤ value.exponent)
  | _ => false

def add : Quantity → Quantity → Quantity
  | undefined, _ | _, undefined => undefined
  | exact x, exact y => exact (x + y)
  | infinite n, infinite m => if n = m then infinite n else undefined
  | unbounded, y => if y.isFinite then unbounded else undefined
  | x, unbounded => if x.isFinite then unbounded else undefined
  | infinite n, _ | _, infinite n => infinite n
  | x, y => ofBinary (x.toBinary.add y.toBinary)

def neg : Quantity → Quantity
  | exact x => exact (-x)
  | rounded x => rounded x.neg
  | infinite n => infinite (!n)
  | unbounded => unbounded
  | undefined => undefined

def mul : Quantity → Quantity → Quantity
  | undefined, _ | _, undefined => undefined
  | exact x, exact y => exact (x * y)
  | unbounded, y | y, unbounded => if y.isZero then undefined else unbounded
  | infinite n, y | y, infinite n =>
    if y.isZero then undefined else infinite (n != y.isNegative)
  | x, y => ofBinary (x.toBinary.mul y.toBinary)

-- An exact quantity is divided by a binary number through the reciprocal.
def div : Quantity → Quantity → Quantity
  | undefined, _ | _, undefined => undefined
  | exact x, exact y => if y = 0 then (if x = 0 then undefined else unbounded) else exact (x / y)
  | x, infinite _ => if x.isFinite then zero else undefined
  | _, unbounded => zero
  | x, y =>
    if y.isZero then (if x.isZero then undefined else unbounded)
    else match x with
      | exact _ => x.mul (ofBinary (Binary.one.div y.toBinary))
      | rounded x => ofBinary (x.div y.toBinary)
      | infinite n => infinite (n != y.isNegative)
      | x => x

def abs (x : Quantity) : Quantity := if x.isNegative then x.neg else x

instance : Add Quantity := ⟨add⟩

instance : Mul Quantity := ⟨mul⟩

instance : Div Quantity := ⟨div⟩

instance : Neg Quantity := ⟨neg⟩

-- What is left of `x` below a whole multiple of `y`, with the sign of `y`.
def remainder (x y : Rat) : Rat := x - y * ((x / y).floor : Rat)

-- A remainder of exact quantities is exact. One of two binary numbers of which one is a multiple
-- of the other is a binary zero, and so is any zero left where an exact number is divided by a
-- binary one or the other way round through a fraction.
def rem? : Quantity → Quantity → Option Quantity
  | exact x, exact y => if y = 0 then none else some (exact (remainder x y))
  | exact x, rounded y =>
    if y.significand = 0 then none else some (rounded (.ofRat (remainder x y.toRat)))
  | rounded x, exact y =>
    if y = 0 then none
    else if y.den = 1 then some (ofBinary (x.remainder (.ofScaled y.num 0)))
    else some (rounded (.ofRat (remainder x.toRat y)))
  | rounded x, rounded y =>
    if y.significand = 0 then none
    else if 0 ≤ (x.div y).exponent then some (rounded .zero)
    else some (ofBinary (x.remainder y))
  | _, _ => none

-- `x` to a whole power, unless that divides by zero.
def wholePower? (x : Rat) (n : Int) : Option Rat :=
  if x = 0 then (if n < 0 then none else some (if n = 0 then 1 else 0))
  else if x = 1 ∨ x = -1 then some (if n % 2 = 0 then 1 else x)
  else if n < 0 then some (Rat.inv (Rat.pow x n.natAbs))
  else some (Rat.pow x n.natAbs)

-- By size.
def compare (x y : Quantity) : Ordering :=
  match x, y with
  | exact x, exact y => if x < y then .lt else if y < x then .gt else .eq
  | infinite n, infinite m => if n = m then .eq else if n then .lt else .gt
  | infinite n, _ => if n then .lt else .gt
  | _, infinite n => if n then .gt else .lt
  | x, y => x.toBinary.compare y.toBinary

-- An order in which only equal data are equal: by kind, then by size.
def order (x y : Quantity) : Ordering :=
  let kind : Quantity → Nat
    | exact _ => 0
    | rounded _ => 1
    | infinite _ => 2
    | unbounded => 3
    | undefined => 4
  (Ord.compare (kind x) (kind y)).then (x.compare y)

-- The greatest quotient of which both are whole multiples.
def common (x y : Rat) : Rat := mkRat (Nat.gcd x.num.natAbs y.num.natAbs) (Nat.lcm x.den y.den)

-- The places of a binary number that are shown.
def shownPlaces : Nat := 15

-- An exponent beyond this is taken off by a rounded power of ten before any digit is read.
def plainExponent : Nat := 20000

-- The decimal exponent that goes with a binary one, to within a few units.
def decimalMagnitude (e : Int) : Int :=
  e * 301029995663981195213738894724493026768 / (Nat.pow 10 39 : Nat)

-- m · 2 ^ q to the places shown, as digits and the exponent of the first. A half goes up.
def shownDigits (m : Nat) (q : Int) : List Char × Int :=
  let (m, q, shift) :=
    if q.natAbs ≤ plainExponent then (m, q, (0 : Int))
    else
      let shift := decimalMagnitude q
      let ten := Binary.powTo 192 (.ofScaled 10 0) shift.natAbs
      let x : Binary := ⟨m, q⟩
      let y := if shift < 0 then Binary.mulTo 192 x ten else Binary.divTo 192 x ten
      (y.significand.natAbs, y.exponent, shift)
  let (num, den) := Number.ratio m q
  let exponent := Number.decimalExponent num den
  let (n, d) := Number.scaled num den (shownPlaces - 1 - exponent)
  let digits := Nat.toDigits 10 ((2 * n + d) / (2 * d))
  if digits.length ≤ shownPlaces then (digits, exponent + shift)
  else (digits.take shownPlaces, exponent + shift + 1)

-- Without the zeros at the end, of which one stays after the point.
def dropZeros (digits : List Char) : List Char :=
  let kept := (digits.reverse.dropWhile (· == '0')).reverse
  if kept.getLast? = some '.' then kept ++ ['0'] else kept

-- Exponents from -4 up to 14 are written out.
def layOut (short : Bool) (digits : List Char) (exponent : Int) : List Char :=
  let trim (cs : List Char) : List Char := if short then dropZeros cs else cs
  if -5 < exponent ∧ exponent < shownPlaces then
    if exponent < 0 then
      trim ('0' :: '.' :: List.replicate (-exponent - 1).toNat '0' ++ digits)
    else trim (digits.take (exponent.toNat + 1) ++ '.' :: digits.drop (exponent.toNat + 1))
  else
    trim (digits.take 1 ++ '.' :: digits.drop 1) ++
      ['e', if exponent < 0 then '-' else '+'] ++ Nat.toDigits 10 exponent.natAbs

-- A binary number keeps the zeros at its end unless it is shortened.
def binaryText (short : Bool) (x : Binary) : String :=
  if x.significand = 0 then "0.0"
  else
    let (digits, exponent) := shownDigits x.significand.natAbs x.exponent
    String.ofList ((if x.isNegative then ['-'] else []) ++ layOut short digits exponent)

def text (short : Bool) : Quantity → String
  | exact value =>
    if value.den = 1 then toString value.num else s!"{value.num}/{value.den}"
  | rounded value => binaryText short value
  | infinite negative => if negative then "-oo" else "oo"
  | unbounded => "zoo"
  | undefined => "nan"

end Quantity

end Reckon.Formula
