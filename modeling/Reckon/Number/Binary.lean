import Reckon.Number.Exact

namespace Reckon.Number

-- significand · 2 ^ exponent, with an exponent of any size. The significand is kept odd, so equal
-- numbers are equal data.
structure Binary where
  significand : Int
  exponent : Int
deriving DecidableEq, Repr

-- The places that a rounded number keeps.
def binaryPlaces : Nat := 53

-- How many binary digits a number has.
def bitCount (n : Nat) : Nat := if n = 0 then 0 else n.log2 + 1

-- How often two divides a positive number.
def twos (n : Nat) : Nat := (n ^^^ (n - 1)).log2

-- The greatest number whose `degree`-th power is at most `n`. Its binary digits are tried from
-- the top.
def rootFloor (degree n : Nat) : Nat :=
  if bitCount n < degree then min 1 n
  else
    (List.range (bitCount n / degree + 1)).reverse.foldl
      (fun root k =>
        let next := root + Nat.pow 2 k
        if Nat.pow next degree ≤ n then next else root)
      0

namespace Binary

def zero : Binary := ⟨0, 0⟩

def one : Binary := ⟨1, 0⟩

-- The number s · 2 ^ e.
def ofScaled (s e : Int) : Binary :=
  if s = 0 then zero
  else
    let k := twos s.natAbs
    ⟨s / (Nat.pow 2 k : Nat), e + k⟩

-- s · 2 ^ e rounded to some number of places.
def rounded (places : Nat) (s e : Int) : Binary :=
  let extra := bitCount s.natAbs - places
  ofScaled (signed (decide (s < 0)) (roundDiv s.natAbs (Nat.pow 2 extra))) (e + extra)

-- num / den · 2 ^ e. The quotient is taken to two places more than are kept, and one more digit
-- tells whether anything is left, so that the rounding sees which side of a half it is on.
def ofQuotient (places : Nat) (num : Int) (den : Nat) (e : Int) : Binary :=
  let shift := places + 3 + den.log2 - num.natAbs.log2
  let n := num.natAbs * Nat.pow 2 shift
  let left := if n % den = 0 then 0 else 1
  rounded places (signed (decide (num < 0)) (2 * (n / den) + left)) (e - shift - 1)

def ofRat (r : Rat) : Binary := ofQuotient binaryPlaces r.num r.den 0

def toRat (x : Binary) : Rat :=
  mkRat (x.significand * (Nat.pow 2 x.exponent.toNat : Nat)) (Nat.pow 2 (-x.exponent).toNat)

-- The exponent of the power of two just above the number.
def magnitude (x : Binary) : Int := x.exponent + bitCount x.significand.natAbs

def isNegative (x : Binary) : Bool := decide (x.significand < 0)

def neg (x : Binary) : Binary := ⟨-x.significand, x.exponent⟩

def abs (x : Binary) : Binary := ⟨x.significand.natAbs, x.exponent⟩

def toFloat (x : Binary) : Float := (Float.ofInt x.significand).scaleB x.exponent

-- Exponents further apart than this are not brought together: the smaller number is a trace
-- beside the larger one.
def farApart : Nat := 8192

def addTo (places : Nat) (x y : Binary) : Binary :=
  if x.significand = 0 then rounded places y.significand y.exponent
  else if y.significand = 0 then rounded places x.significand x.exponent
  else if (x.magnitude - y.magnitude).natAbs ≤ farApart then
    let e := min x.exponent y.exponent
    let align (z : Binary) : Int := z.significand * (Nat.pow 2 (z.exponent - e).toNat : Nat)
    rounded places (align x + align y) e
  else
    let (large, small) := if x.magnitude < y.magnitude then (y, x) else (x, y)
    let wide := large.significand * (Nat.pow 2 (places + 2) : Nat)
    rounded places (wide + small.significand.sign) (large.exponent - places - 2)

def mulTo (places : Nat) (x y : Binary) : Binary :=
  rounded places (x.significand * y.significand) (x.exponent + y.exponent)

def divTo (places : Nat) (x y : Binary) : Binary :=
  ofQuotient places (x.significand * y.significand.sign) y.significand.natAbs
    (x.exponent - y.exponent)

def add (x y : Binary) : Binary := addTo binaryPlaces x y

def mul (x y : Binary) : Binary := mulTo binaryPlaces x y

def div (x y : Binary) : Binary := divTo binaryPlaces x y

-- A power by squaring, with the binary digits of the exponent from the top.
def powTo (places : Nat) (x : Binary) (n : Nat) : Binary :=
  let spare := places + 64 + 4 * bitCount n
  let power := (Nat.toDigits 2 n).foldl
    (fun y digit =>
      let square := mulTo spare y y
      if digit = '1' then mulTo spare square x else square)
    one
  rounded places power.significand power.exponent

def pow (x : Binary) (n : Int) : Binary :=
  if n < 0 then div one (powTo (binaryPlaces + 64) x n.natAbs)
  else powTo binaryPlaces x n.natAbs

-- The square root of a number that is not negative.
def sqrtTo (places : Nat) (x : Binary) : Binary :=
  let shift := 2 * places + 8
  let odd := (x.exponent % 2).toNat
  let n := x.significand.natAbs * Nat.pow 2 (shift + odd)
  let root := rootFloor 2 n
  let left := if root * root = n then 0 else 1
  rounded places (2 * root + left) ((x.exponent - odd - shift) / 2 - 1)

-- By size. Numbers of different magnitude need not be brought together.
def compare (x y : Binary) : Ordering :=
  if x.significand.sign ≠ y.significand.sign then
    Ord.compare x.significand.sign y.significand.sign
  else if x.magnitude ≠ y.magnitude then
    if x.isNegative then Ord.compare y.magnitude x.magnitude
    else Ord.compare x.magnitude y.magnitude
  else
    let e := min x.exponent y.exponent
    let align (z : Binary) : Int := z.significand * (Nat.pow 2 (z.exponent - e).toNat : Nat)
    Ord.compare (align x) (align y)

-- What is left of `x` below a whole multiple of `y`, with the sign of `y`.
def remainder (x y : Binary) : Binary :=
  let e := min x.exponent y.exponent
  let align (z : Binary) : Int := z.significand * (Nat.pow 2 (z.exponent - e).toNat : Nat)
  rounded binaryPlaces ((align x).fmod (align y)) e

def ofFloat? (x : Float) : Option Binary :=
  match exact x with
  | .finite negative m q => some (ofScaled (signed negative m) q)
  | _ => none

end Binary

end Reckon.Number
