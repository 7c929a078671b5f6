import Reckon.Number.Binary

namespace Reckon.Number

-- Fixed-point numbers with p binary places: n stands for n / 2 ^ p.
namespace Fixed

def unit (p : Nat) : Int := (Nat.pow 2 p : Nat)

def mul (p : Nat) (x y : Int) : Int := x * y / unit p

def div (p : Nat) (x y : Int) : Int := x * unit p / y

def sqrt (p : Nat) (x : Int) : Int := rootFloor 2 (x * unit p).toNat

def ofBinary (p : Nat) (x : Binary) : Int :=
  x.significand * (Nat.pow 2 (x.exponent + p).toNat : Nat) / (Nat.pow 2 (-(x.exponent + p)).toNat : Nat)

-- The sum of 1 / ((2k + 1) · n ^ (2k + 1)), with alternating signs or without.
def inverseSeries (alternating : Bool) (p n : Nat) : Int :=
  ((List.range (p / (2 * n.log2) + 2)).foldl
    (fun ((sum, power) : Int × Int) k =>
      let term := power / (2 * k + 1 : Nat)
      (if alternating && k % 2 == 1 then sum - term else sum + term, power / (n * n : Nat)))
    ((0 : Int), unit p / (n : Int))).1

-- The natural logarithm of two.
def logTwo (p : Nat) : Int :=
  18 * inverseSeries false p 26 - 2 * inverseSeries false p 4801 + 8 * inverseSeries false p 8749

-- Half a turn.
def pi (p : Nat) : Int := 16 * inverseSeries true p 5 - 4 * inverseSeries true p 239

-- e to a number from 0 to 1: the power series for a small part of it, then squarings.
def exp (p : Nat) (x : Int) : Int :=
  let small := x / 256
  let (sum, _) := (List.range (p / 8 + 2)).foldl
    (fun ((sum, term) : Int × Int) k =>
      let next := mul p term small / (k + 1 : Nat)
      (sum + next, next))
    (unit p, unit p)
  (List.range 8).foldl (fun y _ => mul p y y) sum

-- The natural logarithm of a number from 2/3 to 4/3.
def log (p : Nat) (x : Int) : Int :=
  let z := div p (x - unit p) (x + unit p)
  let square := mul p z z
  let (sum, _) := (List.range (p / 4 + 2)).foldl
    (fun ((sum, power) : Int × Int) k => (sum + power / (2 * k + 1 : Nat), mul p power square))
    ((0 : Int), z)
  2 * sum

-- Sine and cosine of a number from -1 to 1.
def sinCos (p : Nat) (x : Int) : Int × Int :=
  let (sine, cosine, _) := (List.range (p / 3 + 8)).foldl
    (fun ((sine, cosine, term) : Int × Int × Int) k =>
      let next := mul p term x / (k + 1 : Nat)
      match k % 4 with
      | 0 => (sine + next, cosine, next)
      | 1 => (sine, cosine - next, next)
      | 2 => (sine - next, cosine, next)
      | _ => (sine, cosine + next, next))
    ((0 : Int), unit p, unit p)
  (sine, cosine)

-- The angle of a number from 0 to 1: halved three times it is small.
def atan (p : Nat) (x : Int) : Int :=
  let halve (t : Int) : Int := div p t (unit p + sqrt p (unit p + mul p t t))
  let small := halve (halve (halve x))
  let square := mul p small small
  let (sum, _) := (List.range (p / 6 + 2)).foldl
    (fun ((sum, power) : Int × Int) k =>
      let term := power / (2 * k + 1 : Nat)
      (if k % 2 = 1 then sum - term else sum + term, mul p power square))
    ((0 : Int), small)
  8 * sum

end Fixed

namespace Binary

-- The places to compute with: enough for what is lost near zero.
def workPlaces (x : Binary) : Nat := 192 + 3 * (-x.magnitude).toNat

def ofFixed (places p : Nat) (n : Int) : Binary := rounded places n (-p)

-- The exponential function of a number beyond this magnitude is worked out no further than to lie
-- far beyond, or far below, all others.
def greatMagnitude : Nat := 40

def expTo (places : Nat) (x : Binary) : Binary :=
  if greatMagnitude < x.magnitude then
    ⟨1, if x.isNegative then -(Nat.pow 2 greatMagnitude : Nat) else (Nat.pow 2 greatMagnitude : Nat)⟩
  else
    let p := places + 64 + x.magnitude.toNat
    let y := Fixed.ofBinary p x
    let two := Fixed.logTwo p
    let n := y / two
    rounded places (Fixed.exp p (y - n * two)) (n - p)

-- The natural logarithm of a positive number.
def logTo (places : Nat) (x : Binary) : Binary :=
  let p := places + 64
  let k := x.magnitude
  let y := Fixed.ofBinary p ⟨x.significand, x.exponent - k⟩
  let (y, k) := if 3 * y < 2 * Fixed.unit p then (2 * y, k - 1) else (y, k)
  ofFixed places p (Fixed.log p y + k * Fixed.logTwo p)

def sinCosTo (places : Nat) (x : Binary) : Binary × Binary :=
  let p := places + 64 + x.magnitude.toNat
  let y := Fixed.ofBinary p x
  let quarter := Fixed.pi p / 2
  let turns := (2 * y + quarter) / (2 * quarter)
  let (s, c) := Fixed.sinCos p (y - turns * quarter)
  let (s, c) := match turns % 4 with
    | 0 => (s, c)
    | 1 => (c, -s)
    | 2 => (-s, -c)
    | _ => (-c, s)
  (ofFixed places p s, ofFixed places p c)

def piTo (places : Nat) : Binary := ofFixed places (places + 64) (Fixed.pi (places + 64))

def half (x : Binary) : Binary := if x.significand = 0 then x else ⟨x.significand, x.exponent - 1⟩

-- The angle of a number that is not negative.
def atanTo (places : Nat) (x : Binary) : Binary :=
  let p := places + 64
  if x.compare one == .gt then
    addTo places (piTo places).half
      (ofFixed places p (Fixed.atan p (Fixed.ofBinary p (divTo (places + 64) one x)))).neg
  else ofFixed places p (Fixed.atan p (Fixed.ofBinary p x))

-- Numbers closer to zero than this have the same sine, tangent and so on as themselves, and the
-- cosine of zero.
def tinyMagnitude : Int := -400

-- A function with f (-x) = -f x from its values above zero.
private def odd (f : Nat → Binary → Binary) (x : Binary) : Binary :=
  if x.significand = 0 ∨ x.magnitude < tinyMagnitude then x
  else
    let y := f (workPlaces x) x.abs
    rounded binaryPlaces (if x.isNegative then -y.significand else y.significand) y.exponent

-- A function with f (-x) = f x and f 0 = 1 from its values above zero.
private def even (f : Nat → Binary → Binary) (x : Binary) : Binary :=
  if x.significand = 0 ∨ x.magnitude < tinyMagnitude then one
  else
    let y := f (workPlaces x) x.abs
    rounded binaryPlaces y.significand y.exponent

def sin : Binary → Binary := odd fun p x => (sinCosTo p x).1

def cos : Binary → Binary := even fun p x => (sinCosTo p x).2

def tan : Binary → Binary := odd fun p x => divTo p (sinCosTo p x).1 (sinCosTo p x).2

def atan : Binary → Binary := odd atanTo

-- 1 - x ^ 2, and the root of it.
private def besides (p : Nat) (x : Binary) : Binary := addTo p one (mulTo p x x).neg

-- The angle with a given sine, which is at most one.
def asin : Binary → Binary := odd fun p x =>
  if x = one then (piTo p).half else atanTo p (divTo p x (sqrtTo p (besides p x)))

-- The angle with a given cosine, which is at most one and at least minus one.
def acos (x : Binary) : Binary :=
  let p := workPlaces x
  let angle :=
    if x.significand = 0 then (piTo p).half
    else
      let side := atanTo p (divTo p (sqrtTo p (besides p x)) x.abs)
      if x.isNegative then addTo p (piTo p) side.neg else side
  rounded binaryPlaces angle.significand angle.exponent

def exp (x : Binary) : Binary := expTo binaryPlaces x

def log (x : Binary) : Binary :=
  let y := logTo (workPlaces x) x
  rounded binaryPlaces y.significand y.exponent

def sinh : Binary → Binary := odd fun p x =>
  let y := expTo p x
  (addTo p y (divTo p one y).neg).half

def cosh : Binary → Binary := even fun p x =>
  let y := expTo p x
  (addTo p y (divTo p one y)).half

def tanh : Binary → Binary := odd fun p x =>
  let y := expTo p x
  let z := divTo p one y
  divTo p (addTo p y z.neg) (addTo p y z)

def asinh : Binary → Binary := odd fun p x =>
  logTo p (addTo p x (sqrtTo p (addTo p one (mulTo p x x))))

-- For a number that is at least one.
def acosh (x : Binary) : Binary :=
  let p := workPlaces x
  let y := logTo p (addTo p x (sqrtTo p (besides p x).neg))
  rounded binaryPlaces y.significand y.exponent

-- For a number between minus one and one.
def atanh : Binary → Binary := odd fun p x =>
  (logTo p (divTo p (addTo p one x) (addTo p one x.neg))).half

end Binary

end Reckon.Number
