import Reckon.Number.Exact
import Reckon.Number.Decimal

namespace Reckon.Number

-- num / den × 10 ^ power as a quotient.
def scaled (num den : Nat) (power : Int) : Nat × Nat :=
  (num * Nat.pow 10 power.toNat, den * Nat.pow 10 (-power).toNat)

-- The exponent e with 10 ^ e ≤ num / den < 10 ^ (e + 1), for a positive quotient. Counting the
-- digits of both leaves two candidates.
def decimalExponent (num den : Nat) : Int :=
  let guess : Int := (Nat.toDigits 10 num).length - (Nat.toDigits 10 den).length
  let (n, d) := scaled num den (-guess)
  if d ≤ n then guess else guess - 1

-- The positive float m · 2 ^ q in quarters of its last place, with the ends of the interval of
-- reals that round to it. Below a power of two floats are twice as dense; the ends belong to the
-- interval when m is even.
structure Roundings where
  lower : Nat
  value : Nat
  upper : Nat
  closed : Bool

def roundings (m : Nat) (q : Int) : Roundings where
  lower := if m = Nat.pow 2 52 ∧ -1074 < q then 4 * m - 1 else 4 * m - 2
  value := 4 * m
  upper := 4 * m + 2
  closed := m % 2 == 0

-- Whether the point c of the grid with step den / num (in quarters) rounds to the float.
def Roundings.holds (r : Roundings) (num den c : Nat) : Bool :=
  if r.closed then decide (r.lower * num ≤ c * den) && decide (c * den ≤ r.upper * num)
  else decide (r.lower * num < c * den) && decide (c * den < r.upper * num)

-- On a grid only the two neighbours of the value need a look: if any point of the grid rounds to
-- the float, one of them does. The nearer one is taken, the even one of two equally near.
def Roundings.onGrid? (r : Roundings) (num den : Nat) : Option Nat :=
  let below := r.value * num / den
  let twice := 2 * (r.value * num % den)
  let nearest :=
    if twice < den then below else if twice = den then below + below % 2 else below + 1
  let other := if nearest = below then below + 1 else below
  if r.holds num den nearest then some nearest
  else if r.holds num den other then some other
  else none

-- Tries grids of more and more digits; seventeen digits always suffice.
def shortestFrom (r : Roundings) (q exponent : Int) : (tries : Nat) → (count : Nat) → Decimal
  | 0, count => .ofScaled 0 count
  | tries + 1, count =>
    let unit := exponent - count + 1
    let (n, d) := ratio 1 (q - 2)
    let (num, den) := scaled n d (-unit)
    match r.onGrid? num den with
    | some c => .ofScaled c unit
    | none => shortestFrom r q exponent tries (count + 1)

-- The fewest digits that read back as m · 2 ^ q, and of those the nearest.
def shortest (m : Nat) (q : Int) : Decimal :=
  if m = 0 then .zero
  else
    let (num, den) := ratio m q
    shortestFrom (roundings m q) q (decimalExponent num den) 17 1

-- m · 2 ^ q rounded to `count` significant digits, a half to the even digit.
def significant (count m : Nat) (q : Int) : Decimal :=
  if m = 0 then .zero
  else
    let (num, den) := ratio m q
    let unit := decimalExponent num den - count + 1
    let (n, d) := scaled num den (-unit)
    .ofScaled (roundDiv n d) unit

-- What is written for a value that has no digits.
def writeWith (layout : Layout) (digits : Nat → Int → Decimal) : Exact → String
  | .finite negative m q => layout.write negative (digits m q)
  | .infinite negative => if negative then "-inf" else "inf"
  | .undefined => "nan"

-- In full: whole numbers keep a `.0`, sixteen digits before the point are the most.
def fullText (x : Float) : String := writeWith ⟨16, true⟩ shortest (exact x)

-- Rounded to `count` significant digits, of which there is at least one. A float has fewer than
-- 800 digits, so larger counts all act alike.
def significantText (count : Nat) (x : Float) : String :=
  let places := max count 1
  writeWith ⟨places, false⟩ (significant (min places 800)) (exact x)

end Reckon.Number
