namespace Reckon.Number

-- `finite negative m q` is m · 2 ^ q with the given sign. Zero keeps its sign.
inductive Exact where
  | finite (negative : Bool) (mantissa : Nat) (exponent : Int)
  | infinite (negative : Bool)
  | undefined
deriving DecidableEq, Repr

-- Why a float has no whole number near it.
inductive NotFinite where
  | infinite
  | undefined
deriving DecidableEq, Repr

def exact (x : Float) : Exact :=
  let bits : Nat := x.toBits.toNat
  let negative := decide (Nat.pow 2 63 ≤ bits)
  let field : Nat := bits / Nat.pow 2 52 % Nat.pow 2 11
  let fraction := bits % Nat.pow 2 52
  if field = 2047 then
    if fraction = 0 then .infinite negative else .undefined
  else if field = 0 then .finite negative fraction (-1074)
  else .finite negative (Nat.pow 2 52 + fraction) ((field : Int) - 1075)

def signed (negative : Bool) (n : Nat) : Int := if negative then -(n : Int) else n

-- m · 2 ^ q as a quotient of natural numbers.
def ratio (m : Nat) (q : Int) : Nat × Nat := 
  (m * Nat.pow 2 q.toNat, Nat.pow 2 (-q).toNat)

-- The whole number nearest to a quotient; a half goes to the even neighbour.
def roundDiv (num den : Nat) : Nat :=
  let below := num / den
  let twice := 2 * (num % den)
  if twice < den then below
  else if twice = den then below + below % 2
  else below + 1

namespace Exact

-- A rounding is given by what it does to a sign and a quotient.
private def rounding (f : Bool → Nat → Nat → Int) : Exact → Except NotFinite Int
  | .finite negative m q => .ok (f negative (ratio m q).1 (ratio m q).2)
  | .infinite _ => .error .infinite
  | .undefined => .error .undefined

def floor : Exact → Except NotFinite Int :=
  rounding fun negative num den => (signed negative num).fdiv den

def ceil : Exact → Except NotFinite Int :=
  rounding fun negative num den => -((signed (!negative) num).fdiv den)

-- Toward zero.
def truncate : Exact → Except NotFinite Int :=
  rounding fun negative num den => signed negative (num / den)

-- To the nearest whole number, a half to the even one.
def round : Exact → Except NotFinite Int :=
  rounding fun negative num den => signed negative (roundDiv num den)

end Exact

def undefined : Float := 0.0 / 0.0

-- 2 ^ q for -1074 ≤ q ≤ 1023, where it is a float.
def powerOfTwo (q : Int) : Float :=
  if -1022 ≤ q then Float.ofBits (UInt64.ofNat ((q + 1023).toNat * Nat.pow 2 52))
  else Float.ofBits (UInt64.ofNat (Nat.pow 2 (q + 1074).toNat))

-- The float m · 2 ^ q, exactly, where there is one with m < 2 ^ 53.
def compose (negative : Bool) (m : Nat) (q : Int) : Float :=
  let x := Float.ofNat m * powerOfTwo q
  if negative then -x else x

-- The rounded quotient is within half a unit.
theorem roundDiv_near (num den : Nat) (hden : 0 < den) :
    2 * num ≤ (2 * roundDiv num den + 1) * den ∧ 2 * roundDiv num den * den ≤ 2 * num + den := by
  have hdiv := Nat.div_add_mod num den
  have hmod := Nat.mod_lt num hden
  have hcomm : den * (num / den) = num / den * den := Nat.mul_comm _ _
  simp only [roundDiv]
  split
  · simp only [Nat.add_mul, Nat.one_mul, Nat.mul_assoc]; omega
  · split
    · rcases Nat.mod_two_eq_zero_or_one (num / den) with h | h <;>
        simp only [h, Nat.add_mul, Nat.one_mul, Nat.mul_add, Nat.mul_assoc] <;> omega
    · simp only [Nat.add_mul, Nat.one_mul, Nat.mul_add, Nat.mul_assoc]; omega

end Reckon.Number
