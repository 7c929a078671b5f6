namespace Reckon.Number

-- d₁.d₂d₃… × 10 ^ exponent, without trailing zeros. Zero is the single digit 0 at exponent 0.
structure Decimal where
  digits : List Char
  exponent : Int
deriving DecidableEq, Repr

namespace Decimal

def zero : Decimal := ⟨['0'], 0⟩

-- The number `significand` × 10 ^ `unit`.
def ofScaled (significand : Nat) (unit : Int) : Decimal :=
  let digits := Nat.toDigits 10 significand
  let kept := (digits.reverse.dropWhile (· == '0')).reverse
  if kept.isEmpty then zero else ⟨kept, unit + digits.length - 1⟩

end Decimal

-- Exponents from -4 up to but not including `plainBelow` are written out, the others after an
-- `e`. With `pointAlways`, whole numbers end in `.0` where they are written out.
structure Layout where
  plainBelow : Int
  pointAlways : Bool

namespace Layout

-- Digits with the point after the first `whole` of them, zeros filled in.
private def plain (layout : Layout) (digits : List Char) (exponent : Int) : List Char :=
  if exponent < 0 then
    '0' :: '.' :: List.replicate (-exponent - 1).toNat '0' ++ digits
  else
    let whole := exponent.toNat + 1
    let fraction := digits.drop whole
    digits.take whole ++ List.replicate (whole - digits.length) '0' ++
      (if !fraction.isEmpty then '.' :: fraction
       else if layout.pointAlways then ['.', '0']
       else [])

-- One digit before the point; the exponent has a sign and at least two digits.
private def scientific (digits : List Char) (exponent : Int) : List Char :=
  let power := Nat.toDigits 10 exponent.natAbs
  digits.take 1 ++ (if digits.length ≤ 1 then [] else '.' :: digits.drop 1) ++
    ['e', if exponent < 0 then '-' else '+'] ++ List.replicate (2 - power.length) '0' ++ power

def write (layout : Layout) (negative : Bool) (d : Decimal) : String :=
  String.ofList <| (if negative then ['-'] else []) ++
    if -4 ≤ d.exponent ∧ d.exponent < layout.plainBelow then layout.plain d.digits d.exponent
    else scientific d.digits d.exponent

end Layout

end Reckon.Number
