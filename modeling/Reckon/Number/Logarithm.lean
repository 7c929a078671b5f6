import Reckon.Number.Reading
import Reckon.Number.Shortest

namespace Reckon.Number

-- One, in the fixed-point numbers that are squared. Every squaring doubles the error, so the
-- eighty digits taken leave more than a hundred of its 256 places in reserve.
def unity : Nat := Nat.pow 2 256

def logarithmPlaces : Nat := 80

-- The next `count` binary digits of the logarithm of a fixed-point number between one and ten,
-- after the digits `read` so far. If the square of the number reaches ten, the next digit is one.
def logarithmDigits : (count : Nat) → (y read : Nat) → Nat
  | 0, _, read => read
  | count + 1, y, read =>
    let square := y * y / unity
    if 10 * unity ≤ square then logarithmDigits count (square / 10) (2 * read + 1)
    else logarithmDigits count square (2 * read)

-- The decimal logarithm of m · 2 ^ q, which is positive, as a float. Unless the number is a power
-- of ten its logarithm is irrational, so one more digit is put after those computed to keep the
-- rounding off a tie.
def logarithm (m : Nat) (q : Int) : Float :=
  let (num, den) := ratio m q
  let whole := decimalExponent num den
  let (n, d) := scaled num den (-whole)
  let y := n * unity / d
  if y = unity ∧ n % d = 0 then Float.ofInt whole
  else
    let digits := whole * Nat.pow 2 logarithmPlaces + logarithmDigits logarithmPlaces y 0
    Float.ofInt (2 * digits + 1) * powerOfTwo (-(logarithmPlaces : Int) - 1)

end Reckon.Number
