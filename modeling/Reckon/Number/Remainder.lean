import Reckon.Number.Exact

namespace Reckon.Number

-- What is left of `x` after whole multiples of `y` are taken off toward zero. It is always a float,
-- so nothing is rounded. Its sign is that of `x`, also when nothing is left.
def remainder (x y : Float) : Float :=
  match exact x, exact y with
  | .finite negative m q, .finite _ n p =>
    if n = 0 then undefined
    else
      let unit := min q p
      let left := m * Nat.pow 2 (q - unit).toNat
      let right := n * Nat.pow 2 (p - unit).toNat
      compose negative (left % right) unit
  | .finite .., .infinite _ => x
  | _, _ => undefined

end Reckon.Number
