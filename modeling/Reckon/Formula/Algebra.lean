import Reckon.Description
import Reckon.Formula.Function
import Reckon.Formula.Remainder

namespace Reckon.Formula

namespace Form

-- There is no remainder by zero.
def mod (p q : Form) : Except Raised Form :=
  match q with
  | number x => if x.isZero then .error ⟨"Modulo by zero"⟩ else .ok (p.rem q)
  | q => .ok (p.rem q)

end Form

-- Forms are such an algebra.
def algebra : Algebra Form where
  integer := .ofInt
  float x := .number (.ofLiteral x)
  symbol := .symbol
  add p q := .ok (p.add q)
  sub p q := .ok (p.sub q)
  mul p q := .ok (p.mul q)
  div p q := .ok (p.div q)
  mod := Form.mod
  pow p q := .ok (p.pow q)
  builtin b f := .ok (.ofBuiltin b f)
  call name args := .ok (.call (.unknown name) args)
  text := Form.text

end Reckon.Formula
