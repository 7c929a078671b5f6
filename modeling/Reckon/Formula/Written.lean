import Reckon.Formula.Sum

namespace Reckon.Formula

-- How tightly the text of a formula holds together.
inductive Tightness where
  | sum
  | product
  | power
  | atom
deriving DecidableEq, Repr

namespace Tightness

def rank : Tightness → Nat
  | sum => 0
  | product => 1
  | power => 2
  | atom => 3

end Tightness

namespace Quantity

def tightness : Quantity → Tightness
  | exact value => if value < 0 then .sum else if value.den = 1 then .atom else .product
  | x => if x.isNegative then .sum else .atom

-- The texts above and below the line of a quantity without its sign.
def sides : Quantity → List String × List String
  | exact value =>
    (if value.num.natAbs = 1 then [] else [toString value.num.natAbs],
      if value.den = 1 then [] else [toString value.den])
  | x => ([x.abs.text true], [])

end Quantity

namespace Form

-- What starts with a minus holds together like a sum, and a remainder like a product.
def tightness : Form → Tightness
  | number value => value.tightness
  | sum _ => .sum
  | product (number value :: _) => if value.isNegative then .sum else .product
  | product _ => .product
  | power _ _ => .power
  | call head _ => if head.name = Head.remainder.name then .product else .atom
  | constant _ | symbol _ => .atom

-- A text in parentheses unless its form holds together more tightly than what is around it.
def enclosed (around : Tightness) (f : Form) (text : String) : String :=
  if f.tightness.rank ≤ around.rank then "(" ++ text ++ ")" else text

-- Terms with their signs.
private def joinTerms : List String → String
  | [] => ""
  | t :: ts =>
    t ++ String.join (ts.map fun t =>
      match t.toList with
      | '-' :: rest => " - " ++ String.ofList rest
      | _ => " + " ++ t)

-- A quotient: several factors below the line are enclosed.
private def quotient (above below : List String) : String :=
  let top := if above.isEmpty then "1" else "*".intercalate above
  match below with
  | [] => top
  | [t] => top ++ "/" ++ t
  | ts => top ++ "/(" ++ "*".intercalate ts ++ ")"

-- A power from the texts of its base and exponent.
private def powerText (base exponent : Form) (baseText exponentText : String) : String :=
  if exponent == half then "sqrt(" ++ baseText ++ ")"
  else enclosed .power base baseText ++ "**" ++ enclosed .power exponent exponentText

mutual

-- The text of a form inside another one. The parts are in the order in which they are shown.
def inner : Form → String
  | number value => value.text true
  | constant c => c.name
  | symbol name => name
  | sum ts => joinTerms (inners ts)
  | product (number value :: fs) =>
    let (above, below) := value.sides
    let (top, bottom) := sides (if value.isNegative then .sum else .product) fs
    (if value.isNegative then "-" else "") ++ quotient (above ++ top) (below ++ bottom)
  | product fs =>
    let (top, bottom) := sides .product fs
    quotient top bottom
  | power base exponent =>
    if exponent == half.neg then "1/sqrt(" ++ base.inner ++ ")"
    else if exponent == minusOne then "1/" ++ enclosed .power base base.inner
    else powerText base exponent base.inner exponent.inner
  | call head args => head.name ++ "(" ++ ", ".intercalate (inners args) ++ ")"

def inners : List Form → List String
  | [] => []
  | f :: fs => f.inner :: inners fs

-- The texts of factors above and below the line. A power with a negative exponent goes below it.
def sides (around : Tightness) : List Form → List String × List String
  | [] => ([], [])
  | .power base exponent :: fs =>
    let (above, below) := sides around fs
    if exponent.asTerm.1.isNegative then
      let turned := exponent.neg
      let text :=
        if turned == one then enclosed around base base.inner
        else
          let text := powerText base turned base.inner (turnedText exponent)
          enclosed around (power base turned) text
      (above, text :: below)
    else
      let text := powerText base exponent base.inner exponent.inner
      (enclosed around (power base exponent) text :: above, below)
  | f :: fs =>
    let (above, below) := sides around fs
    (enclosed around f f.inner :: above, below)

-- The text of the negative of an exponent with a negative coefficient.
def turnedText : Form → String
  | number value => value.neg.text true
  | product (number value :: fs) =>
    let (above, below) := value.sides
    let (top, bottom) := sides .product fs
    quotient (above ++ top) (below ++ bottom)
  | f => f.inner

end

-- The text of a form that stands alone. A float keeps all its places there.
def text : Form → String
  | number value => value.text false
  | f => f.arranged.inner

end Form

end Reckon.Formula
