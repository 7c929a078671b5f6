import Reckon.Formula.Arrangement

namespace Reckon.Formula

namespace Form

-- Adds to the coefficient of what is multiplied. The entries stand in the order of the forms.
def collect : Form × Quantity → List (Form × Quantity) → List (Form × Quantity)
  | entry, [] => [entry]
  | (g, c), (f, d) :: entries =>
    match g.order f with
    | .lt => (g, c) :: (f, d) :: entries
    | .eq => (f, c + d) :: entries
    | .gt => (f, d) :: collect (g, c) entries

-- What infinities leave of the other terms: beside a signed one no real term counts, beside one
-- without bounds no constant that is known to be real or not.
private def survives (constant : Quantity) (t : Form) : Bool :=
  match constant with
  | .infinite _ => !t.nature.real
  | .unbounded => !t.isConstant
  | _ => true

def addAll (fs : List Form) : Form :=
  let ts := allFlatTerms fs
  let constant := ts.foldl
    (fun c t => match t with
      | number value => c + value
      | _ => c)
    Quantity.zero
  if constant = .undefined then undefined
  else
    let entries := (ts.filter fun t => !t.isNumber).foldr
      (fun t entries => collect (t.asTerm.2, t.asTerm.1) entries) []
    let rest := (entries.filter fun e => !e.2.isZero).map fun e => ofTerm e.2 e.1
    let rest := rest.filter (survives constant)
    ofTerms (if constant = .zero then rest else number constant :: rest)

def add : Form → Form → Form
  | number x, number y => number (x + y)
  | f, g => addAll [f, g]

-- Whether a term has a coefficient without bounds, which takes in all others.
private def isUnbounded : Form → Bool
  | number value => value = .unbounded
  | product (number value :: _) => value = .unbounded
  | _ => false

-- A term times a number that is neither zero nor infinite.
def scaleTerm (c : Quantity) (t : Form) : Form :=
  if isUnbounded t then t
  else
    let (d, rest) := t.asTerm
    ofTerm (c * d) rest

-- A finite number times a form. Sums are multiplied out.
def scale (c : Quantity) (f : Form) : Form :=
  if c = .one then f
  else match f with
    | number value => number (c * value)
    | sum ts => if c.isZero then zero else addAll (ts.map (scaleTerm c))
    | f =>
      let (d, rest) := f.asTerm
      if isUnbounded f then (if c.isZero then undefined else f)
      else if (c * d).isZero then (if d.isFinite then zero else undefined)
      else match rest with
        | sum ts => addAll (ts.map (scaleTerm (c * d)))
        | rest => ofTerm (c * d) rest

def neg (f : Form) : Form := scale (.ofInt (-1)) f

def sub (f g : Form) : Form := f.add g.neg

-- Whether a form reads better with its sign turned: more of its terms are negative than not, or,
-- with as many of both, it stands before its negative.
def couldTurn : Form → Bool
  | number value => value.isNegative
  | product (number value :: _) => value.isNegative
  | sum ts =>
    let negative := (ts.filter fun t => t.asTerm.1.isNegative).length
    let others := ts.length - negative
    if negative = others then ((sum ts).displayKey.compare (sum ts).neg.displayKey).isLT
    else decide (others < negative)
  | _ => false

end Form

end Reckon.Formula
