import Reckon.Formula.Nature

namespace Reckon.Formula

-- What decides where a form stands: the class of its base, then the base's parts, then the
-- exponent, then the coefficient. The class is a group, a rank in it and, for calls, a name; the
-- parts are texts or keys. Numbers are the first group, then come constants and symbols, then
-- products, sums and powers, then calls.
inductive Key where
  | mk (group rank : Nat) (name : String) (texts : List String) (parts exponent : List Key)
    (coefficient : Quantity)

namespace Key

-- Some functions have a rank of their own, also where only the name is known. Of the others those
-- that are only names come first.
def ranked : List (String × Nat) :=
  [("exp", 10), ("log", 11), ("sin", 20), ("cos", 21), ("tan", 22), ("cot", 23), ("sinh", 30),
    ("cosh", 31), ("tanh", 32), ("coth", 33), ("conjugate", 40), ("re", 41), ("im", 42),
    ("arg", 43)]

def callRank (head : Head) : Nat :=
  (ranked.lookup head.name).getD (if head.isUnknown then 0 else 10000)

mutual

def compare : Key → Key → Ordering
  | mk group rank name texts parts exponent coefficient,
    mk group' rank' name' texts' parts' exponent' coefficient' =>
    (Ord.compare group group').then <|
    (Ord.compare rank rank').then <|
    (Ord.compare name name').then <|
    (Ord.compare (texts.length + parts.length) (texts'.length + parts'.length)).then <|
    (Ord.compare texts texts').then <|
    (compareAll parts parts').then <|
    (compareAll exponent exponent').then <|
    coefficient.compare coefficient'

def compareAll : List Key → List Key → Ordering
  | [], [] => .eq
  | [], _ :: _ => .lt
  | _ :: _, [] => .gt
  | key :: keys, key' :: keys' => (key.compare key').then (compareAll keys keys')

end

def ofNumber (value : Quantity) : Key := mk 1 0 "" [] [] [] value

-- A base with nothing around it.
def ofBase (group rank : Nat) (name : String) (texts : List String) (parts : List Key) : Key :=
  mk group rank name texts parts [ofNumber .one] .one

def ofNumberBase (value : Quantity) : Key := ofBase 1 0 "" [value.text true] []

def ofUnbounded : Key := ofBase 2 0 "" [] []

def ofConstant (c : Constant) : Key :=
  match c with
  | .e => ofBase 2 1 "" [] []
  | .i => ofBase 2 2 "" [] []
  | .pi => ofBase 2 3 "" [] []

def ofSymbol (name : String) : Key := ofBase 2 4 "" [name] []

def ofProduct (factors : List Key) : Key := ofBase 3 0 "" [] factors

def ofSum (terms : List Key) : Key := ofBase 3 1 "" [] terms

def ofPower (base exponent : Key) : Key := ofBase 3 2 "" [] [base, exponent]

def ofCall (head : Head) (args : List Key) : Key := ofBase 4 (callRank head) head.name [] args

def withCoefficient (value : Quantity) : Key → Key
  | mk group rank name texts parts exponent _ => mk group rank name texts parts exponent value

def withExponent : Key → (exponent : Key) → Key
  | mk group rank name texts parts _ coefficient, exponent =>
    mk group rank name texts parts [exponent] coefficient

-- The key of a product. A coefficient counts last.
def ofFactors : List Form → List Key → Key
  | .number value :: fs, key :: keys =>
    if value = .unbounded then ofProduct (key :: keys)
    else match fs, keys with
      | [_], [key] => key.withCoefficient value
      | _, keys => (ofProduct keys).withCoefficient value
  | _, keys => ofProduct keys

mutual

-- The key of a form whose parts are in order, and its key as the base of a power.
def ofForm : Form → Key × Key
  | .number value =>
    if value = .unbounded then (ofUnbounded, ofUnbounded)
    else (ofNumber value, ofNumberBase value)
  | .constant c => (ofConstant c, ofConstant c)
  | .symbol name => (ofSymbol name, ofSymbol name)
  | .sum terms => (ofSum (ofForms terms), ofSum (ofForms terms))
  | .product factors => (ofFactors factors (ofForms factors), ofProduct (ofForms factors))
  | .power base exponent =>
    let (key, asBase) := ofForm base
    let (exponentKey, _) := ofForm exponent
    (asBase.withExponent exponentKey, ofPower key exponentKey)
  | .call head args => (ofCall head (ofForms args), ofCall head (ofForms args))

def ofForms : List Form → List Key
  | [] => []
  | form :: forms => (ofForm form).1 :: ofForms forms

end

end Key

namespace Form

-- Forms whose parts are in order, sorted by their keys.
def sorted (fs : List Form) : List Form :=
  let keyed := fs.map fun f => (f, (Key.ofForm f).1)
  (keyed.mergeSort fun p q => (p.2.compare q.2).isLE).map Prod.fst

-- A factor as a base with a whole exponent, as large as it can be taken out.
def asWholePower (f : Form) : Form × Int :=
  match f with
  | power base exponent => split power base exponent
  | call (.builtin .exp) [exponent] => split (fun _ n => apply .exp n) e exponent
  | f => (f, 1)
where
  split (build : Form → Form → Form) (base exponent : Form) : Form × Int :=
    match exponent.asTerm with
    | (.exact c, tail) =>
      let left := ofTerm (.exact (mkRat 1 c.den)) tail
      (if left == one then base else build base left, c.num)
    | _ => (f, 1)

-- A term as a number and powers of what is not a number.
def monomial (t : Form) : Approximation × List (Form × Int) :=
  t.factors.foldl
    (fun (c, ps) f =>
      match f.value? with
      | some v => (c.mul v, ps)
      | none => (c, ps ++ [f.asWholePower]))
    (.ofReal 1.0, [])

def exponentIn (powers : List (Form × Int)) (base : Form) : Int :=
  ((powers.find? fun p => p.1 == base).map Prod.snd).getD 0

private def descending : List Int → List Int → Ordering
  | x :: xs, y :: ys => (Ord.compare y x).then (descending xs ys)
  | _, _ => .eq

-- Terms without any other difference stand in ascending order of their numbers, real ones first.
private def numbersBefore (z w : Approximation) : Bool :=
  if z.im == 0.0 && w.im == 0.0 then z.re <= w.re
  else if z.im == 0.0 then true
  else if w.im == 0.0 then false
  else if z.im == w.im then z.re <= w.re
  else z.im <= w.im

-- Whether a term is a number that may stand first: a positive number, E or pi.
private def leadingNumber : Form → Bool
  | number c => c.isPositive
  | constant c => c != .i
  | _ => false

private def negativeMultiple : Form → Bool
  | product [number d, _] => d.isNegative
  | _ => false

-- Whether a positive number and a negative multiple of one factor are all that is added; then the
-- number comes first, as in `1 - x`.
def numberFirst? : List Form → Option (List Form)
  | [t, u] =>
    if leadingNumber t && negativeMultiple u then some [t, u]
    else if leadingNumber u && negativeMultiple t then some [u, t]
    else none
  | _ => none

-- Terms whose parts are in order, in the order in which they stand in a sum.
def sortedTerms (ts : List Form) : List Form :=
  (numberFirst? ts).getD <|
    let monomials := ts.map fun t => (t, t.monomial)
    let bases := sorted ((monomials.flatMap fun m => m.2.2.map Prod.fst).eraseDups)
    let rows := monomials.map fun (t, c, ps) => (t, c, bases.map (exponentIn ps))
    let before (r s : Form × Approximation × List Int) : Bool :=
      match descending r.2.2 s.2.2 with
      | .lt => true
      | .gt => false
      | .eq => numbersBefore r.2.1 s.2.1
    (rows.mergeSort before).map Prod.fst

mutual

-- A form with all its parts in the order in which they are shown.
def arranged : Form → Form
  | number q => number q
  | constant c => constant c
  | symbol name => symbol name
  | sum ts => sum (sortedTerms (allArranged ts))
  | product fs => product (sorted (allArranged fs))
  | power b n => power b.arranged n.arranged
  | call head args => call head (allArranged args)

def allArranged : List Form → List Form
  | [] => []
  | f :: fs => f.arranged :: allArranged fs

end

def displayKey (f : Form) : Key := (Key.ofForm f.arranged).1

end Form

end Reckon.Formula
