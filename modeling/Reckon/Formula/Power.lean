import Reckon.Formula.Factors

namespace Reckon.Formula

-- What is under a line, if it is only a logarithm: then what is above it.
private def overLogarithm? (b : Form) (fs : List Form) : Option (List Form) :=
  let (below, above) := fs.partition fun f => match f with
    | .power _ n => n.asTerm.1.isNegative
    | _ => false
  match below with
  | [.power (.call (.builtin .ln) [c]) n] => if c == b && n == .minusOne then some above else none
  | _ => none

private def isAtom : Form → Bool
  | .number _ | .constant _ | .symbol _ => true
  | _ => false

-- The factors of a base by what is known of their signs.
private structure Signs where
  positive : List Form
  negative : List Form
  other : List Form

private def signs (fs : List Form) : Signs :=
  let imaginary := (fs.filter (· == .i)).length
  let x := (fs.filter (· != .i)).foldl
    (fun x f =>
      let n := f.nature
      if n.nonnegative then { x with positive := x.positive ++ [f] }
      else if n.isNegative then { x with negative := x.negative ++ [f] }
      else { x with other := x.other ++ [f] })
    (⟨[], [], []⟩ : Signs)
  if imaginary = 0 then x else { x with other := x.other ++ [.i] }

-- A negative factor is only taken out of a power with its sign turned, and the signs stay behind.
private def separated (x : Signs) : List Form × List Form :=
  match x.negative with
  | [] => (x.positive, x.other)
  | [.number q] =>
    if x.other.isEmpty || q = .ofInt (-1) then (x.positive, x.other ++ [.number q])
    else (x.positive ++ [.number (-q)], x.other ++ [.minusOne])
  | [f] => (x.positive, x.other ++ [f])
  | f :: fs =>
    let (sign, turned) :=
      if x.other.isEmpty && f.isNumber then
        ((if fs.length % 2 = 1 then f.neg else f), fs)
      else ((if fs.length % 2 = 0 then Form.minusOne else Form.one), f :: fs)
    (x.positive ++ turned.map Form.neg, if sign == .one then x.other else x.other ++ [sign])

-- The coefficients of a sum are divided by the largest one where one of them is a binary number.
private def largestCoefficient? (ts : List Form) : Option Quantity :=
  let cs := ts.map fun t => t.asTerm.1
  if cs.any Quantity.isRounded then
    let largest := cs.foldl
      (fun m c => if (c.abs.compare m).isGE then c.abs else m) Quantity.zero
    if largest.isZero || (largest.compare .one == .eq) then none else some largest
  else none

private def divideTerm (largest : Quantity) (t : Form) : Form :=
  let (c, rest) := t.asTerm
  if c = largest then rest
  else if c = -largest then rest.neg
  else rest.scale (c / largest)

-- The real and the imaginary part of a constant sum of two exact ones.
private def complexParts? : List Form → Option (Rat × Rat)
  | [.number (.exact r), .constant .i] => some (r, 1)
  | [.number (.exact r), .product [.number (.exact s), .constant .i]] => some (r, s)
  | _ => none

-- Whether powers of a power multiply the exponents.
private def exponentsMultiply (b n outer : Form) : Bool :=
  if outer.isWhole then true
  else if !n.nature.real then false
  else
    let below := match n with
      | .number q => (q.abs.compare .one).isLT
      | n => (n.value?.map fun z => decide (z.re.abs < 1.0)).getD false
    below || b.nature.nonnegative

-- A constant form to an infinite power.
private def infinitePower? (b n : Form) : Option Form :=
  match b.value?, n with
  | some z, .number (.infinite negative) =>
    if negative && !b.isNumber then none
    else
      let below := if negative then 1.0 < z.re.abs else z.re.abs < 1.0
      let above := if negative then 0.0 <= z.re && z.re < 1.0 else 1.0 < z.re
      if z.im != 0.0 then some .undefined
      else if negative && z.re == 0.0 then some .unbounded
      else if above then some (.number (.infinite false))
      else if below then some .zero
      else some .undefined
  | _, _ => none

-- A power of I.
private def powI (n : Form) : Form :=
  match n.whole? with
  | some k =>
    match k % 4 with
    | 0 => .one
    | 1 => .i
    | 2 => .minusOne
    | _ => Form.i.neg
  | none => .power .i n

-- A power of a product. A whole one is that of each factor, any other one only of factors that are
-- not negative.
private def powProduct (build : Builder) (fs : List Form) (n : Form) : Form :=
  if n.whole?.isSome then build.mul (fs.map fun f => .power f n)
  else match n with
    | .number q =>
      if !q.isFinite then .power (.product fs) n
      else
        let (apart, together) := separated (signs fs)
        let powers := apart.map fun f => match f with
          | .power (.number c) (.number (.exact r)) =>
            build.pow (.power (.number c) (.number (.exact r))) n
          | f => .power f n
        match powers, together with
        | powers, [] => build.mul powers
        | [], [f] => build.pow f n
        | [], fs => .power (Form.ofFactors fs) n
        | powers, fs => build.mul (powers ++ [.power (Form.ofFactors fs) n])
    | n => .power (.product fs) n

-- A power of a sum. One over r + s · I is r - s · I over r ^ 2 + s ^ 2.
private def powSum (build : Builder) (ts : List Form) (n : Form) : Form :=
  let plain := Form.power (.sum ts) n
  match n with
  | .number q =>
    if q.isExact && Form.areConstant ts then
      match complexParts? ts, q.whole? with
      | some (r, s), some (-1) =>
        Form.ofTerm (.exact (r * r + s * s).inv) (.sum [.ofRat r, Form.i.scale (.exact (-s))])
      | _, _ => plain
    else if q.isFinite && q.abs.compare .one != .eq then
      match largestCoefficient? ts with
      | some largest =>
        build.mul [build.pow (.number largest) n,
          build.pow (Form.addAll (ts.map (divideTerm largest))) n]
      | none => plain
    else plain
  | _ => plain

-- A power of an absolute value. Squares of a real number need none.
private def powAbs (build : Builder) (f n : Form) : Form :=
  let plain := Form.power (.apply .abs f) n
  match n.whole? with
  | some k =>
    if !f.nature.real then plain
    else if k % 2 = 0 then build.pow f n
    else if k = -1 then plain
    else build.mul [build.pow f (.ofInt (k - 1)), .apply .abs f]
  | none => plain

-- A power of the power `b` ^ `m`.
private def powPower (build : Builder) (b m n : Form) : Form :=
  let even := (m.whole?.map fun k => k % 2 == 0).getD false
  let b := if even && !n.isWhole && b.nature.real && !b.nature.nonnegative then
      Form.apply .abs b
    else b
  let halves := (n.quotient?.map fun r => r.den == 2).getD false
  if exponentsMultiply b m n then build.pow b (build.mul [m, n])
  else if m == .minusOne && halves && b.nature.isNegative then
    build.mul [build.pow .minusOne n, build.pow b.neg (build.mul [m, n])]
  else if b == .e then .power (.apply .exp m) n
  else .power (.power b m) n

-- A power by what the base is.
private def powByBase (build : Builder) (b n : Form) : Form :=
  match b with
  | .number q => Form.powNumber build q n
  | .constant .e => build.exp n
  | .constant .i => powI n
  | .product fs => powProduct build fs n
  | .sum ts => powSum build ts n
  | .power c m => powPower build c m n
  | .call (.builtin .exp) [m] => powPower build .e m n
  | .call (.builtin .abs) [f] => powAbs build f n
  | b => .power b n

-- The whole exponent of a constant whose sign is turned before its power is worked out.
private def turnable? (b n : Form) : Option Int :=
  match b with
  | .number _ | .product _ => if b.isConstant && b.couldTurn then n.whole? else none
  | _ => none

private def powForm (build : Builder) (b n : Form) : Form :=
  if n == .zero then .one
  else if n == .one then b
  else if b == .undefined || n == .undefined then .undefined
  else match infinitePower? b n, turnable? b n with
    | some f, _ => f
    | none, some k =>
      if k % 2 = 0 then powByBase build b.neg n else (build.pow b.neg n).neg
    | none, none =>
      if b == .one then .one
      else match if isAtom n || b == .e then none else overLogarithm? b n.asTerm.2.factors with
        | some above => build.exp (build.mul (.number n.asTerm.1 :: above))
        | none => powByBase build b n

-- The exponential function of half turns, which are taken back to between minus one and one.
private def expOfTurns (r : Rat) : Form :=
  let left := Quantity.remainder r 2
  if left = 0 then .one
  else if left = 1 then .minusOne
  else if left = mkRat 1 2 then .i
  else if left = mkRat 3 2 then Form.i.neg
  else .apply .exp (.product [.ofRat (if 1 < left then left - 2 else left), .i, .pi])

private def logarithmOf? : Form → Option Form
  | .call (.builtin .ln) [f] => some f
  | _ => none

-- The exponential function of a product. It undoes a logarithm in it, if there is one and all else
-- is a real constant.
private def expProduct (build : Builder) (fs : List Form) : Form :=
  match fs with
  | [.constant .i, .constant .pi] => .minusOne
  | [.number (.exact r), .constant .i, .constant .pi] => expOfTurns r
  | fs =>
    let others := fs.filter fun f => (logarithmOf? f).isNone
    match fs.filterMap logarithmOf?, others.all fun f => f.isConstant && f.nature.real with
    | [f], true => build.pow f (build.mul others)
    | _, _ => .apply .exp (.product fs)

-- The exponential function of a sum. Terms for which it is worked out come out as factors.
private def expSum (build : Builder) (ts : List Form) : Form :=
  let argument? : Form → Option Form
    | .call (.builtin .exp) [f] => some f
    | _ => none
  let worked := ts.map fun t => if t == .one then .apply .exp t else build.exp t
  let out := worked.filter fun f => (argument? f).isNone
  let kept := worked.filterMap argument?
  if kept == ts then .apply .exp (.sum ts)
  else build.mul (out ++ [.apply .exp (Form.addAll kept)])

private def expForm (build : Builder) (f : Form) : Form :=
  match f with
  | .number (.rounded x) => .number (.ofBinary x.exp)
  | .number (.infinite negative) => if negative then .zero else f
  | .number .unbounded | .number .undefined => .undefined
  | .number (.exact r) => if r = 0 then .one else if r = 1 then .e else .apply .exp f
  | .call (.builtin .ln) [g] => g
  | .product fs => expProduct build fs
  | .sum ts => expSum build ts
  | f => .apply .exp f

mutual

-- The product of forms.
def mulAll : (fuel : Nat) → List Form → Form
  | 0, fs => .product fs
  | fuel + 1, fs =>
    ((Form.allFlatFactors fs).foldl (Factors.collect (powWith fuel)) .empty).build
      (mulAll fuel) (powWith fuel)

-- A form to the power of another.
def powWith : (fuel : Nat) → (base exponent : Form) → Form
  | 0, b, n => .power b n
  | fuel + 1, b, n => powForm ⟨mulAll fuel, powWith fuel, expWith fuel⟩ b n

-- The exponential function.
def expWith : (fuel : Nat) → Form → Form
  | 0, f => .apply .exp f
  | fuel + 1, f => expForm ⟨mulAll fuel, powWith fuel, expWith fuel⟩ f

end

namespace Form

-- Working out a form goes no deeper than its parts allow, a few steps for each.
def depthBound (fs : List Form) : Nat := 4 * sizes fs + 32

def pow (b n : Form) : Form := powWith (depthBound [b, n]) b n

def multiply (fs : List Form) : Form := mulAll (depthBound fs) fs

def mul : Form → Form → Form
  | number x, number y => number (x * y)
  | number x, f => if x.isFinite && !x.isZero then f.scale x else multiply [number x, f]
  | f, number y => if y.isFinite && !y.isZero then f.scale y else multiply [f, number y]
  | f, g => multiply [f, g]

def div : Form → Form → Form
  | number x, number y => number (x / y)
  | f, g => f.mul (g.pow minusOne)

def exp (f : Form) : Form := expWith (depthBound [f]) f

def sqrt (f : Form) : Form := f.pow half

end Form

end Reckon.Formula
