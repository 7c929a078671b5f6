import Reckon.Formula.Root

namespace Reckon.Formula

-- The factors of a product by kind: the number before them, powers, the last one first, powers of
-- numbers with exponents that are no numbers, roots of positive numbers, and the exponent of minus
-- one.
structure Factors where
  coefficient : Quantity
  powers : List (Form × Form)
  numbers : List (Form × Form)
  roots : List (Quantity × Rat)
  turns : Rat

namespace Factors

open Form (asPower ofRat)

def empty : Factors := ⟨.one, [], [], [], 0⟩

def times (m : Factors) (c : Quantity) : Factors := { m with coefficient := m.coefficient * c }

private def insertPower (m : Factors) (f : Form) : Factors :=
  { m with powers := asPower f :: m.powers }

-- A power of a number.
private def insertNumber (m : Factors) (f : Form) (b : Quantity) (e : Form) : Factors :=
  match e.quotient? with
  | some r =>
    if b.isVast r then m.insertPower f
    else if r.den = 1 then m.times (b.powWhole r.num)
    else if b.isNegative then
      let m := { m with turns := m.turns + r }
      if b = .ofInt (-1) then m else { m with roots := m.roots ++ [(-b, r)] }
    else { m with roots := m.roots ++ [(b, r)] }
  | none =>
    if b.isPositive || e.isWhole then { m with numbers := m.numbers ++ [(.number b, e)] }
    else m.insertPower f

-- Puts one factor, which is no product, to the others.
def insert (m : Factors) (f : Form) : Factors :=
  match f with
  | .number q => m.times q
  | .constant .i => { m with turns := m.turns + mkRat 1 2 }
  | .power _ _ =>
    match asPower f with
    | (.number b, e) => m.insertNumber f b e
    | _ => m.insertPower f
  | f => m.insertPower f

-- Roots with negative exponents are rewritten first.
def collect (pow : Form → Form → Form) (m : Factors) (f : Form) : Factors :=
  match f with
  | .power (.number b) (.number (.exact r)) =>
    if r < 0 ∧ r.den ≠ 1 then (pow (.number b) (ofRat r)).flatFactors.foldl insert m
    else m.insert f
  | f => m.insert f

end Factors

-- Adds an exponent, which is a coefficient and what it multiplies, to those of its base.
private def collectExponent (b : Form) (entry : Form × Quantity) :
    List (Form × List (Form × Quantity)) → List (Form × List (Form × Quantity))
  | [] => [(b, [entry])]
  | (c, entries) :: groups =>
    match b.order c with
    | .lt => (b, [entry]) :: (c, entries) :: groups
    | .eq => (c, Form.collect entry entries) :: groups
    | .gt => (c, entries) :: collectExponent b entry groups

-- Powers of one base are joined where their exponents differ in their coefficients only.
def gather (powers : List (Form × Form)) : List (Form × Form) :=
  let groups := powers.foldr
    (fun (b, n) groups => collectExponent b (n.asTerm.2, n.asTerm.1) groups) []
  groups.flatMap fun (b, entries) => entries.map fun (t, c) => (b, t.scale c)

private def isPower : Form → Bool
  | .power _ _ => true
  | _ => false

private def isZero : Form → Bool
  | .number q => q.isZero
  | _ => false

-- The factors that gathered powers are. A base may change where its power is worked out; if it
-- then meets another one, the powers are gathered once more.
def settle (pow : Form → Form → Form) : (tries : Nat) → List (Form × Form) → List Form
  | tries, powers =>
    let powers := powers.filter fun p => !isZero p.2
    let worked := powers.map fun (b, n) =>
      if n == .one then (b, b, n)
      else
        let p := pow b n
        if isPower p && !isPower b then (p, p.asPower) else (p, b, n)
    let bases := worked.map fun w => w.2.1
    let changed := (powers.map Prod.fst) != bases
    match tries with
    | 0 => worked.map Prod.fst
    | tries + 1 =>
      if changed && bases.eraseDups.length != bases.length then
        settle pow tries (gather (worked.map Prod.snd))
      else worked.map Prod.fst

-- Puts a number to those with the same exponent.
private def joinNumber {ε : Type} [BEq ε] :
    List (ε × Quantity) → ε → Quantity → List (ε × Quantity)
  | [], e, q => [(e, q)]
  | (d, p) :: groups, e, q =>
    if d == e then (d, p * q) :: groups else (d, p) :: joinNumber groups e q

-- A root with an exponent above one, as a factor and a root with one below.
private def proper (q : Quantity) (r : Rat) : Quantity × Rat :=
  (q.powWhole r.floor, r - (r.floor : Rat))

-- Roots of numbers with their exponents, and the factor that came out of them.
private structure Radicals where
  coefficient : Quantity
  found : List (Rat × Quantity)

-- The common divisor of two exact numbers.
private def sharedDivisor (p q : Quantity) : Quantity :=
  match p, q with
  | .exact x, .exact y => .exact (Quantity.common x y)
  | _, _ => .one

-- Splits the common divisor off a root and each of those after it; what is split off joins the
-- end.
private def splitRoots (c : Quantity) (q : Quantity) (r : Rat) :
    List (Quantity × Rat) → Quantity × Quantity × List (Quantity × Rat) × List (Quantity × Rat)
  | [] => (c, q, [], [])
  | (p, s) :: others =>
    let g := sharedDivisor q p
    if g = .one then
      let (c, q, kept, grown) := splitRoots c q r others
      (c, q, (p, s) :: kept, grown)
    else
      let (whole, t) := proper g (r + s)
      let (c, q, kept, grown) := splitRoots (c * whole) (q / g) r others
      (c, q, (p / g, s) :: kept, if t = 0 then grown else (g, t) :: grown)

-- Works out roots one after the other.
private def workRoots (pow : Form → Form → Form) :
    (fuel : Nat) → List (Quantity × Rat) → Radicals → Radicals
  | 0, _, found => found
  | _, [], found => found
  | fuel + 1, (q, r) :: others, found =>
    let (c, q, kept, grown) := splitRoots found.coefficient q r others
    let found := { found with coefficient := c }
    let found :=
      if q = .one then found
      else
        (pow (.number q) (Form.ofRat r)).factors.foldl
          (fun found f =>
            match f with
            | .number p => { found with coefficient := found.coefficient * p }
            | .power (.number p) (.number (.exact s)) =>
              { found with found := joinNumber found.found s p }
            | _ => found)
          found
    workRoots pow fuel (kept ++ grown) found

-- The roots of a product: those with one exponent become one, those of one number are joined.
private def radicals (pow : Form → Form → Form) (c : Quantity) (roots : List (Quantity × Rat)) :
    Radicals :=
  let sums := roots.foldl (fun sums (q, r) => addExponent sums q r) []
  let groups := sums.foldl (fun groups (q, r) => joinNumber groups r q) []
  let (c, proper) := groups.foldl
    (fun (c, rest) (r, q) =>
      let (whole, s) := proper q r
      (c * whole, if s = 0 then rest else rest ++ [(q, s)]))
    (c, [])
  workRoots pow (64 + 16 * proper.length) proper ⟨c, []⟩
where
  addExponent : List (Quantity × Rat) → Quantity → Rat → List (Quantity × Rat)
    | [], q, r => [(q, r)]
    | (p, s) :: sums, q, r => if p = q then (p, s + r) :: sums else (p, s) :: addExponent sums q r

-- A root of minus one joins a root of a positive number with the same exponent.
private def turnOne (r : Rat) : List (Rat × Quantity) → Option (List (Rat × Quantity))
  | [] => none
  | (s, q) :: found =>
    if s = r ∧ q.isPositive then some ((s, -q) :: found)
    else (turnOne r found).map ((s, q) :: ·)

private structure Turned where
  coefficient : Quantity
  parts : List Form
  found : List (Rat × Quantity)

-- What the exponent of minus one comes to: a sign, and I or another root.
private def turn (turns : Rat) (x : Radicals) : Turned :=
  let whole := turns.floor
  let r := turns - (whole : Rat)
  let c := if whole % 2 = 0 then x.coefficient else -x.coefficient
  if r = 0 then ⟨c, [], x.found⟩
  else if r.den = 2 then ⟨c, [.i], x.found⟩
  else match turnOne r x.found with
    | some found => ⟨c, [], found⟩
    | none => ⟨c, [.power .minusOne (.ofRat r)], x.found⟩

-- An infinite coefficient takes in all factors whose sign is known.
private def absorb (negative : Bool) (fs : List Form) : Quantity × List Form :=
  let turns := (fs.filter fun f => f.nature.isNegative).length
  (.infinite (negative != (turns % 2 == 1)),
    fs.filter fun f => !f.nature.isPositive && !f.nature.isNegative)

-- A product of factors that are worked out.
private def assemble (c : Quantity) (fs : List Form) : Form :=
  let c := fs.foldl (fun c f => match f with | .number q => c * q | _ => c) c
  let fs := fs.filter fun f => !f.isNumber
  let (c, fs) := match c with
    | .infinite negative => absorb negative fs
    | .unbounded => (c, fs.filter fun f => !(f.isConstant && f.nature.nonzero))
    | c => (c, fs)
  if c = .undefined then .undefined
  else if c.isZero then .zero
  else match fs.mergeSort fun f g => (f.order g).isLE with
    | [] => .number c
    | [.sum ts] => if c.isFinite then (Form.sum ts).scale c else .product [.number c, .sum ts]
    | fs => Form.ofTerm c (Form.ofFactors fs)

-- The product of the factors collected.
def Factors.build (mul : List Form → Form) (pow : Form → Form → Form) (m : Factors) : Form :=
  let parts := settle pow 1 (gather m.powers.reverse)
  let groups := (gather m.numbers).foldl
    (fun groups (b, n) => match b with
      | .number q => joinNumber groups n q
      | _ => groups)
    []
  let numbers := (groups.filter fun g => !isZero g.1).map fun (n, q) => pow (.number q) n
  let x := turn m.turns (radicals pow m.coefficient m.roots)
  let parts := parts ++ numbers ++ x.parts ++ x.found.map fun (r, q) => pow (.number q) (.ofRat r)
  if parts.any fun f => f.factors.length != 1 then mul (.number x.coefficient :: parts)
  else assemble x.coefficient parts

end Reckon.Formula
