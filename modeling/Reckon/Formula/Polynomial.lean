import Reckon.Formula.Quantity

namespace Reckon.Formula

-- By the powers of the first variable, from the constant part on, without zeros at the end.
def Polynomial : Nat → Type
  | 0 => Rat
  | n + 1 => List (Polynomial n)

namespace Polynomial

def zero : (n : Nat) → Polynomial n
  | 0 => (0 : Rat)
  | _ + 1 => []

def isZero : (n : Nat) → Polynomial n → Bool
  | 0, r => Rat.num r == 0
  | _ + 1, ps => List.isEmpty ps

def ofRat : (n : Nat) → Rat → Polynomial n
  | 0, r => r
  | n + 1, r => if r = 0 then [] else [ofRat n r]

-- A monomial with an exponent for each variable.
def monomial : (n : Nat) → (exponents : List Nat) → Rat → Polynomial n
  | 0, _, r => r
  | n + 1, [], r => ofRat (n + 1) r
  | n + 1, e :: es, r => if r = 0 then [] else List.replicate e (zero n) ++ [monomial n es r]

-- The number that a polynomial is.
def constant? : (n : Nat) → Polynomial n → Option Rat
  | 0, r => some r
  | _ + 1, [] => some 0
  | n + 1, [p] => constant? n p
  | _ + 1, _ => none

-- The monomials with their coefficients.
def terms : (n : Nat) → Polynomial n → List (List Nat × Rat)
  | 0, r => [([], r)]
  | n + 1, ps =>
    (List.zipIdx ps).flatMap fun (p, e) =>
      if isZero n p then [] else (terms n p).map fun (es, r) => (e :: es, r)

-- The coefficient of the greatest power of the first variable, and so on for that coefficient.
def leading : (n : Nat) → Polynomial n → Rat
  | 0, r => r
  | n + 1, ps => ((List.getLast? ps).map (leading n)).getD 0

private def trim (n : Nat) (ps : List (Polynomial n)) : List (Polynomial n) :=
  (ps.reverse.dropWhile (isZero n)).reverse

private def addLists {α : Type} (plus : α → α → α) : List α → List α → List α
  | [], ys => ys
  | xs, [] => xs
  | x :: xs, y :: ys => plus x y :: addLists plus xs ys

def add : (n : Nat) → Polynomial n → Polynomial n → Polynomial n
  | 0, x, y => Rat.add x y
  | n + 1, ps, qs => trim n (addLists (add n) ps qs)

def scale (r : Rat) : (n : Nat) → Polynomial n → Polynomial n
  | 0, x => Rat.mul r x
  | n + 1, ps => if r = 0 then [] else List.map (scale r n) ps

def mul : (n : Nat) → Polynomial n → Polynomial n → Polynomial n
  | 0, x, y => Rat.mul x y
  | n + 1, ps, qs =>
    List.foldr
      (fun p rest => add (n + 1) (trim n (List.map (mul n p) qs)) (shift n rest))
      (zero (n + 1)) ps
where
  shift (n : Nat) (ps : List (Polynomial n)) : Polynomial (n + 1) :=
    if ps.isEmpty then [] else zero n :: ps

def sum (n : Nat) (ps : List (Polynomial n)) : Polynomial n := ps.foldl (add n) (zero n)

-- A difference of multiples in which the greatest power cancels: `c` · `ps` - `d` · x^k · `qs`.
private def cancel (n : Nat) (c d : Polynomial n) (k : Nat) (ps qs : List (Polynomial n)) :
    List (Polynomial n) :=
  let moved := List.replicate k (zero n) ++ qs.map (mul n d)
  add (n + 1) (trim n (ps.map (mul n c))) (trim n (moved.map (scale (-1) n)))

-- A quotient, if nothing is left.
def div? : (n : Nat) → Polynomial n → Polynomial n → Option (Polynomial n)
  | 0, x, y => quotient x y
  | n + 1, ps, qs =>
    match List.getLast? qs with
    | none => none
    | some q => long n (fun p => div? n p q) qs (List.length ps) ps []
where
  quotient (x y : Rat) : Option Rat := if y = 0 then none else some (x / y)
  long (n : Nat) (byLeading : Polynomial n → Option (Polynomial n)) (qs : List (Polynomial n)) :
      (fuel : Nat) → (rest found : List (Polynomial n)) → Option (List (Polynomial n))
    | _, [], found => some found
    | 0, _ :: _, _ => none
    | fuel + 1, rest, found => do
      if rest.length < qs.length then none
      else
        let c ← byLeading (← rest.getLast?)
        let k := rest.length - qs.length
        let found := add (n + 1) found (List.replicate k (zero n) ++ [c])
        long n byLeading qs fuel (cancel n (ofRat n 1) c k rest qs) found

-- The greatest number of which all coefficients are whole multiples.
def content (n : Nat) (p : Polynomial n) : Rat :=
  (terms n p).foldl (fun g t => Quantity.common g t.2) 0

private def positive (n : Nat) (p : Polynomial n) : Polynomial n :=
  if leading n p < 0 then scale (-1) n p else p

-- Without the common divisor of its coefficients.
private def primitive (n : Nat) (gcd : Polynomial n → Polynomial n → Polynomial n)
    (ps : List (Polynomial n)) : List (Polynomial n) × Polynomial n :=
  let c := ps.foldl gcd (zero n)
  (ps.map fun p => (div? n p c).getD p, c)

-- What is left of `ps` below multiples of `qs`, up to factors that do not hold the variable.
private def pseudoRemainder (n : Nat) (q : Polynomial n) (qs : List (Polynomial n)) :
    (fuel : Nat) → List (Polynomial n) → List (Polynomial n)
  | 0, ps => ps
  | fuel + 1, ps =>
    if ps.length < qs.length then ps
    else match ps.getLast? with
      | none => []
      | some p => pseudoRemainder n q qs fuel (cancel n q p (ps.length - qs.length) ps qs)

-- Euclid's algorithm on primitive polynomials.
private def euclid (n : Nat) (gcd : Polynomial n → Polynomial n → Polynomial n) :
    (fuel : Nat) → (ps qs : List (Polynomial n)) → List (Polynomial n)
  | 0, ps, _ => ps
  | fuel + 1, ps, qs =>
    match qs.getLast? with
    | none => ps
    | some q => euclid n gcd fuel qs (primitive n gcd (pseudoRemainder n q qs ps.length ps)).1

private def single? {α : Type} : List α → Option α
  | [x] => some x
  | _ => none

-- The greatest common divisor, with the greatest number that divides all coefficients and a
-- positive coefficient in front. It holds no variable that one of the polynomials does not hold.
def gcd : (n : Nat) → Polynomial n → Polynomial n → Polynomial n
  | 0, x, y => Quantity.common x y
  | n + 1, ps, qs =>
    if isZero (n + 1) ps then positive (n + 1) qs
    else if isZero (n + 1) qs then positive (n + 1) ps
    else if (constant? (n + 1) ps).isSome || (constant? (n + 1) qs).isSome then
      ofRat (n + 1) (Quantity.common (content (n + 1) ps) (content (n + 1) qs))
    else match single? ps, single? qs with
      | some p, _ => [List.foldl (gcd n) p qs]
      | _, some q => [List.foldl (gcd n) q ps]
      | none, none =>
        let (fs, c) := primitive n (gcd n) ps
        let (gs, d) := primitive n (gcd n) qs
        let (fs, gs) := if fs.length < gs.length then (gs, fs) else (fs, gs)
        let common := euclid n (gcd n) (fs.length + gs.length) fs gs
        positive (n + 1) (List.map (mul n (gcd n c d)) common)

end Polynomial

end Reckon.Formula
