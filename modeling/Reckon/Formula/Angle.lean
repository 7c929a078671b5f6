import Reckon.Formula.Magnitude

namespace Reckon.Formula

namespace Form

-- A multiple of half a turn.
def halfTurns (r : Rat) : Form := scale (.exact r) pi

-- How many half turns a form is. A binary number counts if its fraction is a power of one half.
def halfTurns? : Form → Option Rat
  | constant .pi => some 1
  | number (.exact r) => if r = 0 then some 0 else none
  | product [number (.exact r), constant .pi] => some r
  | product [number (.rounded x), constant .pi] =>
    let r := x.toRat
    let fraction := Quantity.remainder r.abs 1
    if fraction = 0 ∨ fraction.num = 1 then some r else none
  | _ => none

private def rootOver (n m : Int) (d : Nat) : Form :=
  scale (.exact (mkRat m d)) (power (ofInt n) half)

-- Sines of the fractions of half a turn up to a right angle.
def sines : List (Rat × Form) :=
  [(0, zero), (mkRat 1 6, half), (mkRat 1 4, rootOver 2 1 2), (mkRat 1 3, rootOver 3 1 2),
    (mkRat 1 2, one)]

-- Tangents of the fractions of half a turn below a right angle.
def tangents : List (Rat × Form) :=
  [(0, zero), (mkRat 1 12, (ofInt 2).sub (rootOver 3 1 1)), (mkRat 1 8, (rootOver 2 1 1).sub one),
    (mkRat 1 6, rootOver 3 1 3), (mkRat 1 4, one), (mkRat 1 3, rootOver 3 1 1),
    (mkRat 3 8, (rootOver 2 1 1).add one), (mkRat 5 12, (rootOver 3 1 1).add (ofInt 2))]

private def angleOf? (table : List (Rat × Form)) (f : Form) : Option Rat :=
  (table.find? fun entry => entry.2 == f).map Prod.fst

-- The sine of half turns, taken back to less than a right angle.
def sineOf (r : Rat) : Form :=
  let r := Quantity.remainder r 2
  let half := mkRat 1 2
  let (negative, r) := if 1 < r then (true, r - 1) else (false, r)
  let r := if half < r then 1 - r else r
  let value := (sines.lookup r).getD (apply .sin (halfTurns r))
  if negative then value.neg else value

def cosineOf (r : Rat) : Form :=
  let r := Quantity.remainder r 2
  let half := mkRat 1 2
  let (negative, r) := if 1 < r then (true, r - 1) else (false, r)
  let (negative, r) := if half < r then (!negative, 1 - r) else (negative, r)
  let value := (sines.lookup (half - r)).getD (apply .cos (halfTurns r))
  if negative then value.neg else value

def tangentOf (r : Rat) : Form :=
  let r := Quantity.remainder r 1
  let half := mkRat 1 2
  if r = half then unbounded
  else
    let (negative, r) := if half < r then (true, 1 - r) else (false, r)
    let value := (tangents.lookup r).getD (apply .tan (halfTurns r))
    if negative then value.neg else value

def arcSine? (f : Form) : Option Rat :=
  (angleOf? sines f).orElse fun _ => (angleOf? sines f.neg).map fun r => -r

def arcTangent? (f : Form) : Option Rat :=
  (angleOf? tangents f).orElse fun _ => (angleOf? tangents f.neg).map fun r => -r

-- A constant real angle taken back by whole periods of so many half turns, and its size in half
-- turns.
private def reduced? (period : Float) (angle : Form) : Option (Form × Float) := do
  let z ← angle.value?
  if angle.nature.real then
    let size := z.re / Float.acos (-1.0)
    let back := (size / period).floor * period
    return (angle.sub (halfTurns (← Number.Binary.ofFloat? back).toRat), size - back)
  else none

-- The angle between right ones whose sine is that of a constant angle.
def angleOfSine? (angle : Form) : Option Form := do
  let (f, size) ← reduced? 2.0 angle
  return if 0.5 < size && size <= 1.5 then pi.sub f
    else if 1.5 < size then f.sub (halfTurns 2)
    else f

def angleOfCosine? (angle : Form) : Option Form := do
  let (f, size) ← reduced? 2.0 angle
  return if 1.0 < size then (halfTurns 2).sub f else f

def angleOfTangent? (angle : Form) : Option Form := do
  let (f, size) ← reduced? 1.0 angle
  return if 0.5 < size then f.sub pi else f

end Form

end Reckon.Formula
