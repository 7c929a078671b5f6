import Reckon.Number.Logarithm
import Reckon.Plot.Interval

namespace Reckon

-- Steps on a scale, and the first step that is not below a quotient.
class Scale (α : Type) where
  ofInt : Int → α
  ceil : α → Except Number.NotFinite Int

instance : Scale Float where
  ofInt := Float.ofInt
  ceil x := (Number.exact x).ceil

-- The decimal logarithm of a positive float and the powers of ten, which depend on the machine in
-- their last places.
structure Decades where
  logarithm : Float → Float
  power : Int → Float

namespace Decades

-- Both as near as a float can be.
def standard : Decades where
  logarithm x :=
    match Number.exact x with
    | .finite _ m q => Number.logarithm m q
    | _ => x
  power := Number.nearest 1

end Decades

-- A mark on the screen with the number that it stands for.
structure Tic (α : Type) where
  pos : α
  label : α
deriving Repr, BEq

namespace Tic

section Labels

variable {α : Type} [Mul α] [Scale α]

def labelAt (width : α) (step : Int) : α := Scale.ofInt step * width

-- The labels from `step` on, in steps of `stride`, before the first one that is to stop at.
-- Without an answer there are more of them than the limit.
def labelsFrom (width : α) (stop : α → Bool) (stride : Int) : (limit : Nat) → (step : Int) →
    Option (List α)
  | 0, _ => none
  | limit + 1, step =>
    let label := labelAt width step
    if stop label then some []
    else (labelsFrom width stop stride limit (step + stride)).map (label :: ·)

variable [LE α] [DecidableLE α]

-- The labels on both sides of zero, ascending.
def labelsAroundZero (limit : Nat) (width : α) (area : Interval α) : Option (List α) := do
  let left ← labelsFrom width (fun label => decide (label ≤ area.lo)) (-1) limit (-1)
  let right ← labelsFrom width (fun label => decide (area.hi ≤ label)) 1 limit 0
  return left.reverse ++ right

-- The labels from a step on, ascending.
def labelsUpward (limit : Nat) (width : α) (area : Interval α) (step : Int) : Option (List α) :=
  labelsFrom width (fun label => decide (area.hi ≤ label)) 1 limit step

variable [Div α]

def labels (limit : Nat) (width : α) (area : Interval α) :
    Except Number.NotFinite (Option (List α)) :=
  if area.holds (Scale.ofInt 0) then .ok (labelsAroundZero limit width area)
  else do
    let first ← Scale.ceil (area.lo / width)
    return labelsUpward limit width area first

variable [Add α] [Sub α] [LT α] [DecidableLT α]

-- Rounding can put the first label just below the area; it gets no mark.
def placed (screen area : Interval α) (labels : List α) : List (Tic α) :=
  labels.filterMap fun label => (area.project label screen).map fun pos => ⟨pos, label⟩

end Labels

-- The exponent of the width of the marks on an interval of a length.
def decade (decades : Decades) (length : Float) : Except PlotError Int :=
  match Number.exact length with
  | .undefined => .error (.notFinite .undefined)
  | .infinite false => .error (.notFinite .infinite)
  | .infinite true => .error .noExtent
  | .finite negative m _ =>
    if negative ∨ m = 0 then .error .noExtent
    else (Number.exact (decades.logarithm length - 1.0)).round.mapError .notFinite

-- The power of ten that the marks are multiples of. It is zero where there is no such float.
def width (decades : Decades) (length : Float) : Except PlotError Float := do
  return decades.power (← decade decades length)

-- More labels than an interval can have.
def labelLimit : Nat := 1000

def labelsOf (decades : Decades) (area : Interval Float) : Except PlotError (List Float) := do
  let width ← width decades area.length
  if width == 0.0 && !area.holds 0.0 then throw .zeroWidth
  match ← (labels labelLimit width area).mapError .notFinite with
  | some labels => return labels
  | none => throw .endless

-- The marks for an area on the screen.
def marks (decades : Decades) (screen area : Interval Float) :
    Except PlotError (List (Tic Float)) := do
  return placed screen area (← labelsOf decades area)

end Tic

-- An axis lies at a position of the screen and has marks along it.
structure Axis where
  pos : Float
  tics : List (Tic Float)
deriving Repr

namespace Axis

-- There is no axis where zero is not on the screen.
def create (decades : Decades) (pos? : Option Float) (screen area : Interval Float) :
    Except PlotError (Option Axis) :=
  match pos? with
  | none => .ok none
  | some pos => do return some ⟨pos, ← Tic.marks decades screen area⟩

end Axis

end Reckon
