import Reckon.Number.Exact
import Reckon.Number.Shortest

namespace Reckon

structure Interval (α : Type) where
  lo : α
  hi : α
deriving Repr, BEq

namespace Interval

variable {α : Type}

-- An interval whose ends are not in the wrong order.
def make? [LE α] [DecidableLE α] (lo hi : α) : Option (Interval α) :=
  if hi ≤ lo then none else some ⟨lo, hi⟩

-- Both ends belong to it.
def holds [LE α] [DecidableLE α] (i : Interval α) (p : α) : Bool :=
  decide (i.lo ≤ p) && decide (p ≤ i.hi)

def length [Sub α] (i : Interval α) : α := i.hi - i.lo

-- Where a point of the interval, without its upper end, lies in another one.
def project [Add α] [Sub α] [Mul α] [Div α] [LE α] [DecidableLE α] [LT α] [DecidableLT α]
    (i : Interval α) (p : α) (target : Interval α) : Option α :=
  if i.lo ≤ p ∧ p < i.hi then some (target.lo + (p - i.lo) / i.length * target.length) else none

def shift [Add α] (i : Interval α) (delta : α) : Interval α := ⟨i.lo + delta, i.hi + delta⟩

end Interval

-- Why something cannot be drawn.
inductive PlotError where
  -- bounds of an interval that are not in order
  | unordered (lo hi : Float)
  -- a position that is no number of cells
  | notFinite (cause : Number.NotFinite)
  -- an interval without extent has no scale
  | noExtent
  -- the scale is too fine for a float: a quotient by it, or steps of it that lead nowhere
  | zeroWidth
  | endless
  -- sampling goes on for ever
  | runaway
deriving Repr

namespace PlotError

def message : PlotError → String
  | unordered lo hi =>
    s!"min {Number.fullText lo} must be smaller than max {Number.fullText hi}"
  | notFinite .infinite => "cannot convert float infinity to integer"
  | notFinite .undefined => "cannot convert float NaN to integer"
  | noExtent => "math domain error"
  | zeroWidth => "float division by zero"
  | endless => "the tic marks have no end"
  | runaway => "the function has no end"

end PlotError

def Interval.ofBounds (lo hi : Float) : Except PlotError (Interval Float) :=
  match Interval.make? lo hi with
  | some i => .ok i
  | none => .error (.unordered lo hi)

-- A rectangle.
structure Area where
  x : Interval Float
  y : Interval Float
deriving Repr

namespace Area

def ofBounds (xLo yLo xHi yHi : Float) : Except PlotError Area := do
  let x ← Interval.ofBounds xLo xHi
  let y ← Interval.ofBounds yLo yHi
  return ⟨x, y⟩

def shift (a : Area) (dx dy : Float) : Area := ⟨a.x.shift dx, a.y.shift dy⟩

end Area

end Reckon
