import Reckon.Number.Reading
import Reckon.Number.Shortest

namespace Reckon.Number

-- The largest count of digits that can be asked for.
def maxPrecision : Int := 2147483647

def isPrecision (precision : Int) : Bool :=
  decide (0 ≤ precision) && decide (precision ≤ maxPrecision)

def display (precision : Int) (x : Float) : String :=
  if isPrecision precision then significantText precision.toNat x else fullText x

-- A text that may be a number. Any other text is displayed as it is.
def displayText (precision : Int) (text : String) : String :=
  match readNumber? text with
  | some x => if isPrecision precision then display precision x else text
  | none => text

end Reckon.Number
