import Reckon.Text.Blank
import Reckon.Text.Digit
import Reckon.Number.Exact

namespace Reckon.Number

open Text

-- The float nearest to `significand` × 10 ^ `exponent`.
def nearest (significand : Nat) (exponent : Int) : Float :=
  Float.ofScientific significand (decide (exponent < 0)) exponent.natAbs

-- The digits at the front and what follows them.
def spanDigits (cs : List Char) : List Nat × List Char :=
  ((cs.takeWhile isDigit).filterMap digitValue?, cs.dropWhile isDigit)

def readDigits? (cs : List Char) : Option Nat :=
  match spanDigits cs with
  | ([], _) => none
  | (digits, []) => some (digitsValue digits)
  | _ => none

def readExponent? : List Char → Option Int
  | '-' :: cs => (readDigits? cs).map fun n => -(n : Int)
  | '+' :: cs => (readDigits? cs).map Int.ofNat
  | cs => (readDigits? cs).map Int.ofNat

-- The digits behind a point, if there is one, and what follows them.
def spanFraction : List Char → List Nat × List Char
  | '.' :: cs => spanDigits cs
  | cs => ([], cs)

-- A value that depends on the exponent at the end of a number.
def readScaled? (value : Int → Float) : List Char → Option Float
  | [] => some (value 0)
  | c :: cs => if c = 'e' ∨ c = 'E' then (readExponent? cs).map value else none

-- Digits with at most one point among them, then perhaps an exponent.
def readUnsigned? (cs : List Char) : Option Float :=
  let (whole, rest) := spanDigits cs
  let (fraction, rest) := spanFraction rest
  if whole.isEmpty && fraction.isEmpty then none
  else readScaled? (fun exponent =>
    nearest (digitsValue (whole ++ fraction)) (exponent - fraction.length)) rest

-- Takes out each `_` that stands between two digits; elsewhere there may be none.
def joinDigits? : (afterDigit : Bool) → List Char → Option (List Char)
  | _, [] => some []
  | afterDigit, c :: cs =>
    if c = '_' then
      if afterDigit && (cs.head?.map isDigit).getD false then joinDigits? false cs else none
    else (joinDigits? (isDigit c) cs).map (c :: ·)

-- The blanks that may surround a number: all but the four information separators.
def isMargin (c : Char) : Bool := isBlank c && !(28 ≤ c.toNat && c.toNat ≤ 31)

-- Whether there is a minus, and the text after the sign.
private def spanSign : List Char → Bool × List Char
  | '-' :: cs => (true, cs)
  | '+' :: cs => (false, cs)
  | cs => (false, cs)

private def readMagnitude? (cs : List Char) : Option Float :=
  let name := String.ofList (cs.map Char.toLower)
  if name = "inf" ∨ name = "infinity" then some (1.0 / 0.0)
  else if name = "nan" then some undefined
  else (joinDigits? false cs).bind readUnsigned?

-- A number that stands alone.
def readNumber? (text : String) : Option Float :=
  let (negative, cs) := spanSign (stripWhile isMargin text.toList)
  (readMagnitude? cs).map fun x => if negative then -x else x

-- The most digits that a whole number may have.
def maxIntegerDigits : Nat := 4300

-- A whole number that stands alone.
def readInteger? (text : String) : Option Int :=
  let (negative, cs) := spanSign (stripWhile isMargin text.toList)
  (joinDigits? false cs).bind fun digits =>
    if digits.length ≤ maxIntegerDigits then (readDigits? digits).map (signed negative) else none

end Reckon.Number
