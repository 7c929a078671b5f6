import Reckon.Proofs.Grammar
import Reckon.Statement.Reader

namespace Reckon

-- The token that a fault names as its place, `some none` for the end of the line. A fault without
-- a place names none, nor does a bad number with a sign, which is told one token earlier.
def Fault.place? : Fault → Option (Option Token)
  | .tooLong _ | .unbalanced _ | .stray _ | .expressionExpected => none
  | .emptyStatement | .plotNameMissing => none
  | .tooDeep _ at? => at?.map some
  | .invalidNumber negative literal => if negative then none else some (some literal)
  | .argumentExpected t | .operationExpected t | .unexpected t => some (some t)
  | .statementExpected t | .plotNameExpected t | .targetMissing t => some (some t)
  | .functionNameMissing t | .targetExpected t | .duplicateParameter _ t => some (some t)
  | .operandExpected at? | .unclosedGroup _ at? | .unclosedCall _ at? => some at?
  | .solveLeftMissing at? | .equalsExpected at? | .solveRightMissing at? => some at?
  | .forExpected at? | .solveVariableExpected at? | .assignExpected at? => some at?
  | .parameterExpected at? | .separatorExpected at? => some at?
  | .assignedMissing | .bodyMissing => some none

theorem Fault.position?_of_place {e : Fault} {at? : Option Token} (h : e.place? = some at?)
    (source : List Char) : e.position? source = some (positionOf source at?) := by
  cases e with
  | tooDeep limit t? =>
    obtain ⟨t, rfl, rfl⟩ := Option.map_eq_some_iff.mp h
    rfl
  | invalidNumber negative literal =>
    cases negative with
    | false =>
      obtain rfl := Option.some.inj h
      rfl
    | true => cases h
  | _ => cases h <;> rfl

namespace Reader

open Grammar (Touches)

-- The fault is told at the first of the tokens, or at the end of the line if there are none.
inductive Stuck : Fault → List Token → Prop
  | next {e : Fault} {after : List Token} : e.place? = some after.head? → Stuck e after
  | sign {minus literal : Token} {rest : List Token} : Touches minus literal →
      Stuck (.invalidNumber true literal) (minus :: literal :: rest)

theorem Stuck.position?_eq {e : Fault} {after : List Token} (h : Stuck e after)
    (source : List Char) : e.position? source = some (Fault.positionOf source after.head?) := by
  cases h with
  | next hplace => exact Fault.position?_of_place hplace source
  | sign htouches => simp [Fault.position?, Fault.positionOf, htouches.position]

theorem leftover_place? (t : Token) : (leftover t).place? = some (some t) := by
  simp only [leftover]
  split <;> rfl

end Reader

end Reckon
