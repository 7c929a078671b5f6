import Reckon.Operand

namespace Reckon

inductive Statement (α : Type) where
  | expression (operand : Operand α)
  | assignment (target : String) (operand : Operand α)
  | solve (lhs rhs : Operand α) (unknown : String)
  | definition (name : String) (params : List String) (body : Operand α)
  | plot (name : String)
deriving Repr, BEq

namespace Statement

variable {α : Type}

-- The operands that are written in a statement.
def operands : Statement α → List (Operand α)
  | expression operand => [operand]
  | assignment _ operand => [operand]
  | solve lhs rhs _ => [lhs, rhs]
  | definition _ _ body => [body]
  | plot _ => []

end Statement

end Reckon
