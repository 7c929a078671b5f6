import Reckon.Operand

namespace Reckon.Operand

variable {α : Type}

mutual

def symbols : Operand α → List String
  | number _ => []
  | symbol name => [name]
  | term _ lhs rhs => lhs.symbols ++ rhs.symbols
  | call _ args => symbolsOfAll args

def symbolsOfAll : List (Operand α) → List String
  | [] => []
  | arg :: args => arg.symbols ++ symbolsOfAll args

end

-- The symbols that stand inside the arguments of a call.
def argumentSymbols : Operand α → List String
  | number _ => []
  | symbol _ => []
  | term _ lhs rhs => lhs.argumentSymbols ++ rhs.argumentSymbols
  | call _ args => symbolsOfAll args

theorem argumentSymbols_subset : (t : Operand α) → t.argumentSymbols ⊆ t.symbols
  | number _ => List.nil_subset _
  | symbol _ => List.nil_subset _
  | term _ lhs rhs => by
    have hl := lhs.argumentSymbols_subset
    have hr := rhs.argumentSymbols_subset
    exact List.append_subset.mpr
      ⟨List.subset_append_of_subset_left _ hl, List.subset_append_of_subset_right _ hr⟩
  | call _ _ => List.Subset.refl _

-- The operand and the operands within it, arguments of calls left out.
def outer : Operand α → List (Operand α)
  | number value => [number value]
  | symbol name => [symbol name]
  | term operation lhs rhs => term operation lhs rhs :: (lhs.outer ++ rhs.outer)
  | call name args => [call name args]

theorem self_mem_outer (t : Operand α) : t ∈ t.outer := by
  cases t <;> simp [outer]

end Reckon.Operand
