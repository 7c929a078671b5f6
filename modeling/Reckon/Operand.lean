import Reckon.Arithmetic

namespace Reckon

inductive Operand (α : Type) where
  | number (value : α)
  | symbol (name : String)
  | term (operation : Operation) (lhs rhs : Operand α)
  | call (name : String) (args : List (Operand α))
deriving Repr, BEq, Inhabited

namespace Operand

variable {α : Type}

mutual

-- How deeply an operand nests: a right operand and an argument are one level down, a left
-- operand stays on the level of its term.
def depth : Operand α → Nat
  | number _ => 1
  | symbol _ => 1
  | term _ lhs rhs => max lhs.depth (1 + rhs.depth)
  | call _ args => 1 + deepest args

-- The greatest depth among operands, 0 if there are none.
def deepest : List (Operand α) → Nat
  | [] => 0
  | arg :: args => max arg.depth (deepest args)

end

mutual

-- The number of nodes.
def size : Operand α → Nat
  | number _ => 1
  | symbol _ => 1
  | term _ lhs rhs => lhs.size + rhs.size + 1
  | call _ args => totalSize args + 1

def totalSize : List (Operand α) → Nat
  | [] => 0
  | arg :: args => arg.size + totalSize args

end

-- The number of nodes on a stack of operands with their levels.
def stackSize : List (Operand α × Nat) → Nat
  | [] => 0
  | entry :: stack => entry.1.size + stackSize stack

theorem size_pos (t : Operand α) : 0 < t.size := by
  cases t <;> simp [size]

theorem stackSize_append (xs ys : List (Operand α × Nat)) :
    stackSize (xs ++ ys) = stackSize xs + stackSize ys := by
  induction xs with
  | nil => simp [stackSize]
  | cons x xs ih => simp [stackSize, ih]; omega

-- Arguments at a level as they come onto a stack, the last one on top.
def atLevel (level : Nat) (args : List (Operand α)) : List (Operand α × Nat) :=
  args.reverse.map fun arg => (arg, level)

theorem atLevel_cons (level : Nat) (arg : Operand α) (args : List (Operand α)) :
    atLevel level (arg :: args) = atLevel level args ++ [(arg, level)] := by
  simp [atLevel]

theorem stackSize_atLevel (level : Nat) (args : List (Operand α)) :
    stackSize (atLevel level args) = totalSize args := by
  induction args with
  | nil => rfl
  | cons arg args ih =>
    rw [atLevel_cons, stackSize_append, ih, totalSize, Nat.add_comm]
    rfl

-- What is directly below an operand, as it comes onto a stack. The right operand is on top, one
-- level down; the left one stays on the level of its term.
@[simp] def children : Operand α → (level : Nat) → List (Operand α × Nat)
  | number _, _ => []
  | symbol _, _ => []
  | term _ lhs rhs, level => [(rhs, level + 1), (lhs, level)]
  | call _ args, level => atLevel (level + 1) args

theorem stackSize_children (t : Operand α) (level : Nat) :
    stackSize (t.children level) + 1 = t.size := by
  cases t with
  | number value => rfl
  | symbol name => rfl
  | term operation lhs rhs =>
    simp only [children, stackSize, size]
    omega
  | call name args => rw [children, stackSize_atLevel, size]

-- The deepest level that a stack of operands with their levels reaches, or `seen` if that is
-- deeper. Every turn takes the node on top off the stack and puts what is directly below it there.
def deepestLevel : List (Operand α × Nat) → (seen : Nat) → Nat
  | [], seen => seen
  | (t, level) :: stack, seen => deepestLevel (t.children level ++ stack) (max seen level)
termination_by stack => stackSize stack
decreasing_by
  have hsize := t.stackSize_children level
  simp only [stackSize, stackSize_append]
  omega

def depthByStack (t : Operand α) : Nat := deepestLevel [(t, 1)] 0

end Operand

-- A node of an operand without the operands below it.
inductive Node (α : Type) where
  | number (value : α)
  | symbol (name : String)
  | operation (operation : Operation)
  | call (name : String) (count : Nat)
deriving Repr, BEq

namespace Operand

variable {α : Type}

mutual

-- The nodes in postfix order: what a term or call applies to comes before it.
def toPostfix : Operand α → List (Node α)
  | number value => [.number value]
  | symbol name => [.symbol name]
  | term operation lhs rhs => lhs.toPostfix ++ rhs.toPostfix ++ [.operation operation]
  | call name args => argsToPostfix args ++ [.call name args.length]

def argsToPostfix : List (Operand α) → List (Node α)
  | [] => []
  | arg :: args => arg.toPostfix ++ argsToPostfix args

end

end Operand

end Reckon
