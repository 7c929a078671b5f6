import Reckon.Bindings
import Reckon.Operand
/-!
Environments. A root holds variables, some of them constant, and the function table it uses; a
snapshot of a root has a copy of the variables and shares the table. A scope puts the parameter
bindings of calls over a root. All roots and tables live in one store and are named by their
place in it, so that sharing is visible: what is written through one root is read through every
scope over it, and a function put into a table is found from every root that uses the table.
-/
namespace Reckon

-- Bindings laid over a root, the innermost first.
structure Scope (α : Type) where
  frames : List (Bindings α)
  root : Nat
deriving Repr

-- A function that has been defined resolves the names in its body in the scope it captured. One
-- without a captured scope uses the root of the scope it is called from.
inductive Function (α : Type) where
  | custom (params : List String) (body : Operand α) (captured : Option (Scope α))
  | builtin (builtin : Builtin)
deriving Repr

-- A value that is bound to a name in a root.
structure Variable (α : Type) where
  value : α
  constant : Bool
deriving Repr

structure Root (α : Type) where
  values : Bindings (Variable α)
  tableIndex : Nat
deriving Repr

structure Store (α : Type) where
  roots : List (Root α)
  tables : List (Bindings (Function α))
deriving Repr

-- Why an operand has no value or a name cannot be bound.
inductive EvaluationError where
  | unknownSymbol (name : String)
  | unknownFunction (name : String)
  | wrongCount (name : String) (expected actual : Nat)
  | constant (name : String)
deriving DecidableEq, Repr

namespace EvaluationError

def code : EvaluationError → String
  | unknownSymbol _ => "UNKNOWN_SYMBOL"
  | unknownFunction _ => "UNKNOWN_FUNCTION"
  | wrongCount _ _ _ => "UNEXPECTED_NUMBER_OF_PARAMETERS"
  | constant _ => "CANNOT_CHANGE_CONSTANT"

def message : EvaluationError → String
  | unknownSymbol name => s!"Unknown symbol `{name}`"
  | unknownFunction name => s!"Unknown function `{name}`"
  | wrongCount name expected actual =>
    s!"Function `{name}` expects {expected} parameter(s), but got {actual}"
  | constant name => s!"Cannot change constant `{name}`"

-- The symbol or function that the error is about.
def name : EvaluationError → String
  | unknownSymbol name => name
  | unknownFunction name => name
  | wrongCount name _ _ => name
  | constant name => name

-- The counts of parameters and of arguments, where they differ.
def counts? : EvaluationError → Option (Nat × Nat)
  | wrongCount _ expected actual => some (expected, actual)
  | _ => none

end EvaluationError

namespace Function

variable {α : Type}

def params : Function α → List String
  | custom params _ _ => params
  | builtin _ => [Builtin.parameter]

def arity (f : Function α) : Nat := f.params.length

def isCustom : Function α → Bool
  | custom _ _ _ => true
  | builtin _ => false

-- The table that a new environment starts with.
def builtins : Bindings (Function α) :=
  .ofList (Builtin.all.map fun b => (b.name, .builtin b))

end Function

namespace Scope

variable {α : Type}

def ofRoot (root : Nat) : Scope α := ⟨[], root⟩

def push (scope : Scope α) (frame : Bindings α) : Scope α := ⟨frame :: scope.frames, scope.root⟩

def topLevel (scope : Scope α) : Scope α := ofRoot scope.root

-- The innermost binding of a name in the frames.
def local? (scope : Scope α) (name : String) : Option α :=
  scope.frames.findSome? fun frame => frame.get? name

end Scope

namespace Store

variable {α : Type}

def empty : Store α := ⟨[], []⟩

-- A new environment with the given constants and a table of its own.
def create (store : Store α) (constants : List (String × α)) : Nat × Store α :=
  (store.roots.length,
    { roots := store.roots ++ [⟨.ofList (constants.map fun (n, v) => (n, ⟨v, true⟩)),
        store.tables.length⟩]
      tables := store.tables ++ [Function.builtins] })

def binding? (store : Store α) (root : Nat) (name : String) : Option (Variable α) :=
  store.roots[root]?.bind fun r => r.values.get? name

-- The value of a symbol.
def get? (store : Store α) (scope : Scope α) (name : String) : Option α :=
  (scope.local? name).or ((store.binding? scope.root name).map Variable.value)

def isConstant (store : Store α) (root : Nat) (name : String) : Bool :=
  ((store.binding? root name).map Variable.constant).getD false

def table? (store : Store α) (root : Nat) : Option (Bindings (Function α)) :=
  store.roots[root]?.bind fun r => store.tables[r.tableIndex]?

def function? (store : Store α) (root : Nat) (name : String) : Option (Function α) :=
  (store.table? root).bind fun functions => functions.get? name

-- Binds a name in a root. Constants cannot be bound again.
def put (store : Store α) (root : Nat) (name : String) (value : α) :
    Except EvaluationError (Store α) :=
  if store.isConstant root name then .error (.constant name)
  else .ok { store with
    roots := store.roots.modify root fun r =>
      { r with values := r.values.insert name ⟨value, false⟩ } }

-- Puts a function into the table that a root uses.
def putFunction (store : Store α) (root : Nat) (name : String) (f : Function α) : Store α :=
  match store.roots[root]? with
  | none => store
  | some r => { store with tables := store.tables.modify r.tableIndex (·.insert name f) }

-- A copy of a root's variables that uses the same table.
def snapshot (store : Store α) (root : Nat) : Nat × Store α :=
  (store.roots.length, { store with roots := store.roots ++ store.roots[root]?.toList })

-- The variables of a root by name.
def sortedVariables (store : Store α) (root : Nat) : List (String × Variable α) :=
  ((store.roots[root]?.map fun r => r.values.sorted)).getD []

-- The functions that a root can call, by name.
def sortedFunctions (store : Store α) (root : Nat) : List (String × Function α) :=
  ((store.table? root).map Bindings.sorted).getD []

end Store

end Reckon
