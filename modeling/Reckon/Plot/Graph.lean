import Reckon.Session

namespace Reckon

structure Graph (α : Type) where
  name : String
  function : Function α
  -- the snapshot that the function is applied in
  root : Nat
deriving Repr

-- Why a name has no graph.
inductive GraphError where
  | unknownFunction (name : String)
  | unsupportedArity (name : String) (arity : Nat)
deriving DecidableEq, Repr

namespace GraphError

def code : GraphError → String
  | unknownFunction _ => "UNKNOWN_FUNCTION"
  | unsupportedArity _ _ => "UNSUPPORTED_ARITY"

def message : GraphError → String
  | unknownFunction name => s!"Unknown function `{name}` to plot"
  | unsupportedArity name arity =>
    s!"Only functions of one parameter can be plotted, `{name}` takes {arity}"

def name : GraphError → String
  | unknownFunction name => name
  | unsupportedArity name _ => name

end GraphError

namespace Graph

variable {α : Type}

-- The graph of a function, and the store with its snapshot.
def ofName (store : Store α) (root : Nat) (name : String) :
    Except GraphError (Graph α × Store α) :=
  match store.function? root name with
  | none => .error (.unknownFunction name)
  | some f =>
    if f.arity = 1 then
      let (snapshot, store) := store.snapshot root
      .ok (⟨name, f, snapshot⟩, store)
    else .error (.unsupportedArity name f.arity)

def parameter (g : Graph α) : String := g.function.params.headD ""

-- The value at a place, `none` where the function has none. What goes on for ever is no answer.
def value? [Arithmetic α] (g : Graph α) (store : Store α) (limit : Nat) (x : α) :
    Except (Halt Empty) (Option α) :=
  match Evaluation.apply store limit g.name g.function [x] (.ofRoot g.root) with
  | .ok y => .ok (some y)
  | .error (.fault _) => .ok none
  | .error .runaway => .error .runaway

end Graph

end Reckon
