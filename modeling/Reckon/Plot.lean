import Reckon.Plot.Graph
import Reckon.Plot.Tic

namespace Reckon

structure Plot where
  -- one for each column, `none` where the graph is outside the area or has no value
  points : List (Option Float)
  screen : Area
  xAxis : Option Axis
  yAxis : Option Axis
deriving Repr

namespace Plot

def truncate (x : Float) : Except PlotError Int := (Number.exact x).truncate.mapError .notFinite

-- The whole numbers from `first` up to but not including `last`.
def columns (first last : Int) : List Int :=
  (List.range (last - first).toNat).map fun (i : Nat) => first + i

-- The sample of a column.
def sample (g : Graph Float) (store : Store Float) (limit : Nat) (area screen : Area)
    (column : Int) : Except PlotError (Option Float) :=
  match screen.x.project (Float.ofInt column) area.x with
  | none => .ok none
  | some x =>
    match g.value? store limit x with
    | .error _ => .error .runaway
    | .ok none => .ok none
    | .ok (some y) => .ok (area.y.project y screen.y)

-- The x axis lies where y is zero and is marked along the height, the y axis along the width.
def create (decades : Decades) (g : Graph Float) (store : Store Float) (limit : Nat)
    (area screen : Area) : Except PlotError Plot := do
  let first ← truncate screen.x.lo
  let last ← truncate screen.x.hi
  let points ← (columns first last).mapM (sample g store limit area screen)
  let xAxis ← Axis.create decades (area.y.project 0.0 screen.y) screen.y area.y
  let yAxis ← Axis.create decades (area.x.project 0.0 screen.x) screen.x area.x
  return ⟨points, screen, xAxis, yAxis⟩

end Plot

end Reckon
