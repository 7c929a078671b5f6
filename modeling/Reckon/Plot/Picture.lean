import Reckon.Plot

namespace Reckon

-- The rows of a picture, the lowest first.
abbrev Canvas := List (List Char)

namespace Canvas

def blank (rows cols : Nat) : Canvas := List.replicate rows (List.replicate cols ' ')

-- Draws a character. Outside the canvas nothing is drawn.
def put (canvas : Canvas) (row col : Int) (c : Char) : Canvas :=
  if 0 ≤ row ∧ 0 ≤ col then canvas.modify row.toNat (·.set col.toNat c) else canvas

def fillRow (canvas : Canvas) (row : Int) (c : Char) : Canvas :=
  if 0 ≤ row then canvas.modify row.toNat (·.map fun _ => c) else canvas

def fillColumn (canvas : Canvas) (col : Int) (c : Char) : Canvas :=
  if 0 ≤ col then canvas.map (·.set col.toNat c) else canvas

end Canvas

namespace Plot

def floorCell (pos origin : Float) : Except PlotError Int :=
  (Number.exact (pos - origin)).floor.mapError .notFinite

-- The row and the column of a cell with a position.
def rowOf (p : Plot) (pos : Float) : Except PlotError Int := floorCell pos p.screen.y.lo

def columnOf (p : Plot) (pos : Float) : Except PlotError Int := floorCell pos p.screen.x.lo

def rowCount (p : Plot) : Except PlotError Nat := do
  let last ← truncate p.screen.y.hi
  let first ← truncate p.screen.y.lo
  return (last - first).toNat

def columnCount (p : Plot) : Nat := p.points.length

-- The cell of an axis across the screen, if there is an axis and it lies among `count` cells.
def axisCell? (axis? : Option Axis) (cellOf : Float → Except PlotError Int) (count : Nat) :
    Except PlotError (Option Int) := do
  match axis? with
  | none => return none
  | some axis =>
    let cell ← cellOf axis.pos
    return if 0 ≤ cell ∧ cell < count then some cell else none

-- Where the marks of an axis lie.
def ticCells (axis? : Option Axis) (cellOf : Float → Except PlotError Int) :
    Except PlotError (List Int) :=
  match axis? with
  | none => .ok []
  | some axis => axis.tics.mapM fun tic => cellOf tic.pos

-- The x axis, with the marks of the y axis' interval along it.
def drawRow (p : Plot) (row? : Option Int) (canvas : Canvas) : Except PlotError Canvas := do
  match row? with
  | none => return canvas
  | some row =>
    let cells ← ticCells p.yAxis p.columnOf
    return cells.foldl (fun canvas col => canvas.put row col '+') (canvas.fillRow row '-')

-- The y axis, with the marks of the x axis' interval along it.
def drawColumn (p : Plot) (col? : Option Int) (canvas : Canvas) : Except PlotError Canvas := do
  match col? with
  | none => return canvas
  | some col =>
    let cells ← ticCells p.xAxis p.rowOf
    return cells.foldl (fun canvas row => canvas.put row col '+') (canvas.fillColumn col '|')

-- The samples from column `col` on.
def drawSamples (p : Plot) : (col : Nat) → List (Option Float) → Canvas → Except PlotError Canvas
  | _, [], canvas => .ok canvas
  | col, none :: points, canvas => p.drawSamples (col + 1) points canvas
  | col, some pos :: points, canvas => do
    let row ← p.rowOf pos
    p.drawSamples (col + 1) points (canvas.put row col '*')

def canvas (p : Plot) : Except PlotError Canvas := do
  let rows ← p.rowCount
  let row? ← axisCell? p.xAxis p.rowOf rows
  let col? ← axisCell? p.yAxis p.columnOf p.columnCount
  let canvas := Canvas.blank rows p.columnCount
  let canvas ← p.drawRow row? canvas
  let canvas ← p.drawColumn col? canvas
  p.drawSamples 0 p.points canvas

-- The lines of the picture, the top one first. A screen without rows has one empty line.
def lines (p : Plot) : Except PlotError (List String) := do
  match (← p.canvas).reverse with
  | [] => return [""]
  | rows => return rows.map String.ofList

def render (p : Plot) : Except PlotError String := do
  return "\n".intercalate (← p.lines)

end Plot

end Reckon
