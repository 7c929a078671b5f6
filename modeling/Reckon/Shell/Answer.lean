import Reckon.Number.Display
import Reckon.Plot.Picture
import Reckon.Session.Report
import Reckon.Shell.Journal
import Reckon.Shell.Options
import Reckon.Shell.Surroundings
import Reckon.Text.Json

namespace Reckon

-- How the shell works: the style of answers, the significant digits shown, and where plots go
-- instead of onto the screen.
structure Settings where
  style : Style
  precision : Int
  plotFile? : Option String
deriving Repr

def Settings.standardPrecision : Int := 12

inductive Answer where
  | report (report : Report)
  | drawn (name picture : String)
  | saved (name path : String)
deriving Repr

-- What the shell does to the world outside.
inductive Output where
  | shown (text : String)
  | noted (entry : Entry)
  | saved (path : String) (image : Image)
deriving Repr

namespace Answer

def isSuccess : Answer → Bool
  | report r => r.isSuccess
  | drawn _ _ => true
  | saved _ _ => true

def fields : Answer → List (String × Field)
  | report r => r.fields
  | drawn name picture => (Report.success (.plot name)).fields ++ [("ascii", .text picture)]
  | saved name path => (Report.success (.plot name)).fields ++ [("file", .text path)]

-- A field in JSON, which has no numbers that are not finite.
def fieldJson (precision : Int) : Field → String
  | .flag value => Text.Json.bool value
  | .text value => Text.Json.string value
  | .number value =>
    if value.isFinite then Number.fullText value
    else Text.Json.string (Number.display precision value)

def json (precision : Int) (a : Answer) : String :=
  Text.Json.object (a.fields.map fun (name, field) => (name, fieldJson precision field))

-- An answer for the eye. Nothing is told of a line that only changes the session.
def human? (precision : Int) : Answer → Option String
  | report (.failure message _) => some ("Error: " ++ message)
  | report (.success .void) => none
  | report (.success (.number value)) => some (Number.display precision value)
  | report (.success (.solved unknown value)) =>
    some (unknown ++ " = " ++ Number.display precision value)
  | report (.success (.plot _)) => some ""
  | drawn _ picture => some picture
  | saved name path => some s!"Plot of {name} saved to: {path}"

def text? (settings : Settings) (a : Answer) : Option String :=
  match settings.style with
  | .json => some (a.json settings.precision)
  | .human => a.human? settings.precision

end Answer

-- The area that the shell plots, the size of its screen, and how many samples images have.

def shellArea : Area := ⟨⟨-10.0, 10.0⟩, ⟨-10.0, 10.0⟩⟩

def shellScreen : Area := ⟨⟨0.0, 60.0⟩, ⟨0.0, 20.0⟩⟩

def imageSamples : Nat := 400

namespace Graph

variable (g : Graph Float) (store : Store Float) (limit : Nat)

-- The graph on the screen.
def picture (decades : Decades) : Except PlotError String := do
  (← Plot.create decades g store limit shellArea shellScreen).render

-- The graph as an image. Values that are not finite are gaps as well.
def image (spread : Float → Float → Nat → List Float) : Except (Halt Empty) Image := do
  let xs := spread shellArea.x.lo shellArea.x.hi imageSamples
  let ys ← xs.mapM (g.value? store limit)
  return ⟨g.name, g.parameter, shellArea, xs.zip (ys.map fun y? => y?.filter Float.isFinite)⟩

end Graph

-- An answer, unless something is raised instead, with what is done besides telling it.
abbrev Plotted := Except Raised Answer × List Output

def plotOverrun (name : String) : Plotted :=
  (.ok (.report Report.recursionLimit),
    [.noted ⟨.warning, .shell, s!"recursion limit reached while plotting {name}"⟩])

def drawOnScreen (lib : Libraries) (limit : Nat) (g : Graph Float) (store : Store Float) :
    Plotted :=
  match g.picture store limit lib.decades with
  | .ok picture => (.ok (.drawn g.name picture), [])
  | .error .runaway => plotOverrun g.name
  | .error error => (.error ⟨error.message⟩, [])

-- Saves a graph. Only the system's refusal and calls that nest too deeply are reported, what else
-- the writer raises is not.
def saveImage (lib : Libraries) (around : Surroundings) (path : String) (g : Graph Float)
    (store : Store Float) : Plotted :=
  match g.image store around.limit lib.spread with
  | .error _ => plotOverrun g.name
  | .ok image =>
    match around.write image path with
    | .written =>
      (.ok (.saved g.name path),
        [.saved path image, .noted ⟨.info, .plotting, s!"saved plot of {g.name} to {path}"⟩])
    | .refused cause =>
      (.ok (.report (.failure s!"Could not write plot file: {cause}" "PLOT_FILE_ERROR")),
        [.noted ⟨.error, .shell, s!"could not write plot file {path}: {cause}"⟩])
    | .overrun => plotOverrun g.name
    | .raised what => (.error what, [])

-- The plot of a function by name, in a session.
def Session.plot (s : Session Float) (lib : Libraries) (around : Surroundings)
    (settings : Settings) (name : String) : Plotted :=
  match Graph.ofName s.store s.root name with
  | .error error => (.ok (.report (.failure error.message error.code)), [])
  | .ok (g, store) =>
    match settings.plotFile? with
    | none => drawOnScreen lib around.limit g store
    | some path => saveImage lib around path g store

-- What the shell did with a line.
structure Response where
  session : Session Float
  answer : Except Raised Answer
  outputs : List Output

-- Executes a line and tells about it. Nothing is told where something is raised.
def Session.respond (s : Session Float) (lib : Libraries) (around : Surroundings)
    (settings : Settings) (line : String) : Response :=
  let step := s.run around.limit line
  let (answer, effects) := match step.result with
    | .ok (.plot name) => step.session.plot lib around settings name
    | result => (.ok (.report (Report.ofResult result)), [])
  let told := match answer with
    | .ok answer => (answer.text? settings).toList.map fun text => Output.shown (text ++ "\n")
    | .error _ => []
  ⟨step.session, answer,
    step.events.map (fun event => Output.noted event.entry) ++ effects ++ told⟩

end Reckon
