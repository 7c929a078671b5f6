import Reckon.Shell.Command

namespace Reckon

-- What the shell did with lines in one session: whether all of them succeeded, unless something was
-- raised.
structure Batch where
  session : Session Float
  ending : Except Raised Bool
  outputs : List Output

-- Executes lines in one session, each in its own surroundings, until something is raised.
def Session.respondAll (s : Session Float) (lib : Libraries) (world : Nat → Surroundings)
    (settings : Settings) : List String → Batch
  | [] => ⟨s, .ok true, []⟩
  | line :: lines =>
    let first := s.respond lib (world 0) settings line
    match first.answer with
    | .error raised => ⟨first.session, .error raised, first.outputs⟩
    | .ok answer =>
      let rest := first.session.respondAll lib (fun i => world (i + 1)) settings lines
      ⟨rest.session, rest.ending.map (answer.isSuccess && ·), first.outputs ++ rest.outputs⟩

namespace Shell

def greeting : String := "linecalc - type 'help' for commands, 'quit' to exit.\n"

def prompt : String := "% > "

-- What becomes of a dialogue after a turn.
inductive Course where
  | goesOn
  | quits
  | breaks (raised : Raised)
deriving DecidableEq, Repr

-- What the shell did in one turn of a dialogue.
structure Turn where
  session : Session Float
  outputs : List Output
  course : Course

-- A turn that is a statement.
def Turn.ofResponse (r : Response) : Turn :=
  ⟨r.session, r.outputs,
    match r.answer with
    | .ok _ => .goesOn
    | .error raised => .breaks raised⟩

-- One turn: a blank line is passed over, a command is obeyed, all else is a statement.
def turn (s : Session Float) (lib : Libraries) (around : Surroundings) (settings : Settings)
    (input : String) : Turn :=
  let line := String.ofList (Text.strip input.toList)
  if line.isEmpty then ⟨s, [], .goesOn⟩
  else
    match Command.ofText? line with
    | some c =>
      let (outputs, raised?) := c.outputs s lib around.limit settings
      ⟨s, outputs, raised?.elim (if c = .quit then .quits else .goesOn) .breaks⟩
    | none => .ofResponse (s.respond lib around settings line)

-- How a run ended: its exit code, unless something was raised, and what was written.
structure Run where
  ending : Except Raised Nat
  outputs : List Output

-- What is raised ends the program with a code of its own.
def Run.code (r : Run) : Nat :=
  match r.ending with
  | .ok code => code
  | .error _ => 1

-- A dialogue to its end, which is a command or the end of the input.
def dialogue (s : Session Float) (lib : Libraries) (world : Nat → Surroundings)
    (settings : Settings) : List String → Run
  | [] => ⟨.ok 0, [.shown prompt, .shown ("\n" ++ farewell)]⟩
  | input :: inputs =>
    let t := turn s lib (world 0) settings input
    let outputs := .shown prompt :: t.outputs
    match t.course with
    | .goesOn =>
      let rest := dialogue t.session lib (fun i => world (i + 1)) settings inputs
      ⟨rest.ending, outputs ++ rest.outputs⟩
    | .quits => ⟨.ok 0, outputs⟩
    | .breaks raised => ⟨.error raised, outputs⟩

-- The lines of an input. What follows the last line break is a line unless it is empty.
def linesFrom (line : List Char) : List Char → List String
  | [] => if line.isEmpty then [] else [String.ofList line.reverse]
  | c :: cs =>
    if c = '\n' then String.ofList line.reverse :: linesFrom [] cs else linesFrom (c :: line) cs

def inputLines (input : String) : List String := linesFrom [] input.toList

end Shell

namespace Options

-- A precision that is not positive counts as not given, and so does an empty path.
def settings (o : Options) : Settings where
  style := o.style
  precision := (o.precision?.filter fun p => 0 < p).getD Settings.standardPrecision
  plotFile? := o.plotFile?.filter fun path => !path.isEmpty

-- Whether a dialogue is led: nothing else is asked for.
def isDialogue (o : Options) : Bool := !o.version && !o.healthCheck && o.lines.isEmpty

-- Does what the options ask for, with all of the input for a dialogue. The surroundings are counted
-- by lines.
def run (o : Options) (lib : Libraries) (world : Nat → Surroundings) (input : String) :
    Shell.Run :=
  if o.version then ⟨.ok 0, [.shown (programVersion ++ "\n")]⟩
  else if o.healthCheck then
    let (healthy, outputs) := Health.run (world 0).limit
    ⟨.ok (if healthy then 0 else 1), outputs⟩
  else if o.lines.isEmpty then
    let d := Shell.dialogue Session.fresh lib world o.settings (Shell.inputLines input)
    ⟨d.ending, .shown Shell.greeting :: d.outputs⟩
  else
    let b := Session.fresh.respondAll lib world o.settings o.lines
    ⟨b.ending.map fun success => if success then 0 else 1, b.outputs⟩

end Options

end Reckon
