import Reckon.Shell
import Reckon.Shell.Standard

namespace Reckon.Program

-- How deeply calls may nest.
def callLimit : Nat := 320

-- Where journal entries go, from the least severity on.
structure Keeper where
  least : Severity
  file? : Option IO.FS.Handle

def Keeper.keep (k : Keeper) (entry : Entry) : IO Unit := do
  if entry.isKept k.least then
    let time ← IO.monoMsNow
    let line := s!"{time} {entry.text}"
    IO.eprintln line
    if let some file := k.file? then
      file.putStrLn line
      file.flush

def perform (k : Keeper) (output : Output) : IO Unit := do
  match output with
  | .shown text =>
    let out ← IO.getStdout
    out.putStr text
    out.flush
  | .noted entry => k.keep entry
  | .saved path image => IO.FS.writeFile (Image.file path) image.table

def performAll (k : Keeper) (outputs : List Output) : IO Unit := outputs.forM (perform k)

-- A directory can be opened for reading where it exists.
def directoryExists (path : String) : IO Bool := do
  try
    let _ ← IO.FS.Handle.mk (if path.isEmpty then "." else path) .read
    return true
  catch _ => return false

-- What lines meet with. Whether the directory of images exists is settled before the first line.
def surroundings (o : Options) : IO Surroundings := do
  let known ← directoryExists (Image.directory (o.plotFile?.getD ""))
  return ⟨callLimit, fun _ path => Image.write (fun _ => known) path⟩

def keeper (o : Options) : IO Keeper := do
  match o.journalFile?.filter (!·.isEmpty) with
  | none => return ⟨o.least, none⟩
  | some path => return ⟨o.least, some (← IO.FS.Handle.mk path .append)⟩

-- Leads a dialogue line by line.
partial def converse (k : Keeper) (around : Surroundings) (settings : Settings)
    (s : Session Float) : IO (Except Raised Nat) := do
  perform k (.shown Shell.prompt)
  let input ← (← IO.getStdin).getLine
  if input.isEmpty then
    perform k (.shown ("\n" ++ farewell))
    return .ok 0
  let t := Shell.turn s .standard around settings input
  performAll k t.outputs
  match t.course with
  | .goesOn => converse k around settings t.session
  | .quits => return .ok 0
  | .breaks raised => return .error raised

def runOptions (o : Options) : IO UInt32 := do
  let k ← keeper o
  let around ← surroundings o
  let ending ←
    if o.isDialogue then
      perform k (.shown Shell.greeting)
      converse k around o.settings Session.fresh
    else
      let run := o.run .standard (fun _ => around) ""
      performAll k run.outputs
      pure run.ending
  if let .error raised := ending then IO.eprintln raised.cause
  return UInt32.ofNat (Shell.Run.code ⟨ending, []⟩)

def usage : String :=
  "usage: " ++ programName ++ String.join (Switch.all.map fun s =>
    " [" ++ s.names ++ (if s.takesValue then " VALUE]" else "]"))

end Reckon.Program

open Reckon in
def main (args : List String) : IO UInt32 := do
  match Options.read args with
  | .ok o => Program.runOptions o
  | .error .help =>
    IO.println Program.usage
    return 0
  | .error (.usage error) =>
    IO.eprintln Program.usage
    IO.eprintln s!"{programName}: error: {error.message}"
    return 2
