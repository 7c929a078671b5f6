import Reckon.Number.Reading
import Reckon.Shell.Journal
import Reckon.Text.Quoted
/-!
The command line. Switches have a long name, which may be shortened as long as it stays clear,
and perhaps a letter. Values follow as the next word, after `=`, or right behind a letter, and
letters without values may share a word. A word that starts with a dash is a value only if it
looks like a negative number or holds a space.
-/
namespace Reckon

-- How answers are written.
inductive Style where
  | json
  | human
deriving DecidableEq, Repr

namespace Style

def all : List Style := [json, human]

def name : Style → String
  | json => "json"
  | human => "human"

def ofName? (name : String) : Option Style := all.find? fun s => s.name == name

end Style

inductive Switch where
  | help
  | eval
  | format
  | precision
  | plotFile
  | version
  | logLevel
  | logFile
  | healthCheck
deriving DecidableEq, Repr

namespace Switch

def all : List Switch :=
  [help, eval, format, precision, plotFile, version, logLevel, logFile, healthCheck]

def letter? : Switch → Option Char
  | help => some 'h'
  | eval => some 'e'
  | precision => some 'p'
  | version => some 'v'
  | _ => none

def longName : Switch → String
  | help => "--help"
  | eval => "--eval"
  | format => "--format"
  | precision => "--precision"
  | plotFile => "--plot-file"
  | version => "--version"
  | logLevel => "--log-level"
  | logFile => "--log-file"
  | healthCheck => "--health-check"

def takesValue : Switch → Bool
  | help | version | healthCheck => false
  | _ => true

def ofLetter? (c : Char) : Option Switch := all.find? fun s => s.letter? == some c

-- The switch that a word names in full.
def ofWord? : List Char → Option Switch
  | ['-', c] => ofLetter? c
  | cs => all.find? fun s => s.longName.toList == cs

-- The switches whose long names start like this.
def startingWith (cs : List Char) : List Switch :=
  all.filter fun s => cs.isPrefixOf s.longName.toList

-- All names of a switch.
def names (s : Switch) : String :=
  match s.letter? with
  | some c => "-" ++ String.singleton c ++ "/" ++ s.longName
  | none => s.longName

end Switch

-- Why a command line is not understood.
inductive UsageError where
  | ambiguous (word : String) (candidates : List Switch)
  | missingValue (s : Switch)
  | unexpectedValue (s : Switch) (value : String)
  | badChoice (s : Switch) (value : String) (choices : List String)
  | badNumber (s : Switch) (value : String)
  | unrecognized (words : List String)
deriving DecidableEq, Repr

def UsageError.message : UsageError → String
  | ambiguous word candidates =>
    s!"ambiguous option: {word} could match " ++
      ", ".intercalate (candidates.map Switch.longName)
  | missingValue s => s!"argument {s.names}: expected one argument"
  | unexpectedValue s value =>
    s!"argument {s.names}: ignored explicit argument {Text.quoted value}"
  | badChoice s value choices =>
    s!"argument {s.names}: invalid choice: {Text.quoted value} (choose from " ++
      ", ".intercalate (choices.map Text.quoted) ++ ")"
  | badNumber s value => s!"argument {s.names}: invalid int value: {Text.quoted value}"
  | unrecognized words => "unrecognized arguments: " ++ " ".intercalate words

-- What stands behind a switch in its own word: a value after `=`, or what follows a letter.
inductive Attached where
  | nothing
  | value (text : List Char)
  | tail (text : List Char)
deriving DecidableEq, Repr

-- A word of the command line by what it looks like.
inductive Word where
  | plain (text : String)
  | separator
  | long (s : Switch) (attached : Attached)
  | short (s : Switch) (attached : Attached)
  | unknown (text : String)
deriving DecidableEq, Repr

namespace Word

-- Digits with at most one point, at least one of them at the end. A line break may follow.
def isUnsigned (cs : List Char) : Bool :=
  let cs := if cs.getLast? = some '\n' then cs.dropLast else cs
  match cs.dropWhile Text.isDigit with
  | [] => !cs.isEmpty
  | '.' :: rest => !rest.isEmpty && rest.all Text.isDigit
  | _ => false

-- The text before the first `=` and the text after it, if there is one.
def splitAtEquals (cs : List Char) : List Char × Option (List Char) :=
  match cs.dropWhile (· != '=') with
  | [] => (cs, none)
  | _ :: rest => (cs.takeWhile (· != '='), some rest)

private def attach : Option (List Char) → Attached
  | some text => .value text
  | none => .nothing

-- A word that starts with a dash and names no switch.
def ofUnnamed (cs : List Char) : Word :=
  if isUnsigned (cs.drop 1) || cs.contains ' ' then plain (String.ofList cs)
  else unknown (String.ofList cs)

def ofSwitch (cs : List Char) (s : Switch) (attached : Attached) : Word :=
  if cs.take 2 = ['-', '-'] then long s attached else short s attached

-- A word that starts with two dashes, its name perhaps shortened.
private def ofShortened (cs : List Char) : Except UsageError Word :=
  let (name, value?) := splitAtEquals cs
  match Switch.startingWith name with
  | [] => .ok (ofUnnamed cs)
  | [s] => .ok (long s (attach value?))
  | candidates => .error (.ambiguous (String.ofList cs) candidates)

private def ofDashed (cs : List Char) : Except UsageError Word :=
  let (name, value?) := splitAtEquals cs
  match Switch.ofWord? cs, value?.bind fun _ => Switch.ofWord? name with
  | some s, _ => .ok (ofSwitch cs s .nothing)
  | none, some s => .ok (ofSwitch cs s (attach value?))
  | none, none =>
    match cs with
    | '-' :: '-' :: _ => ofShortened cs
    | '-' :: c :: rest =>
      match Switch.ofLetter? c with
      | some s => .ok (short s (.tail rest))
      | none => .ok (ofUnnamed cs)
    | _ => .ok (plain (String.ofList cs))

def ofString (text : String) : Except UsageError Word :=
  match text.toList with
  | ['-', '-'] => .ok separator
  | '-' :: cs => ofDashed ('-' :: cs)
  | _ => .ok (plain text)

-- The words of a command line. After a separator all words are plain.
def ofStrings : List String → Except UsageError (List Word)
  | [] => .ok []
  | text :: texts => do
    match ← ofString text with
    | separator => return separator :: texts.map plain
    | word => return word :: (← ofStrings texts)

end Word

-- What the command line asks for.
structure Options where
  lines : List String
  style : Style
  precision? : Option Int
  plotFile? : Option String
  version : Bool
  least : Severity
  journalFile? : Option String
  healthCheck : Bool
deriving Repr

namespace Options

def default : Options where
  lines := []
  style := .human
  precision? := none
  plotFile? := none
  version := false
  least := .warning
  journalFile? := none
  healthCheck := false

end Options

-- Why nothing is run: help is asked for, or the command line is not understood.
inductive Refusal where
  | help
  | usage (error : UsageError)
deriving DecidableEq, Repr

namespace Options

-- The options with one switch more. The last of several values counts, only lines add up.
def accept (o : Options) (s : Switch) (value : String) : Except Refusal Options :=
  match s with
  | .help => .error .help
  | .version => .ok { o with version := true }
  | .healthCheck => .ok { o with healthCheck := true }
  | .eval => .ok { o with lines := o.lines ++ [value] }
  | .plotFile => .ok { o with plotFile? := some value }
  | .logFile => .ok { o with journalFile? := some value }
  | .precision =>
    match Number.readInteger? value with
    | some n => .ok { o with precision? := some n }
    | none => .error (.usage (.badNumber s value))
  | .format =>
    match Style.ofName? value with
    | some style => .ok { o with style }
    | none => .error (.usage (.badChoice s value (Style.all.map Style.name)))
  | .logLevel =>
    match Severity.ofName? value with
    | some least => .ok { o with least }
    | none => .error (.usage (.badChoice s value (Severity.all.map Severity.name)))

-- What a word with switches comes to: the switches in it with their values, a switch that
-- waits for the next word, and letters that are no switches.
structure Cluster where
  complete : List (Switch × String)
  waiting? : Option Switch
  stray? : Option String

namespace Cluster

def add (s : Switch) (c : Cluster) : Cluster := { c with complete := (s, "") :: c.complete }

def done (s : Switch) (value : List Char) : Cluster := ⟨[(s, String.ofList value)], none, none⟩

def bare (s : Switch) : Cluster :=
  if s.takesValue then ⟨[], some s, none⟩ else ⟨[(s, "")], none, none⟩

-- A letter with what follows it. Behind a letter without value there may be other letters.
def ofTail (s : Switch) : List Char → Except UsageError Cluster
  | [] =>
    if s.takesValue then .ok (done s []) else .error (.unexpectedValue s "")
  | c :: rest =>
    if s.takesValue then .ok (done s (c :: rest))
    else if c = '-' then .error (.unexpectedValue s (String.ofList (c :: rest)))
    else
      match Switch.ofLetter? c, rest with
      | none, _ => .ok ⟨[(s, "")], none, some (String.ofList ('-' :: c :: rest))⟩
      | some next, [] => .ok ((bare next).add s)
      | some next, '=' :: value =>
        if next.takesValue then .ok ((done next value).add s)
        else .error (.unexpectedValue next (String.ofList value))
      | some next, c :: rest => (ofTail next (c :: rest)).map (add s)

def ofWord (s : Switch) : Attached → Except UsageError Cluster
  | .nothing => .ok (bare s)
  | .value text =>
    if s.takesValue then .ok (done s text)
    else .error (.unexpectedValue s (String.ofList text))
  | .tail text => ofTail s text

end Cluster

-- The options read so far, with the words that belong to no switch.
abbrev Progress := Options × List String

private def acceptAll (o : Options) : List (Switch × String) → Except Refusal Options
  | [] => .ok o
  | (s, value) :: rest => do acceptAll (← o.accept s value) rest

-- Takes one word with switches; a waiting switch takes the next word.
private def take (p : Progress) (cluster : Except UsageError Cluster) (next? : Option String) :
    Except Refusal Progress := do
  let c ← cluster.mapError .usage
  match c.waiting?, next? with
  | some s, none => .error (.usage (.missingValue s))
  | waiting?, next? =>
    let o ← acceptAll p.1 (c.complete ++ waiting?.toList.map fun s => (s, next?.getD ""))
    return (o, p.2 ++ c.stray?.toList)

private def isWaiting : Except UsageError Cluster → Bool
  | .ok c => c.waiting?.isSome
  | .error _ => false

private def cluster? : Word → Option (Except UsageError Cluster)
  | .long s attached => some (Cluster.ofWord s attached)
  | .short s attached => some (Cluster.ofWord s attached)
  | _ => none

private def strayText : Word → String
  | .plain text => text
  | .unknown text => text
  | _ => "--"

-- Reads words from left to right.
def readWords : Progress → List Word → Except Refusal Progress
  | p, [] => .ok p
  | p, [w] =>
    match cluster? w with
    | some c => take p c none
    | none => .ok (p.1, p.2 ++ [strayText w])
  | p, w :: .plain next :: ws =>
    match cluster? w with
    | some c =>
      if isWaiting c then do readWords (← take p c (some next)) ws
      else do readWords (← take p c none) (.plain next :: ws)
    | none => readWords (p.1, p.2 ++ [strayText w]) (.plain next :: ws)
  | p, w :: w' :: ws =>
    match cluster? w with
    | some c => do readWords (← take p c none) (w' :: ws)
    | none => readWords (p.1, p.2 ++ [strayText w]) (w' :: ws)

def read (args : List String) : Except Refusal Options := do
  let words ← (Word.ofStrings args).mapError .usage
  let (o, strays) ← readWords (default, []) words
  if strays.isEmpty then return o else throw (.usage (.unrecognized strays))

end Options

end Reckon
