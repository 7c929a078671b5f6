import Reckon.Formula.Algebra
import Reckon.Shell.Surroundings
import Reckon.Text.Quoted

namespace Reckon

-- The libraries that the program runs with.

def spreadEvenly (lo hi : Float) (count : Nat) : List Float :=
  let step := (hi - lo) / Float.ofNat (count - 1)
  (List.range count).map fun i => if i + 1 = count then hi else Float.ofNat i * step + lo

def Libraries.standard : Libraries where
  decades := .standard
  describe t := t.description Formula.algebra
  spread := spreadEvenly

-- The writer of images that the program runs with. The kind of an image is told by the end of its
-- path.

namespace Image

def kinds : List String :=
  ["eps", "jpeg", "jpg", "pdf", "pgf", "png", "ps", "raw", "rgba", "svg", "svgz", "tif", "tiff",
    "webp"]

-- The part of a path after its last slash.
def lastPart (path : String) : String :=
  String.ofList (path.toList.reverse.takeWhile (· != '/')).reverse

-- The part of a path before its last slash. It is empty if there is no slash.
def directory (path : String) : String :=
  String.ofList ((path.toList.reverse.dropWhile (· != '/')).drop 1).reverse

-- What follows the last point of a file name. Points at its start do not count.
def kind? (path : String) : Option String :=
  let name := (lastPart path).toList.dropWhile (· == '.')
  let kind := (name.reverse.takeWhile (· != '.')).reverse
  if kind.length < name.length ∧ kind ≠ [] then some (String.ofList (kind.map Char.toLower))
  else none

-- The path that is written. A file of no kind gets the usual one.
def file (path : String) : String :=
  if (kind? path).isSome then path
  else String.ofList (path.toList.reverse.dropWhile (· == '.')).reverse ++ ".png"

-- How the writing to a path ends, given which directories exist.
def write (exists? : String → Bool) (path : String) : Writing :=
  match (kind? path).filter fun kind => !kinds.contains kind with
  | some kind =>
    .raised ⟨s!"Format {Text.quoted kind} is not supported (supported formats: " ++
      ", ".intercalate kinds ++ ")"⟩
  | none =>
    if path.toList.contains '\x00' then .raised ⟨"embedded null byte"⟩
    else if exists? (directory path) then .written
    else .refused s!"[Errno 2] No such file or directory: {Text.quoted (file path)}"

-- The samples, one on a line, stand for the picture.
def table (image : Image) : String :=
  String.join (image.samples.map fun (x, y?) =>
    Number.fullText x ++ " " ++ (y?.elim "-" Number.fullText) ++ "\n")

end Image

end Reckon
