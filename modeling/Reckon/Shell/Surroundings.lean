import Reckon.Description
import Reckon.Plot.Tic

namespace Reckon

-- What is drawn into an image: the name and the parameter of a function, the area, and samples
-- with a gap wherever the function has no finite value.
structure Image where
  name : String
  parameter : String
  area : Area
  samples : List (Float × Option Float)
deriving Repr

-- How the writing of an image ends.
inductive Writing where
  | written
  -- the system does not let it be written
  | refused (cause : String)
  -- calls nest too deeply
  | overrun
  | raised (what : Raised)
deriving DecidableEq, Repr

-- What the shell takes from libraries.
structure Libraries where
  decades : Decades
  -- the text of an operand
  describe : Operand Float → Except Raised String
  -- a count of numbers from one end to another, evenly spread
  spread : Float → Float → (count : Nat) → List Float

-- What a line meets with when it is executed: how deeply calls may nest, and the system that images
-- are written to.
structure Surroundings where
  limit : Nat
  write : Image → (path : String) → Writing

end Reckon
