import Reckon.Text.Quoted

namespace Reckon.Text.Json

-- All other characters stand as they are.
def escaped (c : Char) : List Char :=
  if c = '"' ∨ c = '\\' then ['\\', c]
  else if c = '\n' then ['\\', 'n']
  else if c = '\r' then ['\\', 'r']
  else if c = '\t' then ['\\', 't']
  else if c.toNat = 8 then ['\\', 'b']
  else if c.toNat = 12 then ['\\', 'f']
  else if c.toNat < 32 then '\\' :: 'u' :: hexadecimal 4 c.toNat
  else [c]

def string (text : String) : String :=
  String.ofList ('"' :: text.toList.flatMap escaped ++ ['"'])

def bool (b : Bool) : String := if b then "true" else "false"

-- An object of members that are written already.
def object (members : List (String × String)) : String :=
  let written := members.map fun (name, value) => "  " ++ string name ++ ": " ++ value
  "\x7b\n" ++ ",\n".intercalate written ++ "\n\x7d"

end Reckon.Text.Json
