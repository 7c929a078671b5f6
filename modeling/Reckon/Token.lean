import Reckon.Text.Blank
import Reckon.Text.Digit
import Reckon.Arithmetic

namespace Reckon

open Text

inductive TokenKind where
  | number
  | name
  | assign
  | operator (operation : Operation)
  | opening
  | closing
  | comma
  | equals
  -- the end of the line
  | finish
deriving DecidableEq, Repr, Inhabited

structure Token where
  kind : TokenKind
  text : String
  position : Nat
deriving DecidableEq, Repr, Inhabited

namespace Token

-- Words with a fixed meaning; they name no variable, function or parameter.
def keywords : List String := ["solve", "for", "plot"]

def isNameStart (c : Char) : Bool := c.isAlpha || c == '_'

def isNameRest (c : Char) : Bool := c.isAlphanum || c == '_'

-- The characters at the front that make up an exponent. An `e` without digits after it is none.
def exponentPart : List Char → List Char
  | e :: cs =>
    if e = 'e' ∨ e = 'E' then
      let (sign, digits) := match cs with
        | s :: rest => if s = '+' ∨ s = '-' then ([s], rest) else ([], cs)
        | [] => ([], [])
      match digits.takeWhile isDigit with
      | [] => []
      | run => e :: sign ++ run
    else []
  | [] => []

-- The rest of a number after its first digit. Points are not counted here: a number with two
-- of them is one lexeme, and no number.
def numberRest (cs : List Char) : List Char :=
  let isPart (c : Char) : Bool := isDigit c || c == '.'
  cs.takeWhile isPart ++ exponentPart (cs.dropWhile isPart)

-- The kind and the length of the longest lexeme that starts with `c` and goes on in `cs`.
def lexeme? (c : Char) (cs : List Char) : Option (TokenKind × Nat) :=
  if isDigit c then some (.number, (numberRest cs).length + 1)
  else if isNameStart c then some (.name, (cs.takeWhile isNameRest).length + 1)
  else if c = ':' then
    match cs with
    | '=' :: _ => some (.assign, 2)
    | _ => none
  else if c = '(' then some (.opening, 1)
  else if c = ')' then some (.closing, 1)
  else if c = ',' then some (.comma, 1)
  else if c = '=' then some (.equals, 1)
  else (Operation.ofSign? c).map fun o => (.operator o, 1)

-- A character at which no lexeme starts, with its position.
structure Stray where
  character : Char
  position : Nat
deriving DecidableEq, Repr

-- The tokens of the characters from `position` on, of which the first `skip` belong to a lexeme
-- that has been read.
def scanFrom (position : Nat) : (skip : Nat) → List Char → Except Stray (List Token)
  | _, [] => .ok []
  | skip + 1, _ :: cs => scanFrom (position + 1) skip cs
  | 0, c :: cs =>
    if isBlank c then scanFrom (position + 1) 0 cs
    else match lexeme? c cs with
      | none => .error ⟨c, position⟩
      | some (kind, length) => do
        let tokens ← scanFrom (position + 1) (length - 1) cs
        return ⟨kind, String.ofList ((c :: cs).take length), position⟩ :: tokens

-- The tokens of a line, without one for its end.
def scan (source : List Char) : Except Stray (List Token) := scanFrom 0 0 source

-- The tokens of a line, closed by one for its end.
def scanLine (source : List Char) : Except Stray (List Token) := do
  return (← scan source) ++ [⟨.finish, "", source.length⟩]

def isKeyword (word : String) (t : Token) : Bool := t.kind == .name && t.text == word

-- Whether the token names a variable, function or parameter.
def isSymbol (t : Token) : Bool := t.kind == .name && !keywords.contains t.text

end Token

end Reckon
