namespace Reckon.Parenthesis

-- Reads on from `position` with the positions of the open parentheses, the innermost first.
-- Answers with the first `)` that closes nothing, else with the first `(` that stays open.
def faultFrom (position : Nat) (opened : List Nat) : List Char → Option Nat
  | [] => opened.getLast?
  | c :: cs =>
    if c = '(' then faultFrom (position + 1) (position :: opened) cs
    else if c = ')' then
      match opened with
      | [] => some position
      | _ :: outer => faultFrom (position + 1) outer cs
    else faultFrom (position + 1) opened cs

-- Where the balance fails, if it does.
def fault? (source : List Char) : Option Nat := faultFrom 0 [] source

end Reckon.Parenthesis
