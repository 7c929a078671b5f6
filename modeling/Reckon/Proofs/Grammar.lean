import Reckon.Statement
import Reckon.Token
import Reckon.Proofs.Number.Literal
/-!
The grammar of lines, over the tokens of a line without one for its end. It is layered: sums of
products of powers of atoms, the first two nesting to the left and powers to the right. Which
tokens make which tree is all that it says; it knows nothing of how a line is read.
-/
namespace Reckon.Grammar

-- A number token with the value it writes. Two points in one token make no number.
structure Literal (t : Token) (value : Float) : Prop where
  kind : t.kind = .number
  points : t.text.toList.count '.' ≤ 1
  value_eq : value = Number.literalValue t.text.toList

-- A minus directly before a literal.
structure Touches (minus literal : Token) : Prop where
  kind : minus.kind = .operator .sub
  position : literal.position = minus.position + 1

mutual

-- `+` and `-` bind loosest and nest to the left.
inductive Sum : List Token → Operand Float → Prop
  | product {ts : List Token} {x : Operand Float} : Product ts x → Sum ts x
  | term {ls rs : List Token} {l r : Operand Float} {sign : Token} {o : Operation} :
      Sum ls l → sign.kind = .operator o → o = .add ∨ o = .sub → Product rs r →
      Sum (ls ++ sign :: rs) (.term o l r)

-- `*`, `/` and `%` come next and nest to the left too.
inductive Product : List Token → Operand Float → Prop
  | power {ts : List Token} {x : Operand Float} : Power ts x → Product ts x
  | term {ls rs : List Token} {l r : Operand Float} {sign : Token} {o : Operation} :
      Product ls l → sign.kind = .operator o → o = .mul ∨ o = .div ∨ o = .rem → Power rs r →
      Product (ls ++ sign :: rs) (.term o l r)

-- `^` binds tightest and nests to the right.
inductive Power : List Token → Operand Float → Prop
  | atom {ts : List Token} {x : Operand Float} : Atom ts x → Power ts x
  | term {ls rs : List Token} {l r : Operand Float} {sign : Token} :
      Atom ls l → sign.kind = .operator .pow → Power rs r →
      Power (ls ++ sign :: rs) (.term .pow l r)

-- A minus belongs to the literal that it touches; anywhere else it is an operator.
inductive Atom : List Token → Operand Float → Prop
  | number {t : Token} {value : Float} : Literal t value → Atom [t] (.number value)
  | negative {minus t : Token} {value : Float} : Touches minus t → Literal t value →
      Atom [minus, t] (.number (-value))
  | symbol {t : Token} : t.isSymbol → Atom [t] (.symbol t.text)
  | call {name opening closing : Token} {ts : List Token} {args : List (Operand Float)} :
      name.isSymbol → opening.kind = .opening → Arguments ts args → closing.kind = .closing →
      Atom (name :: opening :: (ts ++ [closing])) (.call name.text args)
  | emptyCall {name opening closing : Token} :
      name.isSymbol → opening.kind = .opening → closing.kind = .closing →
      Atom [name, opening, closing] (.call name.text [])
  | group {opening closing : Token} {ts : List Token} {x : Operand Float} :
      opening.kind = .opening → Sum ts x → closing.kind = .closing →
      Atom (opening :: (ts ++ [closing])) x

-- At least one argument, with commas between them.
inductive Arguments : List Token → List (Operand Float) → Prop
  | last {ts : List Token} {x : Operand Float} : Sum ts x → Arguments ts [x]
  | more {ts us : List Token} {x : Operand Float} {args : List (Operand Float)} {comma : Token} :
      Sum ts x → comma.kind = .comma → Arguments us args →
      Arguments (ts ++ comma :: us) (x :: args)

end

-- Sums and products by their left edge, and arguments from left to right.

theorem Sum.left_induction {motive : ∀ ts x, Sum ts x → Prop}
    (product : ∀ {ts x} (h : Product ts x), motive ts x (.product h))
    (term : ∀ {ls rs l r sign o} (hl : Sum ls l) (hsign : sign.kind = .operator o)
      (ho : o = .add ∨ o = .sub) (hr : Product rs r), motive ls l hl →
        motive (ls ++ sign :: rs) (.term o l r) (.term hl hsign ho hr))
    {ts : List Token} {x : Operand Float} : (h : Sum ts x) → motive ts x h
  | .product h => product h
  | .term hl hsign ho hr => term hl hsign ho hr (left_induction product term hl)

theorem Product.left_induction {motive : ∀ ts x, Product ts x → Prop}
    (power : ∀ {ts x} (h : Power ts x), motive ts x (.power h))
    (term : ∀ {ls rs l r sign o} (hl : Product ls l) (hsign : sign.kind = .operator o)
      (ho : o = .mul ∨ o = .div ∨ o = .rem) (hr : Power rs r), motive ls l hl →
        motive (ls ++ sign :: rs) (.term o l r) (.term hl hsign ho hr))
    {ts : List Token} {x : Operand Float} : (h : Product ts x) → motive ts x h
  | .power h => power h
  | .term hl hsign ho hr => term hl hsign ho hr (left_induction power term hl)

theorem Arguments.induction {motive : ∀ ts args, Arguments ts args → Prop}
    (last : ∀ {ts x} (h : Sum ts x), motive ts [x] (.last h))
    (more : ∀ {ts us x args comma} (h : Sum ts x) (hcomma : comma.kind = .comma)
      (hargs : Arguments us args), motive us args hargs →
        motive (ts ++ comma :: us) (x :: args) (.more h hcomma hargs))
    {ts : List Token} {args : List (Operand Float)} : (h : Arguments ts args) → motive ts args h
  | .last h => last h
  | .more h hcomma hargs => more h hcomma hargs (induction last more hargs)

-- At least one parameter name, with commas between them.
inductive Parameters : List Token → List String → Prop
  | last {t : Token} : t.isSymbol → Parameters [t] [t.text]
  | more {t comma : Token} {ts : List Token} {names : List String} :
      t.isSymbol → comma.kind = .comma → Parameters ts names →
      Parameters (t :: comma :: ts) (t.text :: names)

-- The parameter list of a definition, which may be empty.
inductive ParameterList : List Token → List String → Prop
  | empty : ParameterList [] []
  | names {ts : List Token} {names : List String} : Parameters ts names → names.Nodup →
      ParameterList ts names

-- The tokens of a whole line.
inductive Line : List Token → Statement Float → Prop
  | expression {ts : List Token} {x : Operand Float} : Sum ts x → Line ts (.expression x)
  | assignment {target assign : Token} {ts : List Token} {x : Operand Float} :
      target.isSymbol → assign.kind = .assign → Sum ts x →
      Line (target :: assign :: ts) (.assignment target.text x)
  | definition {name opening closing assign : Token} {ps ts : List Token}
      {params : List String} {body : Operand Float} :
      name.isSymbol → opening.kind = .opening → ParameterList ps params →
      closing.kind = .closing → assign.kind = .assign → Sum ts body →
      Line (name :: opening :: (ps ++ closing :: assign :: ts))
        (.definition name.text params body)
  | solve {head equals last unknown : Token} {ls rs : List Token} {l r : Operand Float} :
      head.isKeyword "solve" → Sum ls l → equals.kind = .equals → Sum rs r →
      last.isKeyword "for" → unknown.isSymbol →
      Line (head :: (ls ++ equals :: (rs ++ [last, unknown]))) (.solve l r unknown.text)
  | plot {head name : Token} : head.isKeyword "plot" → name.isSymbol →
      Line [head, name] (.plot name.text)

end Reckon.Grammar
