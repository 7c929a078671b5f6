namespace Reckon.Text

-- The separators and spaces of Unicode, with the control characters that act as such.
-- Zero-width characters are not blank.
def isBlank (c : Char) : Bool :=
  let n := c.toNat
  (9 ≤ n && n ≤ 13) || (28 ≤ n && n ≤ 32) || n == 0x85 || n == 0xA0 || n == 0x1680 ||
    (0x2000 ≤ n && n ≤ 0x200A) || n == 0x2028 || n == 0x2029 || n == 0x202F || n == 0x205F ||
    n == 0x3000

-- Without the characters at the end that satisfy `p`.
def dropEndWhile (p : Char → Bool) (cs : List Char) : List Char :=
  (cs.reverse.dropWhile p).reverse

-- Without the characters at either end that satisfy `p`.
def stripWhile (p : Char → Bool) (cs : List Char) : List Char :=
  dropEndWhile p (cs.dropWhile p)

def strip (cs : List Char) : List Char := stripWhile isBlank cs

end Reckon.Text
