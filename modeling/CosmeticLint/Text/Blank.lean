/-! Blank characters in the sense of the Unicode property `White_Space`. -/

namespace CosmeticLint

def isWhiteSpace (c : Char) : Bool :=
  let n := c.toNat
  (0x09 ≤ n && n ≤ 0x0d) || n == 0x20 || n == 0x85 || n == 0xa0 || n == 0x1680 ||
    (0x2000 ≤ n && n ≤ 0x200a) || n == 0x2028 || n == 0x2029 || n == 0x202f || n == 0x205f ||
    n == 0x3000

/-- Removes the characters at the end that satisfy `p`. -/
def trimEnd (p : Char → Bool) (cs : List Char) : List Char := (cs.reverse.dropWhile p).reverse

/-- Removes the blank characters at both ends. -/
def trimBlanks (cs : List Char) : List Char := trimEnd isWhiteSpace (cs.dropWhile isWhiteSpace)

end CosmeticLint
