/-
Space: the blanks and line ends of all scripts, and text without them at its ends.
-/

namespace Errand.Text

/-- blanks and line ends of all scripts -/
def isSpace (c : Char) : Bool :=
  let n := c.toNat
  (9 ≤ n && n ≤ 13) || n = 0x20 || n = 0x85 || n = 0xA0 || n = 0x1680 || (0x2000 ≤ n && n ≤ 0x200A) || n = 0x2028
    || n = 0x2029 || n = 0x202F || n = 0x205F || n = 0x3000

/-- text without the space it begins with -/
def trimStart (cs : List Char) : List Char := cs.dropWhile isSpace

def trimEnd (cs : List Char) : List Char := (trimStart cs.reverse).reverse

/-- text without the space around it -/
def trim (cs : List Char) : List Char := trimEnd (trimStart cs)

end Errand.Text
