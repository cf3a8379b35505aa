/-! Blank characters, and the text left when those around it are removed. -/

namespace Telemetry.Text

/-- Spaces, line and paragraph breaks, tabulators, and the four separators `0x1C` to `0x1F`. -/
def isBlank (c : Char) : Bool :=
  let n := c.toNat
  (0x09 ≤ n && n ≤ 0x0D) || (0x1C ≤ n && n ≤ 0x20) || n == 0x85 || n == 0xA0 || n == 0x1680 ||
    (0x2000 ≤ n && n ≤ 0x200A) || n == 0x2028 || n == 0x2029 || n == 0x202F || n == 0x205F ||
    n == 0x3000

/-- White space proper: the blanks without the four separators. -/
def isWhite (c : Char) : Bool :=
  isBlank c && !(0x1C ≤ c.toNat && c.toNat ≤ 0x1F)

/-- The text without the characters of the class at both ends. -/
def trimWith (drop : Char → Bool) (cs : List Char) : List Char :=
  (((cs.dropWhile drop).reverse).dropWhile drop).reverse

def trim (cs : List Char) : List Char :=
  trimWith isBlank cs

/-- The text without the characters of the class at its end. -/
def trimEndWith (drop : Char → Bool) (cs : List Char) : List Char :=
  (cs.reverse.dropWhile drop).reverse

end Telemetry.Text
