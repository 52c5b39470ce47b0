/-!
# Blank space

Two notions of white space. `isBlank` is the wide one, used to trim a setting: the ASCII blanks, the
four ASCII separators and the spaces of Unicode. `isNumberBlank` is what may surround a number: the
same set without the four separators.
-/

namespace ChipEight.Text

/-- The ASCII characters tab, line feed, vertical tab, form feed, carriage return and space. -/
def isAsciiBlank (c : Char) : Bool := c == ' ' || (9 ≤ c.toNat && c.toNat ≤ 13)

/-- The spaces outside ASCII. -/
def isWideBlank (c : Char) : Bool :=
  let n := c.toNat
  n == 0x85 || n == 0xA0 || n == 0x1680 || (0x2000 ≤ n && n ≤ 0x200A) || n == 0x2028 ||
    n == 0x2029 || n == 0x202F || n == 0x205F || n == 0x3000

/-- White space that may surround a number. -/
def isNumberBlank (c : Char) : Bool := isAsciiBlank c || isWideBlank c

/-- White space of any kind. -/
def isBlank (c : Char) : Bool :=
  isNumberBlank c || (0x1C ≤ c.toNat && c.toNat ≤ 0x1F)

/-- `s` without the leading and trailing characters that satisfy `p`. -/
def trimBoth (p : Char → Bool) (s : List Char) : List Char :=
  ((s.dropWhile p).reverse.dropWhile p).reverse

end ChipEight.Text
