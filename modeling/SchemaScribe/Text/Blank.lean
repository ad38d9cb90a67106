/-! # White space

The white space of the Unicode standard together with the four information separators, and the
texts that remain when it is taken from both ends.
-/
namespace SchemaScribe.Text

/-- White space of any script, the separators U+001C to U+001F included. -/
def isBlank (c : Char) : Bool :=
  let n := c.toNat
  (0x09 ≤ n && n ≤ 0x0D) || (0x1C ≤ n && n ≤ 0x20) || n == 0x85 || n == 0xA0 || n == 0x1680 ||
    (0x2000 ≤ n && n ≤ 0x200A) || n == 0x2028 || n == 0x2029 || n == 0x202F || n == 0x205F ||
    n == 0x3000

/-- The white space that may surround a number: an ASCII separator is none of it. -/
def isNumeralBlank (c : Char) : Bool :=
  let n := c.toNat
  (0x09 ≤ n && n ≤ 0x0D) || n == 0x20 || (0x7F ≤ n && isBlank c)

/-- The characters that remain when those of a class are dropped at both ends. -/
def trimEnds (drop : Char → Bool) (s : List Char) : List Char :=
  (((s.dropWhile drop).reverse).dropWhile drop).reverse

end SchemaScribe.Text
