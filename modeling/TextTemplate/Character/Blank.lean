/-!
# Blank characters

The characters of the Unicode property `White_Space`. Blanks separate the tokens of an expression,
and trimming takes them from both ends of a text.
-/

namespace TextTemplate

/-- The characters with the Unicode property `White_Space`. -/
def isBlank (c : Char) : Bool :=
  let n := c.toNat
  (9 ≤ n && n ≤ 13) || n == 0x20 || n == 0x85 || n == 0xa0 || n == 0x1680 ||
    (0x2000 ≤ n && n ≤ 0x200a) || n == 0x2028 || n == 0x2029 || n == 0x202f || n == 0x205f ||
    n == 0x3000

/-- A text without the blanks at its start. -/
def trimStart (cs : List Char) : List Char :=
  cs.dropWhile isBlank

/-- A text without the blanks at its end. -/
def trimEnd (cs : List Char) : List Char :=
  (cs.reverse.dropWhile isBlank).reverse

/-- A text without the blanks at both ends. -/
def trim (s : String) : String :=
  String.ofList (trimEnd (trimStart s.toList))

end TextTemplate
