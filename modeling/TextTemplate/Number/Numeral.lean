import TextTemplate.Number.Checked

/-!
# Decimal numbers in the parts of their text

The text of a decimal number has a sign, digits in front of the point, digits behind it, and an
exponent. A numeral keeps these parts as they are written, so that what becomes of a digit that does
not matter, such as a zero at the end of a fraction, is up to the reader of the numeral.

## Main definitions

* `Numeral`, `Numeral.text` — the parts, and their text.
* `Numeral.ofInt` — the numeral of an integer.
* `Numeral.ofChars?` — takes a numeral from the front of a text.
-/

namespace TextTemplate

/-- A decimal number in the parts of its text. A number without a fraction has no digits there. -/
structure Numeral where
  negative : Bool
  whole : List Char
  fraction : List Char
  exponent : Option Int
deriving DecidableEq

namespace Numeral

/-- An exponent is written with its sign, plus or minus. -/
def exponentText (e : Int) : String :=
  (if e < 0 then "e-" else "e+") ++ toString e.natAbs

/-- The text of a numeral. -/
def text (n : Numeral) : String :=
  (if n.negative then "-" else "") ++ String.ofList n.whole ++
    (if n.fraction.isEmpty then "" else "." ++ String.ofList n.fraction) ++
    (n.exponent.map exponentText).getD ""

/-- The numeral of an integer. -/
def ofInt (n : Int) : Numeral :=
  ⟨n < 0, (toString n.natAbs).toList, [], none⟩

/-- Takes digits, at least one, from the front of a text. -/
def digits? (cs : List Char) : Option (List Char × List Char) :=
  match cs.takeWhile Char.isDigit with
  | [] => none
  | digits => some (digits, cs.dropWhile Char.isDigit)

/-- Takes the digits in front of the point; a zero stands there only alone. -/
def whole? (cs : List Char) : Option (List Char × List Char) :=
  (digits? cs).filter fun (digits, _) => digits.length == 1 || digits.head? != some '0'

/-- Takes a point with the digits behind it, if there is one. -/
def fraction? : List Char → Option (List Char × List Char)
  | '.' :: cs => digits? cs
  | cs => some ([], cs)

/-- Takes an exponent behind its mark. -/
def signedDigits? : List Char → Option (Int × List Char)
  | '-' :: cs => (digits? cs).map fun (digits, rest) => (-(Checked.ofDigits digits : Int), rest)
  | '+' :: cs => (digits? cs).map fun (digits, rest) => ((Checked.ofDigits digits : Int), rest)
  | cs => (digits? cs).map fun (digits, rest) => ((Checked.ofDigits digits : Int), rest)

/-- Takes an exponent, if there is one. -/
def exponent? : List Char → Option (Option Int × List Char)
  | 'e' :: cs | 'E' :: cs => (signedDigits? cs).map fun (e, rest) => (some e, rest)
  | cs => some (none, cs)

/-- Takes a numeral, with an optional minus sign, from the front of a text. -/
def ofChars? (cs : List Char) : Option (Numeral × List Char) := do
  let (negative, cs) :=
    match cs with
    | '-' :: cs => (true, cs)
    | cs => (false, cs)
  let (whole, cs) ← whole? cs
  let (fraction, cs) ← fraction? cs
  let (exponent, cs) ← exponent? cs
  return (⟨negative, whole, fraction, exponent⟩, cs)

end Numeral

end TextTemplate
