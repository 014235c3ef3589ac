import TextTemplate.Number.Decimal

/-!
# What numbers in JSON mean

A numeral without a fraction and an exponent is an integer, unless it is too large or minus zero.
Any other numeral is the nearest floating-point number; a number that is too large is refused.

## Main definitions

* `JsonNumber` — an integer or a floating-point number.
* `Numeral.jsonInteger?`, `Numeral.jsonNumber?` — what a numeral means.
-/

namespace TextTemplate

/-- What a number in JSON means. -/
inductive JsonNumber where
  | whole (n : Int)
  | real (x : Float)

namespace Numeral

/-- The integer that a numeral means, if it means one: at least `-2 ^ 63` and below `2 ^ 64`. -/
def jsonInteger? (n : Numeral) : Option Int :=
  if n.fraction = [] ∧ n.exponent = none then
    let magnitude := Checked.ofDigits n.whole
    if n.negative then
      if 1 ≤ magnitude ∧ magnitude ≤ 1 <<< 63 then some (-(magnitude : Int)) else none
    else if magnitude < 1 <<< 64 then some magnitude
    else none
  else
    none

/-- What a numeral means. -/
def jsonNumber? (n : Numeral) : Option JsonNumber :=
  match n.jsonInteger? with
  | some integer => some (.whole integer)
  | none => if n.toFloat.isInf then none else some (.real n.toFloat)

end Numeral

end TextTemplate
