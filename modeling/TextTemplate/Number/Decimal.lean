import TextTemplate.Number.Binary
import TextTemplate.Number.Numeral

/-!
# Decimal texts of floating-point numbers

A floating-point number is written with the fewest decimal digits that read back as the number, and
of those with the digits nearest to it. All of this is decided on integers: the numbers that read
back form an interval around the number, and for one digit, two digits and so on the two
neighbours of the number on that decimal grid are tried.

How the digits are laid out is a matter of the format that is written, which a `Layout` record
states.

## Main definitions

* `Decimal` — digits and a power of ten.
* `Decimal.shortest` — the fewest digits that read back.
* `Decimal.Layout`, `Decimal.Layout.numeral` — the layout of a format, and the numeral in it.
* `Decimal.toFloat`, `Numeral.toFloat` — the nearest floating-point number.
* `Decimal.read?` — the number of a decimal text.
-/

namespace TextTemplate

/-- The number `digits * 10 ^ exponent`. -/
structure Decimal where
  digits : Nat
  exponent : Int
deriving DecidableEq

namespace Decimal

/-- Which of two decimals equally near is taken. -/
inductive Tie where
  | up
  | even
deriving DecidableEq

/-- The multiples of `10 ^ exponent` around a floating-point number. The number and the step from
one multiple to the next are given in a common unit in which both are whole; `below` whole steps do
not exceed the number, and from `first` to `last` steps read back as it. -/
structure Grid where
  exponent : Int
  step : Nat
  exact : Nat
  below : Nat
  first : Nat
  last : Nat

/-- The multiples of `10 ^ exponent` around `m * 2 ^ e`. A decimal reads back as that number when it
lies between the midpoints to the neighbours of the number, and on a midpoint only if `m` is even.
The unit is `10 ^ exponent` or one, if that is less, divided by `2 ^ (2 - e)`. -/
def Grid.ofBinary (m : Nat) (e exponent : Int) : Grid :=
  let units (quarters : Nat) := (quarters <<< (e - 2).toNat) * Nat.pow 10 (-exponent).toNat
  let step := (1 <<< (2 - e).toNat) * Nat.pow 10 exponent.toNat
  -- Below a power of two the neighbours lie twice as close.
  let gap := if m = 1 <<< 52 ∧ -1074 < e then 1 else 2
  let low := units (4 * m - gap)
  let exact := units (4 * m)
  let high := units (4 * m + 2)
  { exponent, step, exact
    below := exact / step
    first := if m % 2 = 0 then (low + step - 1) / step else low / step + 1
    last := if m % 2 = 0 then high / step else (high - 1) / step }

/-- Of the two neighbours of the number among the multiples of `width` steps, the nearest that reads
back, as a multiple. -/
def Grid.nearest? (grid : Grid) (tie : Tie) (width : Nat) : Option Nat :=
  let lower := grid.below / width
  let upper := lower + 1
  let readsBack (k : Nat) : Bool := grid.first ≤ k * width && k * width ≤ grid.last
  match readsBack lower, readsBack upper with
  | false, false => none
  | true, false => some lower
  | false, true => some upper
  | true, true =>
    match compare (2 * grid.exact) ((lower + upper) * width * grid.step) with
    | .lt => some lower
    | .eq => some (if tie = .even ∧ lower % 2 = 0 then lower else upper)
    | .gt => some upper

/-- How many decimal digits the whole part of `m * 2 ^ e` has; for a number below one, the place of
its first digit, counted down from zero. -/
def magnitude (m : Nat) (e : Int) : Int :=
  let num := m <<< e.toNat
  let den := 1 <<< (-e).toNat
  if den ≤ num then
    ((toString (num / den)).length : Int)
  else
    let zeros := (toString (den / num)).length - 1
    if num * Nat.pow 10 zeros < den then -(zeros : Int) else 1 - (zeros : Int)

/-- Drops the zeros at the end of the digits, at most as many as the first argument. -/
def dropZeros : Nat → Decimal → Decimal
  | 0, d => d
  | n + 1, d =>
    if d.digits ≠ 0 ∧ d.digits % 10 = 0 then dropZeros n ⟨d.digits / 10, d.exponent + 1⟩ else d

/-- The fewest digits that read back as `m * 2 ^ e`, for `m` other than zero. Seventeen digits
always do. -/
def shortest (tie : Tie) (m : Nat) (e : Int) : Decimal :=
  let grid := Grid.ofBinary m e (magnitude m e - 17)
  let found := (List.range 17).findSome? fun n =>
    let dropped : Nat := 16 - n
    (grid.nearest? tie (Nat.pow 10 dropped)).map fun digits => ⟨digits, grid.exponent + dropped⟩
  dropZeros 20 (found.getD ⟨grid.below, grid.exponent⟩)

/-- How a format lays out decimal digits. -/
structure Layout where
  /-- The least and the greatest exponent of the first digit that are written without an
  exponent; no bounds means that an exponent is never written. -/
  positional : Option (Int × Int)
  /-- Whether a whole number without an exponent ends in a point and a zero. -/
  pointZero : Bool
  /-- Which of two texts equally near is written. -/
  tie : Tie

/-- A number of zeros. -/
def zeros (n : Nat) : List Char :=
  List.replicate n '0'

/-- The digits without an exponent. -/
def Layout.positionalNumeral (layout : Layout) (negative : Bool) (d : Decimal) : Numeral :=
  let digits := (toString d.digits).toList
  if 0 ≤ d.exponent then
    ⟨negative, digits ++ zeros d.exponent.toNat, if layout.pointZero then ['0'] else [], none⟩
  else
    let places := (-d.exponent).toNat
    let padded := zeros (places + 1 - digits.length) ++ digits
    ⟨negative, padded.take (padded.length - places), padded.drop (padded.length - places), none⟩

/-- One digit in front of the point, the others behind it, and the exponent of the first. -/
def scientificNumeral (negative : Bool) (d : Decimal) : Numeral :=
  let digits := (toString d.digits).toList
  ⟨negative, digits.take 1, digits.drop 1, some (d.exponent + ((digits.length : Int) - 1))⟩

/-- The numeral of `± mantissa * 2 ^ exponent` in a layout. -/
def Layout.numeral (layout : Layout) (negative : Bool) (mantissa : Nat) (exponent : Int) :
    Numeral :=
  let d := if mantissa = 0 then ⟨0, 0⟩ else shortest layout.tie mantissa exponent
  let first := d.exponent + (((toString d.digits).length : Int) - 1)
  let plain :=
    match layout.positional with
    | none => true
    | some (least, greatest) => least ≤ first && first ≤ greatest
  if plain then layout.positionalNumeral negative d else scientificNumeral negative d

/-- The nearest floating-point number, with an even mantissa halfway between two, and infinity where
none is as large. A decimal from `10 ^ 309` on is too large and one below `10 ^ (-324)` is next to
zero, so that their powers of ten are never computed. -/
def toFloat (d : Decimal) : Float :=
  let places := d.exponent + ((toString d.digits).length : Int)
  if d.digits = 0 ∨ places < -323 then 0.0
  else if 309 < places then 1.0 / 0.0
  else Float.ofScientific d.digits (d.exponent < 0) d.exponent.natAbs

end Decimal

namespace Numeral

/-- The decimal that a numeral without its sign means. -/
def decimal (n : Numeral) : Decimal :=
  ⟨Checked.ofDigits (n.whole ++ n.fraction), n.exponent.getD 0 - (n.fraction.length : Int)⟩

/-- The floating-point number nearest to what a numeral means. -/
def toFloat (n : Numeral) : Float :=
  if n.negative then -n.decimal.toFloat else n.decimal.toFloat

end Numeral

/-- Reads a numeral as the nearest floating-point number. -/
def Decimal.read? (s : String) : Option Float :=
  match Numeral.ofChars? s.toList with
  | some (n, []) => some n.toFloat
  | _ => none

end TextTemplate
