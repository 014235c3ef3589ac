/-!
# Floating-point numbers as integers times powers of two

A finite number of 64 bits is, up to its sign, an integer below `2 ^ 53` times a power of two. This
file takes a number apart in that form, builds it again, and computes the remainder of a division
exactly: the result is the dividend less the divisor times the truncated quotient.

## Main definitions

* `Binary.Shape` — a number taken apart.
* `Binary.shape`, `Binary.ofParts` — from a number to its parts and back.
* `Binary.remainder` — the exact remainder, with the sign of the dividend.
-/

namespace TextTemplate.Binary

/-- What a floating-point number is: no number, an infinity, or `± mantissa * 2 ^ exponent`. -/
inductive Shape where
  | nan
  | infinite (negative : Bool)
  | finite (negative : Bool) (mantissa : Nat) (exponent : Int)
deriving DecidableEq

/-- Takes a number apart. The exponent is at least `-1074`, and above that the mantissa has all its
53 bits. -/
def shape (x : Float) : Shape :=
  let bits := x.toBits.toNat
  let negative : Bool := 1 <<< 63 ≤ bits
  let biased : Nat := (bits >>> 52) % (1 <<< 11)
  let fraction : Nat := bits % (1 <<< 52)
  if biased = 2047 then
    if fraction = 0 then .infinite negative else .nan
  else if biased = 0 then
    .finite negative fraction (-1074)
  else
    .finite negative ((1 <<< 52) + fraction) ((biased : Int) - 1075)

/-- The number `± mantissa * 2 ^ exponent`, where it is a floating-point number. -/
def ofParts (negative : Bool) (mantissa : Nat) (exponent : Int) : Float :=
  let sign := if negative then 1 <<< 63 else 0
  let magnitude :=
    if mantissa = 0 then
      0
    else
      -- The mantissa is brought to 53 bits, or to the least exponent there is.
      let least := max (exponent + (Nat.log2 mantissa : Int) - 52) (-1074)
      let scaled :=
        if least ≤ exponent then mantissa <<< (exponent - least).toNat
        else mantissa >>> (least - exponent).toNat
      if scaled < 1 <<< 52 then scaled
      else ((least + 1075).toNat <<< 52) + (scaled - (1 <<< 52))
  Float.ofBits (UInt64.ofNat (sign + magnitude))

/-- The value that stands for "no number". -/
def nan : Float := 0.0 / 0.0

/-- The remainder of the truncated division of one number by another. -/
def remainder (x y : Float) : Float :=
  match shape x, shape y with
  | .nan, _ | _, .nan | .infinite _, _ => nan
  | .finite .., .infinite _ => x
  | .finite negative m e, .finite _ n f =>
    if n = 0 then
      nan
    else
      let least := min e f
      ofParts negative
        ((m <<< (e - least).toNat) % (n <<< (f - least).toNat)) least

end TextTemplate.Binary
