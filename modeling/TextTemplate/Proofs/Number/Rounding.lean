import Mathlib
import TextTemplate.Number.Binary

/-!
# Integers as floating-point numbers

A positive integer becomes a floating-point number by cutting its binary digits down to 53 and
rounding: the digits that are cut off are kept as a round bit and a sticky bit, half of a unit goes
to the even neighbour, and a carry into a 54th digit moves the exponent. Counted in quarters of a
unit, a mantissa with these two bits is one number, and cutting off a digit is one operation on it
that keeps the order. So rounding keeps the order, and is exact where only zeros are cut off.

## Main definitions

* `Binary.quarters`, `Binary.cutDigit`, `Binary.nearest`: a mantissa with its two bits, one digit
  less, and rounding.
* `Binary.rounded`: a mantissa without its last digits, rounded.

## Main results

* `Binary.rounded_mono`, `Binary.rounded_mul_two_pow`: rounding keeps the order and exact values.
* `Binary.roundWithAccuracy_eq`: what rounding to the format comes to.
* `Binary.unpack_pack`: a number in the format is read as it was written.
* `Binary.exists_unpack_ofNat`: the mantissa and the exponent of a positive integer.
-/

namespace TextTemplate.Binary

open Float.Model Float.Model.UnpackedFloat

/-! ### Rounding -/

/-- A mantissa with its round bit and its sticky bit, in quarters of a unit. -/
def quarters (em : ExtendedMantissa) : Nat :=
  4 * em.mantissa + 2 * em.roundBit.toNat + em.stickyBit.toNat

/-- One binary digit less, counted in quarters: whatever is cut off sticks. -/
def cutDigit (quarters : Nat) : Nat :=
  2 * (quarters / 4) + min (quarters % 4) 1

/-- The nearest unit, and of two that are equally near the even one. -/
def nearest (quarters : Nat) : Nat :=
  (quarters + 1 + quarters / 4 % 2) / 4

private theorem quarters_shiftRightOne (em : ExtendedMantissa) :
    quarters em.shiftRightOne = cutDigit (quarters em) := by
  obtain ⟨m, round, sticky⟩ := em
  rcases Nat.mod_two_eq_zero_or_one m with h | h <;> cases round <;> cases sticky <;>
    simp [quarters, cutDigit, ExtendedMantissa.shiftRightOne, h] <;> omega

private theorem quarters_shiftRight (em : ExtendedMantissa) (k : Nat) :
    quarters (em >>> k) = cutDigit^[k] (quarters em) := by
  induction k with
  | zero => rfl
  | succ k ih =>
    rw [Function.iterate_succ_apply', ← ih]
    exact quarters_shiftRightOne (em >>> k)

private theorem roundedMantissa_eq (em : ExtendedMantissa) :
    em.roundedMantissa = nearest (quarters em) := by
  obtain ⟨m, round, sticky⟩ := em
  have hwhole : quarters ⟨m, round, sticky⟩ / 4 = m := by
    cases round <;> cases sticky <;> simp only [quarters, Bool.toNat_false, Bool.toNat_true] <;>
      omega
  rw [nearest, hwhole]
  cases round <;> cases sticky <;>
    simp only [quarters, ExtendedMantissa.roundedMantissa, ExtendedMantissa.accuracy,
      Accuracy.roundToNearestEven, Bool.toNat_false, Bool.toNat_true] <;> omega

private theorem monotone_cutDigit : Monotone cutDigit := by
  intro a b h
  simp only [cutDigit]
  omega

private theorem monotone_nearest : Monotone nearest := by
  intro a b h
  rcases (Nat.div_le_div_right (c := 4) h).lt_or_eq with hless | hsame
  · simp only [nearest]
    omega
  · rw [nearest, nearest, hsame]
    exact Nat.div_le_div_right (by omega)

/-- A mantissa without its last `k` digits, rounded. -/
def rounded (k mantissa : Nat) : Nat :=
  ((ExtendedMantissa.ofMantissaAndAccuracy mantissa .exact) >>> k).roundedMantissa

private theorem rounded_eq (k mantissa : Nat) :
    rounded k mantissa = nearest (cutDigit^[k] (4 * mantissa)) := by
  rw [rounded, roundedMantissa_eq, quarters_shiftRight]
  rfl

/-- Rounding keeps the order. -/
theorem rounded_mono (k : Nat) {m n : Nat} (h : m ≤ n) : rounded k m ≤ rounded k n := by
  rw [rounded_eq, rounded_eq]
  exact monotone_nearest (monotone_cutDigit.iterate k (Nat.mul_le_mul_left 4 h))

/-- Rounding is exact where only zeros are cut off. -/
theorem rounded_mul_two_pow (k m : Nat) : rounded k (m * 2 ^ k) = m := by
  have hcut : cutDigit^[k] (4 * (m * 2 ^ k)) = 4 * m := by
    induction k with
    | zero => simp
    | succ k ih =>
      rw [Function.iterate_succ_apply]
      have hstep : cutDigit (4 * (m * 2 ^ (k + 1))) = 4 * (m * 2 ^ k) := by
        rw [cutDigit, Nat.pow_succ, ← Nat.mul_assoc m]
        omega
      rw [hstep, ih]
  rw [rounded_eq, hcut, nearest]
  omega

/-- A mantissa of `53 + k` digits is rounded to 53 digits, or to the next power of two. -/
theorem rounded_bounds {k m : Nat} (hlow : 2 ^ 52 * 2 ^ k ≤ m) (high : m ≤ 2 ^ 53 * 2 ^ k) :
    2 ^ 52 ≤ rounded k m ∧ rounded k m ≤ 2 ^ 53 := by
  have hlower := rounded_mono k hlow
  have hupper := rounded_mono k high
  rw [rounded_mul_two_pow] at hlower hupper
  exact ⟨hlower, hupper⟩

/-- A mantissa that may have got one digit too many, and its exponent. -/
def carried (m : Nat) (e : Int) : Nat × Int :=
  if m = 2 ^ 53 then (2 ^ 52, e + 1) else (m, e)

/-! ### Rounding to the format -/

private theorem targetExponent_eq (e : Int) :
    Format.binary64.targetExponent e = max (e - 53) (-1074) :=
  rfl

/-- Cutting a mantissa of `53 + k` digits down to 53. -/
theorem shiftToTargetExponent_eq {m k : Nat} {e : Int} (hlow : 2 ^ 52 * 2 ^ k ≤ m)
    (high : m < 2 ^ 53 * 2 ^ k) (he : -1074 ≤ e + k) :
    shiftToTargetExponent Format.binary64 m e .exact =
      (ExtendedMantissa.ofMantissaAndAccuracy m .exact >>> k, e + k) := by
  have hdigits : m.log2 = 52 + k := by
    rw [Nat.log2_eq_iff (by have := Nat.two_pow_pos k; omega)]
    rw [Nat.pow_add, show 52 + k + 1 = 53 + k by omega, Nat.pow_add]
    exact ⟨hlow, high⟩
  have htarget : (Format.binary64.targetExponent (totalExponent m e) - e).toNat = k := by
    rw [targetExponent_eq, totalExponent, hdigits]
    omega
  rw [shiftToTargetExponent, shiftToExponent, htarget]

/-- A rounded mantissa is cut down once more if it has one digit too many. -/
theorem shiftToTargetExponent_rounded {m : Nat} {e : Int} (hlow : 2 ^ 52 ≤ m) (high : m ≤ 2 ^ 53)
    (he : -1074 ≤ e) :
    (shiftToTargetExponent Format.binary64 m e .exact).1.mantissa = (carried m e).1 ∧
      (shiftToTargetExponent Format.binary64 m e .exact).2 = (carried m e).2 := by
  rcases high.lt_or_eq with hless | rfl
  · rw [carried, if_neg hless.ne,
      shiftToTargetExponent_eq (k := 0) (by simpa using hlow) (by simpa using hless)
        (by simpa using he)]
    exact ⟨rfl, Int.add_zero e⟩
  · rw [carried, if_pos rfl,
      shiftToTargetExponent_eq (k := 1) (by decide) (by decide) (by omega)]
    exact ⟨rfl, rfl⟩

private theorem carried_bounds {m : Nat} (e : Int) (hlow : 2 ^ 52 ≤ m) (high : m ≤ 2 ^ 53) :
    2 ^ 52 ≤ (carried m e).1 ∧ (carried m e).1 < 2 ^ 53 := by
  rw [carried]
  split_ifs with hcarry
  · exact ⟨le_rfl, by omega⟩
  · exact ⟨hlow, lt_of_le_of_ne high hcarry⟩

/-- Rounding a mantissa of `53 + k` digits to the format. -/
theorem roundWithAccuracy_eq (s : Sign) {m k : Nat} {e : Int} (hlow : 2 ^ 52 * 2 ^ k ≤ m)
    (high : m < 2 ^ 53 * 2 ^ k) (he : -1074 ≤ e + k) :
    ∃ hpositive, roundWithAccuracy Format.binary64 s m e .exact =
      .finite s (carried (rounded k m) (e + k)).1 (carried (rounded k m) (e + k)).2 hpositive := by
  obtain ⟨hlower, hupper⟩ := rounded_bounds hlow high.le
  obtain ⟨hmantissa, hexponent⟩ := shiftToTargetExponent_rounded hlower hupper he
  have hpositive := (carried_bounds (e + k) hlower hupper).1
  refine ⟨by omega, ?_⟩
  rw [roundWithAccuracy, shiftToTargetExponent_eq hlow high he]
  change (if h : (shiftToTargetExponent Format.binary64 (rounded k m) (e + k)
    .exact).1.mantissa = 0 then _ else _) = _
  rw [dif_neg (by omega)]
  congr

/-! ### Writing and reading -/

private theorem ofBitVec_unpackSign (s : Sign) (exponent : BitVec 11) (mantissa : BitVec 52) :
    Sign.ofBitVec (unpackSign (packComponents Format.binary64 s exponent mantissa)) = s := by
  simp only [unpackSign, packComponents, BitVec.extractLsb]
  rw [BitVec.extractLsb'_append_eq_of_le (by omega), BitVec.extractLsb'_append_eq_of_le (by omega)]
  cases s <;> rfl

/-- The leading digit of a mantissa of 53 digits is not written. -/
theorem toNat_leading_append {m : Nat} (hlow : 2 ^ 52 ≤ m) (high : m < 2 ^ 53) :
    (1#1 ++ BitVec.ofNat 52 m).toNat = m := by
  rw [BitVec.toNat_append, ← Nat.shiftLeft_add_eq_or_of_lt (BitVec.isLt _), BitVec.toNat_ofNat,
    Nat.shiftLeft_eq]
  simp only [BitVec.toNat_ofNat]
  omega

/-- A number with a mantissa of 53 digits is read as it was written. -/
theorem unpack_pack (s : Sign) {m : Nat} {e : Int} (hlow : 2 ^ 52 ≤ m) (high : m < 2 ^ 53)
    (he : -1074 ≤ e) (he' : e ≤ 971) (hpositive : 0 < m) :
    (Float.Model.pack (.finite s m e hpositive)).unpack = .finite s m e hpositive := by
  have hdigits : m.log2 + 1 = Format.binary64.mantissaBits := by
    rw [(Nat.log2_eq_iff hpositive.ne').2 ⟨hlow, high⟩]
    rfl
  obtain ⟨biased, hbiased⟩ : ∃ biased : Nat, e + 1023 + 52 = biased :=
    Int.eq_ofNat_of_zero_le (by omega)
  have hwritten : UnpackedFloat.pack Format.binary64 (.finite s m e hpositive) =
      packComponents Format.binary64 s (BitVec.ofNat 11 biased) (BitVec.ofNat 52 m) := by
    have htoNat : (e + (Format.binary64.exponentBias : Int) +
        (Format.binary64.mantissaBitsWithoutImplicit : Int)).toNat = biased :=
      (congrArg Int.toNat hbiased).trans (Int.toNat_natCast biased)
    rw [UnpackedFloat.pack]
    simp only [htoNat]
    rw [if_neg (by omega), if_pos hdigits]
  have hexponent : (BitVec.ofNat 11 biased).toNat = biased := by
    rw [BitVec.toNat_ofNat]
    exact Nat.mod_eq_of_lt (by omega)
  have hnotLast : BitVec.ofNat 11 biased ≠ -1#11 := by
    intro h
    have := congrArg BitVec.toNat h
    rw [hexponent] at this
    simp at this
    omega
  have hnotFirst : BitVec.ofNat 11 biased ≠ 0#11 := by
    intro h
    have := congrArg BitVec.toNat h
    rw [hexponent] at this
    simp at this
    omega
  change UnpackedFloat.unpack Format.binary64 (UnpackedFloat.pack Format.binary64 _) = _
  rw [hwritten, UnpackedFloat.unpack]
  simp only [unpackExponent_packComponents, unpackMantissa_packComponents, ofBitVec_unpackSign,
    hnotLast, hnotFirst, if_false, hexponent, toNat_leading_append hlow high]
  congr 1
  change (biased : Int) - ((1023 : Int) + 52) = e
  omega

/-! ### Integers -/

/-- The mantissa and the exponent of a positive integer. -/
def parts (n : Nat) : Nat × Int :=
  carried (rounded (n.log2 + 1) (n * 2 ^ 53)) (n.log2 - 52)

/-- The digits of a positive integer, the leading one in front of `k` others. -/
theorem digit_bounds {n k j : Nat} (hpositive : 0 < n) (h : n.log2 + j = 52 + k) :
    2 ^ 52 * 2 ^ k ≤ n * 2 ^ j ∧ n * 2 ^ j < 2 ^ 53 * 2 ^ k := by
  obtain ⟨hlow, high⟩ := (Nat.log2_eq_iff hpositive.ne').1 rfl
  have hlower := Nat.mul_le_mul_right (2 ^ j) hlow
  have hupper := Nat.mul_lt_mul_of_pos_right high (Nat.two_pow_pos j)
  rw [← Nat.pow_add] at hlower hupper
  rw [← Nat.pow_add, ← Nat.pow_add, show 52 + k = n.log2 + j by omega,
    show 53 + k = n.log2 + 1 + j by omega]
  exact ⟨hlower, hupper⟩

theorem rounded_bounds_parts {n : Nat} (hpositive : 0 < n) :
    2 ^ 52 ≤ rounded (n.log2 + 1) (n * 2 ^ 53) ∧ rounded (n.log2 + 1) (n * 2 ^ 53) ≤ 2 ^ 53 := by
  obtain ⟨hlow, high⟩ := digit_bounds (k := n.log2 + 1) (j := 53) hpositive (by omega)
  exact rounded_bounds hlow high.le

theorem parts_bounds {n : Nat} (hpositive : 0 < n) :
    2 ^ 52 ≤ (parts n).1 ∧ (parts n).1 < 2 ^ 53 := by
  obtain ⟨hlow, high⟩ := rounded_bounds_parts hpositive
  exact carried_bounds _ hlow high

theorem exponent_bounds (n : Nat) :
    (n.log2 : Int) - 52 ≤ (parts n).2 ∧ (parts n).2 ≤ (n.log2 : Int) - 51 := by
  rw [parts, carried]
  split_ifs <;> simp only <;> omega

/-- The parts of an integer of at most 53 digits: no digit is cut off. -/
theorem parts_of_lt {n : Nat} (hpositive : 0 < n) (hsmall : n < 2 ^ 53) :
    parts n = (n * 2 ^ (52 - n.log2), (n.log2 : Int) - 52) := by
  have hdigits : n.log2 ≤ 52 := Nat.le_of_lt_succ ((Nat.log2_lt hpositive.ne').2 hsmall)
  have hwhole : rounded (n.log2 + 1) (n * 2 ^ 53) = n * 2 ^ (52 - n.log2) := by
    rw [show n * 2 ^ 53 = n * 2 ^ (52 - n.log2) * 2 ^ (n.log2 + 1) by
      rw [Nat.mul_assoc, ← Nat.pow_add, show 52 - n.log2 + (n.log2 + 1) = 53 by omega]]
    exact rounded_mul_two_pow _ _
  have hless := (digit_bounds (k := 0) (j := 52 - n.log2) hpositive (by omega)).2
  rw [parts, hwhole, carried, if_neg (by omega)]

/-- Reading what is written of an integer. -/
theorem unpack_pack_parts (s : Sign) {n : Nat} (hpositive : 0 < n) (hbound : n < 2 ^ 64)
    (h : 0 < (parts n).1) :
    (Float.Model.pack (.finite s (parts n).1 (parts n).2 h)).unpack =
      .finite s (parts n).1 (parts n).2 h := by
  obtain ⟨hlow, high⟩ := parts_bounds hpositive
  obtain ⟨hlow', high'⟩ := exponent_bounds n
  have hdigits : n.log2 < 64 := (Nat.log2_lt hpositive.ne').2 hbound
  exact unpack_pack s hlow high (by omega) (by omega) h

/-- An integer of more than 53 digits is rounded once. -/
theorem ofScientific_eq {n : Nat} (hpositive : 0 < n) :
    ∃ h, UnpackedFloat.ofScientific Format.binary64 n 0 =
      .finite .positive (parts n).1 (parts n).2 h := by
  obtain ⟨hlow, high⟩ := digit_bounds (k := n.log2 + 1) (j := 53) hpositive (by omega)
  have hrounds := roundWithAccuracy_eq .positive hlow high (e := -53) (by omega)
  rw [show (-53 : Int) + (n.log2 + 1 : Nat) = n.log2 - 52 by omega] at hrounds
  obtain ⟨h, hrounds⟩ := hrounds
  refine ⟨h, ?_⟩
  have hnotTiny : ¬(0 : Int) < -(2 ^ Format.binary64.exponentBits + n.log2) := by
    change ¬(0 : Int) < -(2048 + n.log2)
    omega
  rw [UnpackedFloat.ofScientific, dif_neg hpositive.ne', if_neg (by decide),
    if_neg hnotTiny, if_pos (le_refl 0)]
  change roundWithAccuracy Format.binary64 .positive (n <<< 53 * 1) (-53 + 0) .exact = _
  rw [Nat.shiftLeft_eq, Nat.mul_one, Int.add_zero]
  exact hrounds

/-- A positive integer of at most 53 digits. -/
theorem ofNat_eq_of_lt {n : Nat} (hpositive : 0 < n) (hsmall : n < 2 ^ 53) :
    ∃ h, UnpackedFloat.ofNat Format.binary64 n =
      .finite .positive (parts n).1 (parts n).2 h := by
  have hdigits : n.log2 ≤ 52 := Nat.le_of_lt_succ ((Nat.log2_lt hpositive.ne').2 hsmall)
  obtain ⟨hlow, high⟩ := digit_bounds (k := 0) (j := 52 - n.log2) hpositive (by omega)
  have hrounds := roundWithAccuracy_eq .positive hlow high (e := n.log2 - 52) (by omega)
  have hwhole : rounded 0 (n * 2 ^ (52 - n.log2)) = n * 2 ^ (52 - n.log2) := by
    simpa using rounded_mul_two_pow 0 (n * 2 ^ (52 - n.log2))
  rw [hwhole, carried, if_neg (by omega)] at hrounds
  have hsign : compare (n : Int) 0 = .gt := Int.compare_eq_gt.2 (by omega)
  have hshift : (0 - Format.binary64.targetExponent (totalExponent n 0)).toNat = 52 - n.log2 := by
    rw [targetExponent_eq, totalExponent]
    omega
  rw [parts_of_lt hpositive hsmall, UnpackedFloat.ofNat, UnpackedFloat.ofInt,
    UnpackedFloat.normalize]
  simp only [hsign]
  rw [UnpackedFloat.round]
  simp only [decreaseExponent, hshift, Int.toNat_natCast, Nat.shiftLeft_eq]
  rw [show (0 : Int) - (52 - n.log2 : Nat) = n.log2 - 52 by omega]
  simpa using hrounds

/-- Multiplying by one changes nothing. -/
theorem mul_one_eq {n : Nat} (hpositive : 0 < n) (h : 0 < (parts n).1) :
    ∃ h', UnpackedFloat.mul Format.binary64 (.finite .positive (parts n).1 (parts n).2 h)
        (Float.ofBits 0x3FF0000000000000).toModel.unpack =
      .finite .positive (parts n).1 (parts n).2 h' := by
  have hone : (Float.ofBits 0x3FF0000000000000).toModel.unpack =
      .finite .positive (2 ^ 52) (-52) (by decide) := rfl
  obtain ⟨hlow, high⟩ := parts_bounds hpositive
  obtain ⟨hlow', -⟩ := exponent_bounds n
  have hrounds := roundWithAccuracy_eq .positive (k := 52) (e := (parts n).2 + -52)
    (Nat.mul_le_mul_right (2 ^ 52) hlow) (Nat.mul_lt_mul_of_pos_right high (Nat.two_pow_pos 52))
    (by omega)
  rw [rounded_mul_two_pow, carried, if_neg (by omega)] at hrounds
  simp only [show (parts n).2 + -52 + (52 : Nat) = (parts n).2 by omega] at hrounds
  rw [hone]
  exact hrounds

/-- A positive integer of at most 64 digits as a floating-point number. -/
theorem exists_unpack_ofNat {n : Nat} (hpositive : 0 < n) (hbound : n < 2 ^ 64) :
    ∃ h, (Float.ofNat n).toModel.unpack = .finite .positive (parts n).1 (parts n).2 h := by
  change ∃ h, (Float.ofScientific n false 0).toModel.unpack = _
  rw [Float.ofScientific]
  by_cases hsmall : n < 2 ^ 53
  · rw [dif_pos ⟨hsmall, by decide⟩]
    obtain ⟨h, hconverted⟩ := ofNat_eq_of_lt hpositive hsmall
    obtain ⟨h', hmultiplied⟩ := mul_one_eq hpositive h
    refine ⟨h', ?_⟩
    have hsize : n.toUInt64.toNat = n := Nat.mod_eq_of_lt hbound
    change (Float.Model.pack (UnpackedFloat.mul Format.binary64
      (Float.Model.pack (UnpackedFloat.ofNat Format.binary64 n.toUInt64.toNat)).unpack
      (Float.ofBits 0x3FF0000000000000).toModel.unpack)).unpack = _
    rw [hsize, hconverted, unpack_pack_parts .positive hpositive hbound h, hmultiplied]
    exact unpack_pack_parts .positive hpositive hbound h'
  · rw [dif_neg (fun hboth => hsmall hboth.1)]
    obtain ⟨h, hconverted⟩ := ofScientific_eq hpositive
    refine ⟨h, ?_⟩
    change (Float.Model.pack (UnpackedFloat.ofScientific Format.binary64 n 0)).unpack = _
    rw [hconverted]
    exact unpack_pack_parts .positive hpositive hbound h

end TextTemplate.Binary
