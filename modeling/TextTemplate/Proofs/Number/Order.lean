import TextTemplate.Proofs.Number.Rounding
import TextTemplate.Value.Operation

/-!
# The order of floating-point numbers

Floating-point numbers are compared by their signs, then by their exponents and last by their
mantissas. So a number has a rank in a linear order, and apart from "no number" the comparison of
two numbers is that of their ranks. The conversion of integers keeps the order, but it gives
different integers the same rank where digits are cut off, which takes more than 53 of them.

## Main definitions

* `Binary.rank`: the place of a floating-point number in the order.
* `Binary.rankOfInt`: that of an integer which has been converted.

## Main results

* `Binary.compareFloats?_eq`: numbers are compared by their ranks.
* `Binary.rank_ofInt`, `Binary.rankOfInt_mono`: the conversion of integers keeps the order.
* `Binary.rankOfInt_injective`: and up to 53 digits it is exact.
-/

namespace TextTemplate.Binary

open Float.Model Float.Model.UnpackedFloat

/-! ### Ranks -/

/-- A linear order for numbers: the sign and whether the number is infinite, then the exponent and
the mantissa, both with the sign. -/
abbrev Rank := ℤ ×ₗ ℤ ×ₗ ℤ

/-- The rank of a number that is taken apart. Where there is no number it means nothing. -/
def unpackedRank : UnpackedFloat → Rank
  | .infinity .negative => toLex (-2, toLex (0, 0))
  | .finite .negative m e _ => toLex (-1, toLex (-e, -m))
  | .zero _ | .notANumber => toLex (0, toLex (0, 0))
  | .finite .positive m e _ => toLex (1, toLex (e, m))
  | .infinity .positive => toLex (2, toLex (0, 0))

/-- The rank of a floating-point number. -/
def rank (x : Float) : Rank :=
  unpackedRank x.toModel.unpack

private theorem compare_neg (m n : ℤ) : compare (-m) (-n) = (compare m n).swap := by
  rw [← Std.OrientedOrd.eq_swap]
  simp [compare, compareOfLessAndEq, eq_comm]

private theorem compare_natCast (m n : ℕ) : compare (m : ℤ) (n : ℤ) = compare m n := by
  simp [compare, compareOfLessAndEq]

/-- Numbers are compared by their ranks. -/
theorem compare_eq {x y : UnpackedFloat} (hx : x.isNaN = false) (hy : y.isNaN = false) :
    x.compare y = some (compare (unpackedRank x) (unpackedRank y)) := by
  cases x with
  | notANumber => cases hx
  | infinity s => cases s <;> rcases y with ⟨_ | _⟩ | _ | _ | ⟨_ | _⟩ <;> first | rfl | cases hy
  | zero s => rcases y with ⟨_ | _⟩ | _ | _ | ⟨_ | _⟩ <;> first | rfl | cases hy
  | finite s m e hm =>
    cases y with
    | notANumber => cases hy
    | infinity s' => cases s <;> cases s' <;> rfl
    | zero => cases s <;> rfl
    | finite s' n f hn =>
      rcases s with _ | _ <;> rcases s' with _ | _
      · change some ((compare e f).then (compare m n)).swap =
          some ((compare (-e) (-f)).then (compare (-m : ℤ) (-n : ℤ)))
        rw [compare_neg, compare_neg, compare_natCast, Ordering.swap_then]
      · rfl
      · rfl
      · change some ((compare e f).then (compare m n)) =
          some ((compare e f).then (compare (m : ℤ) (n : ℤ)))
        rw [compare_natCast]

section Comparison

variable {x y : Float}

private theorem lt_iff (hx : x.isNaN = false) (hy : y.isNaN = false) : x < y ↔ rank x < rank y := by
  change decide (UnpackedFloat.lt x.toModel.unpack y.toModel.unpack = true) = true ↔ _
  rw [decide_eq_true_iff, UnpackedFloat.lt, compare_eq hx hy, beq_iff_eq, Option.some_inj,
    compare_lt_iff_lt]
  rfl

theorem beq_iff (hx : x.isNaN = false) (hy : y.isNaN = false) :
    (x == y) = true ↔ rank x = rank y := by
  change UnpackedFloat.beq x.toModel.unpack y.toModel.unpack = true ↔ _
  rw [UnpackedFloat.beq, compare_eq hx hy, beq_iff_eq, Option.some_inj, compare_eq_iff_eq]
  rfl

theorem compareFloats?_eq (hx : x.isNaN = false) (hy : y.isNaN = false) :
    Value.compareFloats? x y = some (compare (rank x) (rank y)) := by
  rw [Value.compareFloats?]
  simp only [lt_iff hx hy, beq_iff hx hy, lt_iff hy hx]
  rcases lt_trichotomy (rank x) (rank y) with hless | hsame | hgreater
  · rw [if_pos hless, compare_lt_iff_lt.2 hless]
  · rw [if_neg hsame.not_lt, if_pos hsame, compare_eq_iff_eq.2 hsame]
  · rw [if_neg hgreater.not_gt, if_neg hgreater.ne', if_pos hgreater, compare_gt_iff_gt.2 hgreater]

end Comparison

/-! ### The parts of integers -/

private theorem carried_mono {r r' : Nat} (e : Int) (h : r ≤ r') (high : r' ≤ 2 ^ 53) :
    (carried r e).2 < (carried r' e).2 ∨
      (carried r e).2 = (carried r' e).2 ∧ (carried r e).1 ≤ (carried r' e).1 := by
  rw [carried, carried]
  rcases high.lt_or_eq with hless | rfl
  · rw [if_neg (h.trans_lt hless).ne, if_neg hless.ne]
    exact .inr ⟨rfl, h⟩
  · rw [if_pos rfl]
    split_ifs
    · exact .inr ⟨rfl, le_rfl⟩
    · exact .inl (Int.lt_succ e)

/-- An exponent above that of the leading digit comes with the least mantissa. -/
theorem mantissa_of_carry {n : Nat} (hcarry : (parts n).2 = (n.log2 : Int) - 51) :
    (parts n).1 = 2 ^ 52 := by
  rw [parts, carried] at hcarry ⊢
  split_ifs at hcarry ⊢ with full
  · rfl
  · simp only at hcarry
    omega

/-- A smaller integer has a smaller exponent, or the same one and no larger mantissa. -/
theorem parts_mono {m n : Nat} (hpositive : 0 < m) (h : m ≤ n) :
    (parts m).2 < (parts n).2 ∨ (parts m).2 = (parts n).2 ∧ (parts m).1 ≤ (parts n).1 := by
  have hpositive' : 0 < n := hpositive.trans_le h
  have hdigits : m.log2 ≤ n.log2 :=
    (Nat.le_log2 hpositive'.ne').2 ((Nat.log2_self_le hpositive.ne').trans h)
  rcases hdigits.lt_or_eq with hfewer | hsame
  · have high := (exponent_bounds m).2
    have hlow := (exponent_bounds n).1
    rcases (show (parts m).2 ≤ (parts n).2 by omega).lt_or_eq with hless | hequal
    · exact .inl hless
    · refine .inr ⟨hequal, ?_⟩
      rw [mantissa_of_carry (by omega)]
      exact (parts_bounds hpositive').1
  · have hmono := rounded_mono (n.log2 + 1) (Nat.mul_le_mul_right (2 ^ 53) h)
    rw [parts, parts, hsame]
    exact carried_mono _ hmono (rounded_bounds_parts hpositive').2

/-- Integers of at most 53 digits have different parts. -/
theorem parts_injective {m n : Nat} (hpositive : 0 < m) (hpositive' : 0 < n) (hsmall : m ≤ 2 ^ 53)
    (hsmall' : n ≤ 2 ^ 53) (h : parts m = parts n) : m = n := by
  have hlast : parts (2 ^ 53) = (2 ^ 52, 1) := by decide +kernel
  have hbefore {k : Nat} (hpositive : 0 < k) (hless : k < 2 ^ 53) : (parts k).2 ≤ 0 := by
    have hdigits := (Nat.log2_lt hpositive.ne').2 hless
    rw [parts_of_lt hpositive hless]
    simp only
    omega
  rcases hsmall.lt_or_eq with hless | rfl <;> rcases hsmall'.lt_or_eq with hless' | rfl
  · rw [parts_of_lt hpositive hless, parts_of_lt hpositive' hless', Prod.mk.injEq] at h
    have hdigits : m.log2 = n.log2 := by omega
    rw [hdigits] at h
    exact Nat.eq_of_mul_eq_mul_right (Nat.two_pow_pos _) h.1
  · have := hbefore hpositive hless
    rw [h, hlast] at this
    cases this
  · have := hbefore hpositive' hless'
    rw [← h, hlast] at this
    cases this
  · rfl

/-! ### Integers -/

/-- The rank of an integer as a floating-point number. -/
def rankOfInt : Int → Rank
  | .ofNat 0 => toLex (0, toLex (0, 0))
  | .ofNat (n + 1) => toLex (1, toLex ((parts (n + 1)).2, (parts (n + 1)).1))
  | .negSucc n => toLex (-1, toLex (-(parts (n + 1)).2, -(parts (n + 1)).1))

/-- A negative integer as a floating-point number. -/
theorem exists_unpack_neg {n : Nat} (hpositive : 0 < n) (hbound : n < 2 ^ 64) :
    ∃ h, (Float.ofNat n).neg.toModel.unpack = .finite .negative (parts n).1 (parts n).2 h := by
  obtain ⟨h, hunpacked⟩ := exists_unpack_ofNat hpositive hbound
  refine ⟨h, ?_⟩
  change (Float.Model.pack (Float.ofNat n).toModel.unpack.neg).unpack = _
  rw [hunpacked]
  exact unpack_pack_parts .negative hpositive hbound h

/-- What an integer becomes as a floating-point number. -/
theorem isNaN_and_rank_ofInt {n : Int} (hbound : n.natAbs < 2 ^ 64) :
    (Float.ofInt n).isNaN = false ∧ rank (Float.ofInt n) = rankOfInt n := by
  match n with
  | .ofNat 0 => exact ⟨by decide +kernel, by decide +kernel⟩
  | .ofNat (n + 1) =>
    obtain ⟨h, hunpacked⟩ := exists_unpack_ofNat n.succ_pos hbound
    change (Float.ofNat (n + 1)).toModel.unpack.isNaN = _ ∧
      unpackedRank (Float.ofNat (n + 1)).toModel.unpack = _
    rw [hunpacked]
    exact ⟨rfl, rfl⟩
  | .negSucc n =>
    obtain ⟨h, hunpacked⟩ := exists_unpack_neg n.succ_pos hbound
    change (Float.ofNat (n + 1)).neg.toModel.unpack.isNaN = _ ∧
      unpackedRank (Float.ofNat (n + 1)).neg.toModel.unpack = _
    rw [hunpacked]
    exact ⟨rfl, rfl⟩

/-- The conversion of integers keeps the order. -/
theorem rankOfInt_mono : Monotone rankOfInt := by
  intro m n h
  match m, n with
  | .ofNat 0, .ofNat 0 => exact le_rfl
  | .ofNat 0, .ofNat (n + 1) => exact Prod.Lex.toLex_le_toLex.2 (.inl (show (0 : ℤ) < 1 by decide))
  | .ofNat (m + 1), .ofNat (n + 1) =>
    refine Prod.Lex.toLex_le_toLex.2 (.inr ⟨rfl, Prod.Lex.toLex_le_toLex.2 ?_⟩)
    rcases parts_mono m.succ_pos (Int.ofNat_le.1 h) with hless | ⟨hsame, hle⟩
    · exact .inl hless
    · exact .inr ⟨hsame, Int.ofNat_le.2 hle⟩
  | .negSucc m, .ofNat 0 =>
    exact Prod.Lex.toLex_le_toLex.2 (.inl (show (-1 : ℤ) < 0 by decide))
  | .negSucc m, .ofNat (n + 1) =>
    exact Prod.Lex.toLex_le_toLex.2 (.inl (show (-1 : ℤ) < 1 by decide))
  | .negSucc m, .negSucc n =>
    refine Prod.Lex.toLex_le_toLex.2 (.inr ⟨rfl, Prod.Lex.toLex_le_toLex.2 ?_⟩)
    rcases parts_mono n.succ_pos (show n + 1 ≤ m + 1 by omega) with hless | ⟨hsame, hle⟩
    · exact .inl (Int.neg_lt_neg hless)
    · exact .inr ⟨congrArg Neg.neg hsame.symm, Int.neg_le_neg (Int.ofNat_le.2 hle)⟩

/-- Integers of at most 53 digits keep apart when they are converted. -/
theorem rankOfInt_injective {m n : Int} (hsmall : m.natAbs ≤ 2 ^ 53) (hsmall' : n.natAbs ≤ 2 ^ 53)
    (h : rankOfInt m = rankOfInt n) : m = n := by
  have hsign : (ofLex (rankOfInt m)).1 = (ofLex (rankOfInt n)).1 := by rw [h]
  match m, n with
  | .ofNat 0, .ofNat 0 => rfl
  | .ofNat (m + 1), .ofNat (n + 1) =>
    simp only [rankOfInt, EmbeddingLike.apply_eq_iff_eq, Prod.mk.injEq, true_and] at h
    have hsame : parts (m + 1) = parts (n + 1) := Prod.ext (Int.ofNat_inj.1 h.2) h.1
    exact congrArg Int.ofNat (parts_injective m.succ_pos n.succ_pos hsmall hsmall' hsame)
  | .negSucc m, .negSucc n =>
    simp only [rankOfInt, EmbeddingLike.apply_eq_iff_eq, Prod.mk.injEq, true_and] at h
    have hsame : parts (m + 1) = parts (n + 1) :=
      Prod.ext (Int.ofNat_inj.1 (Int.neg_inj.1 h.2)) (Int.neg_inj.1 h.1)
    have := parts_injective m.succ_pos n.succ_pos hsmall hsmall' hsame
    omega
  | .ofNat 0, .ofNat (_ + 1) | .ofNat (_ + 1), .ofNat 0 | .ofNat 0, .negSucc _
  | .ofNat (_ + 1), .negSucc _ | .negSucc _, .ofNat 0 | .negSucc _, .ofNat (_ + 1) => cases hsign

end TextTemplate.Binary
