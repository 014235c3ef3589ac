import TextTemplate.Proofs.Number.Order
import TextTemplate.Proofs.Value.Equality

/-!
# The order of numbers

Two integers are compared as they are, and any other two numbers as floating-point numbers. Each
way is a linear order, and so one of the three orders holds of any two numbers. The two ways agree
except that different integers may become the same floating-point number. Only there, where one is
compared with the other by way of that floating-point number, does the order not carry on.

## Main definitions

* `Number`: the numbers of the expression language.
* `Number.order`: the order of two numbers.
* `Number.Blurred`: different integers, and between them the floating-point number that both become.

## Main results

* `Number.eq_trans_iff`, `Number.le_trans_iff`: when the order carries on from two numbers to a
  third.
* `numbers_ordered`: the comparisons of the expression language.
* `exists_numbers_not_ordered`: numbers for which they do not carry on.
-/

namespace TextTemplate

open Binary

/-- The numbers of the expression language. -/
inductive Number where
  | int (n : Int64)
  | float (x : Float) (isNumber : x.isNaN = false)

namespace Number

/-- The number as a value. -/
def value : Number → Value
  | int n => .int n
  | float x _ => .float x

/-- The rank of a number among the floating-point numbers. -/
def rank : Number → Rank
  | int n => rankOfInt n.toInt
  | float x _ => Binary.rank x

/-- The order of two numbers: of integers as they are, and else among the floating-point numbers. -/
def order : Number → Number → Ordering
  | int m, int n => compare m.toInt n.toInt
  | a, b => compare a.rank b.rank

/-- Two different integers, and between them the floating-point number that both become when they
are converted. -/
def Blurred : Number → Number → Number → Prop
  | int m, float x _, int n =>
    m ≠ n ∧ (Float.ofInt m.toInt == x) = true ∧ (Float.ofInt n.toInt == x) = true
  | _, _, _ => False

/-! ### Comparisons -/

private theorem natAbs_toInt_lt (n : Int64) : n.toInt.natAbs < 2 ^ 64 := by
  have := n.le_toInt
  have := n.toInt_lt
  omega

/-- A number as a floating-point number. -/
theorem exists_asFloat? (a : Number) :
    ∃ x, a.value.asFloat? = some x ∧ x.isNaN = false ∧ Binary.rank x = a.rank := by
  cases a with
  | int n => exact ⟨_, rfl, isNaN_and_rank_ofInt (natAbs_toInt_lt n)⟩
  | float x hnumber => exact ⟨x, rfl, hnumber, rfl⟩

private theorem compareFloats?_value {a b : Number} {x y : Float} (hx : a.value.asFloat? = some x)
    (hy : b.value.asFloat? = some y) :
    Value.compareFloats? x y = some (compare a.rank b.rank) := by
  obtain ⟨x', hx', hnumber, hrank⟩ := a.exists_asFloat?
  obtain ⟨y', hy', hnumber', hrank'⟩ := b.exists_asFloat?
  cases hx.symm.trans hx'
  cases hy.symm.trans hy'
  rw [compareFloats?_eq hnumber hnumber', hrank, hrank']

private theorem compare?_value (a b : Number) : a.value.compare? b.value = some (a.order b) := by
  cases a with
  | int m =>
    cases b with
    | int n => exact congrArg some (Int.instLinearOrder.compare_eq_compareOfLessAndEq _ _).symm
    | float y hy => exact compareFloats?_value (a := int m) (b := float y hy) rfl rfl
  | float x hx =>
    cases b with
    | int n => exact compareFloats?_value (a := float x hx) (b := int n) rfl rfl
    | float y hy => exact compareFloats?_value (a := float x hx) (b := float y hy) rfl rfl

private theorem looselyEqual_value (a b : Number) :
    a.value.looselyEqual b.value = (a.order b == .eq) := by
  have hcompared := compare?_value a b
  cases a with
  | int m =>
    cases b with
    | int n =>
      change (m == n) = (compare m.toInt n.toInt == .eq)
      rw [Bool.eq_iff_iff, beq_iff_eq, beq_iff_eq, compare_eq_iff_eq, Int64.toInt_inj]
    | float y hy => exact congrArg (· == some Ordering.eq) hcompared
  | float x hx =>
    cases b with
    | int n => exact congrArg (· == some Ordering.eq) hcompared
    | float y hy =>
      change (x == y) = (compare (Binary.rank x) (Binary.rank y) == .eq)
      rw [Bool.eq_iff_iff, beq_iff hx hy, beq_iff_eq, compare_eq_iff_eq]

/-! ### From two numbers to a third -/

variable {a b c : Number}

/-- The order of two numbers is kept among the floating-point numbers. -/
theorem rank_le (h : a.order b ≠ .gt) : a.rank ≤ b.rank := by
  cases a with
  | int m =>
    cases b with
    | int n => exact rankOfInt_mono (compare_le_iff_le.1 h)
    | float y hy => exact compare_le_iff_le.1 h
  | float x hx => cases b <;> exact compare_le_iff_le.1 h

private theorem rank_eq (h : a.order b = .eq) : a.rank = b.rank := by
  cases a with
  | int m =>
    cases b with
    | int n => exact congrArg rankOfInt (compare_eq_iff_eq.1 h)
    | float y hy => exact compare_eq_iff_eq.1 h
  | float x hx => cases b <;> exact compare_eq_iff_eq.1 h

/-- Two integers between which there is a floating-point number that both become are blurred if they
differ. -/
theorem blurred_iff {m n : Int64} {x : Float} {hx : x.isNaN = false}
    (hleft : (int m).rank = Binary.rank x) (hright : (int n).rank = Binary.rank x) :
    Blurred (int m) (float x hx) (int n) ↔ m ≠ n := by
  have hconverted {k : Int64} (h : (int k).rank = Binary.rank x) :
      (Float.ofInt k.toInt == x) = true := by
    obtain ⟨hnumber, hrank⟩ := isNaN_and_rank_ofInt (natAbs_toInt_lt k)
    exact (beq_iff hnumber hx).2 (hrank.trans h)
  exact and_iff_left ⟨hconverted hleft, hconverted hright⟩

/-- Two numbers that are equal to a third are equal unless they are blurred. -/
theorem eq_trans_iff (hab : a.order b = .eq) (hbc : b.order c = .eq) :
    a.order c = .eq ↔ ¬Blurred a b c := by
  have hrank : a.rank = c.rank := (rank_eq hab).trans (rank_eq hbc)
  match a, b, c with
  | int m, int k, int n =>
    have hsame := (compare_eq_iff_eq.1 hab).trans (compare_eq_iff_eq.1 hbc)
    exact iff_of_true (compare_eq_iff_eq.2 hsame) id
  | int m, float x hx, int n =>
    rw [blurred_iff (rank_eq hab) (rank_eq hbc).symm, not_not, ← Int64.toInt_inj]
    exact compare_eq_iff_eq
  | int m, int k, float y hy => exact iff_of_true (compare_eq_iff_eq.2 hrank) id
  | int m, float x hx, float y hy => exact iff_of_true (compare_eq_iff_eq.2 hrank) id
  | float x hx, _, _ => exact iff_of_true (compare_eq_iff_eq.2 hrank) id

/-- The order carries on from two numbers to a third unless they are blurred and the other way
around. -/
theorem le_trans_iff (hab : a.order b ≠ .gt) (hbc : b.order c ≠ .gt) :
    a.order c ≠ .gt ↔ ¬(Blurred a b c ∧ c.order a = .lt) := by
  have hrank : a.rank ≤ c.rank := (rank_le hab).trans (rank_le hbc)
  match a, b, c with
  | int m, int k, int n =>
    have hle := (compare_le_iff_le.1 hab).trans (compare_le_iff_le.1 hbc)
    exact iff_of_true (compare_le_iff_le.2 hle) And.left
  | int m, float x hx, int n =>
    have hordered : (int m).order (int n) ≠ .gt ↔ ¬(int n).order (int m) = .lt :=
      compare_le_iff_le.trans (not_lt.symm.trans (not_congr compare_lt_iff_lt.symm))
    rw [hordered, not_iff_not]
    refine ⟨fun hless => ⟨?_, hless⟩, And.right⟩
    -- The integers are the other way around, but the conversion keeps the order.
    have hback : (int n).rank ≤ (int m).rank := rankOfInt_mono (compare_lt_iff_lt.1 hless).le
    have hleft := (rank_le hab).antisymm ((rank_le hbc).trans hback)
    have hright := (hback.trans (rank_le hab)).antisymm (rank_le hbc)
    refine (blurred_iff hleft hright).2 ?_
    rintro rfl
    exact lt_irrefl _ (compare_lt_iff_lt.1 hless)
  | int m, int k, float y hy => exact iff_of_true (compare_le_iff_le.2 hrank) And.left
  | int m, float x hx, float y hy => exact iff_of_true (compare_le_iff_le.2 hrank) And.left
  | float x hx, _, _ => exact iff_of_true (compare_le_iff_le.2 hrank) And.left

/-- One of two blurred integers has more than 53 digits. -/
theorem Blurred.exists_beyond (h : Blurred a b c) :
    ∃ n, (a = int n ∨ c = int n) ∧ 2 ^ 53 < n.toInt.natAbs := by
  match a, b, c, h with
  | int m, float x hx, int n, ⟨hne, hleft, hright⟩ =>
    obtain ⟨hnumber, hrank⟩ := isNaN_and_rank_ofInt (natAbs_toInt_lt m)
    obtain ⟨hnumber', hrank'⟩ := isNaN_and_rank_ofInt (natAbs_toInt_lt n)
    have hsame : rankOfInt m.toInt = rankOfInt n.toInt := by
      rw [← hrank, ← hrank', (beq_iff hnumber hx).1 hleft, (beq_iff hnumber' hx).1 hright]
    by_contra hnone
    refine hne (Int64.toInt_inj.1 (rankOfInt_injective ?_ ?_ hsame))
    · exact not_lt.1 fun hbeyond => hnone ⟨m, .inl rfl, hbeyond⟩
    · exact not_lt.1 fun hbeyond => hnone ⟨n, .inr rfl, hbeyond⟩

end Number

/-! ### The operators -/

namespace Expr.Yields

variable {σ : Type} {env : Environment (StateM σ)} {s : σ} {e f : Expr} {a b : Number}

/-- A comparison holds for some of the three orders. -/
theorem compares (op : BinaryOp) (holds : Ordering → Bool) (hboth : op ≠ .and ∧ op ≠ .or)
    (hcompares : ∀ a b, op.apply a b = Value.comparison op holds a b)
    (he : e.Yields env s a.value) (hf : f.Yields env s b.value) :
    (Expr.binary op e f).Yields env s (.bool (holds (a.order b))) := by
  rw [Yields, he.run_binary op hboth hf, hcompares, Value.comparison, Number.compare?_value]

private theorem less (he : e.Yields env s a.value) (hf : f.Yields env s b.value) :
    (Expr.binary .lt e f).Yields env s (.bool (a.order b == .lt)) :=
  compares .lt (· == .lt) (by decide) (fun _ _ => rfl) he hf

private theorem greater (he : e.Yields env s a.value) (hf : f.Yields env s b.value) :
    (Expr.binary .gt e f).Yields env s (.bool (a.order b == .gt)) :=
  compares .gt (· == .gt) (by decide) (fun _ _ => rfl) he hf

private theorem atMost (he : e.Yields env s a.value) (hf : f.Yields env s b.value) :
    (Expr.binary .le e f).Yields env s (.bool (a.order b != .gt)) :=
  compares .le (· != .gt) (by decide) (fun _ _ => rfl) he hf

theorem same (he : e.Yields env s a.value) (hf : f.Yields env s b.value) :
    (Expr.binary .eq e f).Yields env s (.bool (a.order b == .eq)) := by
  rw [← Number.looselyEqual_value]
  exact he.equals hf

end Expr.Yields

/-- Numbers are ordered, but different integers that become the same floating-point number are equal
to it. Of the expressions `e`, `f` and `g` for numbers, `e < f`, `e == f` and `e > f` tell the order
of `e` and `f`, and `e <= f` is true for the first two orders. `==` carries on from `e`, `f` and `g`
to `e` and `g` unless `e` and `g` are different integers that both become the floating-point number
`f`, and `<=` unless besides `g < e`. In either case one of the two integers has more than 53
digits. -/
theorem numbers_ordered {σ : Type} {env : Environment (StateM σ)} {s : σ} {e f g : Expr}
    {a b c : Number} (he : e.Yields env s a.value) (hf : f.Yields env s b.value)
    (hg : g.Yields env s c.value) :
    (∃ order : Ordering,
      (Expr.binary .lt e f).Yields env s (.bool (order == .lt)) ∧
      (Expr.binary .eq e f).Yields env s (.bool (order == .eq)) ∧
      (Expr.binary .gt e f).Yields env s (.bool (order == .gt)) ∧
      (Expr.binary .le e f).Yields env s (.bool (order == .lt || order == .eq))) ∧
    ((Expr.binary .eq e f).Yields env s (.bool true) →
      (Expr.binary .eq f g).Yields env s (.bool true) →
        ((Expr.binary .eq e g).Yields env s (.bool true) ↔ ¬Number.Blurred a b c)) ∧
    ((Expr.binary .le e f).Yields env s (.bool true) →
      (Expr.binary .le f g).Yields env s (.bool true) →
        ((Expr.binary .le e g).Yields env s (.bool true) ↔
          ¬(Number.Blurred a b c ∧ (Expr.binary .lt g e).Yields env s (.bool true)))) ∧
    (Number.Blurred a b c → ∃ n : Int64,
      (a = .int n ∨ c = .int n) ∧ 2 ^ 53 < n.toInt.natAbs) := by
  have heq_iff {e f : Expr} {a b : Number} (he : e.Yields env s a.value)
      (hf : f.Yields env s b.value) :
      (Expr.binary .eq e f).Yields env s (.bool true) ↔ a.order b = .eq :=
    (he.same hf).bool_iff.trans beq_iff_eq
  have hle_iff {e f : Expr} {a b : Number} (he : e.Yields env s a.value)
      (hf : f.Yields env s b.value) :
      (Expr.binary .le e f).Yields env s (.bool true) ↔ a.order b ≠ .gt :=
    (he.atMost hf).bool_iff.trans bne_iff_ne
  have hlt_iff : (Expr.binary .lt g e).Yields env s (.bool true) ↔ c.order a = .lt :=
    (hg.less he).bool_iff.trans beq_iff_eq
  refine ⟨⟨a.order b, he.less hf, he.same hf, he.greater hf, ?_⟩, ?_, ?_,
    Number.Blurred.exists_beyond⟩
  · have horders : (a.order b == .lt || a.order b == .eq) = (a.order b != .gt) := by
      cases a.order b <;> rfl
    rw [horders]
    exact he.atMost hf
  · rw [heq_iff he hf, heq_iff hf hg, heq_iff he hg]
    exact Number.eq_trans_iff
  · rw [hle_iff he hf, hle_iff hf hg, hle_iff he hg, hlt_iff]
    exact Number.le_trans_iff

/-- An integer that is at most a floating-point number, which is at most another integer. -/
theorem numbers_ordered_mixed :
    ∃ (e f g : Expr) (vars : Bindings Value),
      e.Yields (Environment.flat Environment.refuseCalls) vars (.int 2) ∧
      f.Yields (Environment.flat Environment.refuseCalls) vars (.float 2.5) ∧
      g.Yields (Environment.flat Environment.refuseCalls) vars (.int 3) ∧
      (Expr.binary .le e f).Yields (Environment.flat Environment.refuseCalls) vars (.bool true) ∧
      (Expr.binary .le f g).Yields (Environment.flat Environment.refuseCalls) vars (.bool true) ∧
      (Expr.binary .le e g).Yields (Environment.flat Environment.refuseCalls) vars
        (.bool true) := by
  let b : Number := .float 2.5 (by decide +kernel)
  have hyieldsA : (Expr.literal (.int 2)).Yields (Environment.flat Environment.refuseCalls) []
      (Number.int 2).value := rfl
  have hyieldsB : (Expr.literal (.float 2.5)).Yields (Environment.flat Environment.refuseCalls) []
      b.value := rfl
  have hyieldsC : (Expr.literal (.int 3)).Yields (Environment.flat Environment.refuseCalls) []
      (Number.int 3).value := rfl
  have hfirst : (Number.int 2).order b ≠ .gt := by decide +kernel
  have hsecond : b.order (Number.int 3) ≠ .gt := by decide +kernel
  have hleft := (hyieldsA.atMost hyieldsB).bool_iff.2 (bne_iff_ne.2 hfirst)
  have hright := (hyieldsB.atMost hyieldsC).bool_iff.2 (bne_iff_ne.2 hsecond)
  have hcarriesOn := (numbers_ordered hyieldsA hyieldsB hyieldsC).2.2.1 hleft hright
  refine ⟨_, _, _, [], hyieldsA, hyieldsB, hyieldsC, hleft, hright, hcarriesOn.2 fun hback => ?_⟩
  have hless := (hyieldsC.less hyieldsA).bool_iff.1 hback.2
  exact absurd hless (by decide)

/-- Two different integers beyond `2 ^ 53` that are equal to the same floating-point number. -/
theorem exists_numbers_not_ordered :
    ∃ (e f g : Expr) (a b c : Number), ∀ vars : Bindings Value,
      e.Yields (Environment.flat Environment.refuseCalls) vars a.value ∧
      f.Yields (Environment.flat Environment.refuseCalls) vars b.value ∧
      g.Yields (Environment.flat Environment.refuseCalls) vars c.value ∧
      (Expr.binary .eq e f).Yields (Environment.flat Environment.refuseCalls) vars (.bool true) ∧
      (Expr.binary .eq f g).Yields (Environment.flat Environment.refuseCalls) vars (.bool true) ∧
      (Expr.binary .eq e g).Yields (Environment.flat Environment.refuseCalls) vars (.bool false) ∧
      (Expr.binary .le e f).Yields (Environment.flat Environment.refuseCalls) vars (.bool true) ∧
      (Expr.binary .le f g).Yields (Environment.flat Environment.refuseCalls) vars (.bool true) ∧
      (Expr.binary .le e g).Yields (Environment.flat Environment.refuseCalls) vars
        (.bool false) := by
  let a : Number := .int 9007199254740993
  let b : Number := .float 9007199254740992.0 (by decide +kernel)
  let c : Number := .int 9007199254740992
  refine ⟨.literal (.int 9007199254740993), .literal (.float 9007199254740992.0),
    .literal (.int 9007199254740992), a, b, c, fun vars => ?_⟩
  have hyieldsA : (Expr.literal (.int 9007199254740993)).Yields
      (Environment.flat Environment.refuseCalls) vars a.value := rfl
  have hyieldsB : (Expr.literal (.float 9007199254740992.0)).Yields
      (Environment.flat Environment.refuseCalls) vars b.value := rfl
  have hyieldsC : (Expr.literal (.int 9007199254740992)).Yields
      (Environment.flat Environment.refuseCalls) vars c.value := rfl
  have hab : a.order b = .eq := by decide +kernel
  have hbc : b.order c = .eq := by decide +kernel
  have hac : a.order c = .gt := by decide +kernel
  refine ⟨hyieldsA, hyieldsB, hyieldsC, ?_, ?_, ?_, ?_, ?_, ?_⟩
  · exact (hyieldsA.same hyieldsB).bool_iff.2 (by rw [hab]; rfl)
  · exact (hyieldsB.same hyieldsC).bool_iff.2 (by rw [hbc]; rfl)
  · exact (hyieldsA.same hyieldsC).bool_iff.2 (by rw [hac]; rfl)
  · exact (hyieldsA.atMost hyieldsB).bool_iff.2 (by rw [hab]; rfl)
  · exact (hyieldsB.atMost hyieldsC).bool_iff.2 (by rw [hbc]; rfl)
  · exact (hyieldsA.atMost hyieldsC).bool_iff.2 (by rw [hac]; rfl)

end TextTemplate
