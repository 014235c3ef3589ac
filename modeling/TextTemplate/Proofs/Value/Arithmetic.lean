import Mathlib.Tactic.SplitIfs
import TextTemplate.Proofs.Value.Equality

/-!
# Arithmetic of integers

An expression put together from integers by `+`, `-`, `*`, `/`, `%` and the minus sign is computed
as on the unbounded integers, or refused. Every operation is done after its operands, the left one
first. It fails when it divides by zero, or when its exact result does not have 64 bits; a remainder
fails together with the quotient. The first operation that fails is the one that is reported.

## Main definitions

* `Arithmetic`: expressions that are put together by arithmetic operators.
* `Arithmetic.exact`: their values on the unbounded integers.
* `Arithmetic.operations`, `Arithmetic.fault?`: their operations in order, and what is wrong with
  one.

## Main results

* `Arithmetic.run_eval`: an evaluation ends with the exact value or the fault of an operation.
* `arithmetic_exact_or_refused`: it is the exact value unless some operation has a fault, and then
  the fault of the first.
-/

namespace TextTemplate

/-! ### Integers of 64 bits -/

namespace Checked

/-- The integer has 64 bits. -/
def InRange (n : Int) : Prop :=
  -9223372036854775808 ≤ n ∧ n ≤ 9223372036854775807

instance (n : Int) : Decidable (InRange n) :=
  inferInstanceAs (Decidable (_ ∧ _))

variable {n : Int}

theorem inRange_toInt (a : Int64) : InRange a.toInt :=
  ⟨a.le_toInt, Int.le_of_lt_add_one a.toInt_lt⟩

theorem toInt_ofInt (h : InRange n) : (Int64.ofInt n).toInt = n :=
  Int64.toInt_ofInt_of_le h.1 (Int.lt_add_one_of_le h.2)

theorem ofInt?_of_inRange (h : InRange n) : ofInt? n = some (Int64.ofInt n) :=
  if_pos h

theorem ofInt?_of_not_inRange (h : ¬InRange n) : ofInt? n = none :=
  if_neg h

/-- A remainder lies between zero and the dividend. -/
theorem inRange_tmod {m : Int} (h : InRange m) (n : Int) : InRange (m.tmod n) := by
  have hbound : (m.tmod n).natAbs ≤ m.natAbs := by
    rw [Int.natAbs_tmod]
    exact Nat.mod_le _ _
  obtain ⟨hlow, high⟩ := h
  rcases Int.le_total 0 m with hsign | hsign
  · have := Int.tmod_nonneg n hsign
    exact ⟨by omega, by omega⟩
  · have := Int.tmod_nonneg n (Int.neg_nonneg_of_nonpos hsign)
    rw [Int.neg_tmod] at this
    exact ⟨by omega, by omega⟩

end Checked

open Checked

/-! ### Operations -/

/-- The arithmetic operators with two operands. -/
inductive ArithmeticOp where
  | add
  | sub
  | mul
  | div
  | rem

namespace ArithmeticOp

/-- The operator of the expression language. -/
def binaryOp : ArithmeticOp → BinaryOp
  | add => .add
  | sub => .sub
  | mul => .mul
  | div => .div
  | rem => .rem

/-- The exact result. A quotient is truncated toward zero, and a remainder has the sign of the
dividend. -/
def exact : ArithmeticOp → Int → Int → Int
  | add, m, n => m + n
  | sub, m, n => m - n
  | mul, m, n => m * n
  | div, m, n => m.tdiv n
  | rem, m, n => m.tmod n

/-- What has to have 64 bits: the exact result, or for a remainder the quotient. -/
def limited : ArithmeticOp → Int → Int → Int
  | rem, m, n => m.tdiv n
  | op, m, n => op.exact m n

/-- Whether the second operand is a divisor. -/
def divides : ArithmeticOp → Bool
  | div | rem => true
  | add | sub | mul => false

/-- What is wrong with an operation on two integers. -/
def fault? (op : ArithmeticOp) (m n : Int) : Option EvalError :=
  if op.divides = true ∧ n = 0 then some .divisionByZero
  else if InRange (op.limited m n) then none
  else some .overflow

end ArithmeticOp

/-- The value of an exact result, unless something is wrong. -/
def exactUnless (fault? : Option EvalError) (exact : Int) : Except EvalError Value :=
  match fault? with
  | some fault => .error fault
  | none => .ok (.int (Int64.ofInt exact))

private theorem ofChecked_ofInt? (n : Int) :
    Value.ofChecked (ofInt? n) = exactUnless (if InRange n then none else some .overflow) n := by
  split_ifs with h
  · rw [ofInt?_of_inRange h]
    rfl
  · rw [ofInt?_of_not_inRange h]
    rfl

namespace ArithmeticOp

/-- Without a fault, the result of an operation on integers of 64 bits has 64 bits. -/
theorem inRange_exact {op : ArithmeticOp} {m n : Int} (hm : InRange m)
    (h : op.fault? m n = none) : InRange (op.exact m n) := by
  rw [fault?] at h
  split_ifs at h with _ hlimited
  cases op with
  | rem => exact inRange_tmod hm n
  | add | sub | mul | div => exact hlimited

/-- Dividing two integers, when dividing by something else than zero comes to this. -/
theorem divide_eq_exactUnless (op : ArithmeticOp) {result? : Int64 → Int64 → Option Int64}
    (hdivides : op.divides = true) {a b : Int64}
    (h : Value.ofChecked (result? a b) =
      exactUnless (if InRange (op.limited a.toInt b.toInt) then none else some .overflow)
        (op.exact a.toInt b.toInt)) :
    Value.divide result? a b =
      exactUnless (op.fault? a.toInt b.toInt) (op.exact a.toInt b.toInt) := by
  have hzero : b = 0 ↔ b.toInt = 0 := Int64.toInt_inj.symm
  rw [Value.divide, fault?]
  by_cases hdivisor : b.toInt = 0
  · rw [if_pos (hzero.2 hdivisor), if_pos ⟨hdivides, hdivisor⟩]
    rfl
  · rw [if_neg (mt hzero.1 hdivisor), if_neg (fun hboth => hdivisor hboth.2), h]

/-- A remainder is refused with its quotient. -/
theorem ofChecked_remainder? (a b : Int64) :
    Value.ofChecked (remainder? a b) =
      exactUnless (if InRange (a.toInt.tdiv b.toInt) then none else some .overflow)
        (a.toInt.tmod b.toInt) := by
  rw [remainder?, quotient?]
  split_ifs with hfits hrange hrange
  · rw [ofInt?_of_inRange (inRange_tmod (inRange_toInt a) b.toInt)]
    rfl
  · simp [ofInt?_of_not_inRange hrange] at hfits
  · simp [ofInt?_of_inRange hrange] at hfits
  · rfl

/-- An operator applied to two integers gives the exact result, or what is wrong with it. -/
theorem apply_int (op : ArithmeticOp) (a b : Int64) :
    op.binaryOp.apply (.int a) (.int b) =
      exactUnless (op.fault? a.toInt b.toInt) (op.exact a.toInt b.toInt) := by
  cases op with
  | add | sub | mul => exact ofChecked_ofInt? _
  | div => exact divide_eq_exactUnless .div rfl (ofChecked_ofInt? _)
  | rem => exact divide_eq_exactUnless .rem rfl (ofChecked_remainder? a b)

end ArithmeticOp

/-! ### Trees of operations -/

/-- An expression that is put together by arithmetic operators from expressions for integers. -/
inductive Arithmetic where
  | leaf (e : Expr) (n : Int64)
  | neg (operand : Arithmetic)
  | combine (op : ArithmeticOp) (left right : Arithmetic)

namespace Arithmetic

/-- The expression. -/
def expr : Arithmetic → Expr
  | leaf e _ => e
  | neg operand => .unary .neg operand.expr
  | combine op left right => .binary op.binaryOp left.expr right.expr

/-- The value on the unbounded integers. -/
def exact : Arithmetic → Int
  | leaf _ n => n.toInt
  | neg operand => -operand.exact
  | combine op left right => op.exact left.exact right.exact

/-- What is wrong with the last operation, if those before it give what they should. -/
def fault? : Arithmetic → Option EvalError
  | leaf _ _ => none
  | neg operand => if InRange (-operand.exact) then none else some .overflow
  | combine op left right => op.fault? left.exact right.exact

/-- The parts that end with an operation, in the order of these operations: each behind those of
its operands, and those of the left operand first. -/
def operations : Arithmetic → List Arithmetic
  | leaf _ _ => []
  | neg operand => operand.operations ++ [neg operand]
  | combine op left right => left.operations ++ right.operations ++ [combine op left right]

/-- The fault of the first operation that has one. -/
def firstFault? (t : Arithmetic) : Option EvalError :=
  t.operations.findSome? fault?

section Evaluation

variable {σ : Type} (env : Environment (StateM σ)) (s : σ)

/-- In this state every leaf yields its integer. -/
def LeavesYield : Arithmetic → Prop
  | leaf e n => e.Yields env s (.int n)
  | neg operand => operand.LeavesYield
  | combine _ left right => left.LeavesYield ∧ right.LeavesYield

end Evaluation

private theorem firstFault?_neg (t : Arithmetic) :
    (neg t).firstFault? = t.firstFault?.or (neg t).fault? := by
  simp [firstFault?, operations, List.findSome?_append]

private theorem firstFault?_combine (op : ArithmeticOp) (a b : Arithmetic) :
    (combine op a b).firstFault? =
      (a.firstFault?.or b.firstFault?).or (combine op a b).fault? := by
  simp [firstFault?, operations, List.findSome?_append, Option.or_assoc]

/-- Where no operation has a fault, the value has 64 bits. -/
theorem inRange_exact {t : Arithmetic} (h : t.firstFault? = none) : InRange t.exact := by
  induction t with
  | leaf e n => exact inRange_toInt n
  | neg t ih =>
    rw [firstFault?_neg, Option.or_eq_none_iff, fault?] at h
    split_ifs at h with hrange
    · exact hrange
    · cases h.2
  | combine op a b iha ihb =>
    rw [firstFault?_combine, Option.or_eq_none_iff, Option.or_eq_none_iff] at h
    exact op.inRange_exact (iha h.1.1) h.2

section Evaluation

variable {σ : Type} {env : Environment (StateM σ)} {s : σ}

private theorem eval_combine (op : ArithmeticOp) (a b : Arithmetic) :
    (combine op a b).expr.eval env = (do
      let left ← a.expr.eval env
      let right ← b.expr.eval env
      ExceptT.mk (pure (op.binaryOp.apply left right))) := by
  refine Expr.eval_binary op.binaryOp ?_ a.expr b.expr
  cases op <;> decide

/-- An evaluation ends with the exact value, or with the fault of the first operation that has
one, and leaves the state as it is. -/
theorem run_eval {t : Arithmetic} (h : t.LeavesYield env s) :
    (t.expr.eval env).run.run s = (exactUnless t.firstFault? t.exact, s) := by
  induction t with
  | leaf e n =>
    rw [expr, h]
    change _ = (Except.ok (Value.int (Int64.ofInt n.toInt)), s)
    rw [Int64.ofInt_toInt]
  | neg t ih =>
    have hoperand := ih h
    rw [expr, Expr.eval, firstFault?_neg]
    cases hfirst : t.firstFault? with
    | some fault =>
      rw [hfirst] at hoperand
      exact run_bind_of_fst_error hoperand
    | none =>
      rw [hfirst] at hoperand
      rw [run_bind_of_fst_ok hoperand, Option.none_or, fault?]
      refine Prod.ext ?_ rfl
      change Value.ofChecked (neg? (Int64.ofInt t.exact)) = _
      rw [neg?, toInt_ofInt (inRange_exact hfirst)]
      exact ofChecked_ofInt? _
  | combine op a b iha ihb =>
    have hleft := iha h.1
    have hright := ihb h.2
    rw [eval_combine, firstFault?_combine]
    cases hfirst : a.firstFault? with
    | some fault =>
      rw [hfirst] at hleft
      exact run_bind_of_fst_error hleft
    | none =>
      rw [hfirst] at hleft
      rw [run_bind_of_fst_ok hleft, Option.none_or]
      cases hsecond : b.firstFault? with
      | some fault =>
        rw [hsecond] at hright
        exact run_bind_of_fst_error hright
      | none =>
        rw [hsecond] at hright
        rw [run_bind_of_fst_ok hright, Option.none_or, fault?, exact]
        refine Prod.ext ?_ rfl
        change op.binaryOp.apply _ _ = _
        rw [ArithmeticOp.apply_int, toInt_ofInt (inRange_exact hfirst),
          toInt_ofInt (inRange_exact hsecond)]

end Evaluation

end Arithmetic

/-- Arithmetic on integers is exact or refused. If every operation divides by something else than
zero and has an exact result of 64 bits, with the quotient in place of a remainder, then the
expression has the exact value. Otherwise it fails with the fault of the first operation for which
that does not hold, in the order in which operands come before their operation and left operands
before right ones: division by zero if its divisor is zero, and else an overflow. -/
theorem arithmetic_exact_or_refused {σ : Type} {env : Environment (StateM σ)} {s : σ}
    {t : Arithmetic} (hleaves : t.LeavesYield env s) :
    ((∀ part ∈ t.operations, part.fault? = none) →
      ∃ n : Int64, n.toInt = t.exact ∧ t.expr.Yields env s (.int n)) ∧
    (¬(∀ part ∈ t.operations, part.fault? = none) →
      ∃ before part after fault, t.operations = before ++ part :: after ∧
        (∀ earlier ∈ before, earlier.fault? = none) ∧ part.fault? = some fault ∧
          (t.expr.eval env).run.run s = (.error fault, s)) := by
  have hrun := Arithmetic.run_eval hleaves
  have hnoFault : t.firstFault? = none ↔ ∀ part ∈ t.operations, part.fault? = none :=
    List.findSome?_eq_none_iff
  rw [← hnoFault]
  constructor
  · intro hnone
    refine ⟨Int64.ofInt t.exact, toInt_ofInt (Arithmetic.inRange_exact hnone), ?_⟩
    rw [Expr.Yields, hrun, hnone]
    rfl
  · intro hsome
    obtain ⟨fault, hfirst⟩ := Option.ne_none_iff_exists'.1 hsome
    obtain ⟨before, part, after, hsplit, hpart, hbefore⟩ := List.findSome?_eq_some_iff.1 hfirst
    refine ⟨before, part, after, fault, hsplit, hbefore, hpart, ?_⟩
    rw [hrun, hfirst]
    rfl

/-- `x % -1 + 1 / 0` with the least integer for `x`: the quotient that belongs to the remainder does
not have 64 bits, which is found before the division by zero. -/
theorem arithmetic_exact_or_refused_remainder :
    ∃ (t : Arithmetic) (vars : Bindings Value),
      t.LeavesYield (Environment.flat Environment.refuseCalls) vars ∧
      ((t.expr.eval (Environment.flat Environment.refuseCalls)).run.run vars).1 =
        .error .overflow := by
  let one : Arithmetic := .leaf (.literal (.int 1)) 1
  let remainder : Arithmetic := .combine .rem (.leaf (.ident "x") Int64.minValue) (.neg one)
  let quotient : Arithmetic := .combine .div one (.leaf (.literal (.int 0)) 0)
  let vars : Bindings Value := [("x", .int Int64.minValue)]
  have hleaves : (Arithmetic.combine .add remainder quotient).LeavesYield
      (Environment.flat Environment.refuseCalls) vars := ⟨⟨rfl, rfl⟩, rfl, rfl⟩
  have hfits : (Arithmetic.neg one).fault? = none := by decide
  have hoverflows : remainder.fault? = some .overflow := by decide
  have hfails := (arithmetic_exact_or_refused hleaves).2 fun hall => by
    have := hall remainder (.tail _ (.head _))
    rw [hoverflows] at this
    cases this
  obtain ⟨before, part, after, fault, hsplit, hearlier, hfault, hrun⟩ := hfails
  refine ⟨_, vars, hleaves, ?_⟩
  rw [hrun]
  -- The remainder is the second operation, behind the minus sign.
  match before with
  | [] =>
    obtain ⟨rfl, -⟩ := List.cons.inj hsplit
    rw [hfits] at hfault
    cases hfault
  | [_] =>
    obtain ⟨-, hrest⟩ := List.cons.inj hsplit
    obtain ⟨rfl, -⟩ := List.cons.inj hrest
    rw [hoverflows] at hfault
    cases hfault
    rfl
  | _ :: second :: _ =>
    obtain ⟨-, hrest⟩ := List.cons.inj hsplit
    obtain ⟨rfl, -⟩ := List.cons.inj hrest
    have := hearlier remainder (.tail _ (.head _))
    rw [hoverflows] at this
    cases this

end TextTemplate
