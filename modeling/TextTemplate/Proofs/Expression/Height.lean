import TextTemplate.Proofs.Attempt
import TextTemplate.Proofs.Expression.RoundTrip

/-!
# How high expressions are

An expression is evaluated from its root down, so that as many evaluations are open at once as its
tree is high. The levels of nesting bound this only in part. They count brackets, arguments, unary
operators and the right sides of assignments; the operators of one level group to the left without
counting, and so do the fields, elements and calls that stand behind one another. Each of these
chains can be as long as the text. Apart from the steps along chains, the height of an expression
that is read is bounded by the levels alone.

## Main definitions

* `Expr.height` — the height of an expression, with what a step along a chain counts.
* `Expr.chainLength`, `Expr.longestChain` — how long the chains are.
* `Expr.heightBound` — a bound that the levels of nesting give.

## Main results

* `Expr.height_of_statement` — the height of an expression apart from its chains.
* `Expr.height_add_le` — what chains add to it.
* `Expr.height_le_of_parse` — the height of an expression that is read.
* `Expr.height_unbounded` — no bound holds for chains of every length.
-/

namespace TextTemplate.Expr

/-! ### Height -/

mutual

/-- The height of an expression: how many evaluations of it and its parts are open at once at most.
A step along a chain, to the left operand of a binary operator or to what a field, an element or a
call stands behind, counts `step`, and every other one counts one. -/
def height (step : Nat) : Expr → Nat
  | .literal _ | .ident _ => 1
  | .list es | .sequence es => heightAll step es + 1
  | .field e _ => height step e + step
  | .index a b => max (height step a + step) (height step b + 1)
  | .call e args => max (height step e + step) (heightAll step args + 1)
  | .unary _ e | .assign _ _ e => height step e + 1
  | .binary _ a b => max (height step a + step) (height step b + 1)

/-- The height of the highest of several expressions. -/
def heightAll (step : Nat) : List Expr → Nat
  | [] => 0
  | e :: es => max (height step e) (heightAll step es)

end

/-- How many steps the chain at the root of an expression has. -/
def chainLength : Expr → Nat
  | .field e _ | .index e _ | .call e _ | .binary _ e _ => chainLength e + 1
  | _ => 0

mutual

/-- How many steps the longest chain in an expression has. -/
def longestChain : Expr → Nat
  | .literal _ | .ident _ => 0
  | .list es | .sequence es => longestChainAll es
  | .field e _ => max (chainLength e + 1) (longestChain e)
  | .index a b => max (chainLength a + 1) (max (longestChain a) (longestChain b))
  | .call e args => max (chainLength e + 1) (max (longestChain e) (longestChainAll args))
  | .unary _ e | .assign _ _ e => longestChain e
  | .binary _ a b => max (chainLength a + 1) (max (longestChain a) (longestChain b))

/-- How many steps the longest chain in several expressions has. -/
def longestChainAll : List Expr → Nat
  | [] => 0
  | e :: es => max (longestChain e) (longestChainAll es)

end

/-- A bound on the height of expressions apart from their chains: a level of nesting adds one for
each level of the binary operators, and one for itself. -/
def heightBound : Nat :=
  (levels.length + 1) * maxNesting + 1

/-! ### What chains add -/

private theorem chainLength_le_longestChain (e : Expr) : e.chainLength ≤ e.longestChain := by
  cases e with
  | field | index | call | binary => exact Nat.le_max_left _ _
  | literal | list | ident | unary | assign | sequence => exact Nat.zero_le _

section Arithmetic

variable {a a' b b' chain longest : Nat}

private theorem le_mul_of_add_le (h : a + longest ≤ a' * (longest + 1) + chain)
    (hchain : chain ≤ longest) :
    a ≤ a' * (longest + 1) := by
  omega

/-- A step that counts anyway leaves room for a whole chain. -/
theorem succ_add_le (h : a ≤ a' * (longest + 1)) :
    a + 1 + longest ≤ (a' + 1) * (longest + 1) := by
  rw [Nat.succ_mul]
  omega

/-- A step along a chain next to one that counts anyway. -/
theorem max_add_le (ha : a + longest ≤ a' * (longest + 1) + chain) (hb : b ≤ b' * (longest + 1)) :
    max (a + 1) (b + 1) + longest ≤ max a' (b' + 1) * (longest + 1) + (chain + 1) := by
  have hleft := Nat.mul_le_mul_right (longest + 1) (Nat.le_max_left a' (b' + 1))
  have hright := Nat.mul_le_mul_right (longest + 1) (Nat.le_max_right a' (b' + 1))
  have hcounted := succ_add_le hb
  omega

end Arithmetic

mutual

/-- What a chain adds at its root is its length; every chain below has at most `longest` steps. -/
theorem height_add_le {longest : Nat} : ∀ {e : Expr}, e.longestChain ≤ longest →
    e.height 1 + longest ≤ e.height 0 * (longest + 1) + e.chainLength
  | .literal _, _ | .ident _, _ => by
    simp only [height, chainLength]
    omega
  | .list es, h | .sequence es, h => succ_add_le (heightAll_le h)
  | .field e _, h => by
    have := height_add_le (Nat.max_le.1 h).2
    simp only [height, chainLength, Nat.add_zero]
    omega
  | .index a b, h => by
    obtain ⟨-, hab⟩ := Nat.max_le.1 h
    obtain ⟨ha, hb⟩ := Nat.max_le.1 hab
    exact max_add_le (height_add_le ha) (height_le_mul hb)
  | .call e args, h => by
    obtain ⟨-, hparts⟩ := Nat.max_le.1 h
    obtain ⟨he, hargs⟩ := Nat.max_le.1 hparts
    exact max_add_le (height_add_le he) (heightAll_le hargs)
  | .unary _ e, h | .assign _ _ e, h => succ_add_le (height_le_mul h)
  | .binary _ a b, h => by
    obtain ⟨-, hab⟩ := Nat.max_le.1 h
    obtain ⟨ha, hb⟩ := Nat.max_le.1 hab
    exact max_add_le (height_add_le ha) (height_le_mul hb)

private theorem height_le_mul {longest : Nat} {e : Expr} (h : e.longestChain ≤ longest) :
    e.height 1 ≤ e.height 0 * (longest + 1) :=
  le_mul_of_add_le (height_add_le h) (Nat.le_trans e.chainLength_le_longestChain h)

theorem heightAll_le {longest : Nat} : ∀ {es : List Expr}, longestChainAll es ≤ longest →
    heightAll 1 es ≤ heightAll 0 es * (longest + 1)
  | [], _ => Nat.zero_le _
  | e :: es, h => by
    obtain ⟨he, hes⟩ := Nat.max_le.1 h
    have hfirst := height_le_mul he
    have hrest := heightAll_le hes
    have hleft := Nat.mul_le_mul_right (longest + 1) (Nat.le_max_left (height 0 e) (heightAll 0 es))
    have hright :=
      Nat.mul_le_mul_right (longest + 1) (Nat.le_max_right (height 0 e) (heightAll 0 es))
    exact Nat.max_le.2 ⟨Nat.le_trans hfirst hleft, Nat.le_trans hrest hright⟩

end

/-! ### What the levels of nesting bound -/

section Forms

variable {operand inside value : Phrase} {ts : List Token} {e : Expr} {n k : Nat}

private theorem height_of_atom {t : Token} (h : atom? t = some e) : e.height 0 = 1 := by
  cases t with
  | int | float | string => cases h; rfl
  | ident name =>
    cases h
    rw [ofName.eq_def]
    split <;> rfl
  | symbol => cases h

/-- A level of the binary operators adds one. -/
theorem height_of_joined {ops : List (Symbol × BinaryOp)}
    (hoperand : ∀ ts e, operand ts e → e.height 0 ≤ n) (h : Joined ops operand ts e) :
    e.height 0 ≤ n + 1 := by
  induction h with
  | single honly => exact Nat.le_succ_of_le (hoperand _ _ honly)
  | join _ _ hright ih => exact Nat.max_le.2 ⟨ih, Nat.succ_le_succ (hoperand _ _ hright)⟩

private theorem height_of_joinedAll (lvls : List (List (Symbol × BinaryOp)))
    (hoperand : ∀ ts e, operand ts e → e.height 0 ≤ n) (h : JoinedAll lvls operand ts e) :
    e.height 0 ≤ n + lvls.length := by
  induction lvls generalizing ts e with
  | nil => exact hoperand _ _ h
  | cons ops lvls ih => exact height_of_joined (fun _ _ => ih) h

private theorem heightAll_of_items (hinside : ∀ ts e, inside ts e → e.height 0 ≤ n) {es : List Expr}
    (h : Items inside ts es) : heightAll 0 es ≤ n := by
  induction h with
  | last honly => exact Nat.max_le.2 ⟨hinside _ _ honly, Nat.zero_le n⟩
  | more hfirst _ ih => exact Nat.max_le.2 ⟨hinside _ _ hfirst, ih⟩

private theorem heightAll_of_listed (hinside : ∀ ts e, inside ts e → e.height 0 ≤ n)
    {es : List Expr} (h : Listed inside ts es) : heightAll 0 es ≤ n := by
  cases h with
  | none => exact Nat.zero_le n
  | some hitems => exact heightAll_of_items hinside hitems

/-- Brackets add one, and what stands behind a primary expression adds nothing. -/
theorem height_of_suffixed (hinside : ∀ ts e, inside ts e → e.height 0 ≤ n)
    (h : Suffixed inside ts e) : e.height 0 ≤ n + 1 := by
  induction h with
  | atom hatom =>
    rw [height_of_atom hatom]
    exact Nat.le_add_left 1 n
  | brackets hinner => exact Nat.le_succ_of_le (hinside _ _ hinner)
  | list hitems => exact Nat.succ_le_succ (heightAll_of_listed hinside hitems)
  | field _ ih => exact ih
  | index _ hplace ih => exact Nat.max_le.2 ⟨ih, Nat.succ_le_succ (hinside _ _ hplace)⟩
  | call _ hitems ih =>
    exact Nat.max_le.2 ⟨ih, Nat.succ_le_succ (heightAll_of_listed hinside hitems)⟩

private theorem height_of_operated (hop : ∀ ts e, operand ts e → e.height 0 ≤ n)
    (hinside : ∀ ts e, inside ts e → e.height 0 ≤ n) (h : Operated operand inside ts e) :
    e.height 0 ≤ n + 1 := by
  cases h with
  | unary _ hbehind => exact Nat.succ_le_succ (hop _ _ hbehind)
  | suffixed h => exact height_of_suffixed hinside h

private theorem height_of_assigned (hvalue : ∀ ts e, value ts e → e.height 0 ≤ n)
    (hop : ∀ ts e, operand ts e → e.height 0 ≤ n + 1) (h : Assigned value operand ts e) :
    e.height 0 ≤ n + (levels.length + 1) := by
  cases h with
  | assign _ hright =>
    exact Nat.le_trans (Nat.succ_le_succ (hvalue _ _ hright)) (by omega)
  | joined h => exact Nat.le_trans (height_of_joinedAll levels hop h) (by omega)

end Forms

/-- An expression or operand that nests on so many levels is as high as they allow. -/
theorem height_of_statement (n : Nat) :
    (∀ ts e, Statement n ts e → e.height 0 ≤ (levels.length + 1) * n) ∧
      ∀ ts e, Operand n ts e → e.height 0 ≤ (levels.length + 1) * n + 1 := by
  induction n with
  | zero =>
    refine ⟨fun _ _ h => h.elim, fun _ _ h => ?_⟩
    exact height_of_operated (fun _ _ h => h.elim) (fun _ _ h => h.elim) h
  | succ n ih =>
    obtain ⟨hstatement, hoperand⟩ := ih
    have hassigned (ts : List Token) (e : Expr) (h : Assigned (Statement n) (Operand n) ts e) :
        e.height 0 ≤ (levels.length + 1) * (n + 1) :=
      height_of_assigned hstatement hoperand h
    refine ⟨hassigned, fun ts e h => ?_⟩
    refine height_of_operated (fun ts e h => Nat.le_trans (hoperand ts e h) ?_) hassigned h
    rw [Nat.mul_succ]
    omega

private theorem heightAll_of_statements {n : Nat} {ts : List Token} {es : List Expr}
    (h : Statements (Statement n) ts es) : heightAll 0 es ≤ (levels.length + 1) * n := by
  induction h with
  | done => exact Nat.zero_le _
  | semicolon _ ih => exact ih
  | last honly => exact Nat.max_le.2 ⟨(height_of_statement n).1 _ _ honly, Nat.zero_le _⟩
  | more hfirst _ ih => exact Nat.max_le.2 ⟨(height_of_statement n).1 _ _ hfirst, ih⟩

private theorem height_ofStatements_le (es : List Expr) :
    (ofStatements es).height 0 ≤ heightAll 0 es + 1 := by
  match es with
  | [] => exact Nat.le_refl 1
  | [e] => exact Nat.le_succ_of_le (Nat.le_max_left _ _)
  | e :: e' :: es => exact Nat.le_refl _

/-! ### Expressions that are read -/

/-- The sum of so many ones and another one: a chain of so many steps. -/
def ones : Nat → Expr
  | 0 => .literal (.int 1)
  | n + 1 => .binary .add (ones n) (.literal (.int 1))

private theorem height_ones (n : Nat) : (ones n).height 1 = n + 1 := by
  induction n with
  | zero => rfl
  | succ n ih =>
    rw [ones, height, ih, height]
    omega

private theorem plain_ones (n : Nat) : Plain (ones n) := by
  have hone : Plain (.literal (.int 1)) := .literal (l := .int 1) (show 0 ≤ Int64.toInt 1 by decide)
  induction n with
  | zero => exact hone
  | succ n ih => exact .binary ih hone

private theorem coreNesting_ones (n : Nat) : coreNesting 0 (ones n) = 0 := by
  induction n with
  | zero => rfl
  | succ n ih =>
    have hleft : enclosedNesting BinaryOp.add.strength (ones n) 0 = 0 := by
      cases n <;> rfl
    rw [ones, coreNesting, ih, hleft]
    rfl

/-- No bound holds for the height of all expressions that are read: a chain of operators of one
level does not nest, however long it is. -/
theorem height_unbounded : ¬∃ bound, ∀ source e, parse source = .ok e → e.height 1 ≤ bound := by
  rintro ⟨bound, hbound⟩
  have hread : parse (text (ones bound)) = .ok (ones bound) := by
    refine (Printable.single (plain_ones bound)).parse_text_of_lt ?_
    rw [nesting_zero, coreNesting_ones]
    decide
  have hheight := hbound _ _ hread
  rw [height_ones] at hheight
  omega

/-- Apart from its chains, an expression that is read is only as high as the levels of nesting
allow; and its height is at most that times the length of its longest chain and one more. -/
theorem height_le_of_parse {source : String} {e : Expr} (h : parse source = .ok e) :
    e.height 0 ≤ heightBound ∧ e.height 1 ≤ heightBound * (e.longestChain + 1) := by
  obtain ⟨_, es, -, hphrases, rfl⟩ := statements_of_parse h
  have hbound : (ofStatements es).height 0 ≤ heightBound :=
    Nat.le_trans (height_ofStatements_le es) (Nat.succ_le_succ (heightAll_of_statements hphrases))
  have hchains := height_le_mul (Nat.le_refl (ofStatements es).longestChain)
  exact ⟨hbound, Nat.le_trans hchains (Nat.mul_le_mul_right _ hbound)⟩

/-- The height of a text with a chain of three steps in brackets. -/
theorem height_le_of_parse_brackets :
    ∃ e, parse "2 * (1 + f(x)[0] + 3 - 4)" = .ok e ∧ e.height 0 = 4 ∧ e.height 1 = 7 ∧
      e.longestChain = 3 ∧ e.height 0 ≤ heightBound ∧
      e.height 1 ≤ heightBound * (e.longestChain + 1) := by
  obtain ⟨e, hparse, hheights⟩ := Attempt.exists_eq_ok_and
    (x := parse "2 * (1 + f(x)[0] + 3 - 4)")
    (p := fun e => decide (e.height 0 = 4 ∧ e.height 1 = 7 ∧ e.longestChain = 3))
    (by decide +kernel)
  obtain ⟨hnested, hheight, hlongest⟩ := of_decide_eq_true hheights
  exact ⟨e, hparse, hnested, hheight, hlongest, height_le_of_parse hparse⟩

end TextTemplate.Expr
