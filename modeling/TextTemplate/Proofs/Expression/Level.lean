import TextTemplate.Proofs.Expression.Complete

/-!
# Levels of nesting

A reader with fewer levels left reads what one with more levels reads, or it says that the
expression is nested too deeply: the levels decide nothing else. So a text whose tokens are
statements, on however many levels, spells their expression or is refused for its depth.

## Main definitions

* `Parser.Shallower` — a reader that agrees with another one as far as its levels reach.

## Main results

* `Expr.shallower_deeper` — fewer levels and more levels.
* `Expr.parse_of_statements` — statements on any number of levels.
-/

namespace TextTemplate

namespace Parser

variable {α β : Type}

/-- The result that says that an expression is nested too deeply. -/
def IsTooDeep (result : Except EvalError α) : Prop :=
  ∃ offset, result = .error (.malformed offset "expression nested too deeply")

/-- The reader does what the other one does, or it finds the expression nested too deeply. -/
def Shallower (p q : Parser α) : Prop :=
  ∀ s, p.run s = q.run s ∨ IsTooDeep (p.run s)

theorem Shallower.refl (p : Parser α) : Shallower p p :=
  fun _ => .inl rfl

theorem Shallower.bind {p q : Parser α} {f g : α → Parser β} (h : Shallower p q)
    (hf : ∀ a, Shallower (f a) (g a)) : Shallower (p >>= f) (q >>= g) := by
  intro s
  rw [StateT.run_bind, StateT.run_bind]
  rcases h s with heq | ⟨offset, herr⟩
  · rw [heq]
    cases q.run s with
    | error e => exact .inl rfl
    | ok result => exact hf result.1 result.2
  · rw [herr]
    exact .inr ⟨offset, rfl⟩

/-- The same step in front of both readers. -/
theorem Shallower.after (p : Parser α) {f g : α → Parser β} (hf : ∀ a, Shallower (f a) (g a)) :
    Shallower (p >>= f) (p >>= g) :=
  (Shallower.refl p).bind hf

theorem Shallower.map {p q : Parser α} (h : Shallower p q) (f : α → Parser β) :
    Shallower (p >>= f) (q >>= f) :=
  h.bind fun a => Shallower.refl (f a)

private theorem Shallower.ite {c : Prop} [Decidable c] {p q p' q' : Parser α} (h : Shallower p q)
    (h' : Shallower p' q') : Shallower (if c then p else p') (if c then q else q') := by
  split
  · exact h
  · exact h'

end Parser

namespace Expr

open TextTemplate.Parser

section Forms

variable {tokens : Nat} {operand operand' item item' deeper deeper' value value' : Parser Expr}

private theorem shallower_chainTail (ops : List (Symbol × BinaryOp))
    (h : Shallower operand operand') (more : Nat) (e : Expr) :
    Shallower (chainTail ops operand more e) (chainTail ops operand' more e) := by
  induction more generalizing e with
  | zero => exact Shallower.refl _
  | succ more ih =>
    refine Shallower.after _ fun s => ?_
    split
    · exact Shallower.refl _
    · exact Shallower.after _ fun _ => h.bind fun b => ih _

private theorem shallower_operations (h : Shallower operand operand') :
    Shallower (operations tokens operand) (operations tokens operand') := by
  rw [operations, operations]
  induction levels with
  | nil => exact h
  | cons ops lvls ih => exact ih.bind fun e => shallower_chainTail ops ih tokens e

private theorem shallower_assignment (hvalue : Shallower value value')
    (h : Shallower operand operand') :
    Shallower (assignment tokens value operand) (assignment tokens value' operand') := by
  refine Shallower.after _ fun s => ?_
  split
  · split
    · exact Shallower.after _ fun _ => Shallower.after _ fun _ => hvalue.map _
    · exact shallower_operations h
  · exact shallower_operations h

private theorem shallower_someItems (h : Shallower item item') (close : Symbol) (more : Nat) :
    Shallower (someItems item close more) (someItems item' close more) := by
  induction more with
  | zero => exact h.map _
  | succ more ih =>
    exact h.bind fun e => Shallower.after _ fun _ => Shallower.ite (ih.map _) (Shallower.refl _)

private theorem shallower_items (h : Shallower item item') (close : Symbol) :
    Shallower (items tokens item close) (items tokens item' close) :=
  Shallower.after _ fun _ => Shallower.ite (Shallower.refl _) (shallower_someItems h close tokens)

private theorem shallower_primary (h : Shallower deeper deeper') :
    Shallower (primary tokens deeper) (primary tokens deeper') := by
  refine Shallower.after _ fun t => ?_
  split
  case h_5 => exact Shallower.after _ fun _ => h.map _
  case h_6 => exact Shallower.after _ fun _ => (shallower_items h _).map _
  all_goals exact Shallower.refl _

private theorem shallower_suffixes (h : Shallower deeper deeper') (more : Nat) (e : Expr) :
    Shallower (suffixes tokens deeper more e) (suffixes tokens deeper' more e) := by
  induction more generalizing e with
  | zero => exact Shallower.refl _
  | succ more ih =>
    refine Shallower.after _ fun s => ?_
    split
    case h_1 =>
      exact Shallower.after _ fun _ => Shallower.after _ fun _ => Shallower.after _ fun _ => ih _
    case h_2 => exact Shallower.after _ fun _ => h.bind fun b => Shallower.after _ fun _ => ih _
    case h_3 => exact Shallower.after _ fun _ => (shallower_items h _).bind fun args => ih _
    case h_4 => exact Shallower.refl _

private theorem shallower_operand (hop : Shallower operand operand')
    (h : Shallower deeper deeper') :
    Shallower (Expr.operand tokens operand deeper) (Expr.operand tokens operand' deeper') := by
  refine Shallower.after _ fun _ => Shallower.ite (hop.map _) ?_
  refine Shallower.after _ fun _ => Shallower.ite (hop.map _) ?_
  exact (shallower_primary h).bind fun e => shallower_suffixes h tokens e

end Forms

/-- Nothing is within the levels below the last one. -/
theorem shallower_tooDeep (p : Parser Expr) : Shallower tooDeep p :=
  fun _ => .inr ⟨_, rfl⟩

mutual

theorem shallower_deeper (tokens : Nat) {m n : Nat} (h : m ≤ n) :
    Shallower (deeper tokens m) (deeper tokens n) := by
  match m, n, h with
  | 0, n, _ => exact shallower_tooDeep _
  | m + 1, n + 1, h =>
    exact shallower_assignment (shallower_deeper tokens (Nat.le_of_succ_le_succ h))
      (shallower_operandAbove tokens (Nat.le_of_succ_le_succ h))

theorem shallower_operandAbove (tokens : Nat) {m n : Nat} (h : m ≤ n) :
    Shallower (operandAbove tokens m) (operandAbove tokens n) := by
  match m, n, h with
  | 0, 0, _ => exact Shallower.refl _
  | 0, n + 1, _ => exact shallower_operand (shallower_tooDeep _) (shallower_tooDeep _)
  | m + 1, n + 1, h =>
    exact shallower_operand (shallower_operandAbove tokens (Nat.le_of_succ_le_succ h))
      (shallower_assignment (shallower_deeper tokens (Nat.le_of_succ_le_succ h))
        (shallower_operandAbove tokens (Nat.le_of_succ_le_succ h)))

end

private theorem shallower_statements {statement statement' : Parser Expr}
    (h : Shallower statement statement') (more : Nat) :
    Shallower (statements statement more) (statements statement' more) := by
  induction more with
  | zero => exact Shallower.refl _
  | succ more ih =>
    refine Shallower.after _ fun _ => Shallower.after _ fun _ => Shallower.ite (Shallower.refl _) ?_
    exact h.bind fun e => Shallower.after _ fun _ => Shallower.ite (ih.map _) (Shallower.refl _)

/-- Statements that nest on more levels than there are spell their expression as well, or they are
nested too deeply. -/
theorem parse_of_statements {source : String} {lexemes : List Lexeme} {es : List Expr} {n : Nat}
    (henough : maxNesting ≤ n) (hlex : lex source = .ok lexemes)
    (hphrases : Statements (Statement n) (lexemes.map Lexeme.token) es) :
    parse source = .ok (ofStatements es) ∨ IsTooDeep (parse source) := by
  have hrun := statements_run (fun _ _ => Statement.starts)
    (accepts_deeper lexemes.length n) hphrases lexemes lexemes.length source.utf8ByteSize rfl
    (Nat.le_refl _) (Nat.le_refl _)
  have hwithin := shallower_statements (shallower_deeper lexemes.length henough)
    (lexemes.length + 1) ⟨lexemes, source.utf8ByteSize⟩
  rw [parse_of_lex hlex, whole]
  rcases hwithin with heq | ⟨offset, herr⟩
  · rw [run_bind_of_ok (heq.trans hrun)]
    exact .inl rfl
  · rw [StateT.run_bind, herr]
    exact .inr ⟨offset, rfl⟩

end Expr

end TextTemplate
