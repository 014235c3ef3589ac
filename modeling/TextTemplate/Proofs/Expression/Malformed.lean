import TextTemplate.Expr.Parse
import TextTemplate.Proofs.Attempt

/-!
# Texts that are no expressions

Every way in which the reading of a text can fail gives a place in the text and a reason.

## Main definitions

* `EvalError.IsMalformed`: the error that a text is no expression.
* `Parser.Refuses`: readers of tokens that fail with no other error.

## Main results

* `Expr.isMalformed_of_parse`: reading an expression fails with no other error.
-/

namespace TextTemplate

/-- The error is that a text is no expression. -/
def EvalError.IsMalformed (e : EvalError) : Prop :=
  ∃ offset reason, e = .malformed offset reason

namespace Parser

variable {α β : Type}

/-- Where the reader fails, it is because the text is no expression. -/
def Refuses (p : Parser α) : Prop :=
  ∀ tokens e, p.run tokens = .error e → e.IsMalformed

private theorem Refuses.of_eq {p : Parser α} {f : Tokens → α × Tokens}
    (h : ∀ s, p.run s = .ok (f s)) :
    Refuses p := by
  intro s e he
  rw [h] at he
  cases he

private theorem refuses_pure (a : α) : Refuses (pure a) :=
  fun _ _ => nofun

theorem Refuses.bind {p : Parser α} {next : α → Parser β} (h : Refuses p)
    (hnext : ∀ a, Refuses (next a)) : Refuses (p >>= next) := by
  intro s e he
  rw [StateT.run_bind, Attempt.bind_eq_error_iff] at he
  obtain he | ⟨⟨a, s'⟩, -, he⟩ := he
  · exact h s e he
  · exact hnext a s' e he

private theorem refuses_throw (offset : Nat) (reason : String) :
    Refuses (throw (.malformed offset reason) : Parser α) := by
  rintro s _ ⟨⟩
  exact ⟨offset, reason, rfl⟩

private theorem refuses_get : Refuses (get : Parser Tokens) :=
  .of_eq fun _ => rfl

private theorem refuses_modify (f : Tokens → Tokens) : Refuses (modify f) :=
  .of_eq fun _ => rfl

private theorem refuses_peek : Refuses peek? :=
  refuses_get.bind fun _ => refuses_pure _

private theorem refuses_here : Refuses here :=
  refuses_get.bind fun _ => refuses_pure _

private theorem refuses_skip : Refuses skip :=
  refuses_modify _

private theorem refuses_peekSymbol : Refuses peekSymbol? := by
  refine refuses_peek.bind fun t? => ?_
  split <;> exact refuses_pure _

private theorem refuses_fail (reason : String) : Refuses (fail reason : Parser α) :=
  refuses_here.bind fun _ => refuses_throw _ _

private theorem refuses_unexpected (expected : String) : Refuses (unexpected expected : Parser α) :=
  refuses_peek.bind fun _ => refuses_fail _

private theorem refuses_consume (x : Symbol) : Refuses (consume x) := by
  refine refuses_peekSymbol.bind fun s? => ?_
  split
  · exact refuses_skip.bind fun _ => refuses_pure _
  · exact refuses_pure _

private theorem refuses_expect (x : Symbol) : Refuses (expect x) := by
  refine (refuses_consume x).bind fun found => ?_
  cases found with
  | true => exact refuses_pure _
  | false => exact refuses_unexpected _

end Parser

namespace Expr

open TextTemplate.Parser

variable (tokens : Nat)

section Readers

variable {operand deeper : Parser Expr}

private theorem refuses_chainTail (ops : List (Symbol × BinaryOp)) (h : Refuses operand)
    (more : Nat) (left : Expr) : Refuses (chainTail ops operand more left) := by
  induction more generalizing left with
  | zero => exact refuses_pure _
  | succ more ih =>
    refine refuses_peekSymbol.bind fun s? => ?_
    split
    · exact refuses_pure _
    · exact refuses_skip.bind fun _ => h.bind fun _ => ih _

private theorem refuses_operations (h : Refuses operand) : Refuses (operations tokens operand) := by
  rw [operations]
  induction levels with
  | nil => exact h
  | cons ops rest ih => exact ih.bind fun left => refuses_chainTail ops ih tokens left

private theorem refuses_assignment (hdeeper : Refuses deeper) (h : Refuses operand) :
    Refuses (assignment tokens deeper operand) := by
  refine refuses_get.bind fun s => ?_
  split
  · split
    · exact refuses_skip.bind fun _ => refuses_skip.bind fun _ => hdeeper.bind fun _ =>
        refuses_pure _
    · exact refuses_operations tokens h
  · exact refuses_operations tokens h

private theorem refuses_someItems (h : Refuses operand) (close : Symbol) (more : Nat) :
    Refuses (someItems operand close more) := by
  induction more with
  | zero => exact h.bind fun _ => (refuses_expect close).bind fun _ => refuses_pure _
  | succ more ih =>
    refine h.bind fun first => (refuses_consume .comma).bind fun another => ?_
    cases another with
    | true => exact ih.bind fun _ => refuses_pure _
    | false => exact (refuses_expect close).bind fun _ => refuses_pure _

private theorem refuses_items (h : Refuses operand) (close : Symbol) :
    Refuses (items tokens operand close) := by
  refine (refuses_consume close).bind fun closed => ?_
  cases closed with
  | true => exact refuses_pure _
  | false => exact refuses_someItems h close tokens

private theorem refuses_primary (h : Refuses deeper) : Refuses (primary tokens deeper) := by
  refine refuses_peek.bind fun t? => ?_
  split
  · exact refuses_skip.bind fun _ => refuses_pure _
  · exact refuses_skip.bind fun _ => refuses_pure _
  · exact refuses_skip.bind fun _ => refuses_pure _
  · exact refuses_skip.bind fun _ => refuses_pure _
  · exact refuses_skip.bind fun _ => h.bind fun _ => (refuses_expect _).bind fun _ =>
      refuses_pure _
  · exact refuses_skip.bind fun _ => (refuses_items tokens h _).bind fun _ => refuses_pure _
  · exact refuses_fail _
  · exact refuses_fail _

private theorem refuses_fieldName (dot : Nat) : Refuses (fieldName dot) := by
  refine refuses_peek.bind fun t? => ?_
  split
  · exact refuses_skip.bind fun _ => refuses_pure _
  · exact refuses_unexpected _
  · exact refuses_throw _ _

private theorem refuses_suffixes (h : Refuses deeper) (more : Nat) (target : Expr) :
    Refuses (suffixes tokens deeper more target) := by
  induction more generalizing target with
  | zero => exact refuses_pure _
  | succ more ih =>
    refine refuses_peekSymbol.bind fun s? => ?_
    split
    · exact refuses_here.bind fun dot => refuses_skip.bind fun _ =>
        (refuses_fieldName dot).bind fun _ => ih _
    · exact refuses_skip.bind fun _ => h.bind fun _ => (refuses_expect _).bind fun _ => ih _
    · exact refuses_skip.bind fun _ => (refuses_items tokens h _).bind fun _ => ih _
    · exact refuses_pure _

private theorem refuses_operand {deeperOperand : Parser Expr} (hoperand : Refuses deeperOperand)
    (h : Refuses deeper) : Refuses (Expr.operand tokens deeperOperand deeper) := by
  refine (refuses_consume .bang).bind fun negated => ?_
  cases negated with
  | true => exact hoperand.bind fun _ => refuses_pure _
  | false =>
    refine (refuses_consume .minus).bind fun negative => ?_
    cases negative with
    | true => exact hoperand.bind fun _ => refuses_pure _
    | false =>
      exact (refuses_primary tokens h).bind fun target => refuses_suffixes tokens h tokens target

private theorem refuses_statements (h : Refuses operand) (more : Nat) :
    Refuses (statements operand more) := by
  induction more with
  | zero => exact refuses_pure _
  | succ more ih =>
    refine (refuses_modify _).bind fun _ => refuses_peek.bind fun t? => ?_
    split
    · exact refuses_pure _
    · refine h.bind fun first => refuses_peekSymbol.bind fun s? => ?_
      split
      · exact ih.bind fun _ => refuses_pure _
      · exact refuses_pure _

end Readers

private theorem refuses_levels (n : Nat) :
    Refuses (deeper tokens n) ∧ Refuses (operandAbove tokens n) := by
  induction n with
  | zero =>
    exact ⟨refuses_fail _, refuses_operand tokens (refuses_fail _) (refuses_fail _)⟩
  | succ n ih =>
    have hassignment := refuses_assignment tokens ih.1 ih.2
    exact ⟨hassignment, refuses_operand tokens ih.2 hassignment⟩

private theorem refuses_whole : Refuses (whole tokens) := by
  refine (refuses_statements (refuses_levels tokens maxNesting).1 _).bind fun all =>
    refuses_peek.bind fun t? => ?_
  split
  · exact refuses_unexpected _
  · exact refuses_pure _

end Expr

private theorem isMalformed_of_lexFrom {offset : Nat} {cs : List Char} {e : EvalError}
    (h : lexFrom offset cs = .error e) : e.IsMalformed := by
  induction offset, cs using lexFrom.induct with
  | case1 offset =>
    rw [lexFrom] at h
    cases h
  | case2 offset c cs hblank ih =>
    rw [lexFrom, if_pos hblank] at h
    exact ih h
  | case3 offset c cs hnotBlank reading reason hreason =>
    rw [lexFrom, if_neg hnotBlank] at h
    simp only [reading, hreason] at h
    cases h
    exact ⟨offset, reason, rfl⟩
  | case4 offset c cs hnotBlank reading token htoken ih =>
    rw [lexFrom, if_neg hnotBlank] at h
    simp only [reading, htoken, Attempt.bind_eq_error_iff] at h
    obtain h | ⟨lexemes, -, h⟩ := h
    · exact ih h
    · cases h

/-- A text is read as an expression, or there is a place where it is none. -/
theorem Expr.isMalformed_of_parse {source : String} {e : EvalError}
    (h : Expr.parse source = .error e) : e.IsMalformed := by
  rw [Expr.parse, Attempt.bind_eq_error_iff] at h
  obtain h | ⟨lexemes, -, h⟩ := h
  · exact isMalformed_of_lexFrom h
  · rw [Attempt.bind_eq_error_iff] at h
    obtain h | ⟨result, -, h⟩ := h
    · exact Expr.refuses_whole _ _ e h
    · cases h

end TextTemplate
