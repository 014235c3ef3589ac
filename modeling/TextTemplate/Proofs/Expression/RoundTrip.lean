import TextTemplate.Proofs.Expression.Spell

/-!
# Reading undoes printing

The text of an expression is read back into the expression when its tokens nest deep enough for the
levels that there are, and is refused for its depth when they do not. Of the brackets only those
count that hold something: an empty list nests no expression.

## Main definitions

* `Expr.text` — the text of an expression.
* `Expr.boxes` — an empty list in lists.

## Main results

* `Expr.Printable.parse_text` — what the text of an expression is read into.
* `Expr.boxes_parse_text_eq_ok` — a text with more open brackets than that which is read back.
-/

namespace TextTemplate.Expr

open TextTemplate.Parser

/-- The text of an expression: its tokens with blanks between them. -/
def text (e : Expr) : String :=
  String.ofList (spelled (printed 0 e))

/-! ### The tokens of an expression can be read back -/

private theorem plain_enclose {least : Nat} {e : Expr} {ts : List Token} (h : ∀ t ∈ ts, t.Plain) :
    ∀ t ∈ enclose least e ts, t.Plain := by
  rw [enclose]
  split
  · intro t ht
    simp only [List.mem_cons, List.mem_append, List.not_mem_nil, or_false] at ht
    rcases ht with rfl | ht | rfl
    · trivial
    · exact h t ht
    · trivial
  · exact h

private theorem plain_separated {sign : Symbol} {es : List Expr}
    (h : ∀ e ∈ es, ∀ t ∈ core e, t.Plain) : ∀ t ∈ separated sign es, t.Plain := by
  induction es with
  | nil => simp [separated]
  | cons e es ih =>
    have hfirst : ∀ t ∈ enclose 1 e (core e), t.Plain := plain_enclose (h e List.mem_cons_self)
    cases es with
    | nil => exact hfirst
    | cons e' es =>
      intro t ht
      rw [separated, List.mem_append, List.mem_cons] at ht
      rcases ht with ht | rfl | ht
      · exact hfirst t ht
      · trivial
      · exact ih (fun e he => h e (List.mem_cons_of_mem _ he)) t ht

/-- A given name. -/
theorem IsName.of_all {name : String} (c : Char) (cs : List Char) (hname : name.toList = c :: cs)
    (h : (isNameStart c && cs.all isNamePart) = true) : IsName name :=
  have ⟨hstart, hpart⟩ := Bool.and_eq_true_iff.1 h
  ⟨c, cs, hname, hstart, List.all_eq_true.1 hpart⟩

theorem isName_true : IsName "true" :=
  .of_all 't' ['r', 'u', 'e'] rfl (by decide)

theorem isName_false : IsName "false" :=
  .of_all 'f' ['a', 'l', 's', 'e'] rfl (by decide)

private theorem isName_null : IsName "null" :=
  .of_all 'n' ['u', 'l', 'l'] rfl (by decide)

private theorem plain_literal {l : Literal} (h : LiteralPlain l) : l.token.Plain := by
  cases l with
  | null => exact isName_null
  | bool b =>
    cases b with
    | false => exact isName_false
    | true => exact isName_true
  | int n => exact h
  | float x => exact h.elim
  | string s => trivial

/-- The tokens of a plain expression are read back. -/
theorem Plain.core {e : Expr} (h : Plain e) : ∀ t ∈ core e, t.Plain := by
  induction h with
  | literal hplain => simpa [Expr.core] using plain_literal hplain
  | ident hname _ =>
    intro t ht
    rw [Expr.core, List.mem_singleton] at ht
    exact ht ▸ hname
  | list hitems ih =>
    intro t ht
    simp only [Expr.core, List.mem_cons, List.mem_append, List.not_mem_nil, or_false] at ht
    rcases ht with rfl | ht | rfl
    · trivial
    · exact plain_separated ih t ht
    · trivial
  | field htarget hname ih =>
    intro t ht
    simp only [Expr.core, List.mem_cons, List.mem_append, List.not_mem_nil, or_false] at ht
    rcases ht with ht | rfl | rfl
    · exact plain_enclose ih t ht
    · trivial
    · exact hname
  | index htarget hplace iha ihb =>
    intro t ht
    simp only [Expr.core, List.mem_cons, List.mem_append, List.not_mem_nil, or_false] at ht
    rcases ht with ht | rfl | ht | rfl
    · exact plain_enclose iha t ht
    · trivial
    · exact plain_enclose ihb t ht
    · trivial
  | call hcallee hitems ih iha =>
    intro t ht
    simp only [Expr.core, List.mem_cons, List.mem_append, List.not_mem_nil, or_false] at ht
    rcases ht with ht | rfl | ht | rfl
    · exact plain_enclose ih t ht
    · trivial
    · exact plain_separated iha t ht
    · trivial
  | unary hoperand ih =>
    intro t ht
    rw [Expr.core, List.mem_cons] at ht
    rcases ht with rfl | ht
    · trivial
    · exact plain_enclose ih t ht
  | binary hleft hright iha ihb =>
    intro t ht
    rw [Expr.core, List.mem_append, List.mem_cons] at ht
    rcases ht with ht | rfl | ht
    · exact plain_enclose iha t ht
    · trivial
    · exact plain_enclose ihb t ht
  | assign hname _ hvalue ih =>
    intro t ht
    rw [Expr.core, List.mem_cons, List.mem_cons] at ht
    rcases ht with rfl | rfl | ht
    · exact hname
    · trivial
    · exact plain_enclose ih t ht

/-! ### Whole texts -/

/-- Parentheses are never needed around a whole text. -/
theorem printed_zero (e : Expr) : printed 0 e = core e := by
  rw [printed, enclose, if_neg (Nat.not_lt_zero _)]

theorem nesting_zero (hollow : Nat) (e : Expr) : nesting hollow 0 e = coreNesting hollow e :=
  nesting_of_le (Nat.zero_le _)

/-- A single statement needs no parentheses where a statement has to stand. -/
theorem Plain.one_le_strength {e : Expr} (h : Plain e) : 1 ≤ e.strength := by
  cases h with
  | @binary op => cases op <;> simp [strength, BinaryOp.strength]
  | literal | list | ident | field | index | call | unary | assign => simp [strength]

/-- The statements that an expression consists of. -/
theorem Printable.statements {e : Expr} (h : Printable e) {n : Nat} (hfits : nesting 0 0 e < n) :
    ∃ es, ofStatements es = e ∧ Statements (Statement n) (printed 0 e) es := by
  rw [nesting_zero] at hfits
  rw [printed_zero]
  cases h with
  | single hplain =>
    have hstrong := hplain.one_le_strength
    have hfirst := hplain.derives.statement (n := n) (by rwa [nesting_of_le hstrong])
    rw [printed, enclose, if_neg (by omega)] at hfirst
    exact ⟨[e], rfl, .last hfirst⟩
  | @sequence es hseveral hplain =>
    rw [coreNesting] at hfits
    obtain _ | ⟨e, _ | ⟨e', es⟩⟩ := es
    · cases hseveral
    · exact absurd hseveral (Nat.lt_irrefl 1)
    · exact ⟨_, rfl, statements_separated (fun e he => (hplain e he).derives) hfits⟩

private theorem Printable.plain {e : Expr} (h : Printable e) : ∀ t ∈ printed 0 e, t.Plain := by
  rw [printed_zero]
  cases h with
  | single hplain => exact hplain.core
  | sequence _ hplain => exact plain_separated fun e he => (hplain e he).core

private theorem deepest_lt_of_statements {n : Nat} (hpos : 0 < n) {ts : List Token} {es : List Expr}
    (h : Statements (Statement n) ts es) : deepest 0 es < n := by
  induction h with
  | done => exact hpos
  | semicolon _ ih => exact ih
  | @last ts e honly =>
    have := nesting_lt_of_statement n ts e honly
    rw [nesting] at this
    simp only [deepest]
    omega
  | @more ts us e es hfirst _ ih =>
    have := nesting_lt_of_statement n ts e hfirst
    rw [nesting] at this
    simp only [deepest]
    omega

/-- The expression of statements nests less deep than they have levels. -/
theorem nesting_lt_of_statements {n : Nat} (hpos : 0 < n) {ts : List Token} {es : List Expr}
    (h : Statements (Statement n) ts es) : nesting 0 0 (ofStatements es) < n := by
  have hdeep := deepest_lt_of_statements hpos h
  match es with
  | [] => exact hpos
  | [e] =>
    rw [deepest, Nat.max_lt] at hdeep
    exact Nat.lt_of_le_of_lt (nesting_mono (Nat.zero_le 1) e) hdeep.1
  | e :: e' :: es =>
    change nesting 0 0 (.sequence (e :: e' :: es)) < n
    rwa [nesting_zero, coreNesting]

private theorem Printable.lex_text {e : Expr} (h : Printable e) :
    ∃ lexemes, lex (text e) = .ok lexemes ∧ lexemes.map Lexeme.token = printed 0 e := by
  rw [lex, text, String.toList_ofList]
  exact lexFrom_spelled h.plain 0

/-- A text that nests no deeper than the levels reach is read back. -/
theorem Printable.parse_text_of_lt {e : Expr} (h : Printable e)
    (hfits : nesting 0 0 e < maxNesting) : parse (text e) = .ok e := by
  obtain ⟨lexemes, hlex, htokens⟩ := h.lex_text
  obtain ⟨es, rfl, hphrases⟩ := h.statements hfits
  exact parse_eq_ok_iff.2 ⟨lexemes, es, hlex, htokens ▸ hphrases, rfl⟩

/-- A text that nests deeper than the levels reach is refused for its depth. -/
theorem Printable.isTooDeep_parse_text {e : Expr} (h : Printable e)
    (hdeep : maxNesting ≤ nesting 0 0 e) : IsTooDeep (parse (text e)) := by
  obtain ⟨lexemes, hlex, htokens⟩ := h.lex_text
  obtain ⟨es, heq, hphrases⟩ := h.statements (Nat.lt_succ_self _)
  rw [← htokens] at hphrases
  rcases parse_of_statements (Nat.le_succ_of_le hdeep) hlex hphrases with hok | htooDeep
  · obtain ⟨_, es', -, hphrases', heq'⟩ := statements_of_parse hok
    have := nesting_lt_of_statements (by decide) hphrases'
    rw [← heq', heq] at this
    omega
  · exact htooDeep

/-! ### Brackets with nothing in them -/

/-- An empty list in so many lists. -/
def boxes : Nat → Expr
  | 0 => .list []
  | n + 1 => .list [boxes n]

private theorem plain_boxes (n : Nat) : Plain (boxes n) := by
  induction n with
  | zero => exact .list (by simp)
  | succ n ih => exact .list (by simpa using ih)

private theorem strength_boxes (n : Nat) : (boxes n).strength = 9 := by
  cases n <;> rfl

private theorem coreNesting_boxes (hollow n : Nat) : coreNesting hollow (boxes n) = n + hollow := by
  induction n with
  | zero => simp [boxes, coreNesting]
  | succ n ih =>
    simp [boxes, coreNesting, deepest, enclosedNesting, strength_boxes, ih]
    omega

/-- An empty list in 127 lists opens 128 brackets at once and is read back. -/
theorem boxes_parse_text_eq_ok :
    Printable (boxes 127) ∧ 127 < nesting 1 0 (boxes 127) ∧
      parse (text (boxes 127)) = .ok (boxes 127) := by
  have hprintable : Printable (boxes 127) := .single (plain_boxes 127)
  refine ⟨hprintable, ?_, hprintable.parse_text_of_lt ?_⟩
  · rw [nesting_zero, coreNesting_boxes]
    decide
  · rw [nesting_zero, coreNesting_boxes]
    decide

/-- The text of an expression in which at most 127 brackets and argument lists with something in
them, unary operators and right sides of assignments are open at once is read back; one in which
more are is refused for its depth. -/
theorem Printable.parse_text {e : Expr} (h : Printable e) :
    (nesting 0 0 e ≤ 127 → parse (text e) = .ok e) ∧
      (127 < nesting 0 0 e → ∃ offset,
        parse (text e) = .error (.malformed offset "expression nested too deeply")) :=
  ⟨fun hfits => h.parse_text_of_lt (Nat.lt_succ_of_le hfits),
    fun hdeep => h.isTooDeep_parse_text hdeep⟩

/-- A statement that needs its parentheses is read back, an empty list in 128 lists is refused. -/
theorem Printable.parse_text_product :
    (parse (text (.assign "x" (some .add)
        (.binary .mul (.binary .add (.ident "x") (.literal (.int 1)))
          (.unary .neg (.ident "y"))))) =
      .ok (.assign "x" (some .add)
        (.binary .mul (.binary .add (.ident "x") (.literal (.int 1)))
          (.unary .neg (.ident "y"))))) ∧
      ∃ offset, parse (text (boxes 128)) =
        .error (.malformed offset "expression nested too deeply") := by
  have hx : IsName "x" := .of_all 'x' [] rfl (by decide)
  have hy : IsName "y" := .of_all 'y' [] rfl (by decide)
  have hsum : Plain (.binary .add (.ident "x") (.literal (.int 1))) :=
    .binary (.ident hx rfl) (.literal (l := .int 1) (show 0 ≤ Int64.toInt 1 by decide))
  have hproduct : Plain (.assign "x" (some .add)
      (.binary .mul (.binary .add (.ident "x") (.literal (.int 1))) (.unary .neg (.ident "y")))) :=
    .assign hx (.inr (.inl rfl)) (.binary hsum (.unary (.ident hy rfl)))
  refine ⟨(Printable.parse_text (.single hproduct)).1 (by decide), ?_⟩
  refine (Printable.parse_text (.single (plain_boxes 128))).2 ?_
  rw [nesting_zero, coreNesting_boxes]
  decide

end TextTemplate.Expr
