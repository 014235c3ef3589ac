import TextTemplate.Expr.Parse

/-!
# The grammar of expressions

What the tokens of an expression may be, apart from how they are read. Operators group to the left
within their level, a stronger level inside a weaker one; an assignment groups to the right; and
fields, elements and calls stand behind an atom or behind brackets. Every form of phrase is given
over the phrases that may stand in it, and `Statement` and `Operand` close the forms under each
other, level by level of nesting.

## Main definitions

* `Phrase` — tokens and the tree that they spell.
* `Joined`, `Assigned`, `Items`, `Listed`, `Suffixed`, `Operated` — the forms of phrases.
* `Statement`, `Operand` — expressions and operands that nest at most so many levels.
* `Statements` — whole texts.

## Main results

* `Statement.starts`, `Operand.unassigned` — how a phrase may start, which tells a reader what comes
  next.
-/

namespace TextTemplate.Expr

/-- Phrases of one kind: their tokens and the trees that these spell. -/
abbrev Phrase := List Token → Expr → Prop

/-- The operator in front of an operand. -/
def prefixOp? : Symbol → Option UnaryOp
  | .bang => some .not
  | .minus => some .neg
  | _ => none

/-- The expression that a token is on its own. -/
def atom? : Token → Option Expr
  | .int n => some (.literal (.int n))
  | .float x => some (.literal (.float x))
  | .string s => some (.literal (.string s))
  | .ident name => some (ofName name)
  | .symbol _ => none

/-! ### The forms of phrases -/

/-- Operands joined by operators of one level, which group to the left. -/
inductive Joined (ops : List (Symbol × BinaryOp)) (operand : Phrase) : Phrase
  | single {ts : List Token} {e : Expr} (only : operand ts e) : Joined ops operand ts e
  | join {ts us : List Token} {a b : Expr} {sign : Symbol} {op : BinaryOp}
      (left : Joined ops operand ts a) (isOp : List.lookup sign ops = some op)
      (right : operand us b) : Joined ops operand (ts ++ .symbol sign :: us) (.binary op a b)

/-- Operands joined by operators of several levels, the weakest of which comes first. -/
def JoinedAll (levels : List (List (Symbol × BinaryOp))) (operand : Phrase) : Phrase :=
  levels.foldr Joined operand

/-- An assignment, or operands joined by operators of all levels. -/
inductive Assigned (value operand : Phrase) : Phrase
  | assign {name : String} {sign : Symbol} {op : Option BinaryOp} {ts : List Token} {e : Expr}
      (isSign : assignmentOp? sign = some op) (right : value ts e) :
      Assigned value operand (.ident name :: .symbol sign :: ts) (.assign name op e)
  | joined {ts : List Token} {e : Expr} (joined : JoinedAll levels operand ts e) :
      Assigned value operand ts e

/-- Phrases separated by commas, at least one. -/
inductive Items (item : Phrase) : List Token → List Expr → Prop
  | last {ts : List Token} {e : Expr} (only : item ts e) : Items item ts [e]
  | more {ts us : List Token} {e : Expr} {es : List Expr} (first : item ts e)
      (others : Items item us es) : Items item (ts ++ .symbol .comma :: us) (e :: es)

/-- Phrases separated by commas, perhaps none. -/
inductive Listed (item : Phrase) : List Token → List Expr → Prop
  | none : Listed item [] []
  | some {ts : List Token} {es : List Expr} (items : Items item ts es) : Listed item ts es

/-- An atom or a phrase in brackets, with fields, elements and calls behind it. -/
inductive Suffixed (inside : Phrase) : Phrase
  | atom {t : Token} {e : Expr} (isAtom : atom? t = some e) : Suffixed inside [t] e
  | brackets {ts : List Token} {e : Expr} (inner : inside ts e) :
      Suffixed inside (.symbol .openParen :: (ts ++ [.symbol .closeParen])) e
  | list {ts : List Token} {es : List Expr} (items : Listed inside ts es) :
      Suffixed inside (.symbol .openBracket :: (ts ++ [.symbol .closeBracket])) (.list es)
  | field {ts : List Token} {e : Expr} {name : String} (target : Suffixed inside ts e) :
      Suffixed inside (ts ++ [.symbol .dot, .ident name]) (.field e name)
  | index {ts us : List Token} {a b : Expr} (target : Suffixed inside ts a)
      (place : inside us b) :
      Suffixed inside (ts ++ .symbol .openBracket :: (us ++ [.symbol .closeBracket])) (.index a b)
  | call {ts us : List Token} {e : Expr} {args : List Expr} (callee : Suffixed inside ts e)
      (items : Listed inside us args) :
      Suffixed inside (ts ++ .symbol .openParen :: (us ++ [.symbol .closeParen])) (.call e args)

/-- A unary operator in front of an operand, or a primary expression with what stands behind it. -/
inductive Operated (operand inside : Phrase) : Phrase
  | unary {sign : Symbol} {op : UnaryOp} {ts : List Token} {e : Expr}
      (isPrefix : prefixOp? sign = some op) (behind : operand ts e) :
      Operated operand inside (.symbol sign :: ts) (.unary op e)
  | suffixed {ts : List Token} {e : Expr} (suffixed : Suffixed inside ts e) :
      Operated operand inside ts e

/-! ### Levels of nesting -/

/-- The phrases of a level below the last one: there are none. -/
def Nothing : Phrase :=
  fun _ _ => False

mutual

/-- The expressions that nest on so many levels at most, their own included. -/
def Statement : Nat → Phrase
  | 0 => Nothing
  | levels + 1 => fun ts => Assigned (Statement levels) (Operand levels) ts

/-- The operands that have so many levels below their own at most. -/
def Operand : Nat → Phrase
  | 0 => Operated Nothing Nothing
  | levels + 1 => fun ts =>
    Operated (Operand levels) (fun us => Assigned (Statement levels) (Operand levels) us) ts

end

/-- Statements with semicolons between them, and as many more as there may be. -/
inductive Statements (statement : Phrase) : List Token → List Expr → Prop
  | done : Statements statement [] []
  | semicolon {ts : List Token} {es : List Expr} (others : Statements statement ts es) :
      Statements statement (.symbol .semicolon :: ts) es
  | last {ts : List Token} {e : Expr} (only : statement ts e) : Statements statement ts [e]
  | more {ts us : List Token} {e : Expr} {es : List Expr} (first : statement ts e)
      (others : Statements statement us es) :
      Statements statement (ts ++ .symbol .semicolon :: us) (e :: es)

/-! ### How phrases start -/

/-- A token that no phrase starts with. -/
def EndsPhrase : Token → Prop
  | .symbol s => s = .closeParen ∨ s = .closeBracket ∨ s = .comma ∨ s = .semicolon
  | _ => False

/-- The tokens of a phrase: there are some, and the first is none that ends a phrase. -/
def Starts (ts : List Token) : Prop :=
  ∃ t us, ts = t :: us ∧ ¬ EndsPhrase t

/-- The tokens do not start like an assignment. -/
def Unassigned (ts : List Token) : Prop :=
  ∀ name s us, ts = .ident name :: .symbol s :: us → assignmentOp? s = none

theorem Starts.append {ts : List Token} (h : Starts ts) (us : List Token) : Starts (ts ++ us) := by
  obtain ⟨t, vs, rfl, ht⟩ := h
  exact ⟨t, vs ++ us, rfl, ht⟩

/-- A symbol that is not the sign of an assignment may follow. -/
theorem Unassigned.append {ts : List Token} (h : Unassigned ts) {s : Symbol}
    (hs : assignmentOp? s = none) (us : List Token) : Unassigned (ts ++ .symbol s :: us) := by
  intro name s' vs heq
  match ts, h, heq with
  | [], _, heq => simp at heq
  | [t], _, heq =>
    simp only [List.singleton_append, List.cons.injEq, Token.symbol.injEq] at heq
    exact heq.2.1 ▸ hs
  | t :: t' :: ts, h, heq =>
    simp only [List.cons_append, List.cons.injEq] at heq
    exact h name s' ts (by rw [heq.1, heq.2.1])

private theorem unassigned_symbol (s : Symbol) (ts : List Token) :
    Unassigned (.symbol s :: ts) := by
  rintro name s' us ⟨⟩

private theorem unassigned_singleton (t : Token) : Unassigned [t] := by
  rintro name s us ⟨⟩

/-- No binary operator is the sign of an assignment. -/
theorem assignmentOp?_of_mem_levels {ops : List (Symbol × BinaryOp)} (h : ops ∈ levels)
    {s : Symbol} {op : BinaryOp} (hs : List.lookup s ops = some op) : assignmentOp? s = none := by
  simp only [levels, List.mem_cons, List.not_mem_nil, or_false] at h
  rcases h with rfl | rfl | rfl | rfl | rfl | rfl <;> cases s <;> first | rfl | cases hs

section Starts

variable {inside operand value : Phrase} {ts : List Token} {e : Expr}

/-- The first token is an atom or opens a bracket. -/
theorem Suffixed.opens (h : Suffixed inside ts e) :
    ∃ t us, ts = t :: us ∧ ∀ s, t = .symbol s → s = .openParen ∨ s = .openBracket := by
  induction h with
  | @atom t e hatom =>
    refine ⟨t, [], rfl, ?_⟩
    rintro s rfl
    cases hatom
  | brackets => exact ⟨_, _, rfl, by simp⟩
  | list => exact ⟨_, _, rfl, by simp⟩
  | field _ ih | index _ _ ih | call _ _ ih =>
    obtain ⟨t, us, rfl, ht⟩ := ih
    exact ⟨t, _, rfl, ht⟩

theorem Suffixed.starts (h : Suffixed inside ts e) : Starts ts := by
  obtain ⟨t, us, rfl, ht⟩ := h.opens
  refine ⟨t, us, rfl, fun hends => ?_⟩
  cases t with
  | symbol s => rcases ht s rfl with rfl | rfl <;> simp [EndsPhrase] at hends
  | int | float | string | ident => exact hends

theorem Operated.starts (h : Operated operand inside ts e) : Starts ts := by
  cases h with
  | @unary sign _ _ _ hunary =>
    refine ⟨_, _, rfl, ?_⟩
    rintro (rfl | rfl | rfl | rfl) <;> cases hunary
  | suffixed h => exact h.starts

theorem JoinedAll.starts (hoperand : ∀ ts e, operand ts e → Starts ts)
    {lvls : List (List (Symbol × BinaryOp))} (h : JoinedAll lvls operand ts e) : Starts ts := by
  induction lvls generalizing ts e with
  | nil => exact hoperand _ _ h
  | cons ops lvls ih =>
    change Joined ops (JoinedAll lvls operand) ts e at h
    induction h with
    | single honly => exact ih honly
    | join _ _ _ ihl => exact ihl.append _

theorem Assigned.starts (hoperand : ∀ ts e, operand ts e → Starts ts)
    (h : Assigned value operand ts e) : Starts ts := by
  cases h with
  | assign => exact ⟨_, _, rfl, id⟩
  | joined h => exact h.starts hoperand

private theorem Suffixed.unassigned (h : Suffixed inside ts e) : Unassigned ts := by
  induction h with
  | atom => exact unassigned_singleton _
  | brackets => exact unassigned_symbol _ _
  | list => exact unassigned_symbol _ _
  | field _ ih => exact ih.append rfl _
  | index _ _ ih => exact ih.append rfl _
  | call _ _ ih => exact ih.append rfl _

private theorem Operated.unassigned (h : Operated operand inside ts e) : Unassigned ts := by
  cases h with
  | unary => exact unassigned_symbol _ _
  | suffixed h => exact h.unassigned

/-- Joined operands do not look like an assignment. -/
theorem JoinedAll.unassigned (hoperand : ∀ ts e, operand ts e → Unassigned ts)
    {lvls : List (List (Symbol × BinaryOp))} (hsub : lvls ⊆ levels)
    (h : JoinedAll lvls operand ts e) : Unassigned ts := by
  induction lvls generalizing ts e with
  | nil => exact hoperand _ _ h
  | cons ops lvls ih =>
    change Joined ops (JoinedAll lvls operand) ts e at h
    have ⟨hhere, hbelow⟩ := List.cons_subset.1 hsub
    induction h with
    | single honly => exact ih hbelow honly
    | join _ hop _ ihl => exact ihl.append (assignmentOp?_of_mem_levels hhere hop) _

end Starts

private theorem Operand.starts {n : Nat} {ts : List Token} {e : Expr} (h : Operand n ts e) :
    Starts ts := by
  cases n with
  | zero => exact Operated.starts h
  | succ n => exact Operated.starts h

theorem Operand.unassigned {n : Nat} {ts : List Token} {e : Expr} (h : Operand n ts e) :
    Unassigned ts := by
  cases n with
  | zero => exact Operated.unassigned h
  | succ n => exact Operated.unassigned h

theorem Statement.starts {n : Nat} {ts : List Token} {e : Expr} (h : Statement n ts e) :
    Starts ts := by
  cases n with
  | zero => exact h.elim
  | succ n => exact Assigned.starts (fun _ _ h => Operand.starts h) h

end TextTemplate.Expr
