import TextTemplate.Proofs.Expression.Level

/-!
# Printing expressions

The tokens of an expression, with parentheses only where a part binds less strongly than its place
asks. How deep the tokens nest is counted along with them; an empty list opens a bracket in which
nothing is nested, so what it counts is a parameter.

## Main definitions

* `Expr.strength`, `Expr.enclose` — how strongly an expression binds, and its parentheses.
* `Expr.core`, `Expr.printed` — the tokens of an expression.
* `Expr.coreNesting`, `Expr.nesting` — how deep its tokens nest.
* `Expr.Plain`, `Expr.Printable` — the expressions that have a text.

## Main results

* `Expr.Plain.derives` — the tokens of an expression spell it on as many levels as they nest.
* `Expr.nesting_lt_of_statement` — no tokens spell it on fewer.
-/

namespace TextTemplate

/-- The symbol of a binary operator. -/
def BinaryOp.symbol : BinaryOp → Symbol
  | add => .plus
  | sub => .minus
  | mul => .star
  | div => .slash
  | rem => .percent
  | eq => .eqEq
  | ne => .bangEq
  | lt => .lt
  | le => .ltEq
  | gt => .gt
  | ge => .gtEq
  | and => .andAnd
  | or => .orOr

/-- How strongly a binary operator binds. -/
def BinaryOp.strength : BinaryOp → Nat
  | or => 2
  | and => 3
  | eq | ne => 4
  | lt | le | gt | ge => 5
  | add | sub => 6
  | mul | div | rem => 7

/-- The symbol of a unary operator. -/
def UnaryOp.symbol : UnaryOp → Symbol
  | not => .bang
  | neg => .minus

/-- The token of a literal. -/
def Literal.token : Literal → Token
  | null => .ident "null"
  | bool true => .ident "true"
  | bool false => .ident "false"
  | int n => .int n
  | float x => .float x
  | string s => .string s

namespace Expr

/-- The sign of an assignment. There are signs for addition and subtraction only. -/
def assignmentSymbol : Option BinaryOp → Symbol
  | none => .eq
  | some .sub => .minusEq
  | some _ => .plusEq

/-- How strongly an expression binds: statements least of all, then an assignment, the binary
operators level by level, and the unary ones; what remains is never torn apart. -/
def strength : Expr → Nat
  | .sequence _ => 0
  | .assign .. => 1
  | .binary op .. => op.strength
  | .unary .. => 8
  | _ => 9

/-- The tokens of an expression, in parentheses where something that binds more strongly has to
stand. -/
def enclose (least : Nat) (e : Expr) (ts : List Token) : List Token :=
  if e.strength < least then .symbol .openParen :: (ts ++ [.symbol .closeParen]) else ts

mutual

/-- The tokens of an expression that stands by itself. -/
def core : Expr → List Token
  | .literal l => [l.token]
  | .list es => .symbol .openBracket :: (separated .comma es ++ [.symbol .closeBracket])
  | .ident name => [.ident name]
  | .field e name => enclose 9 e (core e) ++ [.symbol .dot, .ident name]
  | .index a b =>
    enclose 9 a (core a) ++
      .symbol .openBracket :: (enclose 1 b (core b) ++ [.symbol .closeBracket])
  | .call e args =>
    enclose 9 e (core e) ++ .symbol .openParen :: (separated .comma args ++ [.symbol .closeParen])
  | .unary op e => .symbol op.symbol :: enclose 8 e (core e)
  | .binary op a b =>
    enclose op.strength a (core a) ++ .symbol op.symbol :: enclose (op.strength + 1) b (core b)
  | .assign name op e => .ident name :: .symbol (assignmentSymbol op) :: enclose 1 e (core e)
  | .sequence es => separated .semicolon es

/-- The tokens of expressions with a symbol between them. -/
def separated (sign : Symbol) : List Expr → List Token
  | [] => []
  | [e] => enclose 1 e (core e)
  | e :: e' :: es => enclose 1 e (core e) ++ .symbol sign :: separated sign (e' :: es)

end

/-- The tokens of an expression where something that binds at least so strongly has to stand. -/
def printed (least : Nat) (e : Expr) : List Token :=
  enclose least e (core e)

/-- How deep tokens nest that nest so deep without the parentheses that they may need. -/
def enclosedNesting (least : Nat) (e : Expr) (n : Nat) : Nat :=
  if e.strength < least then n + 1 else n

mutual

/-- How many brackets, argument lists, unary operators and right sides of assignments are open at
once in the tokens of an expression that stands by itself; a list of nothing counts `hollow`. -/
def coreNesting (hollow : Nat) : Expr → Nat
  | .literal _ => 0
  | .list es => if es.isEmpty then hollow else deepest hollow es + 1
  | .ident _ => 0
  | .field e _ => enclosedNesting 9 e (coreNesting hollow e)
  | .index a b =>
    max (enclosedNesting 9 a (coreNesting hollow a))
      (enclosedNesting 1 b (coreNesting hollow b) + 1)
  | .call e args =>
    max (enclosedNesting 9 e (coreNesting hollow e))
      (if args.isEmpty then hollow else deepest hollow args + 1)
  | .unary _ e => enclosedNesting 8 e (coreNesting hollow e) + 1
  | .binary op a b =>
    max (enclosedNesting op.strength a (coreNesting hollow a))
      (enclosedNesting (op.strength + 1) b (coreNesting hollow b))
  | .assign _ _ e => enclosedNesting 1 e (coreNesting hollow e) + 1
  | .sequence es => deepest hollow es

/-- How deep the deepest of several expressions nests. -/
def deepest (hollow : Nat) : List Expr → Nat
  | [] => 0
  | e :: es => max (enclosedNesting 1 e (coreNesting hollow e)) (deepest hollow es)

end

/-- How deep the tokens of an expression nest where something that binds at least so strongly has
to stand. -/
def nesting (hollow least : Nat) (e : Expr) : Nat :=
  enclosedNesting least e (coreNesting hollow e)

/-! ### The expressions that are printed -/

/-- The names that the language reads as one token. -/
def IsName (name : String) : Prop :=
  ∃ c cs, name.toList = c :: cs ∧ isNameStart c = true ∧ ∀ d ∈ cs, isNamePart d = true

/-- A literal that has a token: no floating-point number and no negative one. -/
def LiteralPlain : Literal → Prop
  | .int n => 0 ≤ n.toInt
  | .float _ => False
  | _ => True

/-- The trees of single statements, without floating-point literals. -/
inductive Plain : Expr → Prop
  | literal {l : Literal} (plain : LiteralPlain l) : Plain (.literal l)
  | list {es : List Expr} (items : ∀ e ∈ es, Plain e) : Plain (.list es)
  | ident {name : String} (isName : IsName name) (free : ofName name = .ident name) :
      Plain (.ident name)
  | field {e : Expr} {name : String} (target : Plain e) (isName : IsName name) :
      Plain (.field e name)
  | index {a b : Expr} (target : Plain a) (place : Plain b) : Plain (.index a b)
  | call {e : Expr} {args : List Expr} (callee : Plain e) (items : ∀ a ∈ args, Plain a) :
      Plain (.call e args)
  | unary {op : UnaryOp} {e : Expr} (operand : Plain e) : Plain (.unary op e)
  | binary {op : BinaryOp} {a b : Expr} (left : Plain a) (right : Plain b) : Plain (.binary op a b)
  | assign {name : String} {op : Option BinaryOp} {e : Expr} (isName : IsName name)
      (isOp : op = none ∨ op = some .add ∨ op = some .sub) (value : Plain e) :
      Plain (.assign name op e)

/-- The trees that have a text: a single statement, or several in a sequence. -/
inductive Printable : Expr → Prop
  | single {e : Expr} (plain : Plain e) : Printable e
  | sequence {es : List Expr} (several : 2 ≤ es.length) (plain : ∀ e ∈ es, Plain e) :
      Printable (.sequence es)

/-! ### The tokens spell the expression -/

/-- The phrases that may stand where something that binds at least so strongly has to, with so many
levels below. -/
def At (n : Nat) : Nat → Phrase
  | 0 | 1 => Statement (n + 1)
  | least + 2 =>
    if least ≤ 6 then JoinedAll (levels.drop least) (Operand n) else Suffixed (Statement n)

variable {n least : Nat} {ts : List Token} {e : Expr}

/-- A phrase without unary operators is an operand. -/
theorem Operand.of_suffixed (h : Suffixed (Statement n) ts e) : Operand n ts e := by
  cases n with
  | zero => exact Operated.suffixed h
  | succ n => exact Operated.suffixed h

/-- What binds strongly may stand where less is asked. -/
theorem At.of_succ (h : At n (least + 1) ts e) : At n least ts e := by
  match least with
  | 0 => exact h
  | 1 => exact Assigned.joined h
  | 2 | 3 | 4 | 5 | 6 | 7 => exact Joined.single h
  | 8 => exact Operand.of_suffixed h
  | least + 9 =>
    have hbeyond : ¬ least + 7 ≤ 6 ∧ ¬ least + 8 ≤ 6 := by omega
    rw [At, if_neg hbeyond.1]
    rwa [At, if_neg hbeyond.2] at h

theorem At.mono {l l' : Nat} (hle : l ≤ l') (h : At n l' ts e) : At n l ts e := by
  induction hle with
  | refl => exact h
  | step _ ih => exact ih h.of_succ

private theorem At.statement (h : At n least ts e) : Statement (n + 1) ts e :=
  At.mono (Nat.zero_le least) h

/-- A phrase in parentheses may stand anywhere. -/
theorem At.brackets {l : Nat} (h : At n l ts e) :
    At (n + 1) least (.symbol .openParen :: (ts ++ [.symbol .closeParen])) e := by
  have henclosed : At (n + 1) (least + 9)
      (.symbol .openParen :: (ts ++ [.symbol .closeParen])) e := by
    rw [At, if_neg (by omega)]
    exact .brackets h.statement
  exact At.mono (Nat.le_add_right _ _) henclosed

/-- A unary operator stands in front of an operand with a level less. -/
theorem at_unary {op : UnaryOp} (h : At n 8 ts e) :
    At (n + 1) 8 (.symbol op.symbol :: ts) (.unary op e) := by
  cases op <;> exact Operated.unary rfl h

/-- A binary operator joins what may stand on its level with what may stand on the next. -/
theorem at_binary {us : List Token} {op : BinaryOp} {a b : Expr} (hleft : At n op.strength ts a)
    (hright : At n (op.strength + 1) us b) :
    At n op.strength (ts ++ .symbol op.symbol :: us) (.binary op a b) := by
  cases op <;> exact Joined.join hleft rfl hright

private theorem assignmentOp?_assignmentSymbol {op : Option BinaryOp}
    (h : op = none ∨ op = some .add ∨ op = some .sub) :
    assignmentOp? (assignmentSymbol op) = some op := by
  rcases h with rfl | rfl | rfl <;> rfl

private theorem atom?_literal (l : Literal) : atom? l.token = some (.literal l) := by
  cases l with
  | null => rfl
  | bool b => cases b <;> rfl
  | int | float | string => rfl

/-- The tokens of an expression by itself spell it on as many levels as they nest. -/
def Derives (e : Expr) : Prop :=
  ∀ n, coreNesting 0 e ≤ n → At n e.strength (core e) e

/-- So do its tokens in the parentheses that a place asks for. -/
theorem Derives.at (h : Derives e) (hfits : nesting 0 least e ≤ n) :
    At n least (printed least e) e := by
  rw [nesting, enclosedNesting] at hfits
  rw [printed, enclose]
  split
  · rename_i hweak
    rw [if_pos hweak] at hfits
    obtain ⟨n, rfl⟩ : ∃ m, n = m + 1 := ⟨n - 1, by omega⟩
    exact (h n (by omega)).brackets
  · rename_i hstrong
    rw [if_neg hstrong] at hfits
    exact At.mono (by omega) (h n hfits)

theorem Derives.statement (h : Derives e) (hfits : nesting 0 1 e < n) :
    Statement n (printed 1 e) e := by
  obtain ⟨n, rfl⟩ : ∃ m, n = m + 1 := ⟨n - 1, by omega⟩
  exact (h.at (Nat.lt_succ_iff.1 hfits)).statement

private theorem items_separated {es : List Expr} (h : ∀ e ∈ es, Derives e) (hsome : es ≠ [])
    (hfits : deepest 0 es < n) : Items (Statement n) (separated .comma es) es := by
  induction es with
  | nil => exact (hsome rfl).elim
  | cons e es ih =>
    rw [deepest] at hfits
    have hfirst := (h e List.mem_cons_self).statement (n := n) (by rw [nesting]; omega)
    cases es with
    | nil => exact .last hfirst
    | cons e' es =>
      exact .more hfirst (ih (fun e he => h e (List.mem_cons_of_mem _ he)) (by simp) (by omega))

theorem statements_separated {es : List Expr} (h : ∀ e ∈ es, Derives e)
    (hfits : deepest 0 es < n) : Statements (Statement n) (separated .semicolon es) es := by
  induction es with
  | nil => exact .done
  | cons e es ih =>
    rw [deepest] at hfits
    have hfirst := (h e List.mem_cons_self).statement (n := n) (by rw [nesting]; omega)
    cases es with
    | nil => exact .last hfirst
    | cons e' es =>
      exact .more hfirst (ih (fun e he => h e (List.mem_cons_of_mem _ he)) (by omega))

private theorem listed_separated {es : List Expr} (h : ∀ e ∈ es, Derives e)
    (hfits : (if es.isEmpty then 0 else deepest 0 es + 1) ≤ n) :
    Listed (Statement n) (separated .comma es) es := by
  cases es with
  | nil => exact .none
  | cons e es => exact .some (items_separated h (by simp) hfits)

/-- The tokens of a plain expression spell it on as many levels as they nest. -/
theorem Plain.derives (h : Plain e) : Derives e := by
  induction h with
  | literal => exact fun n _ => At.mono (Nat.le_refl 9) (.atom (atom?_literal _))
  | ident hname hfree => exact fun n _ => At.mono (Nat.le_refl 9) (.atom (congrArg some hfree))
  | list hitems ih =>
    intro n hfits
    rw [coreNesting] at hfits
    exact At.mono (Nat.le_refl 9) (.list (listed_separated ih hfits))
  | field htarget hname ih =>
    intro n hfits
    rw [coreNesting] at hfits
    exact At.mono (Nat.le_refl 9) (.field (ih.at hfits))
  | index htarget hplace iha ihb =>
    intro n hfits
    rw [coreNesting, Nat.max_le] at hfits
    exact At.mono (Nat.le_refl 9) (.index (iha.at hfits.1) (ihb.statement hfits.2))
  | call hcallee hitems ih iha =>
    intro n hfits
    rw [coreNesting, Nat.max_le] at hfits
    exact At.mono (Nat.le_refl 9) (.call (ih.at hfits.1) (listed_separated iha hfits.2))
  | unary hoperand ih =>
    intro n hfits
    rw [coreNesting] at hfits
    obtain ⟨n, rfl⟩ : ∃ m, n = m + 1 := ⟨n - 1, by omega⟩
    exact at_unary (ih.at (Nat.le_of_succ_le_succ hfits))
  | binary hleft hright iha ihb =>
    intro n hfits
    rw [coreNesting, Nat.max_le] at hfits
    exact at_binary (iha.at hfits.1) (ihb.at hfits.2)
  | assign hname hop hvalue ih =>
    intro n hfits
    rw [coreNesting] at hfits
    exact Assigned.assign (assignmentOp?_assignmentSymbol hop) (ih.statement hfits)

/-! ### No tokens spell the expression on fewer levels -/

theorem nesting_of_le {hollow : Nat} (h : least ≤ e.strength) :
    nesting hollow least e = coreNesting hollow e := by
  rw [nesting, enclosedNesting, if_neg (by omega)]

theorem nesting_mono {hollow l l' : Nat} (h : l ≤ l') (e : Expr) :
    nesting hollow l e ≤ nesting hollow l' e := by
  simp only [nesting, enclosedNesting]
  split <;> split <;> omega

/-- Parentheses count one. -/
theorem nesting_le_succ (hollow l l' : Nat) (e : Expr) :
    nesting hollow l e ≤ nesting hollow l' e + 1 := by
  simp only [nesting, enclosedNesting]
  split <;> split <;> omega

private theorem nesting_atom {t : Token} (h : atom? t = some e) : nesting 0 9 e = 0 := by
  cases t with
  | int | float | string => cases h; rfl
  | ident name =>
    cases h
    rw [ofName.eq_def]
    split <;> rfl
  | symbol => cases h

section Bounds

variable {inside operand value : Phrase}

private theorem deepest_lt_of_items (hinside : ∀ ts e, inside ts e → nesting 0 1 e < n)
    {es : List Expr} (h : Items inside ts es) : deepest 0 es < n := by
  induction h with
  | last honly =>
    have := hinside _ _ honly
    rw [nesting] at this
    simp only [deepest]
    omega
  | more hfirst _ ih =>
    have := hinside _ _ hfirst
    rw [nesting] at this
    simp only [deepest]
    omega

private theorem le_of_listed (hinside : ∀ ts e, inside ts e → nesting 0 1 e < n) {es : List Expr}
    (h : Listed inside ts es) : (if es.isEmpty then 0 else deepest 0 es + 1) ≤ n := by
  cases h with
  | none => exact Nat.zero_le n
  | some hitems =>
    split
    · exact Nat.zero_le n
    · exact deepest_lt_of_items hinside hitems

private theorem nesting_le_of_suffixed (hinside : ∀ ts e, inside ts e → nesting 0 1 e < n)
    (h : Suffixed inside ts e) : nesting 0 9 e ≤ n := by
  induction h with
  | atom hatom => exact Nat.le_trans (Nat.le_of_eq (nesting_atom hatom)) (Nat.zero_le n)
  | @brackets ts e hinner => exact Nat.le_trans (nesting_le_succ 0 9 1 e) (hinside ts e hinner)
  | list hitems =>
    rw [nesting_of_le (Nat.le_refl 9), coreNesting]
    exact le_of_listed hinside hitems
  | field _ ih =>
    rw [nesting_of_le (Nat.le_refl 9), coreNesting]
    exact ih
  | index _ hplace ih =>
    rw [nesting_of_le (Nat.le_refl 9), coreNesting]
    exact Nat.max_le.2 ⟨ih, hinside _ _ hplace⟩
  | call _ hitems ih =>
    rw [nesting_of_le (Nat.le_refl 9), coreNesting]
    exact Nat.max_le.2 ⟨ih, le_of_listed hinside hitems⟩

private theorem nesting_le_of_operated (hop : ∀ ts e, operand ts e → nesting 0 8 e < n)
    (hinside : ∀ ts e, inside ts e → nesting 0 1 e < n) (h : Operated operand inside ts e) :
    nesting 0 8 e ≤ n := by
  cases h with
  | unary _ hbehind =>
    rw [nesting_of_le (Nat.le_refl 8), coreNesting]
    exact hop _ _ hbehind
  | suffixed h => exact Nat.le_trans (nesting_mono (by omega) e) (nesting_le_of_suffixed hinside h)

/-- The operators of these levels bind with this strength, the next ones with the next, and so
on. -/
def Graded : Nat → List (List (Symbol × BinaryOp)) → Prop
  | _, [] => True
  | l, ops :: lvls => (∀ pair ∈ ops, pair.2.strength = l) ∧ Graded (l + 1) lvls

private theorem graded_levels : Graded 2 levels := by
  simp [Graded, levels, BinaryOp.strength]

private theorem nesting_le_of_joinedAll {lvls : List (List (Symbol × BinaryOp))} {l : Nat}
    (hgraded : Graded l lvls)
    (hoperand : ∀ ts e, operand ts e → nesting 0 (l + lvls.length) e ≤ n)
    (h : JoinedAll lvls operand ts e) : nesting 0 l e ≤ n := by
  induction lvls generalizing l ts e with
  | nil => exact hoperand ts e h
  | cons ops lvls ih =>
    have htighter {ts : List Token} {e : Expr} (h : JoinedAll lvls operand ts e) :
        nesting 0 (l + 1) e ≤ n := by
      refine ih hgraded.2 (fun ts e h => ?_) h
      rw [Nat.add_assoc, Nat.add_comm 1]
      exact hoperand ts e h
    change Joined ops (JoinedAll lvls operand) ts e at h
    induction h with
    | single honly => exact Nat.le_trans (nesting_mono (Nat.le_succ l) _) (htighter honly)
    | @join _ _ a b sign op _ hop hright ihl =>
      have hstrength : op.strength = l := hgraded.1 _ (mem_of_lookup hop)
      rw [nesting_of_le (Nat.le_of_eq hstrength.symm), coreNesting, hstrength]
      exact Nat.max_le.2 ⟨ihl, htighter hright⟩

private theorem nesting_lt_of_assigned (hvalue : ∀ ts e, value ts e → nesting 0 1 e < n)
    (hoperand : ∀ ts e, operand ts e → nesting 0 8 e ≤ n) (h : Assigned value operand ts e) :
    nesting 0 1 e < n + 1 := by
  cases h with
  | assign _ hright =>
    rw [nesting_of_le (Nat.le_refl 1), coreNesting]
    exact Nat.succ_lt_succ (hvalue _ _ hright)
  | joined hjoined =>
    have := nesting_le_of_joinedAll graded_levels hoperand hjoined
    exact Nat.lt_succ_of_le (Nat.le_trans (nesting_mono (by omega) e) this)

end Bounds

mutual

/-- An expression nests less deep than there are levels for any tokens that spell it. -/
theorem nesting_lt_of_statement (n : Nat) (ts : List Token) (e : Expr) (h : Statement n ts e) :
    nesting 0 1 e < n := by
  cases n with
  | zero => exact h.elim
  | succ n =>
    exact nesting_lt_of_assigned (nesting_lt_of_statement n) (nesting_le_of_operand n) h

theorem nesting_le_of_operand (n : Nat) (ts : List Token) (e : Expr) (h : Operand n ts e) :
    nesting 0 8 e ≤ n := by
  cases n with
  | zero => exact nesting_le_of_operated (fun _ _ h => h.elim) (fun _ _ h => h.elim) h
  | succ n =>
    refine nesting_le_of_operated (fun ts e h => Nat.lt_succ_of_le (nesting_le_of_operand n ts e h))
      (fun ts e h => ?_) h
    exact nesting_lt_of_assigned (nesting_lt_of_statement n) (nesting_le_of_operand n) h

end

end Expr

end TextTemplate
