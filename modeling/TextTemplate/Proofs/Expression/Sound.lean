import TextTemplate.Proofs.Expression.Grammar

/-!
# What the readers of expressions read

Every reader of tokens that succeeds has read a phrase of its form: the tokens that are gone spell
the tree that it returns. The rules of `ReadsFrom` follow the steps of a reader, and every form of
phrase has one lemma about the reader of that form.

## Main definitions

* `Parser.ReadsFrom`, `Parser.Reads` — what a reader has read when it succeeds.

## Main results

* `Expr.reads_deeper`, `Expr.reads_operandAbove` — the readers of a level.
* `Expr.statements_of_parse` — a text that is read consists of statements.
-/

namespace TextTemplate

namespace Parser

variable {α β : Type}

/-- When the reader succeeds here, the tokens that it has read and its result are so related. -/
def ReadsFrom (s : Tokens) (p : Parser α) (Q : List Token → α → Prop) : Prop :=
  ∀ a s', p.run s = .ok (a, s') →
    ∃ read, s.left = read ++ s'.left ∧ Q (read.map Lexeme.token) a

/-- Whenever the reader succeeds, the tokens that it has read and its result are so related. -/
def Reads (p : Parser α) (Q : List Token → α → Prop) : Prop :=
  ∀ s, ReadsFrom s p Q

/-- The symbol that comes first, if a symbol does. -/
def symbolAt? : List Lexeme → Option Symbol
  | ⟨_, .symbol s⟩ :: _ => some s
  | _ => none

theorem peekSymbol?_run (s : Tokens) : peekSymbol?.run s = .ok (symbolAt? s.left, s) := by
  obtain ⟨_ | ⟨⟨o, t⟩, ls⟩, stop⟩ := s
  · rfl
  · cases t <;> rfl

theorem symbolAt?_eq_some {ls : List Lexeme} {s : Symbol} (h : symbolAt? ls = some s) :
    ∃ o rest, ls = ⟨o, .symbol s⟩ :: rest := by
  match ls, h with
  | ⟨o, .symbol _⟩ :: rest, rfl => exact ⟨o, rest, rfl⟩

section Rules

variable {s : Tokens} {Q : List Token → β → Prop} {f : α → Parser β}

theorem Reads.mono {p : Parser β} {R : List Token → β → Prop} (h : Reads p R)
    (hQ : ∀ ts a, R ts a → Q ts a) : ReadsFrom s p Q := by
  intro a s' hrun
  obtain ⟨read, hread, hR⟩ := h s a s' hrun
  exact ⟨read, hread, hQ _ _ hR⟩

theorem ReadsFrom.pure {b : β} (h : Q [] b) : ReadsFrom s (pure b) Q := by
  rintro _ _ ⟨⟩
  exact ⟨[], rfl, h⟩

private theorem ReadsFrom.throw (e : EvalError) : ReadsFrom s (throw e) Q := by
  rintro _ _ ⟨⟩

private theorem reads_fail (reason : String) : Reads (fail reason) Q := by
  rintro _ _ _ ⟨⟩

private theorem reads_unexpected (expected : String) : Reads (unexpected expected) Q := by
  rintro _ _ _ ⟨⟩

theorem ReadsFrom.bind {p : Parser α} {R : List Token → α → Prop} (hp : ReadsFrom s p R)
    (hf : ∀ ts a s', R ts a → ReadsFrom s' (f a) fun us => Q (ts ++ us)) :
    ReadsFrom s (p >>= f) Q := by
  intro b s' hrun
  rw [StateT.run_bind] at hrun
  cases hpa : p.run s with
  | error e =>
    rw [hpa] at hrun
    cases hrun
  | ok result =>
    obtain ⟨a, s₁⟩ := result
    rw [hpa] at hrun
    obtain ⟨ts, hts, hR⟩ := hp a s₁ hpa
    obtain ⟨us, hus, hQ⟩ := hf _ a s₁ hR b s' hrun
    exact ⟨ts ++ us, by rw [hts, hus, List.append_assoc], by simpa using hQ⟩

private theorem ReadsFrom.get {f : Tokens → Parser β} (h : ReadsFrom s (f s) Q) :
    ReadsFrom s (get >>= f) Q :=
  h

private theorem ReadsFrom.peek {f : Option Token → Parser β}
    (h : ReadsFrom s (f (s.left.head?.map Lexeme.token)) Q) : ReadsFrom s (peek? >>= f) Q :=
  h

private theorem ReadsFrom.here {f : Nat → Parser β} (h : ∀ n, ReadsFrom s (f n) Q) :
    ReadsFrom s (here >>= f) Q :=
  h _

private theorem ReadsFrom.peekSymbol {f : Option Symbol → Parser β}
    (h : ReadsFrom s (f (symbolAt? s.left)) Q) : ReadsFrom s (peekSymbol? >>= f) Q := by
  intro b s' hrun
  rw [StateT.run_bind, peekSymbol?_run] at hrun
  exact h b s' hrun

private theorem ReadsFrom.skip {l : Lexeme} {ls : List Lexeme} {stop : Nat} {f : Unit → Parser β}
    (h : ReadsFrom ⟨ls, stop⟩ (f ()) fun ts => Q (l.token :: ts)) :
    ReadsFrom ⟨l :: ls, stop⟩ (skip >>= f) Q := by
  intro b s' hrun
  obtain ⟨read, hread, hQ⟩ := h b s' hrun
  exact ⟨l :: read, congrArg (l :: ·) hread, hQ⟩

theorem consume_run (x : Symbol) (s : Tokens) :
    (consume x).run s =
      .ok (if symbolAt? s.left = some x then (true, { s with left := s.left.drop 1 })
        else (false, s)) := by
  rw [consume, StateT.run_bind, peekSymbol?_run]
  change StateT.run (if symbolAt? s.left = some x then _ else _) s = _
  split <;> rfl

private theorem ReadsFrom.consume {x : Symbol} {f : Bool → Parser β}
    (hthere : ∀ ls, ReadsFrom ⟨ls, s.stop⟩ (f true) fun ts => Q (.symbol x :: ts))
    (hmissing : ReadsFrom s (f false) Q) : ReadsFrom s (consume x >>= f) Q := by
  intro b s' hrun
  rw [StateT.run_bind, consume_run] at hrun
  split at hrun
  · rename_i h
    obtain ⟨o, rest, heq⟩ := symbolAt?_eq_some h
    obtain ⟨left, stop⟩ := s
    cases heq
    obtain ⟨read, hread, hQ⟩ := hthere rest b s' hrun
    exact ⟨⟨o, .symbol x⟩ :: read, congrArg (_ :: ·) hread, hQ⟩
  · exact hmissing b s' hrun

private theorem reads_expect (x : Symbol) : Reads (expect x) fun ts _ => ts = [.symbol x] := by
  intro s
  refine ReadsFrom.consume (fun ls => ReadsFrom.pure rfl) ?_
  exact (reads_unexpected _).mono fun _ _ h => h

/-- What was read is the front of what was there. -/
theorem ReadsFrom.front {p : Parser β} (h : ReadsFrom s p Q) :
    ReadsFrom s p fun ts b => Q ts b ∧ ts <+: s.left.map Lexeme.token := by
  intro b s' hrun
  obtain ⟨read, hread, hQ⟩ := h b s' hrun
  exact ⟨read, hread, hQ, by simp [hread]⟩

end Rules

end Parser

namespace Expr

open TextTemplate.Parser

variable {tokens : Nat} {operand item deeper value : Parser Expr}
  {Operands Inside Values : Phrase}

/-! ### The readers of the forms -/

private theorem reads_chainTail {ops : List (Symbol × BinaryOp)} (h : Reads operand Operands)
    (more : Nat) {ts : List Token} {a : Expr} (hleft : Joined ops Operands ts a) :
    Reads (chainTail ops operand more a) fun us e => Joined ops Operands (ts ++ us) e := by
  induction more generalizing ts a with
  | zero => exact fun s => ReadsFrom.pure (by simpa using hleft)
  | succ more ih =>
    rintro ⟨ls, stop⟩
    refine ReadsFrom.peekSymbol ?_
    cases hsign : symbolAt? ls with
    | none => exact ReadsFrom.pure (by simpa using hleft)
    | some sign =>
      obtain ⟨o, rest, rfl⟩ := symbolAt?_eq_some hsign
      simp only [Option.bind_some]
      cases hop : List.lookup sign ops with
      | none => exact ReadsFrom.pure (by simpa using hleft)
      | some op =>
        refine ReadsFrom.skip (ReadsFrom.bind (h _) fun us b s' hright => ?_)
        exact (ih (hleft.join hop hright)).mono fun vs e hjoined => by simpa using hjoined

private theorem reads_chain {ops : List (Symbol × BinaryOp)} (h : Reads operand Operands) :
    Reads (chain tokens ops operand) (Joined ops Operands) := by
  intro s
  refine ReadsFrom.bind (h _) fun ts a s' honly => ?_
  exact reads_chainTail h tokens (.single honly) s'

private theorem reads_operations (h : Reads operand Operands) :
    Reads (operations tokens operand) (JoinedAll levels Operands) := by
  rw [operations, JoinedAll]
  induction levels with
  | nil => exact h
  | cons ops lvls ih => exact reads_chain ih

private theorem reads_assignment (hvalue : Reads value Values) (h : Reads operand Operands) :
    Reads (assignment tokens value operand) (Assigned Values Operands) := by
  have hjoined (s : Tokens) :
      ReadsFrom s (operations tokens operand) (Assigned Values Operands) :=
    (reads_operations h).mono fun _ _ => .joined
  rintro ⟨ls, stop⟩
  match ls with
  | ⟨o, .ident name⟩ :: ⟨o', .symbol sign⟩ :: ls =>
    refine ReadsFrom.get ?_
    cases hsign : assignmentOp? sign with
    | none =>
      simp only [hsign]
      exact hjoined _
    | some op =>
      simp only [hsign]
      refine ReadsFrom.skip (ReadsFrom.skip (ReadsFrom.bind (hvalue _) fun ts e s' hright => ?_))
      exact ReadsFrom.pure (by simpa using Assigned.assign hsign hright)
  | [] => exact hjoined _
  | [⟨_, .ident _⟩] => exact hjoined _
  | ⟨_, .ident _⟩ :: ⟨_, .int _⟩ :: _ => exact hjoined _
  | ⟨_, .ident _⟩ :: ⟨_, .float _⟩ :: _ => exact hjoined _
  | ⟨_, .ident _⟩ :: ⟨_, .string _⟩ :: _ => exact hjoined _
  | ⟨_, .ident _⟩ :: ⟨_, .ident _⟩ :: _ => exact hjoined _
  | ⟨_, .int _⟩ :: _ => exact hjoined _
  | ⟨_, .float _⟩ :: _ => exact hjoined _
  | ⟨_, .string _⟩ :: _ => exact hjoined _
  | ⟨_, .symbol _⟩ :: _ => exact hjoined _

private theorem reads_someItems (h : Reads item Inside) (close : Symbol) (more : Nat) :
    Reads (someItems item close more) fun ts es =>
      ∃ us, ts = us ++ [.symbol close] ∧ Items Inside us es := by
  induction more with
  | zero =>
    intro s
    refine ReadsFrom.bind (h _) fun ts e s' honly => ReadsFrom.bind (reads_expect close _) ?_
    rintro _ _ s' rfl
    exact ReadsFrom.pure ⟨ts, by simp, .last honly⟩
  | succ more ih =>
    intro s
    refine ReadsFrom.bind (h _) fun ts e s' hfirst => ReadsFrom.consume (fun ls => ?_) ?_
    · refine ReadsFrom.bind (ih _) ?_
      rintro _ es s' ⟨us, rfl, hothers⟩
      exact ReadsFrom.pure ⟨ts ++ .symbol .comma :: us, by simp, .more hfirst hothers⟩
    · refine ReadsFrom.bind (reads_expect close _) ?_
      rintro _ _ s' rfl
      exact ReadsFrom.pure ⟨ts, by simp, .last hfirst⟩

private theorem reads_items (h : Reads item Inside) (close : Symbol) :
    Reads (items tokens item close) fun ts es =>
      ∃ us, ts = us ++ [.symbol close] ∧ Listed Inside us es := by
  intro s
  refine ReadsFrom.consume (fun ls => ReadsFrom.pure ⟨[], rfl, .none⟩) ?_
  refine (reads_someItems h close tokens).mono ?_
  rintro _ es ⟨us, rfl, hitems⟩
  exact ⟨us, rfl, .some hitems⟩

private theorem reads_primary (h : Reads deeper Inside) :
    Reads (primary tokens deeper) (Suffixed Inside) := by
  rintro ⟨ls, stop⟩
  refine ReadsFrom.peek ?_
  match ls with
  | [] => exact (reads_fail _) _
  | ⟨_, .int n⟩ :: ls => exact ReadsFrom.skip (ReadsFrom.pure (.atom rfl))
  | ⟨_, .float x⟩ :: ls => exact ReadsFrom.skip (ReadsFrom.pure (.atom rfl))
  | ⟨_, .string s⟩ :: ls => exact ReadsFrom.skip (ReadsFrom.pure (.atom rfl))
  | ⟨_, .ident name⟩ :: ls => exact ReadsFrom.skip (ReadsFrom.pure (.atom rfl))
  | ⟨_, .symbol sign⟩ :: ls =>
    cases sign
    case openParen =>
      refine ReadsFrom.skip (ReadsFrom.bind (h _) fun ts e s' hinner => ?_)
      refine ReadsFrom.bind (reads_expect _ _) ?_
      rintro _ _ s' rfl
      exact ReadsFrom.pure (by simpa using Suffixed.brackets hinner)
    case openBracket =>
      refine ReadsFrom.skip (ReadsFrom.bind (reads_items h _ _) ?_)
      rintro _ es s' ⟨ts, rfl, hitems⟩
      exact ReadsFrom.pure (by simpa using Suffixed.list hitems)
    all_goals exact (reads_fail _) _

private theorem reads_fieldName (dot : Nat) :
    Reads (fieldName dot) fun ts name => ts = [.ident name] := by
  rintro ⟨ls, stop⟩
  refine ReadsFrom.peek ?_
  match ls with
  | [] => exact ReadsFrom.throw _
  | ⟨_, .ident name⟩ :: ls => exact ReadsFrom.skip (ReadsFrom.pure rfl)
  | ⟨_, .int _⟩ :: ls => exact (reads_unexpected _) _
  | ⟨_, .float _⟩ :: ls => exact (reads_unexpected _) _
  | ⟨_, .string _⟩ :: ls => exact (reads_unexpected _) _
  | ⟨_, .symbol _⟩ :: ls => exact (reads_unexpected _) _

private theorem reads_suffixes (h : Reads deeper Inside) (more : Nat) {ts : List Token} {e : Expr}
    (htarget : Suffixed Inside ts e) :
    Reads (suffixes tokens deeper more e) fun us a => Suffixed Inside (ts ++ us) a := by
  induction more generalizing ts e with
  | zero => exact fun s => ReadsFrom.pure (by simpa using htarget)
  | succ more ih =>
    have hfurther (s : Tokens) {us : List Token} {a : Expr}
        (htarget' : Suffixed Inside (ts ++ us) a) :
        ReadsFrom s (suffixes tokens deeper more a) fun vs b =>
          Suffixed Inside (ts ++ (us ++ vs)) b :=
      (ih htarget').mono fun _ _ h => by simpa using h
    rintro ⟨ls, stop⟩
    refine ReadsFrom.peekSymbol ?_
    have hstays : ReadsFrom ⟨ls, stop⟩ (pure e) fun us a => Suffixed Inside (ts ++ us) a :=
      ReadsFrom.pure (by simpa using htarget)
    cases hsign : symbolAt? ls with
    | none => exact hstays
    | some sign =>
      obtain ⟨o, rest, rfl⟩ := symbolAt?_eq_some hsign
      cases sign
      case dot =>
        refine ReadsFrom.here fun dot => ReadsFrom.skip (ReadsFrom.bind (reads_fieldName dot _) ?_)
        rintro _ name s' rfl
        have htarget' : Suffixed Inside (ts ++ [.symbol .dot, .ident name]) (.field e name) :=
          .field htarget
        exact hfurther s' htarget'
      case openBracket =>
        refine ReadsFrom.skip (ReadsFrom.bind (h _) fun us b s' hplace => ?_)
        refine ReadsFrom.bind (reads_expect _ _) ?_
        rintro _ _ s' rfl
        simpa using hfurther s' (.index htarget hplace)
      case openParen =>
        refine ReadsFrom.skip (ReadsFrom.bind (reads_items h _ _) ?_)
        rintro _ args s' ⟨us, rfl, hitems⟩
        exact hfurther s' (.call htarget hitems)
      all_goals exact hstays

private theorem reads_operand (hop : Reads operand Operands) (h : Reads deeper Inside) :
    Reads (Expr.operand tokens operand deeper) (Operated Operands Inside) := by
  intro s
  refine ReadsFrom.consume (fun ls => ?_) (ReadsFrom.consume (fun ls => ?_) ?_)
  · refine ReadsFrom.bind (hop _) fun ts e s' hbehind => ReadsFrom.pure ?_
    simpa using Operated.unary rfl hbehind
  · refine ReadsFrom.bind (hop _) fun ts e s' hbehind => ReadsFrom.pure ?_
    simpa using Operated.unary rfl hbehind
  · refine ReadsFrom.bind (reads_primary h _) fun ts e s' htarget => ?_
    exact (reads_suffixes h tokens htarget).mono fun _ _ => .suffixed

/-! ### The levels of nesting -/

private theorem reads_tooDeep : Reads tooDeep Nothing :=
  reads_fail _

mutual

/-- The reader of a level reads expressions of that level. -/
theorem reads_deeper (tokens n : Nat) : Reads (Expr.deeper tokens n) (Statement n) := by
  cases n with
  | zero => exact reads_tooDeep
  | succ n => exact reads_assignment (reads_deeper tokens n) (reads_operandAbove tokens n)

/-- The reader of the operands of a level reads operands of that level. -/
theorem reads_operandAbove (tokens n : Nat) : Reads (operandAbove tokens n) (Operand n) := by
  cases n with
  | zero => exact reads_operand reads_tooDeep reads_tooDeep
  | succ n =>
    exact reads_operand (reads_operandAbove tokens n)
      (reads_assignment (reads_deeper tokens n) (reads_operandAbove tokens n))

end

/-! ### Whole texts -/

section Whole

variable {statement : Parser Expr} {Phrases : Phrase}

/-- A token that is a semicolon. -/
def isSemicolon (l : Lexeme) : Bool :=
  l.token matches .symbol .semicolon

theorem token_of_isSemicolon {l : Lexeme} (h : isSemicolon l = true) :
    l.token = .symbol .semicolon := by
  rw [isSemicolon] at h
  split at h
  · assumption
  · cases h

theorem Statements.semicolons {ts : List Token} {es : List Expr}
    (h : Statements Phrases ts es) {ls : List Lexeme} (hall : ∀ l ∈ ls, isSemicolon l = true) :
    Statements Phrases (ls.map Lexeme.token ++ ts) es := by
  induction ls with
  | nil => exact h
  | cons l ls ih =>
    rw [List.map_cons, token_of_isSemicolon (hall l List.mem_cons_self)]
    exact .semicolon (ih fun l hl => hall l (List.mem_cons_of_mem _ hl))

/-- No tokens, no statements. -/
theorem Statements.eq_nil (hstarts : ∀ ts e, Phrases ts e → Starts ts) {es : List Expr}
    (h : Statements Phrases [] es) : es = [] := by
  generalize hts : [] = ts at h
  cases h with
  | done => rfl
  | semicolon => cases hts
  | last honly =>
    obtain ⟨t, us, rfl, -⟩ := hstarts _ _ honly
    cases hts
  | more hfirst => simp at hts

/-- A semicolon in front is superfluous. -/
theorem Statements.of_semicolon (hstarts : ∀ ts e, Phrases ts e → Starts ts) {ts : List Token}
    {es : List Expr} (h : Statements Phrases (.symbol .semicolon :: ts) es) :
    Statements Phrases ts es := by
  have hnotFirst {us vs : List Token} {e : Expr} (hphrase : Phrases us e)
      (heq : .symbol .semicolon :: ts = us ++ vs) : False := by
    obtain ⟨t, ws, rfl, hends⟩ := hstarts _ _ hphrase
    cases heq
    exact hends (by simp [EndsPhrase])
  generalize hts : Token.symbol .semicolon :: ts = us at h
  cases h with
  | done => cases hts
  | semicolon hothers => cases hts; exact hothers
  | last honly => exact (hnotFirst honly (hts.trans (List.append_nil _).symm)).elim
  | more hfirst => exact (hnotFirst hfirst hts).elim

private theorem reads_statements (hstarts : ∀ ts e, Phrases ts e → Starts ts)
    (h : Reads statement Phrases) (more : Nat) :
    Reads (statements statement more) (Statements Phrases) := by
  induction more with
  | zero => exact fun s => ReadsFrom.pure .done
  | succ more ih =>
    rintro ⟨ls, stop⟩
    have hbehind : ReadsFrom ⟨ls.dropWhile isSemicolon, stop⟩ (do
        if (← peek?).isNone then
          return []
        else
          let first ← statement
          if (← peekSymbol?) = some .semicolon then
            return first :: (← statements statement more)
          else
            return [first]) (Statements Phrases) := by
      refine ReadsFrom.peek ?_
      split
      · exact ReadsFrom.pure .done
      · refine ReadsFrom.bind (h _) fun ts e s' hfirst => ReadsFrom.peekSymbol ?_
        split
        · rename_i hnext
          refine ReadsFrom.bind (ih s').front ?_
          rintro us es s'' ⟨hothers, hfront⟩
          refine ReadsFrom.pure ?_
          obtain ⟨o, rest, hleft⟩ := symbolAt?_eq_some hnext
          rw [hleft, List.map_cons, List.prefix_cons_iff] at hfront
          rcases hfront with rfl | ⟨us, rfl, -⟩
          · rw [hothers.eq_nil hstarts]
            exact .last (by simpa using hfirst)
          · simpa using Statements.more hfirst (hothers.of_semicolon hstarts)
        · exact ReadsFrom.pure (.last (by simpa using hfirst))
    intro es s' hrun
    obtain ⟨read, hread, hQ⟩ := hbehind es s' hrun
    refine ⟨ls.takeWhile isSemicolon ++ read, ?_, ?_⟩
    · rw [List.append_assoc, ← hread]
      exact (List.takeWhile_append_dropWhile).symm
    · rw [List.map_append]
      exact hQ.semicolons (List.all_eq_true.1 List.all_takeWhile)

end Whole

/-- The expression of a text with these tokens. -/
theorem parse_of_lex {source : String} {lexemes : List Lexeme} (hlex : lex source = .ok lexemes) :
    parse source = ((whole lexemes.length).run ⟨lexemes, source.utf8ByteSize⟩ >>= fun read =>
      return read.1) := by
  rw [parse, hlex]
  rfl

/-- A text that is read consists of statements, which make up its expression. -/
theorem statements_of_parse {source : String} {e : Expr} (h : parse source = .ok e) :
    ∃ lexemes es, lex source = .ok lexemes ∧
      Statements (Statement maxNesting) (lexemes.map Lexeme.token) es ∧ e = ofStatements es := by
  cases hlex : lex source with
  | error error =>
    rw [parse, hlex] at h
    cases h
  | ok lexemes =>
    refine ⟨lexemes, ?_⟩
    have hreads := reads_statements (fun _ _ => Statement.starts)
      (reads_deeper lexemes.length maxNesting) (lexemes.length + 1)
      ⟨lexemes, source.utf8ByteSize⟩
    rw [parse_of_lex hlex, whole, StateT.run_bind] at h
    cases hrun : (statements (Expr.deeper lexemes.length maxNesting) (lexemes.length + 1)).run
        ⟨lexemes, source.utf8ByteSize⟩ with
    | error error =>
      rw [hrun] at h
      cases h
    | ok result =>
      obtain ⟨es, left, stop⟩ := result
      rw [hrun] at h
      obtain ⟨read, hread, hQ⟩ := hreads _ _ hrun
      cases left with
      | cons l ls => cases h
      | nil =>
        cases h
        obtain rfl : lexemes = read := by simpa using hread
        exact ⟨es, rfl, hQ, rfl⟩

end Expr

end TextTemplate
