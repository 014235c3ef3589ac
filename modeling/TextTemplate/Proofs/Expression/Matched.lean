import TextTemplate.Proofs.Expression.Lexing

/-!
# The brackets and strings of an expression

In a text that spells an expression every bracket is closed by its own closer, and outside brackets
and strings there is no comma and no colon, nor a semicolon unless it has several statements. So
such a text can stand between braces, commas, colons and semicolons.

## Main definitions

* `Closed` — texts whose brackets and strings are closed, and that avoid a character outside them.
* `Arranged` — tokens whose brackets are closed.
* `IsText`, `Consists` — the texts of a token and of tokens.

## Main results

* `Expr.Statements.arranged` — the tokens of an expression.
* `Expr.closed_comma_of_parse`, `Expr.closed_colon_of_parse`, `Expr.closed_semicolon_of_lex` — the
  text of an expression.
-/

namespace TextTemplate

/-! ### Texts -/

/-- A character that neither starts a string nor opens or closes a bracket. -/
def IsPlain (c : Char) : Prop :=
  isQuote c = false ∧ closerOf c = none ∧ isCloser c = false

instance : DecidablePred IsPlain := fun _ => inferInstanceAs (Decidable (_ ∧ _ ∧ _))

/-- The text closes its brackets and strings and no others, and outside them it has no such
character. -/
inductive Closed : Option Char → List Char → Prop
  | nil {avoid : Option Char} : Closed avoid []
  | char {avoid : Option Char} {c : Char} {cs : List Char} (plain : IsPlain c)
      (other : avoid ≠ some c) (rest : Closed avoid cs) : Closed avoid (c :: cs)
  | string {avoid : Option Char} {quote : Char} {inside cs : List Char}
      (isQuote : isQuote quote = true) (quoted : Quoted quote inside) (rest : Closed avoid cs) :
      Closed avoid (quote :: (inside ++ cs))
  | bracket {avoid : Option Char} {opener closer : Char} {inside cs : List Char}
      (opens : closerOf opener = some closer) (inner : Closed none inside)
      (rest : Closed avoid cs) : Closed avoid (opener :: (inside ++ closer :: cs))

namespace Closed

variable {avoid : Option Char} {cs ds : List Char}

theorem append (h : Closed avoid cs) (h' : Closed avoid ds) : Closed avoid (cs ++ ds) := by
  induction h with
  | nil => exact h'
  | char hplain hother _ ih => exact .char hplain hother (ih h')
  | string hquote hquoted _ ih => simpa using Closed.string hquote hquoted (ih h')
  | bracket hopens hinner _ _ ih => simpa using Closed.bracket hopens hinner (ih h')

private theorem of_plain (hplain : ∀ c ∈ cs, IsPlain c) (hother : ∀ c ∈ cs, avoid ≠ some c) :
    Closed avoid cs := by
  induction cs with
  | nil => exact .nil
  | cons c cs ih =>
    exact .char (hplain c List.mem_cons_self) (hother c List.mem_cons_self)
      (ih (fun c hc => hplain c (List.mem_cons_of_mem _ hc))
        fun c hc => hother c (List.mem_cons_of_mem _ hc))

/-- A given text of plain characters. -/
theorem of_all (h : cs.all (fun c => decide (IsPlain c ∧ avoid ≠ some c)) = true) :
    Closed avoid cs :=
  have hall c hc := of_decide_eq_true (List.all_eq_true.1 h c hc)
  .of_plain (fun c hc => (hall c hc).1) fun c hc => (hall c hc).2

theorem weaken (h : Closed avoid cs) : Closed none cs := by
  induction h with
  | nil => exact .nil
  | char hplain _ _ ih => exact .char hplain nofun ih
  | string hquote hquoted _ ih => exact .string hquote hquoted ih
  | bracket hopens hinner _ _ ih => exact .bracket hopens hinner ih

/-- A text that closes its brackets can stand in front of any closer. -/
theorem balanced (h : Closed avoid cs) {closer : Char} (hcloser : isCloser closer = true) :
    Balanced closer cs := by
  induction h generalizing closer with
  | nil => exact .nil
  | char hplain _ _ ih =>
    refine .char hplain.1 hplain.2.1 ?_ (ih hcloser)
    rintro rfl
    cases hplain.2.2.symm.trans hcloser
  | string hquote hquoted _ ih => exact .string hquote hquoted (ih hcloser)
  | bracket hopens _ _ ihin ih =>
    exact .bracket hopens (ihin (isCloser_of_closerOf hopens)) (ih hcloser)

end Closed

/-- The characters with a meaning for the readers of directives and of their bodies. -/
def specials : List Char :=
  ['"', '\'', '\x7b', '\x7d', '[', ']', '(', ')', ',', ':', ';']

theorem isPlain_of_notMem_specials {c : Char} (h : c ∉ specials) : IsPlain c := by
  simp only [specials, List.mem_cons, List.not_mem_nil, or_false, not_or] at h
  refine ⟨by simp [isQuote, h], ?_, by simp [isCloser, h]⟩
  rw [closerOf.eq_def]
  split <;> simp_all

theorem notMem_specials_of_isNamePart {c : Char} (h : isNamePart c = true) : c ∉ specials :=
  fun hc => List.any_eq_false.1 (by decide : specials.any isNamePart = false) c hc h

theorem notMem_specials_of_isBlank {c : Char} (h : isBlank c = true) : c ∉ specials :=
  fun hc => List.any_eq_false.1 (by decide : specials.any isBlank = false) c hc h

private theorem notMem_specials_of_isDigit {c : Char} (h : c.isDigit = true) : c ∉ specials :=
  fun hc => List.any_eq_false.1 (by decide : specials.any Char.isDigit = false) c hc h

/-- A text without special characters is closed, and avoids each of them. -/
theorem Closed.of_notMem_specials {avoid : Option Char} (hspecial : ∀ c ∈ avoid, c ∈ specials)
    {cs : List Char} (h : ∀ c ∈ cs, c ∉ specials) : Closed avoid cs :=
  .of_plain (fun c hc => isPlain_of_notMem_specials (h c hc)) fun c hc heq =>
    h c hc (hspecial c heq)

/-! ### Tokens -/

/-- The symbol that closes a bracket. -/
def closerSymbol? : Symbol → Option Symbol
  | .openParen => some .closeParen
  | .openBracket => some .closeBracket
  | _ => none

/-- A token that opens or closes a bracket. -/
def IsBracket (t : Token) : Prop :=
  t = .symbol .openParen ∨ t = .symbol .closeParen ∨ t = .symbol .openBracket ∨
    t = .symbol .closeBracket

/-- The tokens close their brackets and no others, and outside them they are of this kind. -/
inductive Arranged : (Token → Prop) → List Token → Prop
  | nil {kind : Token → Prop} : Arranged kind []
  | token {kind : Token → Prop} {t : Token} {ts : List Token} (noBracket : ¬ IsBracket t)
      (isKind : kind t) (rest : Arranged kind ts) : Arranged kind (t :: ts)
  | brackets {kind : Token → Prop} {s s' : Symbol} {ts us : List Token}
      (closes : closerSymbol? s = some s') (inner : Arranged (fun _ => True) ts)
      (rest : Arranged kind us) : Arranged kind (.symbol s :: (ts ++ .symbol s' :: us))

namespace Arranged

variable {kind kind' : Token → Prop} {ts us : List Token}

theorem append (h : Arranged kind ts) (h' : Arranged kind us) : Arranged kind (ts ++ us) := by
  induction h with
  | nil => exact h'
  | token hnoBracket hkind _ ih => exact .token hnoBracket hkind (ih h')
  | brackets hcloses hinner _ _ ih => simpa using Arranged.brackets hcloses hinner (ih h')

theorem mono (h : Arranged kind ts) (himp : ∀ t ∈ ts, kind t → kind' t) : Arranged kind' ts := by
  induction h with
  | nil => exact .nil
  | token hnoBracket hkind _ ih =>
    exact .token hnoBracket (himp _ List.mem_cons_self hkind)
      (ih fun t ht => himp t (List.mem_cons_of_mem _ ht))
  | brackets hcloses hinner _ _ ih =>
    exact .brackets hcloses hinner (ih fun t ht => himp t (by simp [ht]))

/-- Tokens without brackets. -/
theorem of_forall (h : ∀ t ∈ ts, ¬ IsBracket t ∧ kind t) : Arranged kind ts := by
  induction ts with
  | nil => exact .nil
  | cons t ts ih =>
    obtain ⟨⟨hnoBracket, hkind⟩, hrest⟩ := List.forall_mem_cons.1 h
    exact .token hnoBracket hkind (ih hrest)

/-- Tokens in brackets. -/
theorem enclosed {s s' : Symbol} (hcloses : closerSymbol? s = some s')
    (hinner : Arranged kind ts) : Arranged kind' (.symbol s :: (ts ++ [.symbol s'])) :=
  .brackets hcloses (hinner.mono fun _ _ _ => trivial) .nil

end Arranged

namespace Expr

/-- A token that separates neither statements nor the items of a list. -/
def Joins (t : Token) : Prop :=
  t ≠ .symbol .comma ∧ t ≠ .symbol .semicolon

/-- An operator or the sign of an assignment in front of arranged tokens. -/
theorem Arranged.sign {s : Symbol} (h : ¬ IsBracket (.symbol s) ∧ Joins (.symbol s))
    {ts : List Token} (hrest : Arranged Joins ts) : Arranged Joins (.symbol s :: ts) :=
  .token h.1 h.2 hrest

private theorem joins_of_mem_levels {ops : List (Symbol × BinaryOp)} (h : ops ∈ levels) {s : Symbol}
    {op : BinaryOp} (hs : List.lookup s ops = some op) :
    ¬ IsBracket (.symbol s) ∧ Joins (.symbol s) := by
  have hall : ∀ ops ∈ levels, ∀ pair ∈ ops, pair.1 ≠ .openParen ∧ pair.1 ≠ .closeParen ∧
      pair.1 ≠ .openBracket ∧ pair.1 ≠ .closeBracket ∧ pair.1 ≠ .comma ∧ pair.1 ≠ .semicolon := by
    decide
  simpa [IsBracket, Joins, and_assoc] using hall ops h _ (mem_of_lookup hs)

section Arranged

variable {inside operand value : Phrase} {ts : List Token} {e : Expr}

private theorem Items.arranged (hinside : ∀ ts e, inside ts e → Arranged Joins ts) {es : List Expr}
    (h : Items inside ts es) : Arranged (fun _ => True) ts := by
  induction h with
  | last honly => exact (hinside _ _ honly).mono fun _ _ _ => trivial
  | more hfirst _ ih =>
    exact ((hinside _ _ hfirst).mono fun _ _ _ => trivial).append
      (.token (by simp [IsBracket]) trivial ih)

private theorem Listed.arranged (hinside : ∀ ts e, inside ts e → Arranged Joins ts) {es : List Expr}
    (h : Listed inside ts es) : Arranged (fun _ => True) ts := by
  cases h with
  | none => exact .nil
  | some hitems => exact hitems.arranged hinside

private theorem Suffixed.arranged (hinside : ∀ ts e, inside ts e → Arranged Joins ts)
    (h : Suffixed inside ts e) : Arranged Joins ts := by
  induction h with
  | @atom t e hatom =>
    cases t with
    | symbol => cases hatom
    | int | float | string | ident => exact .token (by simp [IsBracket]) (by simp [Joins]) .nil
  | brackets hinner => exact .enclosed rfl (hinside _ _ hinner)
  | list hitems => exact .enclosed rfl (hitems.arranged hinside)
  | field _ ih =>
    refine ih.append (.token (by simp [IsBracket]) (by simp [Joins]) ?_)
    exact .token (by simp [IsBracket]) (by simp [Joins]) .nil
  | index _ hplace ih => exact ih.append (.enclosed rfl (hinside _ _ hplace))
  | call _ hitems ih => exact ih.append (.enclosed rfl (hitems.arranged hinside))

private theorem Operated.arranged (hop : ∀ ts e, operand ts e → Arranged Joins ts)
    (hinside : ∀ ts e, inside ts e → Arranged Joins ts) (h : Operated operand inside ts e) :
    Arranged Joins ts := by
  cases h with
  | @unary sign _ _ _ hunary hbehind =>
    refine Arranged.sign ?_ (hop _ _ hbehind)
    cases sign <;> cases hunary <;> simp [IsBracket, Joins]
  | suffixed h => exact h.arranged hinside

private theorem JoinedAll.arranged (hoperand : ∀ ts e, operand ts e → Arranged Joins ts)
    {lvls : List (List (Symbol × BinaryOp))} (hsub : lvls ⊆ levels)
    (h : JoinedAll lvls operand ts e) : Arranged Joins ts := by
  induction lvls generalizing ts e with
  | nil => exact hoperand _ _ h
  | cons ops lvls ih =>
    change Joined ops (JoinedAll lvls operand) ts e at h
    have ⟨hhere, hbelow⟩ := List.cons_subset.1 hsub
    induction h with
    | single honly => exact ih hbelow honly
    | join _ hop hright ihl =>
      exact ihl.append (Arranged.sign (joins_of_mem_levels hhere hop) (ih hbelow hright))

private theorem Assigned.arranged (hvalue : ∀ ts e, value ts e → Arranged Joins ts)
    (hoperand : ∀ ts e, operand ts e → Arranged Joins ts) (h : Assigned value operand ts e) :
    Arranged Joins ts := by
  cases h with
  | @assign _ sign _ _ _ hsign hright =>
    refine .token (by simp [IsBracket]) (by simp [Joins]) (Arranged.sign ?_ (hvalue _ _ hright))
    cases sign <;> cases hsign <;> simp [IsBracket, Joins]
  | joined hjoined => exact hjoined.arranged hoperand (List.Subset.refl _)

end Arranged

mutual

private theorem arranged_of_statement (n : Nat) (ts : List Token) (e : Expr)
    (h : Statement n ts e) :
    Arranged Joins ts := by
  cases n with
  | zero => exact h.elim
  | succ n => exact Assigned.arranged (arranged_of_statement n) (arranged_of_operand n) h

theorem arranged_of_operand (n : Nat) (ts : List Token) (e : Expr) (h : Operand n ts e) :
    Arranged Joins ts := by
  cases n with
  | zero => exact Operated.arranged (fun _ _ h => h.elim) (fun _ _ h => h.elim) h
  | succ n =>
    exact Operated.arranged (arranged_of_operand n)
      (fun _ _ h => Assigned.arranged (arranged_of_statement n) (arranged_of_operand n) h) h

end

/-- Outside brackets, the tokens of statements have no comma. -/
theorem Statements.arranged {n : Nat} {ts : List Token} {es : List Expr}
    (h : Statements (Statement n) ts es) : Arranged (· ≠ .symbol .comma) ts := by
  induction h with
  | done => exact .nil
  | semicolon _ ih => exact .token (by simp [IsBracket]) (by simp) ih
  | last honly => exact (arranged_of_statement _ _ _ honly).mono fun _ _ hjoins => hjoins.1
  | more hfirst _ ih =>
    exact ((arranged_of_statement _ _ _ hfirst).mono fun _ _ hjoins => hjoins.1).append
      (.token (by simp [IsBracket]) (by simp) ih)

end Expr

/-! ### The text of tokens -/

/-- The token is read from this text. -/
def IsText (w : List Char) (t : Token) : Prop :=
  ∃ c cs, (Reading.ofCons c cs).token = .ok t ∧ (Reading.ofCons c cs).spelling = w

/-- The text consists of texts of the tokens, with blanks between them. -/
inductive Consists : List Char → List Token → Prop
  | nil : Consists [] []
  | blank {c : Char} {cs : List Char} {ts : List Token} (blank : isBlank c = true)
      (rest : Consists cs ts) : Consists (c :: cs) ts
  | token {w cs : List Char} {t : Token} {ts : List Token} (isText : IsText w t)
      (rest : Consists cs ts) : Consists (w ++ cs) (t :: ts)

private theorem Lexes.consists {cs : List Char} {ts : List Token} (h : Lexes cs ts) :
    Consists cs ts := by
  induction h with
  | nil => exact .nil
  | blank hblank _ ih => exact .blank hblank ih
  | @token c cs t ts _ hreads _ ih =>
    rw [← Reading.spelling_append_rest c cs]
    exact .token ⟨c, cs, hreads, rfl⟩ ih

namespace Consists

variable {cs : List Char} {t : Token} {ts us : List Token}

private theorem blanks (h : Consists cs []) : ∀ c ∈ cs, isBlank c = true := by
  generalize hts : [] = ts at h
  induction h with
  | nil => simp
  | blank hblank _ ih => exact List.forall_mem_cons.2 ⟨hblank, ih hts⟩
  | token => cases hts

/-- The text of a token, with the blanks in front of it and what follows it. -/
theorem exists_of_cons (h : Consists cs (t :: ts)) :
    ∃ blanks w rest, cs = blanks ++ w ++ rest ∧ (∀ c ∈ blanks, isBlank c = true) ∧ IsText w t ∧
      Consists rest ts := by
  generalize hts : t :: ts = us at h
  induction h with
  | nil => cases hts
  | @blank c cs _ hblank _ ih =>
    obtain ⟨blanks, w, rest, rfl, hall, htext, hrest⟩ := ih hts
    exact ⟨c :: blanks, w, rest, rfl, List.forall_mem_cons.2 ⟨hblank, hall⟩, htext, hrest⟩
  | @token w cs _ _ htext hremaining =>
    cases hts
    exact ⟨[], w, cs, rfl, by simp, htext, hremaining⟩

private theorem exists_of_append (h : Consists cs (ts ++ us)) :
    ∃ cs₁ cs₂, cs = cs₁ ++ cs₂ ∧ Consists cs₁ ts ∧ Consists cs₂ us := by
  induction ts generalizing cs with
  | nil => exact ⟨[], cs, rfl, .nil, h⟩
  | cons t ts ih =>
    obtain ⟨blanks, w, rest, rfl, hall, htext, hrest⟩ := exists_of_cons h
    obtain ⟨cs₁, cs₂, rfl, h₁, h₂⟩ := ih hrest
    refine ⟨blanks ++ (w ++ cs₁), cs₂, by simp, ?_, h₂⟩
    clear h hrest ih
    induction blanks with
    | nil => simpa using Consists.token htext h₁
    | cons c blanks ih =>
      exact .blank (hall c List.mem_cons_self) (ih fun c hc => hall c (List.mem_cons_of_mem _ hc))

end Consists

/-- Outside strings, the text of the token does not have the character. -/
def Avoids (avoid : Option Char) (t : Token) : Prop :=
  ∀ s, t = .symbol s → ∀ c ∈ s.chars, avoid ≠ some c

/-- The digits of a fraction. -/
theorem isDigit_of_fraction? {cs digits rest : List Char} (h : fraction? cs = some (digits, rest)) :
    ∀ c ∈ digits, c.isDigit = true := by
  rw [fraction?.eq_def] at h
  split at h
  · split at h
    · cases h
      exact List.all_eq_true.1 List.all_takeWhile
    · cases h
  · cases h

/-- A number is read from digits and perhaps a point. -/
theorem Reading.notMem_specials_of_mem_spelling {cs : List Char} :
    ∀ c ∈ (number cs).spelling, c ∉ specials := by
  have hdigits : ∀ c ∈ cs.takeWhile Char.isDigit, c ∉ specials := fun c hc =>
    notMem_specials_of_isDigit (List.all_eq_true.1 List.all_takeWhile c hc)
  rw [number]
  split
  · rename_i fraction rest hfraction
    refine List.forall_mem_append.2 ⟨hdigits, List.forall_mem_cons.2 ⟨by decide, fun c hc => ?_⟩⟩
    exact notMem_specials_of_isDigit (isDigit_of_fraction? hfraction c hc)
  · split <;> exact hdigits

/-- A number is no symbol. -/
theorem Reading.number_token_ne_symbol (cs : List Char) (s : Symbol) :
    (number cs).token ≠ .ok (.symbol s) := by
  rw [number]
  split
  · rintro ⟨⟩
  · split <;> rintro ⟨⟩

/-- A symbol that is no bracket is made of plain characters. -/
theorem isPlain_of_mem_chars {s : Symbol} (h : ¬ IsBracket (.symbol s)) :
    ∀ c ∈ s.chars, IsPlain c := by
  have hplain : s.chars.all (fun c => decide (IsPlain c)) = true := by
    cases s <;> first | decide | simp [IsBracket] at h
  exact fun c hc => of_decide_eq_true (List.all_eq_true.1 hplain c hc)

namespace IsText

/-- The text of a symbol is made of its characters. -/
theorem eq_chars {w : List Char} {s : Symbol} (h : IsText w (.symbol s)) : w = s.chars := by
  obtain ⟨c, cs, hreads, rfl⟩ := h
  rw [Reading.ofCons] at hreads ⊢
  split at hreads
  · exact (Reading.number_token_ne_symbol _ s hreads).elim
  · rename_i hnoDigit
    rw [if_neg hnoDigit]
    split at hreads
    · cases hreads
    · rename_i hnoStart
      rw [if_neg hnoStart]
      split at hreads
      · split at hreads <;> cases hreads
      · rename_i hnoQuote
        rw [if_neg hnoQuote]
        split at hreads
        · cases hreads
          rfl
        · cases hreads

variable {avoid : Option Char}

/-- Apart from brackets, the text of a token has no characters with a meaning except in a string. -/
theorem closed (hspecial : ∀ c ∈ avoid, c ∈ specials) {w : List Char} {t : Token} (h : IsText w t)
    (hnoBracket : ¬ IsBracket t) (havoids : Avoids avoid t) : Closed avoid w := by
  cases t with
  | symbol s =>
    rw [h.eq_chars]
    exact .of_plain (isPlain_of_mem_chars hnoBracket) (havoids s rfl)
  | int | float | string | ident =>
    obtain ⟨c, cs, hreads, rfl⟩ := h
    rw [Reading.ofCons] at hreads ⊢
    split at hreads
    · rename_i hdigit
      rw [if_pos hdigit]
      exact .of_notMem_specials hspecial Reading.notMem_specials_of_mem_spelling
    · rename_i hnoDigit
      rw [if_neg hnoDigit]
      split at hreads
      · rename_i hstart
        rw [if_pos hstart]
        refine .of_notMem_specials hspecial (List.forall_mem_cons.2 ⟨?_, fun d hd => ?_⟩)
        · exact notMem_specials_of_isNamePart (isNamePart_of_isNameStart hstart)
        · exact notMem_specials_of_isNamePart (List.all_eq_true.1 List.all_takeWhile d hd)
      · rename_i hnoStart
        rw [if_neg hnoStart]
        split at hreads
        · rename_i hquote
          rw [if_pos hquote]
          cases h : quoted? c cs with
          | none => simp [h] at hreads
          | some result =>
            obtain ⟨-, hquoted⟩ := (quoted?_eq_some_iff hquote).1 h
            simpa using Closed.string hquote hquoted .nil
        · split at hreads <;> cases hreads

end IsText

/-- A text of arranged tokens closes its brackets. -/
theorem Consists.closed {kind : Token → Prop} {avoid : Option Char}
    (hspecial : ∀ c ∈ avoid, c ∈ specials) (havoids : ∀ t, kind t → Avoids avoid t)
    {cs : List Char} {ts : List Token} (harranged : Arranged kind ts) (h : Consists cs ts) :
    Closed avoid cs := by
  have hofBlanks {avoid : Option Char} (hspecial : ∀ c ∈ avoid, c ∈ specials) {cs : List Char}
      (h : ∀ c ∈ cs, isBlank c = true) : Closed avoid cs :=
    .of_notMem_specials hspecial fun c hc => notMem_specials_of_isBlank (h c hc)
  induction harranged generalizing cs avoid with
  | nil => exact hofBlanks hspecial h.blanks
  | token hnoBracket hkind _ ih =>
    obtain ⟨blanks, w, rest, rfl, hall, htext, hrest⟩ := exists_of_cons h
    exact ((hofBlanks hspecial hall).append
      (htext.closed hspecial hnoBracket (havoids _ hkind))).append (ih hspecial havoids hrest)
  | @brackets _ s s' _ _ hcloses _ _ ihin ih =>
    obtain ⟨blanks, w, cs, rfl, hall, htext, hcs⟩ := exists_of_cons h
    obtain ⟨inside, rest, rfl, hinside, hrest⟩ := exists_of_append hcs
    obtain ⟨blanks', w', rest, rfl, hall', htext', hrest⟩ := exists_of_cons hrest
    obtain ⟨opener, closer, hw, hw', hopens⟩ : ∃ opener closer, s.chars = [opener] ∧
        s'.chars = [closer] ∧ closerOf opener = some closer := by
      cases s <;> cases hcloses <;> exact ⟨_, _, rfl, rfl, rfl⟩
    rw [htext.eq_chars, htext'.eq_chars, hw, hw']
    have hwithin : Closed none inside := ihin (by simp) (fun _ _ _ _ _ _ => by simp) hinside
    have hinner := hwithin.append (hofBlanks (by simp) hall')
    have := Closed.bracket hopens hinner (ih hspecial havoids hrest)
    simpa using (hofBlanks hspecial hall).append this

/-! ### Expressions -/

namespace Expr

variable {source : String} {e : Expr}

/-- The tokens of an expression, and their text. -/
theorem exists_arranged_of_parse (h : parse source = .ok e) :
    ∃ lexemes, lex source = .ok lexemes ∧ Consists source.toList (lexemes.map Lexeme.token) ∧
      Arranged (· ≠ .symbol .comma) (lexemes.map Lexeme.token) := by
  obtain ⟨lexemes, es, hlex, hstatements, -⟩ := parse_eq_ok_iff.1 h
  exact ⟨lexemes, hlex, (lexes_iff.2 ⟨lexemes, hlex, rfl⟩).consists, hstatements.arranged⟩

/-- A special character that stands in one symbol at most is not in the text of tokens without that
symbol outside brackets. -/
private theorem closed_of_arranged {c : Char} {sign : Symbol} (hspecial : c ∈ specials)
    (honly : ∀ s : Symbol, c ∈ s.chars → s = sign) {cs : List Char} {ts : List Token}
    (hconsists : Consists cs ts) (harranged : Arranged (· ≠ .symbol sign) ts) :
    Closed (some c) cs := by
  refine hconsists.closed (by simpa using hspecial) ?_ harranged
  rintro _ hother s rfl _ hc ⟨⟩
  exact hother (congrArg Token.symbol (honly s hc))

/-- An expression has no comma outside brackets and strings. -/
theorem closed_comma_of_parse (h : parse source = .ok e) : Closed (some ',') source.toList := by
  obtain ⟨lexemes, -, hconsists, harranged⟩ := exists_arranged_of_parse h
  exact closed_of_arranged (by simp [specials])
    (fun s hc => by cases s <;> simp [Symbol.chars] at hc ⊢) hconsists harranged

/-- An expression has no colon outside brackets and strings. -/
theorem closed_colon_of_parse (h : parse source = .ok e) : Closed (some ':') source.toList := by
  obtain ⟨lexemes, -, hconsists, harranged⟩ := exists_arranged_of_parse h
  exact closed_of_arranged (by simp [specials])
    (fun s hc => by cases s <;> simp [Symbol.chars] at hc) hconsists harranged

/-- An expression whose tokens outside brackets are no semicolons has none in its text. -/
theorem closed_semicolon_of_lex {lexemes : List Lexeme} (hlex : lex source = .ok lexemes)
    (hsingle : Arranged (· ≠ .symbol .semicolon) (lexemes.map Lexeme.token)) :
    Closed (some ';') source.toList :=
  closed_of_arranged (by simp [specials]) (fun s hc => by cases s <;> simp [Symbol.chars] at hc ⊢)
    (lexes_iff.2 ⟨lexemes, hlex, rfl⟩).consists hsingle

end Expr

end TextTemplate
