import TextTemplate.Proofs.Expression.Blame
import TextTemplate.Proofs.Expression.Lexing

/-!
# The place of a syntax error

A text that is no expression is refused at the first token that cannot be right: the tokens in front
of it are those of the beginning of an expression, with it they are not. If all of its tokens are,
the text ends too early and is refused at its end. There is one exception to that: where a text ends
behind a dot, the name of a field is missing, but it is the dot that is reported.

That tokens can be completed is shown by a text. It consists of the tokens as they are written, each
with a blank behind it, and of the tokens that complete them.

## Main definitions

* `Expr.Viable` — the tokens with which the text of an expression can start.

## Main results

* `Reading.ofCons_parted` — a token that was read is read again in front of a blank.
* `Expr.viable_of_begins` — tokens of a text that can be completed.
* `Expr.not_viable_of_fails` — tokens that end with one that cannot be right.
* `syntax_error_placed` — the place and the reason of a syntax error.
-/

namespace TextTemplate

/-! ### The tokens of a text in front of a blank -/

/-- A fraction is read again in front of a blank. -/
theorem fraction?_parted {cs digits rest more : List Char} (h : fraction? cs = some (digits, rest))
    (hparted : Parted more) : fraction? ('.' :: (digits ++ more)) = some (digits, more) := by
  rw [fraction?.eq_def] at h
  split at h
  · next cs =>
    split at h
    · next hfirst =>
      cases h
      have hdigits : ∀ d ∈ cs.takeWhile Char.isDigit, d.isDigit = true :=
        List.all_eq_true.1 List.all_takeWhile
      obtain ⟨htaken, hleft⟩ := hparted.ended.takeWhile (fun _ => isNamePart_of_isDigit) hdigits
      have hagain : (cs.takeWhile Char.isDigit ++ more).head?.any Char.isDigit = true := by
        cases cs with
        | nil => simp at hfirst
        | cons c cs =>
          have hdigit : c.isDigit = true := by simpa using hfirst
          simp [hdigit]
      rw [fraction?, if_pos hagain, htaken, hleft]
    · cases h
  · cases h

namespace Reading

/-- A number that was read is read again in front of a blank. -/
theorem number_parted {c : Char} {cs : List Char} {t : Token} (hdigit : c.isDigit = true)
    (hreads : (number (c :: cs)).token = .ok t) :
    ∃ sp, ∀ rest, Parted rest → number (c :: (sp ++ rest)) = ⟨.ok t, c :: sp, rest⟩ := by
  have hdigits : ∀ d ∈ c :: cs.takeWhile Char.isDigit, d.isDigit = true :=
    List.forall_mem_cons.2 ⟨hdigit, List.all_eq_true.1 List.all_takeWhile⟩
  have hwhole : (c :: cs).takeWhile Char.isDigit = c :: cs.takeWhile Char.isDigit :=
    List.takeWhile_cons_of_pos hdigit
  rw [number, hwhole] at hreads
  split at hreads
  · next fraction rest₀ hfraction =>
    cases hreads
    refine ⟨cs.takeWhile Char.isDigit ++ '.' :: fraction, fun rest hparted => ?_⟩
    have hpoint : ¬ Char.isDigit '.' = true := by decide
    rw [number, List.append_assoc, ← List.cons_append, List.takeWhile_append_of_pos hdigits,
      List.dropWhile_append_of_pos hdigits, List.cons_append, List.takeWhile_cons_of_neg hpoint,
      List.dropWhile_cons_of_neg hpoint, fraction?_parted hfraction hparted, List.append_nil]
    rfl
  · refine ⟨cs.takeWhile Char.isDigit, fun rest hparted => ?_⟩
    rw [number_digits hdigits hparted.ended]
    cases h : Checked.ofInt? (Checked.ofDigits (c :: cs.takeWhile Char.isDigit)) with
    | none => simp [h] at hreads
    | some n =>
      simp only [h] at hreads
      cases hreads
      rfl

/-- A token that was read is read again in front of a blank. -/
theorem ofCons_parted {c : Char} {cs : List Char} {t : Token}
    (hreads : (ofCons c cs).token = .ok t) :
    ∃ sp, ∀ rest, Parted rest → ofCons c (sp ++ rest) = ⟨.ok t, c :: sp, rest⟩ := by
  rw [ofCons] at hreads
  split at hreads
  · next hdigit =>
    obtain ⟨sp, hagain⟩ := number_parted hdigit hreads
    exact ⟨sp, fun rest hparted => by rw [ofCons, if_pos hdigit, hagain rest hparted]⟩
  · next hnoDigit =>
    split at hreads
    · next hstart =>
      cases hreads
      have hparts : ∀ d ∈ cs.takeWhile isNamePart, isNamePart d = true :=
        List.all_eq_true.1 List.all_takeWhile
      exact ⟨cs.takeWhile isNamePart, fun rest hparted => ofCons_parts hstart hparts hparted.ended⟩
    · next hnoStart =>
      split at hreads
      · next hquote =>
        cases h : quoted? c cs with
        | none => simp [h] at hreads
        | some result =>
          obtain ⟨written, rest⟩ := result
          simp only [h] at hreads
          cases hreads
          refine ⟨written ++ [c], fun rest' _ => ?_⟩
          have hagain : quoted? c (written ++ [c] ++ rest') = some (written, rest') :=
            (quoted?_eq_some_iff hquote).2
              ⟨by simp, ((quoted?_eq_some_iff hquote).1 h).2⟩
          rw [ofCons, if_neg hnoDigit, if_neg hnoStart, if_pos hquote, hagain]
          simp
      · cases h : Symbol.atStart? (c :: cs) with
        | none => simp [h] at hreads
        | some s =>
          simp only [h] at hreads
          cases hreads
          have hstarts := Symbol.chars_append_drop_of_atStart? h
          obtain ⟨d, ds, hchars, -⟩ := ofCons_chars (t := .symbol s) trivial (.inl rfl)
          refine ⟨ds, fun rest hparted => ?_⟩
          obtain ⟨d', ds', hchars', -, hreading⟩ := ofCons_chars (t := .symbol s) trivial hparted
          cases hchars.symm.trans hchars'
          change s.chars = d :: ds at hchars
          rw [hchars] at hstarts
          obtain rfl : d = c := (List.cons.inj hstarts).1
          exact hreading

end Reading

/-- The first tokens of a text are those of some other text, whatever is written behind it. -/
theorem Lexes.exists_front {cs : List Char} {ts us : List Token} (h : Lexes cs (ts ++ us)) :
    ∃ front, ∀ rest, LexesTo (' ' :: rest) (front ++ ' ' :: rest) ts := by
  generalize hts : ts ++ us = all at h
  induction h generalizing ts with
  | nil =>
    obtain ⟨rfl, -⟩ := List.append_eq_nil_iff.1 hts
    exact ⟨[], fun rest => .here⟩
  | blank _ _ ih => exact ih hts
  | @token c cs t vs hnoBlank hreads _ ih =>
    cases ts with
    | nil => exact ⟨[], fun rest => .here⟩
    | cons t' ts =>
      obtain ⟨rfl, hvs⟩ := List.cons.inj hts
      obtain ⟨sp, hagain⟩ := Reading.ofCons_parted hreads
      obtain ⟨front, hfront⟩ := ih hvs
      refine ⟨c :: sp ++ ' ' :: front, fun rest => ?_⟩
      have hreading := hagain (' ' :: (front ++ ' ' :: rest)) (.inr ⟨_, rfl⟩)
      have hfirst : LexesTo (' ' :: (front ++ ' ' :: rest))
          (c :: (sp ++ ' ' :: (front ++ ' ' :: rest))) [t'] := .of_ofCons hnoBlank hreading
      have hboth := hfirst.trans (.blank rfl (hfront rest))
      simpa using hboth

/-- The first tokens of a text and some that can be written are the tokens of a text. -/
theorem Lexes.exists_text {cs : List Char} {ts us vs : List Token} (h : Lexes cs (ts ++ us))
    (hplain : ∀ t ∈ vs, t.Plain) : ∃ source : String, Lexes source.toList (ts ++ vs) := by
  obtain ⟨front, hfront⟩ := h.exists_front
  obtain ⟨lexemes, hlex, htokens⟩ := lexFrom_spelled hplain 0
  have hbehind : Lexes (spelled vs) vs := by
    have hlexes := lexes_of_lexFrom hlex
    rwa [htokens] at hlexes
  refine ⟨String.ofList (front ++ ' ' :: spelled vs), ?_⟩
  rw [String.toList_ofList]
  exact (hfront (spelled vs)).lexes (.blank rfl hbehind)

namespace Expr

open TextTemplate.Parser

/-! ### The beginnings of expressions -/

/-- The tokens with which the text of an expression can start. -/
def Viable (ts : List Token) : Prop :=
  ∃ source lexemes e, lex source = .ok lexemes ∧ ts <+: lexemes.map Lexeme.token ∧
    parse source = .ok e

private theorem Viable.of_isPrefix {ts us : List Token} (h : Viable us) (hsub : ts <+: us) :
    Viable ts := by
  obtain ⟨source, lexemes, e, hlex, hstarts, hparse⟩ := h
  exact ⟨source, lexemes, e, hlex, hsub.trans hstarts, hparse⟩

/-- Tokens of a text that begin statements can be completed. -/
theorem viable_of_begins {source : String} {lexemes : List Lexeme} (hlex : lex source = .ok lexemes)
    {read rest : List Lexeme} (hleft : lexemes = read ++ rest)
    (hbegun : Begins (Statements (Statement maxNesting)) (read.map Lexeme.token)) :
    Viable (read.map Lexeme.token) := by
  obtain ⟨us, es, hplain, hphrases⟩ := hbegun
  have hlexes : Lexes source.toList (read.map Lexeme.token ++ rest.map Lexeme.token) := by
    rw [← List.map_append, ← hleft]
    exact lexes_of_lexFrom hlex
  obtain ⟨source', hlexes'⟩ := hlexes.exists_text hplain
  obtain ⟨lexemes', hlex', htokens⟩ := lexes_iff.1 hlexes'
  exact ⟨source', lexemes', ofStatements es, hlex', htokens ▸ List.prefix_append _ _,
    parse_eq_ok_iff.2 ⟨lexemes', es, hlex', htokens ▸ hphrases, rfl⟩⟩

/-- Tokens with a next one behind which the readers of whole texts fail are not those of the
beginning of an expression, however many tokens there may be. -/
theorem not_viable_of_fails {read : List Lexeme} {l : Lexeme} {n : Nat}
    (h : ∀ (k : Nat) (ls : List Lexeme) (stop : Nat), ls.head? = some l →
      ∃ e, (whole (n + k)).run ⟨read ++ ls, stop⟩ = .error e) :
    ¬ Viable ((read ++ [l]).map Lexeme.token) := by
  rintro ⟨source, lexemes, e, hlex, ⟨us, htokens⟩, hparse⟩
  obtain ⟨lexemes', es, hlex', hphrases, -⟩ := parse_eq_ok_iff.1 hparse
  cases hlex.symm.trans hlex'
  let ls : List Lexeme := l :: us.map (Lexeme.mk 0)
  have hlexed : (read ++ ls).map Lexeme.token = lexemes.map Lexeme.token := by
    rw [← htokens]
    simp [ls, Function.comp_def]
  obtain ⟨e', hfailed⟩ := h (read ++ ls).length ls 0 rfl
  rw [whole_run (hlexed ▸ hphrases) (Nat.le_add_left _ _)] at hfailed
  cases hfailed

/-- The result of the readers of a whole text. -/
theorem run_whole_of_parse {source : String} {lexemes : List Lexeme} {e : EvalError}
    (hlex : lex source = .ok lexemes) (hparse : parse source = .error e) :
    (whole lexemes.length).run ⟨lexemes, source.utf8ByteSize⟩ = .error e := by
  rw [parse_of_lex hlex] at hparse
  obtain herr | ⟨result, -, hok⟩ := Attempt.bind_eq_error_iff.1 hparse
  · exact herr
  · cases hok

/-- A text that is refused for another reason than its depth: the tokens that have been read are
those of the beginning of an expression, the next one is not, and it is what is reported. -/
theorem exists_blames {source : String} {lexemes : List Lexeme} {e : EvalError}
    (hlex : lex source = .ok lexemes) (hparse : parse source = .error e)
    (hshallow : ¬ IsTooDeep (parse source)) :
    ∃ read rest, lexemes = read ++ rest ∧ Viable (read.map Lexeme.token) ∧
      (∀ l ∈ rest.head?, ¬ Viable ((read ++ [l]).map Lexeme.token)) ∧
      Blames source.utf8ByteSize read rest e := by
  have hprompt : Prompt ⟨lexemes, source.utf8ByteSize⟩ (fun k => whole (lexemes.length + k)) _ _ :=
    prompt_whole fun k => Nat.le_add_right _ k
  obtain htooDeep | ⟨read, rest, hleft, hbegun, hblames, hagain⟩ :=
    hprompt.fails 0 e (run_whole_of_parse hlex hparse)
  · refine absurd ?_ hshallow
    obtain ⟨offset, heq⟩ := htooDeep
    cases heq
    exact ⟨offset, hparse⟩
  · refine ⟨read, rest, hleft, viable_of_begins hlex hleft hbegun, fun l hl => ?_, hblames⟩
    exact not_viable_of_fails fun k ls stop hls => hagain k ls stop (hls.trans hl.symm)

/-- Only one token of a text is the first that cannot be right. -/
theorem eq_of_stuck {read rest read' rest' : List Lexeme} {l : Lexeme}
    (heq : read ++ rest = read' ++ l :: rest') (hviable : Viable (read.map Lexeme.token))
    (hstuck : ∀ l ∈ rest.head?, ¬ Viable ((read ++ [l]).map Lexeme.token))
    (hviable' : Viable (read'.map Lexeme.token))
    (hstuck' : ¬ Viable ((read' ++ [l]).map Lexeme.token)) : rest = l :: rest' := by
  obtain ⟨more, rfl, hrest⟩ | ⟨more, rfl, hrest⟩ := List.append_eq_append_iff.1 heq
  · cases more with
    | nil => simpa using hrest
    | cons m more =>
      refine absurd (hviable'.of_isPrefix ?_) (hstuck m (by simp [hrest]))
      exact ⟨more.map Lexeme.token, by simp⟩
  · cases more with
    | nil => simpa using hrest.symm
    | cons m more =>
      obtain rfl : l = m := (List.cons.inj hrest).1
      exact absurd (hviable.of_isPrefix ⟨more.map Lexeme.token, by simp⟩) hstuck'

/-- All tokens of a text have been read if they are the beginning of an expression. -/
theorem eq_nil_of_viable {read rest : List Lexeme}
    (hstuck : ∀ l ∈ rest.head?, ¬ Viable ((read ++ [l]).map Lexeme.token))
    (hviable : Viable ((read ++ rest).map Lexeme.token)) : rest = [] := by
  cases rest with
  | nil => rfl
  | cons l rest =>
    exact absurd (hviable.of_isPrefix ⟨rest.map Lexeme.token, by simp⟩) (hstuck l rfl)

end Expr

open TextTemplate.Expr TextTemplate.Parser

/-- The place of a syntax error that is not one of depth. If the tokens of the text up to some token
are no beginning of an expression, and without it they are, the error is at this token and names it.
If all tokens are the beginning of an expression, the error is at the end of the text and speaks of
it, except behind a dot: there it is at the dot. -/
theorem syntax_error_placed {source : String} {lexemes : List Lexeme} {e : EvalError}
    (hlex : lex source = .ok lexemes) (hparse : parse source = .error e)
    (hshallow : ¬ IsTooDeep (parse source)) :
    ∃ place reason, e = .malformed place reason ∧
      (∀ read l rest, lexemes = read ++ l :: rest → Viable (read.map Lexeme.token) →
        ¬ Viable ((read ++ [l]).map Lexeme.token) →
          place = l.offset ∧ Reports (some l.token) reason) ∧
      (Viable (lexemes.map Lexeme.token) →
        (∀ l, lexemes.getLast? = some l → l.token ≠ .symbol .dot) →
          place = source.utf8ByteSize ∧ Reports none reason) ∧
      (Viable (lexemes.map Lexeme.token) →
        ∀ l, lexemes.getLast? = some l → l.token = .symbol .dot →
          place = l.offset ∧ reason = "expected a field name, found .") := by
  obtain ⟨read, rest, rfl, hviable, hstuck, hblames⟩ := exists_blames hlex hparse hshallow
  cases hblames with
  | @next _ _ reason hreports hfirm =>
    refine ⟨_, reason, rfl, fun read' l rest' heq hviable' hstuck' => ?_, fun hall _ => ?_,
      fun hall l hl hdot => ?_⟩
    · obtain rfl := eq_of_stuck heq hviable hstuck hviable' hstuck'
      exact ⟨rfl, hreports⟩
    · obtain rfl := eq_nil_of_viable hstuck hall
      exact ⟨rfl, hreports⟩
    · obtain rfl := eq_nil_of_viable hstuck hall
      rw [List.append_nil] at hl
      exact absurd hdot (hfirm rfl l hl)
  | dot read o =>
    refine ⟨o, _, rfl, fun read' l rest' heq hviable' hstuck' => ?_, fun _ hnoDot => ?_,
      fun _ l hl _ => ?_⟩
    · cases eq_of_stuck heq hviable hstuck hviable' hstuck'
    · exact absurd rfl (hnoDot ⟨o, .symbol .dot⟩ (by simp))
    · obtain rfl : ⟨o, .symbol .dot⟩ = l := by simpa using hl
      exact ⟨rfl, rfl⟩

/-- Behind a name no other name can be right, and a list of arguments can end too early. -/
theorem syntax_error_placed_names :
    Viable [.ident "a"] ∧ ¬ Viable [.ident "a", .ident "b"] ∧
      (∃ reason, parse "a b" = .error (.malformed 2 reason) ∧
        Reports (some (.ident "b")) reason) ∧
      Viable [.ident "f", .symbol .openParen, .int 1] ∧
      ∃ reason, parse "f(1" = .error (.malformed 3 reason) ∧ Reports none reason := by
  have hname : Viable [.ident "a"] := by
    have hlex : lex "a" = .ok [⟨0, .ident "a"⟩] := by with_unfolding_all rfl
    have hparse : parse "a" = .ok (.ident "a") := by with_unfolding_all rfl
    exact ⟨_, _, _, hlex, List.prefix_refl _, hparse⟩
  have hcalled : Viable [.ident "f", .symbol .openParen, .int 1] := by
    have hlex : lex "f(1)" = .ok [⟨0, .ident "f"⟩, ⟨1, .symbol .openParen⟩, ⟨2, .int 1⟩,
        ⟨3, .symbol .closeParen⟩] := by with_unfolding_all rfl
    have hparse : parse "f(1)" = .ok (.call (.ident "f") [.literal (.int 1)]) := by
      with_unfolding_all rfl
    exact ⟨_, _, _, hlex, ⟨[.symbol .closeParen], rfl⟩, hparse⟩
  have hnames : lex "a b" = .ok [⟨0, .ident "a"⟩, ⟨2, .ident "b"⟩] := by with_unfolding_all rfl
  have hcall : lex "f(1" = .ok [⟨0, .ident "f"⟩, ⟨1, .symbol .openParen⟩, ⟨2, .int 1⟩] := by
    with_unfolding_all rfl
  have hrefused :
      parse "a b" = .error (.malformed 2 "expected end of expression, found b") := by
    with_unfolding_all rfl
  have hrefused' :
      parse "f(1" = .error (.malformed 3 "expected ')', found end of expression") := by
    with_unfolding_all rfl
  obtain ⟨_, reason, ⟨⟩, hatNext, hatEnd, -⟩ := syntax_error_placed hnames hrefused
    (by rintro ⟨_, h⟩; simp [hrefused] at h)
  have hstuck : ¬ Viable [.ident "a", .ident "b"] := fun hall =>
    absurd (hatEnd hall (by simp)).1 (by decide)
  obtain ⟨_, reason', ⟨⟩, -, hatEnd', -⟩ := syntax_error_placed hcall hrefused'
    (by rintro ⟨_, h⟩; simp [hrefused'] at h)
  exact ⟨hname, hstuck, ⟨_, hrefused, (hatNext [_] _ [] rfl hname hstuck).2⟩, hcalled,
    _, hrefused', (hatEnd' hcalled (by simp)).2⟩

/-- Behind a dot the end is not reported, though the text only ends too early. -/
theorem exists_end_not_reported :
    ∃ lexemes reason, lex "a." = .ok lexemes ∧ ¬ IsTooDeep (parse "a.") ∧
      (∀ ts, ts <+: lexemes.map Lexeme.token → Viable ts) ∧
      parse "a." = .error (.malformed 1 reason) ∧ "a.".utf8ByteSize = 2 ∧
      ¬ Reports none reason := by
  have hlex : lex "a." = .ok [⟨0, .ident "a"⟩, ⟨1, .symbol .dot⟩] := by with_unfolding_all rfl
  have herr : parse "a." = .error (.malformed 1 "expected a field name, found .") := by
    with_unfolding_all rfl
  have hfield : Viable [.ident "a", .symbol .dot] := by
    have hlex : lex "a.x" = .ok [⟨0, .ident "a"⟩, ⟨1, .symbol .dot⟩, ⟨2, .ident "x"⟩] := by
      with_unfolding_all rfl
    have hparse : parse "a.x" = .ok (.field (.ident "a") "x") := by with_unfolding_all rfl
    exact ⟨_, _, _, hlex, ⟨[.ident "x"], rfl⟩, hparse⟩
  refine ⟨_, _, hlex, ?_, fun ts => hfield.of_isPrefix, herr, by decide, ?_⟩
  · rintro ⟨_, h⟩
    simp [herr] at h
  · intro hreports
    exact absurd hreports.isSuffix_of_end (by decide +kernel)

end TextTemplate
