import TextTemplate.Proofs.Expression.Spell
import TextTemplate.Proofs.Grammar.Balanced

/-!
# The tokens of a text by rules

Which tokens a text has does not depend on where it stands, nor on the blanks around it. So an
expression without the blanks around it is the same expression.

## Main definitions

* `Lexes` — the tokens of a text.
* `LexesTo`, `Unlexable` — the tokens in front of the rest of a text, and why a text has none.

## Main results

* `lexes_iff` — these rules are those of `lexFrom`.
* `Lexes.trim` — blanks around a text do not change its tokens.
* `Expr.parse_trim` — nor its expression.
-/

namespace TextTemplate

/-- The tokens of a text. -/
inductive Lexes : List Char → List Token → Prop
  | nil : Lexes [] []
  | blank {c : Char} {cs : List Char} {ts : List Token} (blank : isBlank c = true)
      (rest : Lexes cs ts) : Lexes (c :: cs) ts
  | token {c : Char} {cs : List Char} {t : Token} {ts : List Token} (noBlank : isBlank c = false)
      (reads : (Reading.ofCons c cs).token = .ok t) (rest : Lexes (Reading.ofCons c cs).rest ts) :
      Lexes (c :: cs) (t :: ts)

/-- What is found to be the tokens of a text are its tokens. -/
theorem lexes_of_lexFrom {cs : List Char} {offset : Nat} {lexemes : List Lexeme}
    (h : lexFrom offset cs = .ok lexemes) : Lexes cs (lexemes.map Lexeme.token) := by
  match cs with
  | [] =>
    rw [lexFrom_nil] at h
    cases h
    exact .nil
  | c :: cs =>
    cases hblank : isBlank c with
    | true =>
      rw [lexFrom_blank hblank] at h
      exact .blank hblank (lexes_of_lexFrom h)
    | false =>
      rw [lexFrom_cons hblank] at h
      cases hreads : (Reading.ofCons c cs).token with
      | error reason => simp [hreads] at h
      | ok t =>
        simp only [hreads] at h
        cases hbehind : lexFrom (offset + byteLength (Reading.ofCons c cs).spelling)
            (Reading.ofCons c cs).rest with
        | error e =>
          rw [hbehind] at h
          cases h
        | ok lexemes =>
          rw [hbehind] at h
          cases h
          exact .token hblank hreads (lexes_of_lexFrom hbehind)
termination_by cs.length
decreasing_by
  · exact Nat.lt_succ_of_le (Reading.length_rest_le c cs)
  · simp

/-- The tokens of a text are found, wherever it stands. -/
theorem Lexes.exists_lexFrom {cs : List Char} {ts : List Token} (h : Lexes cs ts) (offset : Nat) :
    ∃ lexemes, lexFrom offset cs = .ok lexemes ∧ lexemes.map Lexeme.token = ts := by
  induction h generalizing offset with
  | nil => exact ⟨[], lexFrom_nil offset, rfl⟩
  | @blank c cs ts hblank _ ih =>
    obtain ⟨lexemes, hlex, htokens⟩ := ih (offset + c.utf8Size)
    exact ⟨lexemes, (lexFrom_blank hblank offset cs).trans hlex, htokens⟩
  | @token c cs t ts hblank hreads _ ih =>
    obtain ⟨lexemes, hlex, htokens⟩ :=
      ih (offset + byteLength (Reading.ofCons c cs).spelling)
    refine ⟨⟨offset, t⟩ :: lexemes, ?_, by rw [List.map_cons, htokens]⟩
    rw [lexFrom_cons hblank, hreads]
    simp only [hlex]
    rfl

theorem lexes_iff {source : String} {ts : List Token} :
    Lexes source.toList ts ↔
      ∃ lexemes, lex source = .ok lexemes ∧ lexemes.map Lexeme.token = ts := by
  constructor
  · exact fun h => h.exists_lexFrom 0
  · rintro ⟨lexemes, hlex, rfl⟩
    exact lexes_of_lexFrom hlex

/-! ### The front of a text -/

/-- The tokens of a text up to a rest of it. -/
inductive LexesTo (rest : List Char) : List Char → List Token → Prop
  | here : LexesTo rest rest []
  | blank {c : Char} {cs : List Char} {ts : List Token} (blank : isBlank c = true)
      (more : LexesTo rest cs ts) : LexesTo rest (c :: cs) ts
  | token {c : Char} {cs : List Char} {t : Token} {ts : List Token} (noBlank : isBlank c = false)
      (reads : (Reading.ofCons c cs).token = .ok t)
      (more : LexesTo rest (Reading.ofCons c cs).rest ts) : LexesTo rest (c :: cs) (t :: ts)

/-- A text has no tokens for this reason, wherever it stands. -/
def Unlexable (reason : String) (cs : List Char) : Prop :=
  ∀ offset, ∃ place, lexFrom offset cs = .error (.malformed place reason)

section LexesTo

variable {rest cs cs' : List Char} {ts us : List Token} {reason : String}

/-- A token that is read in front of the rest of a text. -/
theorem LexesTo.of_ofCons {c : Char} {t : Token} {spelling : List Char}
    (hnoBlank : isBlank c = false) (hreading : Reading.ofCons c cs = ⟨.ok t, spelling, rest⟩) :
    LexesTo rest (c :: cs) [t] :=
  .token hnoBlank (by rw [hreading]) (by rw [hreading]; exact .here)

theorem LexesTo.trans (h : LexesTo cs' cs ts) (h' : LexesTo rest cs' us) :
    LexesTo rest cs (ts ++ us) := by
  induction h with
  | here => exact h'
  | blank hblank _ ih => exact .blank hblank ih
  | token hnoBlank hreads _ ih => exact .token hnoBlank hreads ih

/-- The tokens of the rest come behind those in front of it. -/
theorem LexesTo.lexes (h : LexesTo rest cs ts) (hrest : Lexes rest us) : Lexes cs (ts ++ us) := by
  induction h with
  | here => exact hrest
  | blank hblank _ ih => exact .blank hblank ih
  | token hnoBlank hreads _ ih => exact .token hnoBlank hreads ih

theorem Unlexable.of_blank {c : Char} (hblank : isBlank c = true) (h : Unlexable reason cs) :
    Unlexable reason (c :: cs) := fun offset => by
  rw [lexFrom_blank hblank]
  exact h _

theorem Unlexable.of_token {c : Char} {t : Token} (hnoBlank : isBlank c = false)
    (hreads : (Reading.ofCons c cs).token = .ok t)
    (h : Unlexable reason (Reading.ofCons c cs).rest) : Unlexable reason (c :: cs) :=
  fun offset => by
  obtain ⟨place, hplace⟩ := h (offset + byteLength (Reading.ofCons c cs).spelling)
  refine ⟨place, ?_⟩
  rw [lexFrom_cons hnoBlank, hreads]
  simp only [hplace]
  rfl

/-- A text has no tokens if the rest of it has none. -/
theorem LexesTo.unlexable (h : LexesTo rest cs ts) (hrest : Unlexable reason rest) :
    Unlexable reason cs := by
  induction h with
  | here => exact hrest
  | blank hblank _ ih => exact .of_blank hblank ih
  | token hnoBlank hreads _ ih => exact .of_token hnoBlank hreads ih

/-- A text that starts with no token has none. -/
theorem unlexable_of_ofCons {c : Char} (hnoBlank : isBlank c = false)
    (hreads : (Reading.ofCons c cs).token = .error reason) : Unlexable reason (c :: cs) :=
  fun offset => ⟨offset, by rw [lexFrom_cons hnoBlank, hreads]⟩

end LexesTo

/-! ### Blanks around a text -/

namespace Lexes

variable {cs blanks : List Char} {ts : List Token}

private theorem of_blanks_append (hall : ∀ c ∈ blanks, isBlank c = true)
    (h : Lexes (blanks ++ cs) ts) :
    Lexes cs ts := by
  induction blanks with
  | nil => exact h
  | cons c blanks ih =>
    have hblank := hall c List.mem_cons_self
    cases h with
    | blank _ hrest => exact ih (fun c hc => hall c (List.mem_cons_of_mem _ hc)) hrest
    | token hnoBlank => simp [hblank] at hnoBlank

end Lexes

private theorem dropWhile_append_of_blanks {p : Char → Bool}
    (hnoBlank : ∀ c, isBlank c = true → p c = false) {blanks : List Char}
    (hall : ∀ c ∈ blanks, isBlank c = true) (cs : List Char) :
    (cs ++ blanks).takeWhile p = cs.takeWhile p ∧
      (cs ++ blanks).dropWhile p = cs.dropWhile p ++ blanks := by
  induction cs with
  | nil =>
    cases blanks with
    | nil => simp
    | cons c blanks => simp [hnoBlank c (hall c List.mem_cons_self)]
  | cons c cs ih =>
    by_cases hc : p c = true <;> simp [hc, ih]

/-- A string reaches to the first quote that no backslash protects. -/
theorem quoted?_eq_some_iff {quote : Char} (hq : isQuote quote = true)
    {cs written rest : List Char} :
    quoted? quote cs = some (written, rest) ↔
      cs = written ++ quote :: rest ∧ Quoted quote (written ++ [quote]) := by
  have hstep {c : Char} (hc : c ≠ '\\') (cs : List Char) : quoted? quote (c :: cs) =
      if c = quote then some ([], cs)
      else (quoted? quote cs).map (Prod.map (c :: ·) id) := by
    rw [quoted?] <;> simp [hc]
    rfl
  constructor
  · intro h
    refine ⟨eq_of_quoted? h, ?_⟩
    fun_induction quoted? quote cs generalizing written rest with
    | case1 => cases h
    | case2 => cases h
    | case3 c cs ih =>
      obtain ⟨⟨written', rest'⟩, hcs, heq⟩ := Option.map_eq_some_iff.1 h
      cases heq
      exact .escaped (ih hcs)
    | case4 =>
      cases h
      exact .ends
    | case5 c cs hnotLast hnotEscape hc ih =>
      obtain ⟨⟨written', rest'⟩, hcs, heq⟩ := Option.map_eq_some_iff.1 h
      cases heq
      refine .char ?_ hc (ih hcs)
      rintro rfl
      cases cs with
      | nil => exact hnotLast rfl rfl
      | cons d cs => exact hnotEscape d cs rfl rfl
  · rintro ⟨rfl, h⟩
    generalize hinside : written ++ [quote] = inside at h
    induction h generalizing written with
    | ends =>
      obtain rfl : written = [] := by simpa using congrArg List.length hinside
      rw [List.nil_append, hstep (ne_backslash_of_isQuote hq), if_pos rfl]
    | @escaped c inside hquoted ih =>
      obtain _ | ⟨d, _ | ⟨e, written⟩⟩ := written
      · exact (ne_backslash_of_isQuote hq (List.cons.inj hinside).1).elim
      · obtain rfl : [] = inside := (List.cons.inj (List.cons.inj hinside).2).2
        cases hquoted
      · obtain ⟨hd, htail⟩ := List.cons.inj hinside
        obtain ⟨rfl, hmore⟩ := List.cons.inj htail
        rw [hd, List.cons_append, List.cons_append, quoted?, ih hmore]
        rfl
    | @char c inside hc hquote _ ih =>
      cases written with
      | nil => exact (hquote (List.cons.inj hinside).1.symm).elim
      | cons d written =>
        obtain ⟨rfl, hmore⟩ := List.cons.inj hinside
        rw [List.cons_append, hstep hc, if_neg hquote, ih hmore]
        rfl

/-- A string ends in front of the blanks at the end of the text. -/
theorem quoted?_of_append_blanks {quote : Char} (hq : isQuote quote = true)
    {blanks : List Char} (hall : ∀ c ∈ blanks, isBlank c = true) {cs written rest : List Char}
    (h : quoted? quote (cs ++ blanks) = some (written, rest)) :
    ∃ rest', rest = rest' ++ blanks ∧ quoted? quote cs = some (written, rest') := by
  obtain ⟨heq, hquoted⟩ := (quoted?_eq_some_iff hq).1 h
  have hnoBlank : isBlank quote = false := by
    simp only [isQuote, Bool.or_eq_true, beq_iff_eq] at hq
    rcases hq with rfl | rfl <;> decide
  rcases List.append_eq_append_iff.1 heq with ⟨more, hwritten, hblanks⟩ | ⟨more, rfl, hrest⟩
  · have hquote : quote ∈ blanks := by
      rw [hblanks]
      simp
    cases hnoBlank.symm.trans (hall quote hquote)
  · cases more with
    | nil =>
      rw [List.nil_append] at hrest
      have hquote : quote ∈ blanks := hrest ▸ List.mem_cons_self
      cases hnoBlank.symm.trans (hall quote hquote)
    | cons d rest' =>
      obtain ⟨rfl, rfl⟩ := List.cons.inj hrest
      exact ⟨rest', rfl, (quoted?_eq_some_iff hq).2 ⟨rfl, hquoted⟩⟩

theorem fraction?_of_ne {c : Char} (h : c ≠ '.') (cs : List Char) : fraction? (c :: cs) = none := by
  rw [fraction?.eq_def]
  split
  · rename_i heq
    exact (h (List.cons.inj heq).1).elim
  · rfl

/-- A fraction ends in front of the blanks at the end of the text. -/
theorem fraction?_append_blanks {blanks : List Char} (hall : ∀ c ∈ blanks, isBlank c = true)
    (cs : List Char) :
    fraction? (cs ++ blanks) =
      (fraction? cs).map fun (digits, rest) => (digits, rest ++ blanks) := by
  have hnoBlank (c : Char) (h : isBlank c = true) : c.isDigit = false := by
    cases hdigit : c.isDigit with
    | false => rfl
    | true => cases (isBlank_of_isDigit hdigit).symm.trans h
  match cs with
  | [] =>
    match blanks, hall with
    | [], _ => rfl
    | c :: blanks, hall =>
      refine fraction?_of_ne ?_ blanks
      rintro rfl
      cases (hall '.' List.mem_cons_self).symm.trans (by decide : isBlank '.' = false)
  | c :: cs =>
    by_cases hpoint : c = '.'
    · subst hpoint
      have hhead : (cs ++ blanks).head?.any Char.isDigit = cs.head?.any Char.isDigit := by
        cases cs with
        | cons c cs => rfl
        | nil =>
          cases blanks with
          | nil => rfl
          | cons c blanks => simp [hnoBlank c (hall c List.mem_cons_self)]
      obtain ⟨htaken, hleft⟩ := dropWhile_append_of_blanks hnoBlank hall cs
      rw [List.cons_append, fraction?, fraction?, hhead, htaken, hleft]
      split <;> rfl
    · rw [List.cons_append, fraction?_of_ne hpoint, fraction?_of_ne hpoint]
      rfl

/-- No symbol has a blank in it. -/
theorem isBlank_of_mem_chars {s : Symbol} {c : Char} (h : c ∈ s.chars) : isBlank c = false := by
  have hnone : s.chars.any isBlank = false := by cases s <;> decide
  simpa using List.any_eq_false.1 hnone c h

private theorem atStart?_append_blanks {blanks : List Char} (hall : ∀ c ∈ blanks, isBlank c = true)
    (cs : List Char) : Symbol.atStart? (cs ++ blanks) = Symbol.atStart? cs := by
  have hsame (s : Symbol) : s.chars.isPrefixOf (cs ++ blanks) = s.chars.isPrefixOf cs := by
    rw [Bool.eq_iff_iff, List.isPrefixOf_iff_prefix, List.isPrefixOf_iff_prefix]
    constructor
    · rintro ⟨rest, heq⟩
      rcases List.append_eq_append_iff.1 heq with ⟨more, hcs, -⟩ | ⟨more, hchars, hblanks⟩
      · exact ⟨more, hcs.symm⟩
      · cases more with
        | nil => exact ⟨[], by simpa using hchars⟩
        | cons c more =>
          have hblank : isBlank c = true := hall c (by simp [hblanks])
          have hinside : c ∈ s.chars := by simp [hchars]
          cases hblank.symm.trans (isBlank_of_mem_chars hinside)
    · exact fun h => h.trans (List.prefix_append cs blanks)
  exact congrArg (fun p => Symbol.all.find? p) (funext hsame)

namespace Reading

private theorem number_append_blanks {blanks : List Char} (hall : ∀ c ∈ blanks, isBlank c = true)
    (cs : List Char) : (number (cs ++ blanks)).token = (number cs).token ∧
      (number (cs ++ blanks)).rest = (number cs).rest ++ blanks := by
  have hnoBlank (c : Char) (h : isBlank c = true) : c.isDigit = false := by
    cases hdigit : c.isDigit with
    | false => rfl
    | true => cases (isBlank_of_isDigit hdigit).symm.trans h
  obtain ⟨htaken, hleft⟩ := dropWhile_append_of_blanks hnoBlank hall cs
  rw [number, number, htaken, hleft, fraction?_append_blanks hall]
  cases fraction? (cs.dropWhile Char.isDigit) with
  | some fraction => exact ⟨rfl, rfl⟩
  | none => cases Checked.ofInt? (Checked.ofDigits (cs.takeWhile Char.isDigit)) <;> exact ⟨rfl, rfl⟩

/-- A token that is read in front of blanks is read without them. -/
theorem ofCons_of_append_blanks {blanks : List Char} (hall : ∀ c ∈ blanks, isBlank c = true)
    {c : Char} {cs : List Char} {t : Token} (hreads : (ofCons c (cs ++ blanks)).token = .ok t) :
    (ofCons c cs).token = .ok t ∧
      (ofCons c (cs ++ blanks)).rest = (ofCons c cs).rest ++ blanks := by
  rw [ofCons] at hreads ⊢
  rw [ofCons]
  split at hreads
  · rename_i hdigit
    rw [if_pos hdigit, if_pos hdigit]
    have hsame := number_append_blanks hall (c :: cs)
    exact ⟨hsame.1.symm.trans hreads, hsame.2⟩
  · rename_i hnoDigit
    rw [if_neg hnoDigit, if_neg hnoDigit]
    split at hreads
    · rename_i hstart
      rw [if_pos hstart, if_pos hstart]
      obtain ⟨htaken, hleft⟩ := dropWhile_append_of_blanks (fun _ => isNamePart_of_isBlank) hall cs
      rw [htaken] at hreads ⊢
      exact ⟨hreads, hleft⟩
    · rename_i hnoStart
      rw [if_neg hnoStart, if_neg hnoStart]
      split at hreads
      · rename_i hquote
        rw [if_pos hquote, if_pos hquote]
        cases h : quoted? c (cs ++ blanks) with
        | none => simp [h] at hreads
        | some result =>
          obtain ⟨written, rest⟩ := result
          obtain ⟨rest', rfl, h'⟩ := quoted?_of_append_blanks hquote hall h
          rw [h] at hreads
          rw [h']
          exact ⟨hreads, rfl⟩
      · rename_i hnoQuote
        rw [if_neg hnoQuote, if_neg hnoQuote]
        have hsame := atStart?_append_blanks hall (c :: cs)
        rw [List.cons_append] at hsame
        rw [hsame] at hreads ⊢
        cases h : Symbol.atStart? (c :: cs) with
        | none => simp [h] at hreads
        | some s =>
          rw [h] at hreads
          refine ⟨hreads, ?_⟩
          obtain ⟨rest, heq⟩ : ∃ rest, c :: cs = s.chars ++ rest :=
            ⟨_, (Symbol.chars_append_drop_of_atStart? h).symm⟩
          simp only [← List.cons_append, heq, List.append_assoc, List.drop_left]

end Reading

private theorem Lexes.of_append_blanks {blanks : List Char} (hall : ∀ c ∈ blanks, isBlank c = true)
    {cs : List Char} {ts : List Token} (h : Lexes (cs ++ blanks) ts) : Lexes cs ts := by
  match cs with
  | [] => exact .of_blanks_append hall (by simpa using h)
  | c :: cs =>
    rw [List.cons_append] at h
    cases h with
    | blank hblank hremaining => exact .blank hblank (of_append_blanks hall hremaining)
    | token hnoBlank hreads hremaining =>
      obtain ⟨hreads', hrest⟩ := Reading.ofCons_of_append_blanks hall hreads
      rw [hrest] at hremaining
      exact .token hnoBlank hreads' (of_append_blanks hall hremaining)
termination_by cs.length
decreasing_by
  · simp
  · exact Nat.lt_succ_of_le (Reading.length_rest_le _ _)

/-- Blanks around a text do not change its tokens. -/
theorem Lexes.trim {cs : List Char} {ts : List Token} (h : Lexes cs ts) :
    Lexes (trimEnd (trimStart cs)) ts := by
  have hfront : Lexes (trimStart cs) ts := by
    rw [← List.takeWhile_append_dropWhile (p := isBlank) (l := cs)] at h
    exact h.of_blanks_append (List.all_eq_true.1 List.all_takeWhile)
  have hback : trimStart cs = trimEnd (trimStart cs) ++
      ((trimStart cs).reverse.takeWhile isBlank).reverse := by
    rw [trimEnd, ← List.reverse_append, List.takeWhile_append_dropWhile, List.reverse_reverse]
  rw [hback] at hfront
  refine hfront.of_append_blanks fun c hc => ?_
  exact List.all_eq_true.1 List.all_takeWhile c (List.mem_reverse.1 hc)

/-- Blanks around a text do not change the expression that it spells. -/
theorem Expr.parse_trim {source : String} {e : Expr} (h : parse source = .ok e) :
    parse (TextTemplate.trim source) = .ok e := by
  obtain ⟨lexemes, es, hlex, hphrases, rfl⟩ := parse_eq_ok_iff.1 h
  have hlexes := (lexes_iff.2 ⟨lexemes, hlex, rfl⟩).trim
  rw [← String.toList_ofList (l := trimEnd (trimStart source.toList))] at hlexes
  obtain ⟨lexemes', hlex', htokens⟩ := lexes_iff.1 hlexes
  exact parse_eq_ok_iff.2 ⟨lexemes', es, hlex', htokens ▸ hphrases, rfl⟩

end TextTemplate
