import TextTemplate.Proofs.Expression.Print

/-!
# The text of tokens

Tokens are written with blanks between them, strings in single quotes with what would end them
escaped. A token that a blank or the end follows is read back as it is, so the text of tokens is
read into these tokens.

## Main definitions

* `Token.chars` — the text of a token.
* `Expr.text` — the text of an expression.

## Main results

* `Reading.ofCons_chars` — a token is read back.
* `lexFrom_spelled` — the tokens of a text of tokens.
-/

namespace TextTemplate

/-! ### Classes of characters -/

/-- The ranges of the codes of the blanks. -/
def blankRanges : List (Nat × Nat) :=
  [(9, 13), (0x20, 0x20), (0x85, 0x85), (0xa0, 0xa0), (0x1680, 0x1680), (0x2000, 0x200a),
    (0x2028, 0x2029), (0x202f, 0x202f), (0x205f, 0x205f), (0x3000, 0x3000)]

/-- The ranges of the codes of the characters that may stand in a name. -/
def nameRanges : List (Nat × Nat) :=
  [(48, 57), (65, 90), (95, 95), (97, 122)] ++ alphabeticRanges ++ numeralRanges

private theorem exists_blankRange {c : Char} (h : isBlank c = true) :
    ∃ r ∈ blankRanges, r.1 ≤ c.toNat ∧ c.toNat ≤ r.2 := by
  simp only [isBlank, Bool.or_eq_true, Bool.and_eq_true, decide_eq_true_eq, beq_iff_eq] at h
  simp only [blankRanges, List.mem_cons, List.not_mem_nil, or_false, exists_eq_or_imp,
    exists_eq_left]
  omega

theorem isDigit_iff {c : Char} : c.isDigit = true ↔ 48 ≤ c.toNat ∧ c.toNat ≤ 57 := by
  rw [Char.isDigit, Bool.and_eq_true, decide_eq_true_eq, decide_eq_true_eq, ge_iff_le,
    UInt32.le_iff_toNat_le, UInt32.le_iff_toNat_le]
  rfl

theorem isAlpha_iff {c : Char} : c.isAlpha = true ↔
    65 ≤ c.toNat ∧ c.toNat ≤ 90 ∨ 97 ≤ c.toNat ∧ c.toNat ≤ 122 := by
  change (decide (65 ≤ c.val ∧ c.val ≤ 90) || decide (97 ≤ c.val) && decide (c.val ≤ 122)) = true ↔
    _
  simp only [Bool.or_eq_true, Bool.and_eq_true, decide_eq_true_eq, UInt32.le_iff_toNat_le]
  rfl

private theorem exists_range_of_isInRanges {ranges : List (Nat × Nat)} {c : Char}
    (h : isInRanges ranges c = true) : ∃ r ∈ ranges, r.1 ≤ c.toNat ∧ c.toNat ≤ r.2 := by
  rw [isInRanges, List.any_eq_true] at h
  simpa using h

private theorem exists_nameRange {c : Char} (h : isNamePart c = true) :
    ∃ r ∈ nameRanges, r.1 ≤ c.toNat ∧ c.toNat ≤ r.2 := by
  simp only [nameRanges, List.append_assoc]
  simp only [isNamePart, isAlphabetic, isNumeral, Bool.or_eq_true, beq_iff_eq] at h
  rcases h with (halphabetic | hnumeral) | rfl
  · split at halphabetic
    · rcases isAlpha_iff.1 halphabetic with hcode | hcode
      · exact ⟨(65, 90), by simp, hcode⟩
      · exact ⟨(97, 122), by simp, hcode⟩
    · obtain ⟨r, hr, hcode⟩ := exists_range_of_isInRanges halphabetic
      exact ⟨r, by simp [hr], hcode⟩
  · split at hnumeral
    · exact ⟨(48, 57), by simp, isDigit_iff.1 hnumeral⟩
    · obtain ⟨r, hr, hcode⟩ := exists_range_of_isInRanges hnumeral
      exact ⟨r, by simp [hr], hcode⟩
  · exact ⟨(95, 95), by simp, by decide⟩

/-- No blank is part of a name. -/
theorem isNamePart_of_isBlank {c : Char} (h : isBlank c = true) : isNamePart c = false := by
  have hapart : (blankRanges.all fun b => nameRanges.all fun r =>
      Nat.blt b.2 r.1 || Nat.blt r.2 b.1) = true := by decide +kernel
  cases hpart : isNamePart c with
  | false => rfl
  | true =>
    obtain ⟨b, hb, hblank⟩ := exists_blankRange h
    obtain ⟨r, hr, hname⟩ := exists_nameRange hpart
    have := List.all_eq_true.1 (List.all_eq_true.1 hapart b hb) r hr
    simp only [Bool.or_eq_true, Nat.blt_eq] at this
    omega

theorem isBlank_of_isNamePart {c : Char} (h : isNamePart c = true) : isBlank c = false := by
  cases hblank : isBlank c with
  | false => rfl
  | true => simp [isNamePart_of_isBlank hblank] at h

theorem isNamePart_of_isDigit {c : Char} (h : c.isDigit = true) : isNamePart c = true := by
  have hcode := isDigit_iff.1 h
  simp only [isNamePart, isNumeral, h, if_pos (show c.toNat < 128 by omega), Bool.or_true,
    Bool.true_or]

theorem isBlank_of_isDigit {c : Char} (h : c.isDigit = true) : isBlank c = false :=
  isBlank_of_isNamePart (isNamePart_of_isDigit h)

/-- No digit starts a name. -/
theorem isDigit_of_isNameStart {c : Char} (h : isNameStart c = true) : c.isDigit = false := by
  cases hdigit : c.isDigit with
  | false => rfl
  | true =>
    have hcode := isDigit_iff.1 hdigit
    simp only [isNameStart, isAlphabetic, Bool.or_eq_true, beq_iff_eq] at h
    rcases h with halphabetic | rfl
    · rw [if_pos (by omega), isAlpha_iff] at halphabetic
      omega
    · cases hdigit

/-! ### The text of a token -/

/-- The characters that stand for a character in a single-quoted string. -/
def escape : Char → List Char
  | '\'' => ['\\', '\'']
  | '\\' => ['\\', '\\']
  | '\n' => ['\\', 'n']
  | '\t' => ['\\', 't']
  | '\r' => ['\\', 'r']
  | c => [c]

/-- The text of a token. -/
def Token.chars : Token → List Char
  | .int n => (toString n.toInt).toList
  | .float x => (Value.displayFloat x).toList
  | .string s => '\'' :: (s.toList.flatMap escape ++ ['\''])
  | .ident name => name.toList
  | .symbol s => s.chars

/-- The tokens that are read back from their text: neither floating-point nor negative numbers. -/
def Token.Plain : Token → Prop
  | .int n => 0 ≤ n.toInt
  | .float _ => False
  | .string _ => True
  | .ident name => Expr.IsName name
  | .symbol _ => True

private theorem escape_cases (c : Char) :
    (∃ d, escape c = ['\\', d] ∧ escaped d = c) ∨ (escape c = [c] ∧ c ≠ '\\' ∧ c ≠ '\'') := by
  rw [escape.eq_def]
  split
  case h_6 hquote hbackslash _ _ _ => exact .inr ⟨rfl, hbackslash, hquote⟩
  all_goals exact .inl ⟨_, rfl, rfl⟩

private theorem quoted?_escape (cs rest : List Char) :
    quoted? '\'' (cs.flatMap escape ++ '\'' :: rest) = some (cs.flatMap escape, rest) := by
  induction cs with
  | nil => rfl
  | cons c cs ih =>
    rw [List.flatMap_cons, List.append_assoc]
    rcases escape_cases c with ⟨d, hd, -⟩ | ⟨hc, hbackslash, hquote⟩
    · rw [hd]
      simp [quoted?, ih]
    · rw [hc]
      simp [quoted?, ih, hquote, hbackslash]

private theorem unescape_escape (cs : List Char) : unescape (cs.flatMap escape) = cs := by
  induction cs with
  | nil => rfl
  | cons c cs ih =>
    rw [List.flatMap_cons]
    rcases escape_cases c with ⟨d, hd, hc⟩ | ⟨hc, hbackslash, -⟩
    · rw [hd]
      simp [unescape, ih, hc]
    · rw [hc]
      simp [unescape, ih, hbackslash]

/-- The end of the text or a blank. -/
def Parted (rest : List Char) : Prop :=
  rest = [] ∨ ∃ cs, rest = ' ' :: cs

/-- The end of the text, or something that belongs neither to a name nor to a number. -/
def Ended (rest : List Char) : Prop :=
  ∀ c ∈ rest.head?, isNamePart c = false ∧ c ≠ '.'

theorem Parted.ended {rest : List Char} (h : Parted rest) : Ended rest := by
  rcases h with rfl | ⟨cs, rfl⟩
  · exact nofun
  · rintro _ ⟨⟩
    decide

theorem Ended.takeWhile {p : Char → Bool} (hpart : ∀ c, p c = true → isNamePart c = true)
    {rest : List Char} (h : Ended rest) {cs : List Char} (hall : ∀ c ∈ cs, p c = true) :
    (cs ++ rest).takeWhile p = cs ∧ (cs ++ rest).dropWhile p = rest := by
  rw [List.takeWhile_append_of_pos hall, List.dropWhile_append_of_pos hall]
  cases rest with
  | nil => simp
  | cons c rest =>
    have houtside : ¬ p c = true := fun hc => by
      cases (hpart c hc).symm.trans (h c rfl).1
    simp [houtside]

private theorem Ended.fraction? {rest : List Char} (h : Ended rest) : fraction? rest = none := by
  rw [fraction?.eq_def]
  split
  · exact absurd rfl (h '.' rfl).2
  · rfl

namespace Reading

/-- Digits are read as a whole number, if it is not too large for one. -/
theorem number_digits {c : Char} {cs rest : List Char} (hdigits : ∀ d ∈ c :: cs, d.isDigit = true)
    (h : Ended rest) :
    number (c :: (cs ++ rest)) =
      ⟨match Checked.ofInt? (Checked.ofDigits (c :: cs)) with
        | some n => .ok (.int n)
        | none => .error "number too large to fit in target type", c :: cs, rest⟩ := by
  obtain ⟨htaken, hleft⟩ := h.takeWhile (fun _ => isNamePart_of_isDigit) hdigits
  rw [number, ← List.cons_append, htaken, hleft, h.fraction?]
  dsimp only
  cases Checked.ofInt? (Checked.ofDigits (c :: cs)) <;> rfl

/-- What can stand in a name is read as one, behind what can start it. -/
theorem ofCons_parts {c : Char} {cs rest : List Char} (hstart : isNameStart c = true)
    (hparts : ∀ d ∈ cs, isNamePart d = true) (h : Ended rest) :
    ofCons c (cs ++ rest) = ⟨.ok (.ident (String.ofList (c :: cs))), c :: cs, rest⟩ := by
  obtain ⟨htaken, hleft⟩ := h.takeWhile (fun _ => id) hparts
  rw [ofCons, if_neg (by simp [isDigit_of_isNameStart hstart]), if_pos hstart, htaken, hleft]

/-- The digits of a natural number are read as the number, if it is not too large. -/
theorem ofCons_digits (k : Nat) {rest : List Char} (h : Ended rest) :
    ∃ c cs, Nat.toDigits 10 k = c :: cs ∧ c.isDigit = true ∧
      ofCons c (cs ++ rest) =
        ⟨match Checked.ofInt? k with
          | some n => .ok (.int n)
          | none => .error "number too large to fit in target type", c :: cs, rest⟩ := by
  have hdigits : ∀ c ∈ Nat.toDigits 10 k, c.isDigit = true :=
    fun c => Nat.isDigit_of_mem_toDigits (by decide) (by decide)
  have hvalue : Checked.ofDigits (Nat.toDigits 10 k) = k :=
    Nat.ofDigitChars_eq_foldl.symm.trans Nat.ofDigitChars_ten_toDigits
  cases hd : Nat.toDigits 10 k with
  | nil => exact (Nat.toDigits_ne_nil hd).elim
  | cons c cs =>
    rw [hd] at hdigits hvalue
    have hfirst := hdigits c List.mem_cons_self
    refine ⟨c, cs, rfl, hfirst, ?_⟩
    rw [ofCons, if_pos hfirst, number_digits hdigits h, hvalue]

/-- A name is read. -/
theorem ofCons_name {name : String} (hisName : Expr.IsName name) {rest : List Char}
    (h : Ended rest) :
    ∃ c cs, name.toList = c :: cs ∧ isBlank c = false ∧
      ofCons c (cs ++ rest) = ⟨.ok (.ident name), c :: cs, rest⟩ := by
  obtain ⟨c, cs, hname, hstart, hparts⟩ := hisName
  refine ⟨c, cs, hname, isBlank_of_isNamePart (isNamePart_of_isNameStart hstart), ?_⟩
  rw [ofCons_parts hstart hparts h, ← hname, String.ofList_toList]

/-- A token that is set apart from what follows is read back. -/
theorem ofCons_chars {t : Token} (hplain : t.Plain) {rest : List Char} (h : Parted rest) :
    ∃ c cs, t.chars = c :: cs ∧ isBlank c = false ∧
      ofCons c (cs ++ rest) = ⟨.ok t, c :: cs, rest⟩ := by
  cases t with
  | float x => exact hplain.elim
  | int n =>
    obtain ⟨k, hk⟩ := Int.eq_ofNat_of_zero_le hplain
    obtain ⟨c, cs, hchars, hdigit, hreading⟩ := ofCons_digits k h.ended
    rw [← hk, Checked.ofInt?_toInt] at hreading
    refine ⟨c, cs, ?_, isBlank_of_isDigit hdigit, hreading⟩
    rw [Token.chars, hk, ← hchars]
    exact Nat.toList_repr
  | string s =>
    refine ⟨'\'', s.toList.flatMap escape ++ ['\''], rfl, rfl, ?_⟩
    rw [List.append_assoc, List.singleton_append]
    rw [ofCons, if_neg (by decide), if_neg (by decide), if_pos (by decide), quoted?_escape]
    simp [unescape_escape]
  | ident name => exact ofCons_name hplain h.ended
  | symbol s =>
    rcases h with rfl | ⟨rest, rfl⟩ <;> cases s <;> exact ⟨_, _, rfl, rfl, rfl⟩

end Reading

/-! ### The text of tokens -/

/-- The text of tokens, with blanks between them. -/
def spelled (ts : List Token) : List Char :=
  [' '].intercalate (ts.map Token.chars)

private theorem spelled_cons (t : Token) (ts : List Token) :
    ∃ rest, Parted rest ∧ spelled (t :: ts) = t.chars ++ rest ∧
      (rest = [] ∧ ts = [] ∨ rest = ' ' :: spelled ts) := by
  cases ts with
  | nil => exact ⟨[], .inl rfl, by simp [spelled], .inl ⟨rfl, rfl⟩⟩
  | cons u us => exact ⟨' ' :: spelled (u :: us), .inr ⟨_, rfl⟩, by simp [spelled], .inr rfl⟩

theorem lexFrom_nil (offset : Nat) : lexFrom offset [] = .ok [] := by
  rw [lexFrom.eq_def]

/-- A blank in front does not change the tokens. -/
theorem lexFrom_blank {c : Char} (hblank : isBlank c = true) (offset : Nat) (cs : List Char) :
    lexFrom offset (c :: cs) = lexFrom (offset + c.utf8Size) cs := by
  rw [lexFrom.eq_def]
  simp only [hblank]
  rfl

/-- A text that starts with no blank starts with a token, if it has tokens at all. -/
theorem lexFrom_cons {c : Char} (hblank : isBlank c = false) (offset : Nat) (cs : List Char) :
    lexFrom offset (c :: cs) =
      match (Reading.ofCons c cs).token with
      | .error reason => .error (.malformed offset reason)
      | .ok token => do
        let lexemes ← lexFrom (offset + byteLength (Reading.ofCons c cs).spelling)
          (Reading.ofCons c cs).rest
        return ⟨offset, token⟩ :: lexemes := by
  rw [lexFrom.eq_def]
  simp only [hblank]
  rfl

/-- The text of plain tokens is read into these tokens. -/
theorem lexFrom_spelled {ts : List Token} (hplain : ∀ t ∈ ts, t.Plain) (offset : Nat) :
    ∃ lexemes, lexFrom offset (spelled ts) = .ok lexemes ∧ lexemes.map Lexeme.token = ts := by
  induction ts generalizing offset with
  | nil => exact ⟨[], lexFrom_nil offset, rfl⟩
  | cons t ts ih =>
    obtain ⟨rest, hparted, heq, hrest⟩ := spelled_cons t ts
    obtain ⟨c, cs, hchars, hblank, hreading⟩ :=
      Reading.ofCons_chars (hplain t List.mem_cons_self) hparted
    have hbehind (offset : Nat) :
        ∃ lexemes, lexFrom offset rest = .ok lexemes ∧ lexemes.map Lexeme.token = ts := by
      rcases hrest with ⟨rfl, rfl⟩ | rfl
      · exact ⟨[], lexFrom_nil offset, rfl⟩
      · obtain ⟨lexemes, hlex, htokens⟩ :=
          ih (fun t ht => hplain t (List.mem_cons_of_mem _ ht)) (offset + 1)
        exact ⟨lexemes, (lexFrom_blank (by decide) offset _).trans hlex, htokens⟩
    obtain ⟨lexemes, hlex, htokens⟩ := hbehind (offset + byteLength (c :: cs))
    refine ⟨⟨offset, t⟩ :: lexemes, ?_, by rw [List.map_cons, htokens]⟩
    rw [heq, hchars, List.cons_append, lexFrom_cons hblank]
    simp only [hreading, hlex]
    rfl

end TextTemplate
