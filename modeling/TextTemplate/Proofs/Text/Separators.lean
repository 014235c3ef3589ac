import TextTemplate.Proofs.Text.Nesting

/-!
# Cutting at separators

A directive's body, and every part that is cut out of it, is cut again at the separators outside its
strings and brackets. The parts are found byte by byte; where a backslash stands in a string, the
next byte is skipped, also if it is the first one of a longer character. Nothing but the separators
is lost, no character and no string is cut in two, and no separator is left over in a part.

## Main definitions

* `topLevelTexts`: the texts between the separators outside strings and brackets.
* `Span.splitBytes`: the parts as they are found byte by byte.
* `CutFrom`: what is cut out of the body of a directive.

## Main results

* `Span.splitBytes_eq`: byte by byte, the same parts are found.
* `mem_stops_splitTopLevelFrom_iff`: where a text is cut.
* `split_at_top_level`: what the parts of a body are.
-/

namespace TextTemplate

/-- The characters at which bodies are cut. -/
def separators : List Char :=
  [',', ':', ';']

private theorem isPlain_of_mem_separators {c : Char} (h : c ∈ separators) : IsPlain c := by
  simp only [separators, List.mem_cons, List.not_mem_nil, or_false] at h
  rcases h with rfl | rfl | rfl <;> decide

private theorem toNat_lt_of_mem_separators {c : Char} (h : c ∈ separators) : c.toNat < 128 := by
  simp only [separators, List.mem_cons, List.not_mem_nil, or_false] at h
  rcases h with rfl | rfl | rfl <;> decide

private theorem utf8Size_of_mem_separators {c : Char} (h : c ∈ separators) : c.utf8Size = 1 :=
  utf8Size_of_lt (toNat_lt_of_mem_separators h)

/-! ### The texts between separators -/

/-- The texts between the separators outside strings and brackets, for a reader that stands where
the first one goes on. -/
def topLevelTexts (separator : Char) : Nesting → List Char → List (List Char)
  | _, [] => [[]]
  | nesting, c :: cs =>
    if c = separator ∧ nesting = .outside then [] :: topLevelTexts separator (nesting.next c) cs
    else (topLevelTexts separator (nesting.next c) cs).modifyHead (c :: ·)

/-- The spans of texts that stand one behind the other, one byte apart. -/
def spansFrom : Nat → List (List Char) → List Span
  | _, [] => []
  | start, text :: texts =>
    ⟨start, start + byteLength text⟩ :: spansFrom (start + byteLength text + 1) texts

section Texts

variable {separator : Char} {start pos : Nat}

/-- A text is cut where its reader stands in no bracket and in no string. -/
theorem splitTopLevelFrom_cons (hplainPart : IsPlain separator) (nesting : Nesting) (c : Char)
    (cs : List Char) :
    splitTopLevelFrom separator start pos nesting.depth nesting.quoting (c :: cs) =
      if c = separator ∧ nesting = .outside then
        ⟨start, pos⟩ :: splitTopLevelFrom separator (pos + c.utf8Size) (pos + c.utf8Size)
          (nesting.next c).depth (nesting.next c).quoting cs
      else
        splitTopLevelFrom separator start (pos + c.utf8Size) (nesting.next c).depth
          (nesting.next c).quoting cs := by
  obtain ⟨depth, quoting⟩ := nesting
  cases quoting with
  | quoted | escaped => rw [if_neg (by rintro ⟨-, ⟨⟩⟩)]; rfl
  | plain =>
    have houtside : Nesting.mk depth .plain = .outside ↔ depth = 0 := by simp [Nesting.outside]
    simp only [houtside]
    rw [splitTopLevelFrom]
    by_cases hquote : isQuote c = true
    · have hother : c ≠ separator := by
        rintro rfl
        cases hplainPart.1.symm.trans hquote
      rw [Nesting.next_of_isQuote hquote, if_pos hquote, if_neg (hother ·.1)]
    · rw [if_neg hquote]
      cases hopens : closerOf c with
      | some closer =>
        have hother : c ≠ separator := by
          rintro rfl
          cases hplainPart.2.1.symm.trans hopens
        rw [Nesting.next_of_closerOf hopens, if_pos Option.isSome_some, if_neg (hother ·.1)]
      | none =>
        rw [Option.isSome_none, if_neg Bool.false_ne_true]
        by_cases hcloses : isCloser c = true
        · have hother : c ≠ separator := by
            rintro rfl
            cases hplainPart.2.2.symm.trans hcloses
          rw [Nesting.next_of_isCloser hcloses, if_pos hcloses, if_neg (hother ·.1)]
        · have hplain : IsPlain c :=
            ⟨Bool.eq_false_iff.2 hquote, hopens, Bool.eq_false_iff.2 hcloses⟩
          rw [Nesting.next_of_isPlain hplain, if_neg hcloses]
          by_cases hcut : c = separator ∧ depth = 0
          · rw [if_pos hcut, if_pos hcut, hcut.2]
          · rw [if_neg hcut, if_neg hcut]

/-- The parts of a text are the spans of the texts between its separators. What has been read of the
first one is `read`. -/
theorem splitTopLevelFrom_eq (h : separator ∈ separators) (start : Nat) (nesting : Nesting)
    (read cs : List Char) :
    splitTopLevelFrom separator start (start + byteLength read) nesting.depth nesting.quoting cs =
      spansFrom start ((topLevelTexts separator nesting cs).modifyHead (read ++ ·)) := by
  induction cs generalizing start nesting read with
  | nil => simp [splitTopLevelFrom, topLevelTexts, spansFrom]
  | cons c cs ih =>
    rw [splitTopLevelFrom_cons (isPlain_of_mem_separators h), topLevelTexts]
    split_ifs with hcut
    · obtain ⟨rfl, -⟩ := hcut
      have hmore := ih (start + byteLength read + 1) (nesting.next c) []
      have hsame : (([] : List Char) ++ ·) = id := rfl
      rw [byteLength_nil, Nat.add_zero, hsame, List.modifyHead_id, id] at hmore
      rw [utf8Size_of_mem_separators h, hmore, List.modifyHead_cons, spansFrom, List.append_nil]
    · have hread' : start + byteLength read + c.utf8Size = start + byteLength (read ++ [c]) := by
        simp [Nat.add_assoc]
      rw [hread', ih, List.modifyHead_modifyHead]
      congr 2
      funext text
      simp

private theorem exists_topLevelTexts_eq (separator : Char) (nesting : Nesting) (cs : List Char) :
    ∃ text texts, topLevelTexts separator nesting cs = text :: texts := by
  induction cs generalizing nesting with
  | nil => exact ⟨[], [], rfl⟩
  | cons c cs ih =>
    rw [topLevelTexts]
    split_ifs
    · exact ⟨_, _, rfl⟩
    · obtain ⟨text, texts, hmore⟩ := ih (nesting.next c)
      exact ⟨c :: text, texts, by rw [hmore]; rfl⟩

/-- Nothing is lost but the separators. -/
theorem intercalate_topLevelTexts (separator : Char) (nesting : Nesting) (cs : List Char) :
    [separator].intercalate (topLevelTexts separator nesting cs) = cs := by
  induction cs generalizing nesting with
  | nil => rfl
  | cons c cs ih =>
    obtain ⟨text, texts, hmore⟩ := exists_topLevelTexts_eq separator (nesting.next c) cs
    have ih := ih (nesting.next c)
    rw [topLevelTexts, hmore] at *
    split_ifs with hcut
    · rw [List.intercalate_cons_cons, ih, hcut.1]
      rfl
    · rw [List.modifyHead_cons]
      cases texts with
      | nil => simpa using ih
      | cons second texts =>
        rw [List.intercalate_cons_cons] at ih ⊢
        rw [← ih]
        simp

/-- A text between separators has no such separator itself, and closes its strings if the whole text
does. -/
theorem topLevelTexts_spec (hplain : IsPlain separator) {nesting : Nesting}
    {cs text : List Char} {texts : List (List Char)}
    (h : topLevelTexts separator nesting cs = text :: texts) :
    (topLevelTexts separator nesting text = [text] ∧
      ∀ other ∈ texts, topLevelTexts separator .outside other = [other]) ∧
    ((nesting.behind cs).quoting = .plain → (nesting.behind text).quoting = .plain ∧
      ∀ other ∈ texts, (Nesting.outside.behind other).quoting = .plain) := by
  induction cs generalizing nesting text texts with
  | nil =>
    obtain ⟨rfl, rfl⟩ := List.cons.inj h
    exact ⟨⟨rfl, nofun⟩, fun hclosed => ⟨hclosed, nofun⟩⟩
  | cons c cs ih =>
    rw [topLevelTexts] at h
    split_ifs at h with hcut
    · obtain ⟨rfl, rfl⟩ := List.cons.inj h
      obtain ⟨rfl, rfl⟩ := hcut
      obtain ⟨text, texts, hmore⟩ := exists_topLevelTexts_eq c (Nesting.outside.next c) cs
      have hsame : Nesting.outside.next c = .outside := Nesting.next_of_isPlain hplain
      obtain ⟨huncut, hclosed⟩ := ih hmore
      rw [hmore, Nesting.behind_cons]
      rw [hsame] at huncut hclosed ⊢
      exact ⟨⟨rfl, List.forall_mem_cons.2 huncut⟩,
        fun hwhole => ⟨rfl, List.forall_mem_cons.2 (hclosed hwhole)⟩⟩
    · obtain ⟨first, others, hmore⟩ := exists_topLevelTexts_eq separator (nesting.next c) cs
      rw [hmore] at h
      obtain ⟨rfl, rfl⟩ := List.cons.inj h
      obtain ⟨⟨huncut, huncuts⟩, hclosed⟩ := ih hmore
      refine ⟨⟨?_, huncuts⟩, hclosed⟩
      rw [topLevelTexts, if_neg hcut, huncut]
      rfl

/-- The places at which a text is cut are those of the separators in front of which its reader
stands in no bracket and in no string. -/
theorem mem_stops_splitTopLevelFrom_iff (h : separator ∈ separators) (start pos : Nat)
    (nesting : Nesting) (cs : List Char) (offset : Nat) :
    (∃ part ∈ splitTopLevelFrom separator start pos nesting.depth nesting.quoting cs,
      part.stop = offset ∧ offset < pos + byteLength cs) ↔
    ∃ before after, cs = before ++ separator :: after ∧ nesting.behind before = .outside ∧
      offset = pos + byteLength before := by
  induction cs generalizing start pos nesting with
  | nil => simpa [splitTopLevelFrom] using Nat.le_of_eq
  | cons c cs ih =>
    -- A place behind the first character.
    have hlater : (∃ before after, cs = before ++ separator :: after ∧
        (nesting.next c).behind before = .outside ∧
        offset = pos + c.utf8Size + byteLength before) ↔
        ∃ before after, c :: cs = (c :: before) ++ separator :: after ∧
          nesting.behind (c :: before) = .outside ∧ offset = pos + byteLength (c :: before) := by
      simp [Nesting.behind_cons, Nat.add_assoc]
    rw [splitTopLevelFrom_cons (isPlain_of_mem_separators h), byteLength_cons, ← Nat.add_assoc]
    have hsize := c.utf8Size_pos
    constructor
    · intro hfound
      split_ifs at hfound with hcut
      · obtain ⟨part, hmem, hstops, hinside⟩ := hfound
        obtain rfl | hmem := List.mem_cons.1 hmem
        · exact ⟨[], cs, by rw [hcut.1]; rfl, hcut.2, hstops.symm⟩
        · obtain ⟨before, after, hfound⟩ := hlater.1 ((ih _ _ _).1 ⟨part, hmem, hstops, hinside⟩)
          exact ⟨c :: before, after, hfound⟩
      · obtain ⟨before, after, hfound⟩ := hlater.1 ((ih _ _ _).1 hfound)
        exact ⟨c :: before, after, hfound⟩
    · rintro ⟨before, after, hsplit, houtside, hplace⟩
      cases before with
      | nil =>
        obtain ⟨rfl, rfl⟩ := List.cons.inj hsplit
        rw [if_pos ⟨rfl, houtside⟩]
        rw [byteLength_nil, Nat.add_zero] at hplace
        exact ⟨_, List.mem_cons_self, hplace.symm, by omega⟩
      | cons d before =>
        obtain ⟨rfl, -⟩ := List.cons.inj hsplit
        have hfound := hlater.2 ⟨before, after, hsplit, houtside, hplace⟩
        split_ifs
        · obtain ⟨part, hmem, hstops⟩ := (ih (pos + c.utf8Size) _ _).2 hfound
          exact ⟨part, List.mem_cons_of_mem _ hmem, hstops⟩
        · exact (ih _ _ _).2 hfound

end Texts

/-! ### Byte by byte -/

/-- Cuts the bytes behind byte `pos` of a source at the separators outside strings and brackets, up
to byte `stop`: `start` is where the part begins that is being read, and `quote?` the quote of the
string that is being read, if one is. Behind a backslash in a string, a byte is skipped. -/
def splitBytesFrom (separator : Char) (stop : Nat) :
    Nat → Nat → Nat → Option Char → List UInt8 → List Span
  | start, _, _, _, [] => [⟨start, stop⟩]
  | start, pos, depth, quote?, byte :: bytes =>
    if stop ≤ pos then [⟨start, stop⟩]
    else
      let c := Char.ofUInt8 byte
      match quote? with
      | some quote =>
        if c = '\\' then
          match bytes with
          | [] => [⟨start, stop⟩]
          | _ :: bytes => splitBytesFrom separator stop start (pos + 2) depth (some quote) bytes
        else if c = quote then splitBytesFrom separator stop start (pos + 1) depth none bytes
        else splitBytesFrom separator stop start (pos + 1) depth (some quote) bytes
      | none =>
        if isQuote c then splitBytesFrom separator stop start (pos + 1) depth (some c) bytes
        else if (closerOf c).isSome then
          splitBytesFrom separator stop start (pos + 1) (depth + 1) none bytes
        else if isCloser c then
          splitBytesFrom separator stop start (pos + 1) (depth - 1) none bytes
        else if c = separator ∧ depth = 0 then
          ⟨start, pos⟩ :: splitBytesFrom separator stop (pos + 1) (pos + 1) depth none bytes
        else
          splitBytesFrom separator stop start (pos + 1) depth none bytes

/-- The parts of a span, as they are found byte by byte. -/
def Span.splitBytes (source : String) (span : Span) (separator : Char) : List Span :=
  splitBytesFrom separator span.stop span.start span.start 0 none
    (source.toByteArray.data.toList.drop span.start)

/-- Where the reader of bytes goes on when the reader of characters goes on: behind a backslash, it
has skipped a byte already. -/
def resumeSplit (separator : Char) (stop start pos depth : Nat) (bytes : List UInt8) :
    Quoting → List Span
  | .plain => splitBytesFrom separator stop start pos depth none bytes
  | .quoted quote => splitBytesFrom separator stop start pos depth (some quote) bytes
  | .escaped quote => splitBytesFrom separator stop start (pos + 1) depth (some quote) bytes.tail

section Bytes

variable {separator : Char} {stop start pos depth : Nat} {bytes : List UInt8}

private theorem splitBytesFrom_of_le (h : stop ≤ pos) (quote? : Option Char) (bytes : List UInt8) :
    splitBytesFrom separator stop start pos depth quote? bytes = [⟨start, stop⟩] := by
  cases bytes with
  | nil => rfl
  | cons byte bytes => rw [splitBytesFrom, if_pos h]

/-- Bytes beyond ASCII are passed over. -/
theorem splitBytesFrom_of_high (hseparator : separator ∈ separators) {quote? : Option Char}
    (hproper : ∀ quote ∈ quote?, isQuote quote = true) {high : List UInt8}
    (hhigh : ∀ byte ∈ high, 128 ≤ (Char.ofUInt8 byte).toNat) (hstop : pos + high.length ≤ stop) :
    splitBytesFrom separator stop start pos depth quote? (high ++ bytes) =
      splitBytesFrom separator stop start (pos + high.length) depth quote? bytes := by
  induction high generalizing pos with
  | nil => rfl
  | cons byte high ih =>
    obtain ⟨hbyte, hhigh⟩ := List.forall_mem_cons.1 hhigh
    obtain ⟨⟨hnoQuote, hnoOpener, hnoCloser⟩, hnoBackslash⟩ := isPlain_of_le hbyte
    rw [List.length_cons] at hstop ⊢
    have hinside : ¬stop ≤ pos := by omega
    have hother : Char.ofUInt8 byte ≠ separator := by
      intro hsame
      have := toNat_lt_of_mem_separators hseparator
      rw [← hsame] at this
      omega
    have hrest := ih hhigh (by omega : pos + 1 + high.length ≤ stop)
    rw [Nat.add_right_comm] at hrest
    rw [List.cons_append, splitBytesFrom, if_neg hinside, ← Nat.add_assoc, ← hrest]
    cases quote? with
    | none => simp [hnoQuote, hnoOpener, hnoCloser, hother]
    | some quote =>
      have hnoEnd : Char.ofUInt8 byte ≠ quote := by
        intro hsame
        cases hnoQuote.symm.trans (hsame ▸ hproper quote rfl)
      simp [hnoBackslash, hnoEnd]

/-- The same for the bytes of a character, where the reader has not skipped any of them. -/
theorem resumeSplit_of_high (hseparator : separator ∈ separators) {quoting : Quoting}
    (hproper : quoting.Proper) {byte : UInt8} {high : List UInt8}
    (hhigh : ∀ b ∈ byte :: high, 128 ≤ (Char.ofUInt8 b).toNat)
    (hstop : pos + (byte :: high).length ≤ stop) {c : Char} (hc : 128 ≤ c.toNat) :
    resumeSplit separator stop start pos depth (byte :: high ++ bytes) quoting =
      resumeSplit separator stop start (pos + (byte :: high).length) depth bytes
        (quoting.next c) := by
  obtain ⟨⟨hnoQuote, -, -⟩, hnoBackslash⟩ := isPlain_of_le hc
  cases quoting with
  | plain =>
    rw [Quoting.next, if_neg (Bool.eq_false_iff.1 hnoQuote)]
    exact splitBytesFrom_of_high hseparator (by rintro _ ⟨⟩) hhigh hstop
  | quoted quote =>
    have hnoEnd : c ≠ quote := by
      rintro rfl
      cases hnoQuote.symm.trans hproper
    rw [Quoting.next, if_neg hnoBackslash, if_neg hnoEnd]
    exact splitBytesFrom_of_high hseparator (by rintro _ ⟨⟩; exact hproper) hhigh hstop
  | escaped quote =>
    have hbehind : pos + (byte :: high).length = pos + 1 + high.length := by
      rw [List.length_cons]
      omega
    rw [hbehind] at hstop ⊢
    exact splitBytesFrom_of_high hseparator (by rintro _ ⟨⟩; exact hproper)
      (List.forall_mem_cons.1 hhigh).2 hstop

/-- The reader of bytes finds the parts that the reader of characters finds. -/
theorem resumeSplit_eq (hseparator : separator ∈ separators) (quoting : Quoting)
    (hproper : quoting.Proper) (cs : List Char) (hstop : stop = pos + byteLength cs) :
    resumeSplit separator stop start pos depth (cs.flatMap String.utf8EncodeChar ++ bytes) quoting =
      splitTopLevelFrom separator start pos depth quoting cs := by
  induction cs generalizing start pos depth quoting with
  | nil =>
    rw [byteLength_nil, Nat.add_zero] at hstop
    rw [splitTopLevelFrom, ← hstop]
    cases quoting with
    | plain | quoted => exact splitBytesFrom_of_le (Nat.le_refl _) _ _
    | escaped => exact splitBytesFrom_of_le (Nat.le_succ _) _ _
  | cons c cs ih =>
    rw [byteLength_cons, ← Nat.add_assoc] at hstop
    rw [List.flatMap_cons, List.append_assoc]
    obtain ⟨byte, hsingle, rfl⟩ | ⟨hc, byte, high, hsplit, hhigh⟩ := utf8EncodeChar_cases c
    · have hsize : (Char.ofUInt8 byte).utf8Size = 1 := utf8Size_of_utf8EncodeChar hsingle
      have hinside : ¬stop ≤ pos := by omega
      rw [hsize] at hstop
      rw [hsingle, List.singleton_append]
      cases quoting with
      | plain =>
        rw [resumeSplit, splitBytesFrom, if_neg hinside, splitTopLevelFrom]
        simp only [hsize]
        split_ifs with hquote opens closes hcut
        · exact ih (.quoted _) hquote hstop
        · exact ih .plain trivial hstop
        · exact ih .plain trivial hstop
        · rw [hcut.2]
          exact congrArg _ (ih .plain trivial hstop)
        · exact ih .plain trivial hstop
      | quoted quote =>
        rw [resumeSplit, splitBytesFrom, if_neg hinside, splitTopLevelFrom]
        simp only [hsize]
        split_ifs with backslash ends
        · rw [← ih (.escaped quote) hproper hstop]
          cases cs.flatMap String.utf8EncodeChar ++ bytes <;> rfl
        · exact ih .plain trivial hstop
        · exact ih (.quoted quote) hproper hstop
      | escaped quote =>
        rw [splitTopLevelFrom, hsize]
        exact ih (.quoted quote) hproper hstop
    · have hother : c ≠ separator := by
        rintro rfl
        have := toNat_lt_of_mem_separators hseparator
        omega
      have hlength : (byte :: high).length = c.utf8Size := by
        rw [← hsplit, String.length_utf8EncodeChar]
      have hchars : splitTopLevelFrom separator start pos depth quoting (c :: cs) = _ :=
        splitTopLevelFrom_cons (isPlain_of_mem_separators hseparator) ⟨depth, quoting⟩ c cs
      rw [Nesting.next_of_le hc, if_neg (hother ·.1)] at hchars
      rw [hsplit, resumeSplit_of_high hseparator hproper hhigh (by omega) hc, hchars, hlength]
      exact ih (quoting.next c) (hproper.next c) hstop

end Bytes

/-! ### Spans of parts -/

section Spans

variable {source : String} {separator : Char} {span part : Span} {texts : List (List Char)}

/-- The first one of texts that are joined by separators, and the others. -/
theorem Span.Covers.of_intercalate_cons {text : List Char} (hseparator : separator.utf8Size = 1)
    (h : span.Covers source ([separator].intercalate (text :: texts))) :
    (Span.mk span.start (span.start + byteLength text)).Covers source text ∧
      (texts ≠ [] → (Span.mk (span.start + byteLength text + 1) span.stop).Covers source
        ([separator].intercalate texts)) := by
  cases texts with
  | nil =>
    rw [List.intercalate_singleton] at h
    rw [← h.stop_eq]
    exact ⟨h, fun hne => absurd rfl hne⟩
  | cons second texts =>
    have hstop := h.stop_eq
    rw [List.intercalate_cons_cons] at h hstop
    have hfirst : span.Covers source
        ([] ++ text ++ ([separator] ++ [separator].intercalate (second :: texts))) := by
      simpa using h
    rw [← List.append_nil (_ ++ _)] at h
    refine ⟨hfirst.part, fun _ => ?_⟩
    have hrest := h.part
    simp only [byteLength_append, byteLength_cons, byteLength_nil, hseparator] at hrest hstop
    convert hrest using 2
    · omega
    · omega

private theorem forall₂_covers_spansFrom (hseparator : separator.utf8Size = 1)
    (h : span.Covers source ([separator].intercalate texts)) :
    List.Forall₂ (Span.Covers source) (spansFrom span.start texts) texts := by
  induction texts generalizing span with
  | nil => exact .nil
  | cons text texts ih =>
    obtain ⟨hfirst, hmore⟩ := h.of_intercalate_cons hseparator
    refine .cons hfirst ?_
    by_cases hlast : texts = []
    · rw [hlast]
      exact .nil
    · exact ih (hmore hlast)

/-- The spans of texts that are joined by separators, and all that stands behind the start of each
of them. -/
theorem exists_of_mem_spansFrom (hseparator : separator.utf8Size = 1)
    (h : span.Covers source ([separator].intercalate texts))
    (hpart : part ∈ spansFrom span.start texts) : ∃ earlier text later,
      texts = earlier ++ text :: later ∧ part.Covers source text ∧
      (Span.mk part.start span.stop).Covers source ([separator].intercalate (text :: later)) ∧
      span.start ≤ part.start := by
  induction texts generalizing span with
  | nil => cases hpart
  | cons text texts ih =>
    obtain ⟨hfirst, hmore⟩ := h.of_intercalate_cons hseparator
    obtain rfl | hpart := List.mem_cons.1 hpart
    · exact ⟨[], text, texts, rfl, hfirst, h, Nat.le_refl _⟩
    · have hsome : texts ≠ [] := by
        rintro rfl
        cases hpart
      obtain ⟨earlier, found, later, rfl, hcovers, hbehind, hle⟩ := ih (hmore hsome) hpart
      refine ⟨text :: earlier, found, later, rfl, hcovers, hbehind, ?_⟩
      simp only at hle
      omega

/-- The parts of a span. -/
theorem splitTopLevel_eq (hseparator : separator ∈ separators) {text : List Char}
    (h : span.Covers source text) : splitTopLevel source span separator =
      spansFrom span.start (topLevelTexts separator .outside text) := by
  have hparts := splitTopLevelFrom_eq hseparator span.start .outside [] text
  have hsame : (([] : List Char) ++ ·) = id := rfl
  rw [hsame, List.modifyHead_id, id] at hparts
  rw [splitTopLevel, h.chars_eq]
  exact hparts

/-- The same parts are found byte by byte. -/
theorem Span.splitBytes_eq (hseparator : separator ∈ separators) {text : List Char}
    (h : span.Covers source text) :
    span.splitBytes source separator = splitTopLevel source span separator := by
  have hstop := h.stop_eq
  rw [splitTopLevel, h.chars_eq]
  obtain ⟨before, after, hsource, hspan⟩ := h
  have hbytes : source.toByteArray.data.toList.drop span.start =
      text.flatMap String.utf8EncodeChar ++ after.flatMap String.utf8EncodeChar := by
    rw [List.append_assoc] at hsource
    rw [hspan, Cursor.drop_bytes hsource, List.flatMap_append]
  rw [splitBytes, hbytes]
  exact resumeSplit_eq hseparator .plain trivial text hstop

/-- Each part starts one byte behind the end of the one before it. -/
theorem isChain_spansFrom (start : Nat) (texts : List (List Char)) :
    (spansFrom start texts).IsChain fun part next => next.start = part.stop + 1 := by
  induction texts generalizing start with
  | nil => exact .nil
  | cons text texts ih =>
    cases texts with
    | nil => exact .singleton _
    | cons second texts => exact .cons_cons rfl (ih _)

/-- The last part ends where the joined texts end. -/
theorem getLast?_spansFrom (hseparator : separator.utf8Size = 1) (start : Nat)
    (hne : texts ≠ []) : ((spansFrom start texts).getLast?.map Span.stop) =
      some (start + byteLength ([separator].intercalate texts)) := by
  induction texts generalizing start with
  | nil => exact absurd rfl hne
  | cons text texts ih =>
    cases texts with
    | nil => rw [List.intercalate_singleton]; rfl
    | cons second texts =>
      have hmore := ih (start + byteLength text + 1) (List.cons_ne_nil _ _)
      rw [spansFrom, spansFrom, List.getLast?_cons_cons, ← spansFrom, hmore,
        List.intercalate_cons_cons]
      simp [hseparator, Nat.add_assoc]

end Spans

/-! ### What is cut out of a body -/

/-- The span covers a text in which all strings end. -/
def Span.Intact (source : String) (span : Span) : Prop :=
  ∃ text, span.Covers source text ∧ StringsEnd text

/-- The span is the whole one, or is cut out of it: a part between separators, all that stands
behind the start of such a part, or what is left without the blanks at both ends. -/
inductive CutFrom (source : String) (whole : Span) : Span → Prop
  | whole : CutFrom source whole whole
  | part {span part : Span} {separator : Char} (cut : CutFrom source whole span)
      (isSeparator : separator ∈ separators) (mem : part ∈ splitTopLevel source span separator) :
      CutFrom source whole part
  | behind {span part : Span} {separator : Char} (cut : CutFrom source whole span)
      (isSeparator : separator ∈ separators) (mem : part ∈ splitTopLevel source span separator) :
      CutFrom source whole ⟨part.start, span.stop⟩
  | trim {span : Span} (cut : CutFrom source whole span) : CutFrom source whole (span.trim source)

section Intact

variable {source : String} {span part whole : Span} {separator : Char}

/-- So does the body of a directive. -/
theorem Directive.intact_body {d : Directive}
    (h : .directive d ∈ (Outline.ofSource source).pieces) : d.body.Intact source := by
  obtain ⟨front, sigil, name, body, back, hsource, rfl, hbalanced⟩ :=
    (Outline.ofSource_eq_iff.1 rfl).exists_directiveAt h
  exact ⟨body, covers_body hsource, .of_balanced hbalanced⟩

/-- A part of a span, and all that stands behind its start, covers a text in which all strings end,
if the span does. The part lies within the span and is not cut any further. -/
theorem Span.Intact.of_mem (h : span.Intact source) (hseparator : separator ∈ separators)
    (hpart : part ∈ splitTopLevel source span separator) :
    part.Intact source ∧ (Span.mk part.start span.stop).Intact source ∧
      (span.start ≤ part.start ∧ part.start ≤ part.stop ∧ part.stop ≤ span.stop) ∧
      splitTopLevel source part separator = [part] := by
  obtain ⟨text, hcovers, hclosed⟩ := h
  have hplain := isPlain_of_mem_separators hseparator
  rw [splitTopLevel_eq hseparator hcovers] at hpart
  rw [← intercalate_topLevelTexts separator .outside text] at hcovers
  obtain ⟨earlier, middle, later, hsplit, hmiddleCovers, hbehindCovers, hle⟩ :=
    exists_of_mem_spansFrom (utf8Size_of_mem_separators hseparator) hcovers hpart
  -- What holds of each text between separators.
  have heach : ∀ other ∈ topLevelTexts separator .outside text,
      topLevelTexts separator .outside other = [other] ∧ StringsEnd other := by
    obtain ⟨first, others, hall⟩ := exists_topLevelTexts_eq separator .outside text
    obtain ⟨⟨huncut, huncuts⟩, hends⟩ := topLevelTexts_spec hplain hall
    simp only [Nesting.quoting_behind] at hends
    obtain ⟨hends, hallEnd⟩ := hends hclosed
    rw [hall]
    exact List.forall_mem_cons.2
      ⟨⟨huncut, hends⟩, fun other hmem => ⟨huncuts other hmem, hallEnd other hmem⟩⟩
  rw [hsplit] at heach
  obtain ⟨huncut, hends⟩ := heach middle (List.mem_append_right _ List.mem_cons_self)
  have hlaterEnd : ∀ other ∈ middle :: later, StringsEnd other :=
    fun other hmem => (heach other (List.mem_append_right _ hmem)).2
  refine ⟨⟨middle, hmiddleCovers, hends⟩, ⟨_, hbehindCovers, .intercalate hplain hlaterEnd⟩,
    ⟨hle, ?_, ?_⟩, ?_⟩
  · rw [hmiddleCovers.stop_eq]
    exact Nat.le_add_right _ _
  · have hstop := hbehindCovers.stop_eq
    have hmore : byteLength middle ≤ byteLength ([separator].intercalate (middle :: later)) := by
      cases later with
      | nil => rw [List.intercalate_singleton]
      | cons second later => simp
    simp only at hstop
    rw [hmiddleCovers.stop_eq, hstop]
    exact Nat.add_le_add_left hmore _
  · rw [splitTopLevel_eq hseparator hmiddleCovers, huncut, spansFrom, spansFrom,
      ← hmiddleCovers.stop_eq]

/-- All that is cut out of a span covers a text in which all strings end, if the span does. -/
theorem CutFrom.intact (h : CutFrom source whole span) (hwhole : whole.Intact source) :
    span.Intact source := by
  induction h with
  | whole => exact hwhole
  | part _ hseparator hmem ih => exact (ih.of_mem hseparator hmem).1
  | behind _ hseparator hmem ih => exact (ih.of_mem hseparator hmem).2.1
  | trim _ ih =>
    obtain ⟨text, hcovers, hclosed⟩ := ih
    exact ⟨_, hcovers.trim, hclosed.trim⟩

end Intact

/-- Whatever has been cut out of the body of a directive is cut at a comma, a colon or a semicolon
into parts that stand in order and within it, one byte apart: with the separators between them, they
are its text. They are found byte by byte as well. No part has a string that does not end in it, and
none is cut any further by the same separator. Where the text closes its brackets and strings, it is
cut at those separators, and no others, in front of and behind which it does so too. -/
theorem split_at_top_level {source : String} {d : Directive} {range : Span} {separator : Char}
    (hd : .directive d ∈ (Outline.ofSource source).pieces)
    (hrange : CutFrom source d.body range) (hseparator : separator ∈ separators) :
    let parts := splitTopLevel source range separator
    range.splitBytes source separator = parts ∧
    (parts.head?.map Span.start = some range.start ∧
      parts.getLast?.map Span.stop = some range.stop ∧
      parts.IsChain (fun part next => next.start = part.stop + 1) ∧
      ∀ part ∈ parts, range.start ≤ part.start ∧ part.start ≤ part.stop ∧ part.stop ≤ range.stop) ∧
    (∃ texts, List.Forall₂ (Span.Covers source) parts texts ∧
      range.Covers source ([separator].intercalate texts) ∧ ∀ text ∈ texts, StringsEnd text) ∧
    (∀ part ∈ parts, splitTopLevel source part separator = [part]) ∧
    (Closed none (range.chars source) → ∀ offset,
      (∃ part ∈ parts, part.stop = offset ∧ offset < range.stop) ↔
        ∃ before after, range.chars source = before ++ separator :: after ∧
          Closed none before ∧ Closed none after ∧ offset = range.start + byteLength before) := by
  have hintact := hrange.intact (Directive.intact_body hd)
  have hwithin (part : Span) (hpart : part ∈ splitTopLevel source range separator) :=
    (hintact.of_mem hseparator hpart).2.2
  obtain ⟨text, hcovers, hisClosed⟩ := id hintact
  have hparts := splitTopLevel_eq hseparator hcovers
  have hjoined := hcovers
  rw [← intercalate_topLevelTexts separator .outside text] at hjoined
  have hsize := utf8Size_of_mem_separators hseparator
  obtain ⟨first, others, hall⟩ := exists_topLevelTexts_eq separator .outside text
  refine ⟨Span.splitBytes_eq hseparator hcovers,
    ⟨?_, ?_, ?_, fun part hpart => (hwithin part hpart).1⟩, ⟨_, ?_, hjoined, ?_⟩,
    fun part hpart => (hwithin part hpart).2, fun hclosed offset => ?_⟩
  · rw [hparts, hall]
    rfl
  · rw [hparts, getLast?_spansFrom hsize _ (hall ▸ List.cons_ne_nil _ _), hjoined.stop_eq]
  · rw [hparts]
    exact isChain_spansFrom _ _
  · rw [hparts]
    exact forall₂_covers_spansFrom hsize hjoined
  · obtain ⟨-, hends⟩ := topLevelTexts_spec (isPlain_of_mem_separators hseparator) hall
    simp only [Nesting.quoting_behind] at hends
    rw [hall]
    exact List.forall_mem_cons.2 (hends hisClosed)
  · rw [hcovers.chars_eq] at hclosed ⊢
    have hstops := mem_stops_splitTopLevelFrom_iff hseparator range.start range.start .outside text
      offset
    rw [← hcovers.stop_eq] at hstops
    rw [splitTopLevel, hcovers.chars_eq]
    refine hstops.trans (exists₂_congr fun before after => and_congr_right fun hsplit => ?_)
    rw [hsplit] at hclosed
    rw [hclosed.behind_eq_outside_iff (isPlain_of_mem_separators hseparator), and_assoc]

/-- In the header of a loop, the commas and colons in brackets and strings cut nothing; behind a
backslash, the first byte of a longer character is skipped. -/
theorem split_at_top_level_header :
    let source := "@foreach\x7bk : f([1, ':,']), é : '\\é,'\x7d"
    splitTopLevel source ⟨9, 38⟩ ',' = [⟨9, 25⟩, ⟨26, 38⟩] ∧
      Span.splitBytes source ⟨26, 38⟩ ':' = [⟨26, 30⟩, ⟨31, 38⟩] ∧
      ∃ before after, Span.chars source ⟨26, 38⟩ = before ++ ':' :: after ∧
        Closed none before ∧ Closed none after ∧ 30 = 26 + byteLength before := by
  intro source
  have hd : .directive ⟨"foreach", ⟨0, 1, 1⟩, ⟨0, 39⟩, ⟨9, 38⟩⟩ ∈
      (Outline.ofSource source).pieces := by decide +kernel
  have hcommas : splitTopLevel source ⟨9, 38⟩ ',' = [⟨9, 25⟩, ⟨26, 38⟩] := by decide +kernel
  have hcolons : splitTopLevel source ⟨26, 38⟩ ':' = [⟨26, 30⟩, ⟨31, 38⟩] := by decide +kernel
  have hsecond : ⟨26, 38⟩ ∈ splitTopLevel source ⟨9, 38⟩ ',' := by rw [hcommas]; simp
  obtain ⟨hbytes, -, -, -, hcuts⟩ := split_at_top_level hd (.part .whole (by decide) hsecond)
    (show ':' ∈ separators by decide)
  have hchars : Span.chars source ⟨26, 38⟩ = " é : ".toList ++ '\'' :: ("\\é,'".toList ++ []) := by
    decide +kernel
  have hclosed : Closed none (Span.chars source ⟨26, 38⟩) := by
    rw [hchars]
    exact .append (.of_all (by decide +kernel))
      (.string rfl (.escaped (.char (by decide) (by decide) .ends)) .nil)
  have hfirst : ⟨26, 30⟩ ∈ splitTopLevel source ⟨26, 38⟩ ':' := by rw [hcolons]; simp
  exact ⟨hcommas, hbytes.trans hcolons, (hcuts hclosed 30).1 ⟨_, hfirst, rfl, by decide⟩⟩

end TextTemplate
