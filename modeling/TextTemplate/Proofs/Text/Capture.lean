import TextTemplate.Proofs.Expression.InDirective
import TextTemplate.Proofs.Text.Cursor

/-!
# Capturing a body byte by byte

A reader that looks for the end of a directive's body goes through the source byte by byte, with a
stack of the closers it expects. It looks for ASCII characters only; since no byte of a longer
character is one of them, it finds the same end as a reader that goes character by character, also
when a backslash protects the first byte of a longer character.

## Main definitions

* `EndsBody`: a text that starts with a balanced body and the brace that closes it.
* `Capture`, `Capture.step`, `Capture.run`: what the reader keeps, and what it makes of bytes.
* `Cursor.captureBody`: the span of the body that starts at a cursor, or that it has no end.

## Main results

* `Capture.run_bytes`: where the reader of bytes stops, as the reader of characters has it.
* `balanced_body_captured`: it takes exactly the balanced body, if there is one.
-/

namespace TextTemplate

/-- The text starts with a balanced body and the brace that closes it. -/
def EndsBody (cs body rest : List Char) : Prop :=
  cs = body ++ '}' :: rest ∧ Balanced '}' body

/-! ### Bytes of characters -/

/-- A character beyond ASCII has no meaning for the readers of bodies. -/
theorem isPlain_of_le {c : Char} (h : 128 ≤ c.toNat) : IsPlain c ∧ c ≠ '\\' := by
  have hascii : ∀ d ∈ '\\' :: specials, d.toNat < 128 := by simp [specials]
  have hnotMem : c ∉ '\\' :: specials := fun hmem => absurd (hascii c hmem) (Nat.not_lt.2 h)
  obtain ⟨hne, hnotMem⟩ := not_or.1 (mt List.mem_cons.2 hnotMem)
  exact ⟨isPlain_of_notMem_specials hnotMem, hne⟩

private theorem toNat_ofUInt8 (byte : UInt8) : (Char.ofUInt8 byte).toNat = byte.toNat :=
  rfl

/-- A character is one byte of ASCII, or all its bytes are beyond ASCII as it is itself. -/
theorem utf8EncodeChar_cases (c : Char) :
    (∃ byte, String.utf8EncodeChar c = [byte] ∧ Char.ofUInt8 byte = c) ∨
      128 ≤ c.toNat ∧ ∃ byte bytes, String.utf8EncodeChar c = byte :: bytes ∧
        ∀ b ∈ byte :: bytes, 128 ≤ (Char.ofUInt8 b).toNat := by
  by_cases hascii : c.val.toNat ≤ 127
  · refine .inl ⟨UInt8.ofNat c.val.toNat, ?_, Char.toNat_inj.1 ?_⟩
    · rw [String.utf8EncodeChar, if_pos hascii]
    · rw [toNat_ofUInt8, UInt8.toNat_ofNat', Nat.mod_eq_of_lt (by omega)]
      rfl
  · refine .inr ⟨Nat.lt_of_not_le hascii, ?_⟩
    have hsome : String.utf8EncodeChar c ≠ [] := by
      rw [← List.length_pos_iff, String.length_utf8EncodeChar]
      exact c.utf8Size_pos
    obtain ⟨byte, bytes, hsplit⟩ := List.exists_cons_of_ne_nil hsome
    refine ⟨byte, bytes, hsplit, fun b hmem => ?_⟩
    rw [← hsplit] at hmem
    have hmem : b.toNat ∈ (String.utf8EncodeChar c).map UInt8.toNat := List.mem_map_of_mem hmem
    rw [toNat_ofUInt8]
    rw [String.utf8EncodeChar, if_neg hascii] at hmem
    split_ifs at hmem <;>
      simp only [List.map_cons, List.map_nil, UInt8.toNat_ofNat', List.mem_cons, List.not_mem_nil,
        or_false] at hmem <;>
      omega

theorem utf8Size_of_utf8EncodeChar {c : Char} {byte : UInt8}
    (hsingle : String.utf8EncodeChar c = [byte]) : c.utf8Size = 1 := by
  rw [← String.length_utf8EncodeChar, hsingle]
  rfl

/-- A character of ASCII is one byte. -/
theorem utf8Size_of_lt {c : Char} (h : c.toNat < 128) : c.utf8Size = 1 := by
  obtain ⟨byte, hsingle, -⟩ | ⟨high, -⟩ := utf8EncodeChar_cases c
  · exact utf8Size_of_utf8EncodeChar hsingle
  · omega

/-! ### What a character does to a reader -/

namespace Quoting

/-- Where the reader stands behind one more character. -/
def next : Quoting → Char → Quoting
  | plain, c => if isQuote c then quoted c else plain
  | quoted quote, c => if c = '\\' then escaped quote else if c = quote then plain else quoted quote
  | escaped quote, _ => quoted quote

/-- The string in which the reader stands, if any, was begun by a quote. -/
def Proper : Quoting → Prop
  | plain => True
  | quoted quote | escaped quote => isQuote quote = true

theorem Proper.next {quoting : Quoting} (h : quoting.Proper) (c : Char) :
    (quoting.next c).Proper := by
  cases quoting with
  | plain =>
    rw [Quoting.next]
    split_ifs with hquote
    · exact hquote
    · trivial
  | quoted quote =>
    rw [Quoting.next]
    split_ifs
    · exact h
    · trivial
    · exact h
  | escaped quote => exact h

/-- A character beyond ASCII does no more than to be protected by a backslash. -/
theorem next_next_of_le {quoting : Quoting} (h : quoting.Proper) {c d : Char}
    (hc : 128 ≤ c.toNat) (hd : 128 ≤ d.toNat) :
    quoting.next c = quoting.next d ∧ (quoting.next c).next d = quoting.next c := by
  have hstays {quote c : Char} (hproper : isQuote quote = true) (hc : 128 ≤ c.toNat) :
      (quoted quote).next c = quoted quote := by
    obtain ⟨hplain, hnoBackslash⟩ := isPlain_of_le hc
    have hother : c ≠ quote := by
      rintro rfl
      exact Bool.false_ne_true (hplain.1.symm.trans hproper)
    rw [next, if_neg hnoBackslash, if_neg hother]
  cases quoting with
  | plain => simp [next, (isPlain_of_le hc).1.1, (isPlain_of_le hd).1.1]
  | quoted quote => rw [hstays h hc, hstays h hd]; exact ⟨rfl, rfl⟩
  | escaped quote => exact ⟨rfl, hstays h hd⟩

end Quoting

/-- The closers that are expected behind one more character. -/
def closersAfter (expected : List Char) : Quoting → Char → List Char
  | .plain, c =>
    match closerOf c with
    | some closer => closer :: expected
    | none => if isCloser c && expected.head? == some c then expected.tail else expected
  | .quoted _, _ | .escaped _, _ => expected

private theorem closersAfter_of_le {c : Char} (h : 128 ≤ c.toNat) (expected : List Char)
    (quoting : Quoting) : closersAfter expected quoting c = expected := by
  obtain ⟨⟨-, hnoOpener, hnoCloser⟩, -⟩ := isPlain_of_le h
  cases quoting with
  | plain => simp [closersAfter, hnoOpener, hnoCloser]
  | quoted | escaped => rfl

section Plain

variable {expected : List Char} {c : Char}

private theorem closersAfter_of_isQuote (h : isQuote c = true) :
    closersAfter expected .plain c = expected := by
  rw [isQuote, Bool.or_eq_true, beq_iff_eq, beq_iff_eq] at h
  rcases h with rfl | rfl <;> rfl

private theorem closersAfter_of_closerOf {closer : Char} (h : closerOf c = some closer) :
    closersAfter expected .plain c = closer :: expected := by
  simp only [closersAfter, h]

private theorem closersAfter_of_no_opener (h : closerOf c = none) : closersAfter expected .plain c =
    if isCloser c && expected.head? == some c then expected.tail else expected := by
  simp only [closersAfter, h]

end Plain

/-- The reader of characters goes on until no closer is expected any more. -/
theorem captureUpTo?_cons {expected : List Char} (hne : expected ≠ []) (quoting : Quoting)
    (c : Char) (cs : List Char) :
    captureUpTo? expected quoting (c :: cs) =
      if closersAfter expected quoting c = [] then some ([], cs)
      else (captureUpTo? (closersAfter expected quoting c) (quoting.next c) cs).map
        fun (body, rest) => (c :: body, rest) := by
  cases quoting with
  | quoted | escaped => rw [closersAfter, if_neg hne]; rfl
  | plain =>
    rw [captureUpTo?, Quoting.next]
    by_cases hquote : isQuote c = true
    · rw [if_pos hquote, if_pos hquote, closersAfter_of_isQuote hquote, if_neg hne]
    · rw [if_neg hquote, if_neg hquote]
      cases hopens : closerOf c with
      | some closer => rw [closersAfter_of_closerOf hopens, if_neg (List.cons_ne_nil _ _)]
      | none =>
        rw [closersAfter_of_no_opener hopens]
        cases isCloser c && expected.head? == some c with
        | false => simp only [Bool.false_eq_true, if_false, if_neg hne]
        | true =>
          simp only [if_true]
          cases expected.tail with
          | nil => rfl
          | cons outer outers => rw [if_neg (List.cons_ne_nil _ _)]

/-! ### The reader of bytes -/

/-- What the reader keeps: where it is, the closers it expects, the innermost first, and whether it
is in a string. -/
structure Capture where
  cursor : Cursor
  expected : List Char
  quoting : Quoting

namespace Capture

/-- The reader behind one more byte. -/
def step (capture : Capture) (byte : UInt8) : Capture where
  cursor := capture.cursor.advance byte
  expected := closersAfter capture.expected capture.quoting (Char.ofUInt8 byte)
  quoting := capture.quoting.next (Char.ofUInt8 byte)

/-- Reads bytes until no closer is expected any more. -/
def run : Capture → List UInt8 → Capture
  | capture, [] => capture
  | capture, byte :: bytes =>
    if capture.expected = [] then capture else (capture.step byte).run bytes

/-- The reader behind one more character. -/
def stepChar (capture : Capture) (c : Char) : Capture where
  cursor := (String.utf8EncodeChar c).foldl Cursor.advance capture.cursor
  expected := closersAfter capture.expected capture.quoting c
  quoting := capture.quoting.next c

private theorem run_of_expected_eq_nil {capture : Capture} (h : capture.expected = [])
    (bytes : List UInt8) : capture.run bytes = capture := by
  cases bytes with
  | nil => rfl
  | cons byte bytes => rw [run, if_pos h]

/-- Bytes beyond ASCII are passed over. -/
theorem run_of_le (capture : Capture) (hne : capture.expected ≠ []) {high : List UInt8}
    (hhigh : ∀ byte ∈ high, 128 ≤ (Char.ofUInt8 byte).toNat)
    (hstays : ∀ c : Char, 128 ≤ c.toNat → capture.quoting.next c = capture.quoting)
    (bytes : List UInt8) :
    capture.run (high ++ bytes) =
      run { capture with cursor := high.foldl Cursor.advance capture.cursor } bytes := by
  induction high generalizing capture with
  | nil => rfl
  | cons byte high ih =>
    obtain ⟨hbyte, hhigh⟩ := List.forall_mem_cons.1 hhigh
    have hsame : capture.step byte = { capture with cursor := capture.cursor.advance byte } := by
      rw [step, closersAfter_of_le hbyte, hstays _ hbyte]
    rw [List.cons_append, run, if_neg hne, hsame]
    exact ih { capture with cursor := capture.cursor.advance byte } hne hhigh hstays

/-- The bytes of a character are read as the character. -/
theorem run_char_append {capture : Capture} (hne : capture.expected ≠ [])
    (hproper : capture.quoting.Proper) (c : Char) (bytes : List UInt8) :
    capture.run (String.utf8EncodeChar c ++ bytes) = (capture.stepChar c).run bytes := by
  obtain ⟨byte, hsingle, rfl⟩ | ⟨hc, byte, high, hsplit, hhigh⟩ := utf8EncodeChar_cases c
  · rw [hsingle, List.cons_append, run, if_neg hne, stepChar, hsingle]
    rfl
  · obtain ⟨hbyte, hhigh⟩ := List.forall_mem_cons.1 hhigh
    have hfirst : (capture.step byte).expected = capture.expected := closersAfter_of_le hbyte _ _
    have hstays (d : Char) (hd : 128 ≤ d.toNat) :
        (capture.step byte).quoting.next d = (capture.step byte).quoting :=
      (Quoting.next_next_of_le hproper hbyte hd).2
    rw [hsplit, List.cons_append, run, if_neg hne, run_of_le _ (by rwa [hfirst]) hhigh hstays,
      stepChar, hsplit, closersAfter_of_le hc, (Quoting.next_next_of_le hproper hc hbyte).1]
    rw [List.foldl_cons, step, closersAfter_of_le hbyte]

/-- The reader of bytes stops where the reader of characters does: behind the closer that is found,
or at the end. -/
theorem run_bytes (capture : Capture) (hne : capture.expected ≠ [])
    (hproper : capture.quoting.Proper) (cs : List Char) :
    match captureUpTo? capture.expected capture.quoting cs with
    | some (body, rest) => ∃ read, cs = read ++ rest ∧ read.length = body.length + 1 ∧
        (capture.run (cs.flatMap String.utf8EncodeChar)).expected = [] ∧
        (capture.run (cs.flatMap String.utf8EncodeChar)).cursor =
          (read.flatMap String.utf8EncodeChar).foldl Cursor.advance capture.cursor
    | none => (capture.run (cs.flatMap String.utf8EncodeChar)).expected ≠ [] ∧
        (capture.run (cs.flatMap String.utf8EncodeChar)).cursor =
          (cs.flatMap String.utf8EncodeChar).foldl Cursor.advance capture.cursor := by
  induction cs generalizing capture with
  | nil => exact ⟨hne, rfl⟩
  | cons c cs ih =>
    rw [captureUpTo?_cons hne, List.flatMap_cons, run_char_append hne hproper]
    split_ifs with hlast
    · have hdone : (capture.stepChar c).expected = [] := hlast
      rw [run_of_expected_eq_nil hdone]
      exact ⟨[c], rfl, rfl, hdone, by rw [List.flatMap_singleton]; rfl⟩
    · have hmore := ih (capture.stepChar c) hlast (hproper.next c)
      rw [stepChar] at hmore ⊢
      cases hfound : captureUpTo? (closersAfter capture.expected capture.quoting c)
          (capture.quoting.next c) cs with
      | none =>
        rw [hfound] at hmore
        exact ⟨hmore.1, by rw [hmore.2, List.foldl_append]⟩
      | some captured =>
        obtain ⟨body, rest⟩ := captured
        rw [hfound] at hmore
        obtain ⟨read, rfl, hlength, hdone, hcursor⟩ := hmore
        refine ⟨c :: read, rfl, ?_, hdone, ?_⟩
        · rw [List.length_cons, List.length_cons, hlength]
        · rw [hcursor, List.flatMap_cons, List.foldl_append]

end Capture

namespace Cursor

/-- The span of the body that starts at the cursor, up to the brace that closes it, and the cursor
behind this brace; or that the body is not closed, and the cursor at the end of the source. -/
def captureBody (source : String) (cursor : Cursor) : Except CompileFault Span × Cursor :=
  let bytes := source.toByteArray.data.toList.drop cursor.offset
  let stopped := Capture.run ⟨cursor, ['}'], .plain⟩ bytes
  if stopped.expected = [] then (.ok ⟨cursor.offset, stopped.cursor.offset - 1⟩, stopped.cursor)
  else (.error (.unterminated '\x7b' '\x7d'), stopped.cursor)

variable {source : String} {before cs : List Char}

/-- The reader that starts in front of `cs` reads its bytes. -/
theorem captureBody_eq (h : source.toList = before ++ cs) :
    captureBody source (after source (byteLength before)) =
      let start := after source (byteLength before)
      let stopped := Capture.run ⟨start, ['}'], .plain⟩ (cs.flatMap String.utf8EncodeChar)
      if stopped.expected = [] then (.ok ⟨byteLength before, stopped.cursor.offset - 1⟩,
        stopped.cursor)
      else (.error (.unterminated '\x7b' '\x7d'), stopped.cursor) := by
  have hoffset : (after source (byteLength before)).offset = byteLength before := by
    rw [after_eq h]
  rw [captureBody, hoffset, drop_bytes h]

private theorem captureBody_of_endsBody {body rest : List Char} (h : source.toList = before ++ cs)
    (hends : EndsBody cs body rest) : captureBody source (after source (byteLength before)) =
      (.ok ⟨byteLength before, byteLength (before ++ body)⟩,
        after source (byteLength (before ++ body ++ ['}']))) := by
  have hfound : captureBody? cs = some (body, rest) := captureBody?_eq_some_iff.2 hends
  have hstops := Capture.run_bytes ⟨after source (byteLength before), ['}'], .plain⟩
    (List.cons_ne_nil _ _) trivial cs
  rw [captureBody?] at hfound
  rw [hfound] at hstops
  obtain ⟨read, hsplit, hlength, hdone, hcursor⟩ := hstops
  obtain ⟨rfl, -⟩ := hends
  -- What has been read is the body and the brace.
  obtain ⟨rfl, -⟩ : body ++ ['}'] = read ∧ rest = rest := by
    refine List.append_inj ?_ ?_
    · rw [← hsplit, List.append_assoc]
      rfl
    · rw [hlength, List.length_append]
      rfl
  have hwhole : source.toList = before ++ (body ++ ['}']) ++ rest := by simp [h]
  rw [← after_append hwhole] at hcursor
  have hoffset : (after source (byteLength (before ++ (body ++ ['}'])))).offset =
      byteLength (before ++ body) + 1 := by
    rw [after_eq hwhole]
    simp only [byteLength_append, byteLength_cons, byteLength_nil]
    exact (Nat.add_assoc ..).symm
  rw [captureBody_eq h]
  simp only [hdone, if_true, hcursor, hoffset, Nat.add_sub_cancel, List.append_assoc]

private theorem captureBody_of_endless (h : source.toList = before ++ cs)
    (hendless : ∀ body rest, ¬EndsBody cs body rest) :
    captureBody source (after source (byteLength before)) =
      (.error (.unterminated '\x7b' '\x7d'), after source source.utf8ByteSize) := by
  have hfound : captureBody? cs = none := by
    rw [Option.eq_none_iff_forall_ne_some]
    rintro ⟨body, rest⟩ hfound
    exact hendless body rest (captureBody?_eq_some_iff.1 hfound)
  have hstops := Capture.run_bytes ⟨after source (byteLength before), ['}'], .plain⟩
    (List.cons_ne_nil _ _) trivial cs
  rw [captureBody?] at hfound
  rw [hfound] at hstops
  obtain ⟨hpending, hcursor⟩ := hstops
  have hwhole : source.toList = before ++ cs ++ [] := by rw [h, List.append_nil]
  rw [← after_append hwhole, ← h, byteLength_toList] at hcursor
  rw [captureBody_eq h]
  simp only [hpending, if_false, hcursor]

end Cursor

/-! ### Bodies of directives -/

section Heads

variable {cs name : List Char} {sigil : Char}

/-- Behind the head of a directive, the body is read if there is one, and reading goes on behind the
brace that closes it. -/
theorem Outline.scan_of_endsBody (start : Nat) (before : List Char)
    (hhead : IsHead (sigil :: (name ++ '{' :: cs)) name cs) {body rest : List Char}
    (hends : EndsBody cs body rest) :
    scan start (Position.after before) (sigil :: (name ++ '{' :: cs)) =
      let whole := before ++ sigil :: name ++ '{' :: body ++ ['}']
      prepend (textPiece start (byteLength before) ++
          [.directive (directiveAt before sigil name body)])
        (scan (byteLength whole) (Position.after whole) rest) := by
  obtain ⟨rfl, hbalanced⟩ := hends
  exact scan_of_directive hhead.not_isEscape hhead hbalanced

/-- If there is none, reading ends at the head. -/
theorem Outline.scan_of_endless (start : Nat) (before : List Char)
    (hhead : IsHead (sigil :: (name ++ '{' :: cs)) name cs)
    (hendless : ∀ body rest, ¬EndsBody cs body rest) :
    scan start (Position.after before) (sigil :: (name ++ '{' :: cs)) =
      ⟨textPiece start (byteLength before), some (String.ofList name, Position.after before)⟩ := by
  refine scan_of_unterminated hhead.not_isEscape hhead ?_
  rw [Option.eq_none_iff_forall_ne_some]
  rintro ⟨body, rest⟩ hfound
  exact hendless body rest (captureBody?_eq_some_iff.1 hfound)

/-- A source that starts with such a head does not compile. -/
theorem Program.compile_of_endless (compiler : Compiler)
    (hhead : IsHead (sigil :: (name ++ '{' :: cs)) name cs)
    (hendless : ∀ body rest, ¬EndsBody cs body rest) :
    compile compiler (String.ofList (sigil :: (name ++ '{' :: cs))) =
      .error ⟨Position.start, String.ofList name, none, .unterminated '\x7b' '\x7d'⟩ := by
  have houtline := Outline.scan_of_endless 0 [] hhead hendless
  rw [Position.after_nil, ← String.toList_ofList (l := sigil :: _)] at houtline
  rw [compile, Outline.ofSource, houtline]
  rfl

end Heads

/-- Every directive of a source stands in it, with a balanced body. -/
theorem Scans.exists_directiveAt {start : Nat} {before cs : List Char} {outline : Outline}
    (h : Scans start before cs outline) {d : Directive} (hd : .directive d ∈ outline.pieces) :
    ∃ front sigil name body back,
      before ++ cs = front ++ sigil :: name ++ '{' :: body ++ '}' :: back ∧
        d = directiveAt front sigil name body ∧ Balanced '}' body := by
  induction h with
  | done | unterminated => exact absurd hd not_directive_mem_textPiece
  | literal _ _ _ ih => simpa using ih hd
  | escape _ _ ih =>
    obtain hd | hd := List.mem_append.1 hd
    · exact absurd hd not_directive_mem_textPiece
    · simpa using ih hd
  | @directive _ before name body cs sigil _ _ _ hbalanced _ ih =>
    simp only [Outline.prepend, List.append_assoc, List.mem_append, List.mem_singleton,
      Piece.directive.injEq, not_directive_mem_textPiece, false_or] at hd
    obtain rfl | hd := hd
    · exact ⟨before, sigil, name, body, cs, by simp, rfl, hbalanced⟩
    · simpa using ih hd

/-- The body of every directive is the one that is captured where it starts. -/
theorem Cursor.captureBody_of_mem {source : String} {d : Directive}
    (h : .directive d ∈ (Outline.ofSource source).pieces) :
    captureBody source (after source d.body.start) =
      (.ok d.body, after source (d.body.stop + 1)) := by
  obtain ⟨front, sigil, name, body, back, hsource, rfl, hbalanced⟩ :=
    (Outline.ofSource_eq_iff.1 rfl).exists_directiveAt h
  have hopened : source.toList = (front ++ sigil :: name ++ ['{']) ++ (body ++ '}' :: back) := by
    simpa using hsource
  have hcaptured := captureBody_of_endsBody hopened ⟨rfl, hbalanced⟩
  rw [byteLength_append _ ['}']] at hcaptured
  exact hcaptured

/-- A reader that stands at any place of a source, and has read the brace that opens the body of a
directive, takes exactly the balanced text in front of the brace that closes it: there is at most
one such text, its span is the result, and the reader stops behind the brace. If there is none, this
is the error, and the reader has come to the end of the source. So the directive whose head stands
there has this body, and what is behind its brace is read next, or it is not closed. -/
theorem balanced_body_captured (before cs : List Char) :
    let source := String.ofList (before ++ cs)
    let start := Cursor.after source (byteLength before)
    (∀ body rest, captureBody? cs = some (body, rest) ↔ EndsBody cs body rest) ∧
    ((∃ body rest, EndsBody cs body rest ∧
        (∀ body' rest', EndsBody cs body' rest' → body' = body ∧ rest' = rest) ∧
        start.captureBody source = (.ok ⟨byteLength before, byteLength (before ++ body)⟩,
          Cursor.after source (byteLength (before ++ body ++ ['}']))) ∧
        Span.slice? source ⟨byteLength before, byteLength (before ++ body)⟩ =
          some (String.ofList body)) ∨
      (∀ body rest, ¬EndsBody cs body rest) ∧
        start.captureBody source =
          (.error (.unterminated '\x7b' '\x7d'), Cursor.after source source.utf8ByteSize)) ∧
    ∀ begun front sigil name, IsHead (sigil :: (name ++ '{' :: cs)) name cs →
      (∀ body rest, EndsBody cs body rest →
        Outline.scan begun (Position.after front) (sigil :: (name ++ '{' :: cs)) =
          let whole := front ++ sigil :: name ++ '{' :: body ++ ['}']
          Outline.prepend (textPiece begun (byteLength front) ++
              [.directive (directiveAt front sigil name body)])
            (Outline.scan (byteLength whole) (Position.after whole) rest)) ∧
      ((∀ body rest, ¬EndsBody cs body rest) →
        Outline.scan begun (Position.after front) (sigil :: (name ++ '{' :: cs)) =
            ⟨textPiece begun (byteLength front),
              some (String.ofList name, Position.after front)⟩ ∧
          ∀ compiler, Program.compile compiler (String.ofList (sigil :: (name ++ '{' :: cs))) =
            .error ⟨Position.start, String.ofList name, none, .unterminated '\x7b' '\x7d'⟩) := by
  have hparts : (String.ofList (before ++ cs)).toList = before ++ cs := String.toList_ofList
  refine ⟨fun body rest => captureBody?_eq_some_iff, ?_, fun begun front sigil name hhead =>
    ⟨fun body rest hends => Outline.scan_of_endsBody begun front hhead hends, fun hendless =>
      ⟨Outline.scan_of_endless begun front hhead hendless, fun compiler =>
        Program.compile_of_endless compiler hhead hendless⟩⟩⟩
  by_cases hclosed : ∃ body rest, EndsBody cs body rest
  · obtain ⟨body, rest, hends⟩ := hclosed
    have hspan : Span.Covers (String.ofList (before ++ cs))
        ⟨byteLength before, byteLength (before ++ body)⟩ body :=
      ⟨before, '}' :: rest, by rw [hparts, hends.1, List.append_assoc], by rw [byteLength_append]⟩
    refine .inl ⟨body, rest, hends, fun body' rest' hends' => ?_,
      Cursor.captureBody_of_endsBody hparts hends, hspan.slice?_eq⟩
    have hsame := (captureBody?_eq_some_iff.2 hends').symm.trans (captureBody?_eq_some_iff.2 hends)
    exact Prod.mk.inj (Option.some.inj hsame)
  · have hendless : ∀ body rest, ¬EndsBody cs body rest :=
      fun body rest hends => hclosed ⟨body, rest, hends⟩
    exact .inr ⟨hendless, Cursor.captureBody_of_endless hparts hendless⟩

/-- A backslash protects the first byte of a longer character, a brace in a string and a bracket of
another kind close nothing; and a string that has no end leaves its directive open. -/
theorem balanced_body_captured_protected :
    (∃ body rest, EndsBody "'\\é\x7d'(])\x7d x".toList body rest ∧
      (Cursor.after "@\x7b'\\é\x7d'(])\x7d x" 2).captureBody "@\x7b'\\é\x7d'(])\x7d x" =
        (.ok ⟨2, 11⟩, Cursor.after "@\x7b'\\é\x7d'(])\x7d x" 12) ∧
      (Outline.scan 0 (Position.after [])
          ('@' :: ([] ++ '{' :: "'\\é\x7d'(])\x7d x".toList))).pieces =
        [.directive (directiveAt [] '@' [] body), .text ⟨12, 14⟩]) ∧
    ∀ compiler, Program.compile compiler (String.ofList ('@' :: ([] ++ '{' :: "'a\x7d".toList))) =
      .error ⟨Position.start, String.ofList [], none, .unterminated '\x7b' '\x7d'⟩ := by
  have hhead (cs : List Char) : IsHead ('@' :: ([] ++ '{' :: cs)) [] cs :=
    .mk cs rfl (List.forall_mem_nil _) nofun
  constructor
  · have hends : EndsBody "'\\é\x7d'(])\x7d x".toList "'\\é\x7d'(])".toList " x".toList :=
      captureBody?_eq_some_iff.1 (by decide)
    obtain ⟨-, hcaptured, -⟩ := balanced_body_captured ['@', '{'] "'\\é\x7d'(])\x7d x".toList
    obtain ⟨-, -, hscanned⟩ := balanced_body_captured [] "'\\é\x7d'(])\x7d x".toList
    obtain ⟨body, rest, -, hunique, hcaptured, -⟩ | ⟨hendless, -⟩ := hcaptured
    · obtain ⟨rfl, rfl⟩ := hunique _ _ hends
      refine ⟨_, _, hends, hcaptured, ?_⟩
      rw [(hscanned 0 [] '@' [] (hhead _)).1 _ _ hends]
      decide +kernel
    · exact absurd hends (hendless _ _)
  · have hendless (body rest : List Char) : ¬EndsBody "'a\x7d".toList body rest := by
      intro hends
      have hnone : captureBody? "'a\x7d".toList = none := by decide
      cases hnone.symm.trans (captureBody?_eq_some_iff.2 hends)
    obtain ⟨-, -, hscanned⟩ := balanced_body_captured [] "'a\x7d".toList
    exact ((hscanned 0 [] '@' [] (hhead _)).2 hendless).2

end TextTemplate
