import TextTemplate.Proofs.Text.Slots
import TextTemplate.Render.Run

/-!
# Slices of a source

Where a slice of a source has to give a text, the empty text stands for one that fails. No slice
fails: every span by which a source is sliced, when it is cut into pieces, when the bodies of its
directives are read, and when its nodes are rendered, lies within the source and has both its ends
between two characters. So do the spans of the tokens in an expression.

## Main definitions

* `Span.Fits`: spans that can be sliced out.
* `Cursor.nameSpan`, `numberEnd`: the name of a directive and a number, byte by byte.
* `Node.Fits`: nodes whose spans can be sliced out.

## Main results

* `Span.fits_iff`: such a span covers a text.
* `Program.fits_of_mem_nodes`: the spans of the nodes of a program.
* `slices_succeed`: no slice of a source fails.
-/

namespace TextTemplate

/-! ### Spans that can be sliced out -/

/-- The span lies within the source, from a place between two characters to the same or a later
one. -/
structure Span.Fits (source : String) (span : Span) : Prop where
  ordered : span.start ≤ span.stop
  start : Cuts source.toList span.start
  stop : Cuts source.toList span.stop

section Fits

variable {source : String} {span : Span}

private theorem Cuts.le {cs : List Char} {offset : Nat} (h : Cuts cs offset) :
    offset ≤ byteLength cs := by
  obtain ⟨before, after, rfl, rfl⟩ := h
  rw [byteLength_append]
  exact Nat.le_add_right _ _

private theorem Span.Covers.fits {text : List Char} (h : span.Covers source text) :
    span.Fits source := by
  obtain ⟨before, after, hsplit, rfl⟩ := h
  exact ⟨Nat.le_add_right _ _, ⟨before, text ++ after, by rw [hsplit, List.append_assoc], rfl⟩,
    ⟨before ++ text, after, hsplit, byteLength_append _ _⟩⟩

/-- Such spans are those that cover a text. -/
theorem Span.fits_iff : span.Fits source ↔ ∃ text, span.Covers source text := by
  refine ⟨?_, fun ⟨_, hcovers⟩ => hcovers.fits⟩
  rintro ⟨hordered, ⟨before, rest, hsplit, hstart⟩, ⟨front, behind, hsplit', hstop⟩⟩
  obtain ⟨start', stop'⟩ := span
  obtain rfl : byteLength before = start' := hstart
  obtain rfl : byteLength front = stop' := hstop
  obtain ⟨more, rfl, -⟩ | ⟨more, rfl, -⟩ :=
    List.append_eq_append_iff.1 (hsplit.symm.trans hsplit')
  · exact ⟨more, before, behind, hsplit', by rw [byteLength_append]⟩
  · -- The later place is not in front of the earlier one, so the two are the same.
    simp only [byteLength_append] at hordered
    obtain rfl : more = [] := byteLength_eq_zero_iff.1 (by omega)
    exact ⟨[], front, behind, by rw [List.append_nil, hsplit'], by simp⟩

/-- Slicing by such a span gives a text, with all bytes of the span. -/
theorem Span.Fits.exists_slice (h : span.Fits source) : span.stop ≤ source.utf8ByteSize ∧
    ∃ text, span.slice? source = some text ∧ span.slice source = text ∧
      span.start + text.utf8ByteSize = span.stop := by
  obtain ⟨text, hcovers⟩ := Span.fits_iff.1 h
  refine ⟨byteLength_toList source ▸ h.stop.le, String.ofList text, hcovers.slice?_eq,
    hcovers.slice_eq, ?_⟩
  rw [utf8ByteSize_ofList, hcovers.stop_eq]

/-- What stands in front of a place between two characters, and what stands behind it. -/
theorem Cuts.fits {offset : Nat} (h : Cuts source.toList offset) :
    (Span.mk 0 offset).Fits source ∧ (Span.mk offset source.utf8ByteSize).Fits source :=
  ⟨⟨Nat.zero_le _, .zero _, h⟩, ⟨byteLength_toList source ▸ h.le, h,
    byteLength_toList source ▸ .whole _⟩⟩

/-- The line of a reader, up to where it is. -/
theorem Cursor.fits_line {offset : Nat} (h : Cuts source.toList offset) :
    (Span.mk (after source offset).lineStart offset).Fits source := by
  obtain ⟨before, rest, hsplit, rfl⟩ := h
  have hlines : source.toList = earlierLines before ++ lastLine before ++ rest := by
    rw [earlierLines_append_lastLine, hsplit]
  rw [after_eq hsplit]
  refine Span.Covers.fits ⟨_, _, hlines, ?_⟩
  rw [← byteLength_append, earlierLines_append_lastLine]

end Fits

/-! ### Pieces -/

section Pieces

variable {source : String}

private theorem exists_covers_of_mem_textPiece {before text after : List Char}
    (h : source.toList = before ++ text ++ after) {piece : Piece}
    (hmem : piece ∈ textPiece (byteLength before) (byteLength (before ++ text))) :
    ∃ text, piece.span.Covers source text := by
  rw [textPiece] at hmem
  split_ifs at hmem
  · obtain rfl := List.mem_singleton.1 hmem
    exact ⟨text, before, after, h, by rw [byteLength_append]; rfl⟩
  · cases hmem

/-- Every piece covers a text. The literal text being read stands behind `front`. -/
theorem Scans.exists_covers_span {start : Nat} {before cs : List Char} {outline : Outline}
    (h : Scans start before cs outline) {front literal : List Char}
    (hbefore : before = front ++ literal) (hstart : start = byteLength front)
    (hsource : source.toList = before ++ cs) {piece : Piece} (hmem : piece ∈ outline.pieces) :
    ∃ text, piece.span.Covers source text := by
  induction h generalizing front literal with
  | done | unterminated =>
    subst hbefore hstart
    exact exists_covers_of_mem_textPiece hsource hmem
  | @literal _ before _ c _ _ _ _ ih =>
    have hread : before ++ [c] = front ++ (literal ++ [c]) := by rw [hbefore, List.append_assoc]
    exact ih hread hstart (by simpa using hsource) hmem
  | @escape _ _ cs sigil _ _ _ ih =>
    subst hbefore hstart
    obtain hmem | hmem := List.mem_append.1 hmem
    · have hkept : source.toList = front ++ (literal ++ [sigil]) ++ sigil :: cs := by
        simpa using hsource
      rw [List.append_assoc] at hmem
      exact exists_covers_of_mem_textPiece hkept hmem
    · exact ih (List.append_nil _).symm rfl (by simpa using hsource) hmem
  | @directive _ _ name body cs sigil _ _ _ _ _ ih =>
    subst hbefore hstart
    obtain hmem | hmem := List.mem_append.1 hmem
    · obtain hmem | hmem := List.mem_append.1 hmem
      · exact exists_covers_of_mem_textPiece hsource hmem
      · obtain rfl := List.mem_singleton.1 hmem
        refine ⟨sigil :: name ++ '{' :: body ++ ['}'], front ++ literal, cs, ?_, ?_⟩
        · simpa using hsource
        · simp [Piece.span, directiveAt, Nat.add_assoc]
    · exact ih (List.append_nil _).symm rfl (by simpa using hsource) hmem

private theorem Outline.fits_of_mem {piece : Piece} (hmem : piece ∈ (ofSource source).pieces) :
    piece.span.Fits source := by
  obtain ⟨text, hcovers⟩ := (ofSource_eq_iff.1 rfl).exists_covers_span (List.append_nil []).symm rfl
    rfl hmem
  exact hcovers.fits

end Pieces

/-! ### Names -/

/-- The span of the name that starts at the cursor: as many bytes as can be part of one. -/
def Cursor.nameSpan (source : String) (cursor : Cursor) : Span :=
  let bytes := source.toByteArray.data.toList.drop cursor.offset
  let name := bytes.takeWhile fun byte => isDirectiveNamePart (Char.ofUInt8 byte)
  ⟨cursor.offset, cursor.offset + name.length⟩

section Names

variable {source : String}

private theorem toNat_lt_of_isDirectiveNamePart {c : Char} (h : isDirectiveNamePart c = true) :
    c.toNat < 128 := by
  rw [isDirectiveNamePart, Bool.or_eq_true, beq_iff_eq] at h
  obtain h | rfl := h
  · rw [Char.isAlphanum, Bool.or_eq_true, isAlpha_iff, isDigit_iff] at h
    omega
  · decide

/-- In front of a brace, the reader of bytes takes the name. -/
theorem Cursor.nameSpan_eq {before name inside : List Char}
    (hname : ∀ c ∈ name, isDirectiveNamePart c = true)
    (h : source.toList = before ++ (name ++ '{' :: inside)) :
    (after source (byteLength before)).nameSpan source =
      ⟨byteLength before, byteLength before + byteLength name⟩ := by
  have hoffset : (after source (byteLength before)).offset = byteLength before := by rw [after_eq h]
  have htaken : (((name ++ '{' :: inside).flatMap String.utf8EncodeChar).takeWhile
      fun byte => isDirectiveNamePart (Char.ofUInt8 byte)).length = byteLength name := by
    clear h hoffset
    induction name with
    | nil => rfl
    | cons c name ih =>
      obtain ⟨hpart, hparts⟩ := List.forall_mem_cons.1 hname
      obtain ⟨byte, hsingle, rfl⟩ | ⟨high, -⟩ := utf8EncodeChar_cases c
      · have hsize := utf8Size_of_utf8EncodeChar hsingle
        rw [List.cons_append, List.flatMap_cons, hsingle, List.singleton_append,
          List.takeWhile_cons_of_pos (a := byte) hpart, List.length_cons, ih hparts,
          byteLength_cons, hsize, Nat.add_comm]
      · have := toNat_lt_of_isDirectiveNamePart hpart
        omega
  rw [nameSpan, hoffset, drop_bytes h]
  simp only [htaken]

/-- The name of a directive is what stands behind its sigil. -/
theorem StandsAt.slice?_nameSpan {name : String} {position : Position}
    (h : StandsAt source.toList name position) :
    ((Cursor.after source (position.offset + 1)).nameSpan source).slice? source = some name := by
  obtain ⟨before, rest, inside, hsplit, hhead, rfl⟩ := h
  generalize hchars : name.toList = cs at hhead
  cases hhead with
  | @mk sigil _ inside hsigil hname =>
    have hbehind : source.toList = (before ++ [sigil]) ++ (cs ++ '{' :: inside) := by
      rw [hsplit, List.append_assoc, List.singleton_append]
    have htaken := Cursor.nameSpan_eq hname hbehind
    rw [byteLength_append, byteLength_cons, byteLength_nil, utf8Size_of_isSigil hsigil] at htaken
    have hcovers : Span.Covers source ⟨byteLength before + 1, byteLength before + 1 + byteLength cs⟩
        cs := by
      refine ⟨before ++ [sigil], '{' :: inside, by rw [hbehind, ← List.append_assoc], ?_⟩
      simp [utf8Size_of_isSigil hsigil]
    have hnamed : String.ofList cs = name := by rw [← hchars, String.ofList_toList]
    exact hnamed ▸ htaken ▸ hcovers.slice?_eq

end Names

/-! ### Tokens -/

/-- Where the number ends that is being read in a text, when it has been read up to byte `stop`: a
point belongs to it once, and only if the text behind the point starts with a digit. -/
def numberEnd (text : String) : Bool → Nat → List Char → Nat
  | _, stop, [] => stop
  | isFloat, stop, c :: cs =>
    if c.isDigit then numberEnd text isFloat (stop + 1) cs
    else if c = '.' ∧ isFloat = false then
      let behind := Span.slice text ⟨stop + 1, text.utf8ByteSize⟩
      if behind.toList.head?.any Char.isDigit then numberEnd text true (stop + 1) cs else stop
    else stop

section Tokens

variable {text : String}

private theorem utf8Size_of_isDigit {c : Char} (h : c.isDigit = true) : c.utf8Size = 1 := by
  have hcode := isDigit_iff.1 h
  exact utf8Size_of_lt (by omega)

private theorem numberEnd_of_float (stop : Nat) (cs : List Char) :
    numberEnd text true stop cs = stop + byteLength (cs.takeWhile Char.isDigit) := by
  induction cs generalizing stop with
  | nil => rfl
  | cons c cs ih =>
    rw [numberEnd]
    split_ifs with hdigit hpoint
    · rw [ih, List.takeWhile_cons_of_pos hdigit, byteLength_cons, utf8Size_of_isDigit hdigit,
        Nat.add_assoc]
    · cases hpoint.2
    · rw [List.takeWhile_cons_of_neg hdigit]
      rfl

private theorem Reading.spelling_number (cs : List Char) : (number cs).spelling =
    cs.takeWhile Char.isDigit ++
      ((fraction? (cs.dropWhile Char.isDigit)).map fun fraction => '.' :: fraction.1).getD [] := by
  rw [number]
  cases fraction? (cs.dropWhile Char.isDigit) with
  | some fraction => rfl
  | none =>
    simp only [Option.map_none, Option.getD_none, List.append_nil]
    split <;> rfl

/-- The number that is read ends where its last digit ends. -/
theorem numberEnd_eq {before cs : List Char} (h : text.toList = before ++ cs) :
    numberEnd text false (byteLength before) cs =
      byteLength before + byteLength (Reading.number cs).spelling := by
  rw [Reading.spelling_number]
  induction cs generalizing before with
  | nil => rfl
  | cons c cs ih =>
    have hbehind : text.toList = (before ++ [c]) ++ cs := by rw [h, List.append_assoc]; rfl
    rw [numberEnd]
    split_ifs with hdigit hpoint
    · have hrest := ih hbehind
      rw [byteLength_append, byteLength_cons, byteLength_nil, utf8Size_of_isDigit hdigit] at hrest
      rw [hrest, List.takeWhile_cons_of_pos hdigit, List.dropWhile_cons_of_pos hdigit,
        List.cons_append, byteLength_cons, utf8Size_of_isDigit hdigit, Nat.add_assoc]
    · obtain ⟨rfl, -⟩ := hpoint
      have hsize : '.'.utf8Size = 1 := rfl
      have hcovers : Span.Covers text ⟨byteLength before + 1, text.utf8ByteSize⟩ cs := by
        refine ⟨before ++ ['.'], [], by rw [List.append_nil, hbehind], ?_⟩
        rw [← byteLength_toList, hbehind]
        simp [hsize, Nat.add_assoc]
      simp only [hcovers.slice_eq, String.toList_ofList]
      rw [List.takeWhile_cons_of_neg hdigit, List.dropWhile_cons_of_neg hdigit, List.nil_append,
        fraction?]
      split_ifs
      · rw [numberEnd_of_float, Option.map_some, Option.getD_some, byteLength_cons, hsize,
          Nat.add_assoc]
      · rfl
    · have hnoPoint : c ≠ '.' := fun hsame => hpoint ⟨hsame, rfl⟩
      rw [List.takeWhile_cons_of_neg hdigit, List.dropWhile_cons_of_neg hdigit,
        fraction?_of_ne hnoPoint]
      rfl

/-- This is found at this place of a text. -/
def ReadsAt (text : List Char) (offset : Nat) (token : Except String Token) : Prop :=
  ∃ before c rest, text = before ++ c :: rest ∧ offset = byteLength before ∧
    (Reading.ofCons c rest).token = token

/-- The tokens of a text, or why it has none, are found at places between two characters. -/
theorem lexFrom_places (before cs : List Char) :
    match lexFrom (byteLength before) cs with
    | .ok lexemes =>
      ∀ lexeme ∈ lexemes, ReadsAt (before ++ cs) lexeme.offset (.ok lexeme.token)
    | .error e => ∃ offset reason, e = .malformed offset reason ∧
        ReadsAt (before ++ cs) offset (.error reason) := by
  match cs with
  | [] =>
    rw [lexFrom_nil]
    nofun
  | c :: cs =>
    cases hblank : isBlank c with
    | true =>
      have hmore := lexFrom_places (before ++ [c]) cs
      rw [List.append_assoc, byteLength_append, byteLength_cons, byteLength_nil] at hmore
      rw [lexFrom_blank hblank]
      exact hmore
    | false =>
      have hmore := lexFrom_places (before ++ (Reading.ofCons c cs).spelling)
        (Reading.ofCons c cs).rest
      rw [List.append_assoc, Reading.spelling_append_rest, byteLength_append] at hmore
      rw [lexFrom_cons hblank]
      cases hreads : (Reading.ofCons c cs).token with
      | error reason => exact ⟨_, reason, rfl, before, c, cs, rfl, rfl, hreads⟩
      | ok t =>
        simp only
        cases hbehind : lexFrom (byteLength before + byteLength (Reading.ofCons c cs).spelling)
            (Reading.ofCons c cs).rest with
        | error e =>
          rw [hbehind] at hmore
          exact hmore
        | ok lexemes =>
          rw [hbehind] at hmore
          exact List.forall_mem_cons.2 ⟨⟨before, c, cs, rfl, rfl, hreads⟩, hmore⟩
termination_by cs.length
decreasing_by
  · exact Nat.lt_succ_of_le (Reading.length_rest_le c cs)
  · simp

end Tokens

/-! ### Nodes -/

/-- All spans of the node can be sliced out, and so can what stands in front of it. -/
structure Node.Fits (source : String) (node : Node) : Prop where
  span : node.span.Fits source
  body : node.body.Fits source
  texts : ∀ span ∈ node.textSpans, span.Fits source
  slots : ∀ slot ∈ node.slots, slot.span.Fits source
  before : (Span.mk 0 node.span.start).Fits source

section Nodes

variable {compiler : Compiler} {source : String} {program : Program}

private theorem CutFrom.fits {d : Directive} {range : Span}
    (hd : .directive d ∈ (Outline.ofSource source).pieces) (h : CutFrom source d.body range) :
    range.Fits source := by
  obtain ⟨text, hcovers, -⟩ := h.intact (Directive.intact_body hd)
  exact hcovers.fits

/-- A text starts with its first span and ends with its last one. -/
theorem fits_textNode {spans : List Span} (hfit : ∀ span ∈ spans, span.Fits source)
    (hordered : spans.Pairwise fun a b => a.stop ≤ b.start) :
    (textNode spans).span.Fits source := by
  cases spans with
  | nil => exact ⟨Nat.le_refl _, .zero _, .zero _⟩
  | cons first spans =>
    have hlast : (first :: spans).getLast? = some ((first :: spans).getLast (by simp)) :=
      List.getLast?_eq_some_getLast _
    generalize (first :: spans).getLast (by simp) = last at hlast
    have hmem : last ∈ first :: spans := List.mem_of_getLast? hlast
    have hstart := hfit first List.mem_cons_self
    have hstop := hfit last hmem
    simp only [textNode, List.head?_cons, hlast, Option.map_some, Option.getD_some]
    refine ⟨?_, hstart.start, hstop.stop⟩
    obtain rfl | hmem := List.mem_cons.1 hmem
    · exact hstart.ordered
    · have hbetween := (List.pairwise_cons.1 hordered).1 last hmem
      exact (hstart.ordered.trans hbetween).trans hstop.ordered

/-- The nodes of a program. -/
theorem Program.fits_of_mem_nodes (h : compile compiler source = .ok program) {node : Node}
    (hmem : node ∈ program.nodes) : node.Fits source := by
  have hbefore := (Program.cuts_start h hmem).fits.1
  have hordered := Program.pairwise_textSpans h
  rw [Program.textSpans, List.pairwise_flatMap] at hordered
  replace hordered := hordered.1 node (Array.mem_toList_iff.2 hmem)
  have htexts : ∀ span ∈ node.textSpans, span.Fits source := by
    intro span htext
    have hinProgram : span ∈ program.textSpans :=
      List.mem_flatMap.2 ⟨node, Array.mem_toList_iff.2 hmem, htext⟩
    rw [Program.textSpans_eq h] at hinProgram
    obtain ⟨piece, hpiece, hsame⟩ := List.mem_filterMap.1 hinProgram
    cases piece with
    | directive => cases hsame
    | text =>
      cases hsame
      exact Outline.fits_of_mem hpiece
  obtain ⟨-, body, hderives, rfl⟩ := compile_eq_ok_iff.1 h
  rw [List.mem_toArray, List.mem_append, List.mem_singleton] at hmem
  obtain hmem | rfl := hmem
  · have hdrawn := hderives.drawnFrom_of_mem_layout hmem
    have hsegment {d : Directive} (hphrase : .directive d ∈ (Outline.ofSource source).phrases) :
        .directive d ∈ (Outline.ofSource source).pieces :=
      (directive_mem_of_mem_joinTexts hphrase).resolve_left List.not_mem_nil
    have hslots (slot : Slot) (hslot : slot ∈ node.slots) : slot.span.Fits source := by
      obtain ⟨d, hphrase, hcut⟩ := hdrawn.slots slot hslot
      exact hcut.fits (hsegment hphrase)
    obtain ⟨spans, -, hsame, hspan, hbody⟩ | ⟨d, hphrase, -, hspan, hbody⟩ := hdrawn.spans
    · rw [hsame] at htexts hordered
      have hfits := fits_textNode htexts hordered
      exact ⟨hspan ▸ hfits, hbody ▸ hfits, hsame ▸ htexts, hslots, hbefore⟩
    · exact ⟨hspan ▸ Outline.fits_of_mem (hsegment hphrase),
        hbody ▸ CutFrom.whole.fits (hsegment hphrase), htexts, hslots, hbefore⟩
  · have hatEnd : (Span.mk source.utf8ByteSize source.utf8ByteSize).Fits source :=
      ⟨Nat.le_refl _, hbefore.stop, hbefore.stop⟩
    exact ⟨hatEnd, hatEnd, List.forall_mem_nil _, List.forall_mem_nil _, hbefore⟩

end Nodes

/-! ### Renders -/

section Renders

variable {source : String}

/-- The spans of a text can be sliced out one by one, and these slices are written. -/
theorem exists_writeText_eq {template : Template} {spans : List Span}
    (hfit : ∀ span ∈ spans, span.Fits template.source) :
    ∃ texts : List String, List.Forall₂ (fun span text => span.slice? template.source = some text)
      spans texts ∧ Level.writeText template spans = texts.forM RenderM.emit := by
  induction spans with
  | nil => exact ⟨[], .nil, rfl⟩
  | cons span spans ih =>
    obtain ⟨hfirst, hothers⟩ := List.forall_mem_cons.1 hfit
    obtain ⟨-, text, hslices, hsame, -⟩ := hfirst.exists_slice
    obtain ⟨texts, hfound, hwritten⟩ := ih hothers
    exact ⟨text :: texts, .cons hslices hfound, by rw [Level.writeText, hsame, hwritten]; rfl⟩

/-- An expression that is still to be read is read from its slice. -/
theorem exists_eval_raw_eq {span : Span} (hfits : span.Fits source) :
    ∃ text, span.slice? source = some text ∧
      ∀ (m : Type → Type) [Monad m] (env : Environment m), (Slot.raw span).eval env source =
        ExceptT.adapt (EvalError.shift span.start) (evaluateText env text) := by
  obtain ⟨-, text, hslices, hsame, -⟩ := hfits.exists_slice
  exact ⟨text, hslices, fun m _ env => by rw [Slot.eval, hsame]⟩

end Renders

/-- No slice of a source fails, so that nothing is lost by one. A span that fits gives a text with
all its bytes, and so do the text in front of any place between two characters, the text behind it
and the line in front of it. The pieces of a source fit, and so does all that is cut out of the body
of a directive, which is the body that is captured byte by byte; the name of a directive is a slice,
also if the directive is not closed. In every mode the spans of the nodes and of their expressions
fit. A render of any template finds nothing but such nodes: it writes the slices of a text one by
one, and an expression that is read when it is evaluated is read from its slice. In the text of an
expression the tokens, or what is not a token, stand between two characters, and what is read of
them there is a slice; a number ends where its reader stops. -/
theorem slices_succeed (source : String) :
    (∀ span : Span, span.Fits source → span.stop ≤ source.utf8ByteSize ∧
      ∃ text, span.slice? source = some text ∧ span.slice source = text ∧
        span.start + text.utf8ByteSize = span.stop) ∧
    (∀ offset, Cuts source.toList offset →
      (Span.mk 0 offset).Fits source ∧ (Span.mk offset source.utf8ByteSize).Fits source ∧
        (Span.mk (Cursor.after source offset).lineStart offset).Fits source) ∧
    (∀ piece ∈ (Outline.ofSource source).pieces, piece.span.Fits source) ∧
    (∀ d, .directive d ∈ (Outline.ofSource source).pieces →
      Cuts source.toList d.position.offset ∧
      ((Cursor.after source (d.position.offset + 1)).nameSpan source).slice? source =
        some d.name ∧
      (Cursor.after source d.body.start).captureBody source =
        (.ok d.body, Cursor.after source (d.body.stop + 1)) ∧
      CutFrom source d.body (d.targetSpan source) ∧
      (∀ pre, d.preSpan? source = some pre → CutFrom source d.body pre) ∧
      ∀ range, CutFrom source d.body range → range.Fits source) ∧
    (∀ name position, (Outline.ofSource source).unterminated = some (name, position) →
      Cuts source.toList position.offset ∧
      ((Cursor.after source (position.offset + 1)).nameSpan source).slice? source = some name) ∧
    (∀ compiler program, Program.compile compiler source = .ok program →
      ∀ node ∈ program.nodes, node.Fits source) ∧
    (∀ template : Template, template.source = source →
      ∀ place node, template.program.node? place = some node → node.Fits source ∧
        (∃ texts : List String,
          List.Forall₂ (fun span text => span.slice? source = some text) node.textSpans texts ∧
          Level.writeText template node.textSpans = texts.forM RenderM.emit) ∧
        ∀ span, .raw span ∈ node.slots → ∃ text, span.slice? source = some text ∧
          ∀ (m : Type → Type) [Monad m] (env : Environment m), (Slot.raw span).eval env source =
            ExceptT.adapt (EvalError.shift span.start) (evaluateText env text)) ∧
    ∀ text : String,
      (∀ before c rest, text.toList = before ++ c :: rest →
        let start := byteLength before
        let spelling := (Reading.ofCons c rest).spelling
        Span.slice? text ⟨start, start + byteLength spelling⟩ = some (String.ofList spelling) ∧
        (c.isDigit = true →
          numberEnd text false start (c :: rest) = start + byteLength spelling)) ∧
      match lex text with
      | .ok lexemes => ∀ lexeme ∈ lexemes, ReadsAt text.toList lexeme.offset (.ok lexeme.token)
      | .error e => ∃ offset reason, e = .malformed offset reason ∧
          ReadsAt text.toList offset (.error reason) := by
  have hscans : Scans 0 [] source.toList (Outline.ofSource source) := Outline.ofSource_eq_iff.1 rfl
  refine ⟨fun span hfits => hfits.exists_slice, fun offset hcuts => ?_, fun piece hmem => ?_,
    fun d hd => ?_, fun name position hnotClosed => ?_,
    fun compiler program hcompiled node hmem => ?_, ?_,
    fun text => ⟨fun before c rest hsplit => ?_, ?_⟩⟩
  · exact ⟨hcuts.fits.1, hcuts.fits.2, Cursor.fits_line hcuts⟩
  · exact Outline.fits_of_mem hmem
  · have hstands : StandsAt source.toList d.name d.position := hscans.standsAt_of_mem hd
    obtain ⟨before, rest, inside, hsplit, -, hplace⟩ := id hstands
    exact ⟨⟨before, rest, hsplit, by rw [hplace]; rfl⟩, hstands.slice?_nameSpan,
      Cursor.captureBody_of_mem hd, Directive.cutFrom_targetSpan,
      fun pre hpre => Directive.cutFrom_preSpan hpre, fun range hcut => hcut.fits hd⟩
  · have hstands : StandsAt source.toList name position :=
      hscans.standsAt_of_unterminated hnotClosed
    obtain ⟨before, rest, inside, hsplit, -, hplace⟩ := id hstands
    exact ⟨⟨before, rest, hsplit, by rw [hplace]; rfl⟩, hstands.slice?_nameSpan⟩
  · exact Program.fits_of_mem_nodes hcompiled hmem
  · rintro template rfl place node hnode
    have hfits : node.Fits template.source :=
      Program.fits_of_mem_nodes template.compiled (Array.mem_of_getElem? hnode)
    exact ⟨hfits, exists_writeText_eq hfits.texts,
      fun span hslot => exists_eval_raw_eq (hfits.slots _ hslot)⟩
  · have hspelled := Reading.spelling_append_rest c rest
    refine ⟨?_, fun hdigit => ?_⟩
    · rw [← hspelled, ← List.append_assoc] at hsplit
      exact Span.slice?_append hsplit
    · rw [numberEnd_eq hsplit, Reading.ofCons, if_pos hdigit]
  · exact lexFrom_places [] text.toList

/-- A loop behind a character of more than one byte, over a list in which there is another one; its
source is read when it is evaluated. -/
theorem slices_succeed_interpreted :
    let source := "ü@foreach\x7bä : [1.5, 'é']\x7dx@end\x7b\x7d"
    (∃ (template : Template) (node : Node), template.source = source ∧
      template.program.node? 1 = some node ∧ node.Fits source ∧
      node.slots.map Slot.span = [⟨16, 27⟩] ∧
      ∃ text, Span.slice? source ⟨16, 27⟩ = some text ∧ text.utf8ByteSize = 11) ∧
    Span.slice? "[1.5, 'é']" ⟨1, 4⟩ = some "1.5" ∧
      numberEnd "[1.5, 'é']" false 1 "1.5, 'é']".toList = 4 := by
  intro source
  obtain ⟨hsliced, -, -, -, -, -, htemplates, htokens⟩ := slices_succeed source
  constructor
  · obtain ⟨program, hcompiles, hfound⟩ := Attempt.exists_eq_ok_and
      (x := Program.compile ⟨.interpreted, []⟩ source)
      (p := fun program => (program.node? 1).any fun node => node.slots.map Slot.span == [⟨16, 27⟩])
      (by decide +kernel)
    have hsame := Program.source_of_compile hcompiles
    obtain ⟨node, hnode, hspans⟩ := (Option.any_eq_true _ _).1 hfound
    have hspans : node.slots.map Slot.span = [⟨16, 27⟩] := beq_iff_eq.1 hspans
    let template : Template :=
      ⟨program, none, ⟨.interpreted, []⟩, 0, by rw [hsame]; exact hcompiles⟩
    obtain ⟨hfits, -⟩ := htemplates template hsame 1 node hnode
    obtain ⟨slot, hslot, hspan⟩ : ∃ slot ∈ node.slots, slot.span = ⟨16, 27⟩ :=
      List.mem_map.1 (hspans ▸ List.mem_singleton_self _)
    obtain ⟨-, text, hslices, -, hlength⟩ := hsliced _ (hspan ▸ hfits.slots slot hslot)
    exact ⟨template, node, hsame, hnode, hfits, hspans, text, hslices, Nat.add_left_cancel hlength⟩
  · obtain ⟨hslices, hnumber⟩ := (htokens "[1.5, 'é']").1 ['['] '1' ".5, 'é']".toList rfl
    have hread : (Reading.ofCons '1' ".5, 'é']".toList).spelling = "1.5".toList := by decide +kernel
    simp only [hread] at hslices hnumber
    exact ⟨hslices, hnumber rfl⟩

end TextTemplate
