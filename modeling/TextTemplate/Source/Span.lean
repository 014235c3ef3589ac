import TextTemplate.Character.Blank
import TextTemplate.Character.Place
import TextTemplate.Source.Position

/-!
# Spans of a source text

A span is a half-open range of bytes of a text in UTF-8. Slicing a text by a span succeeds when the
span lies within the text and both ends fall between characters (`Span.slice?`); then the text is
what stands before the slice, the slice and the rest (`Span.slice?_eq_some_iff`). Where a slice has
to give a text whatever the span, the empty text stands for a failed slice (`Span.slice`).
-/

namespace TextTemplate

/-- The bytes from `start` up to but not including `stop`. -/
structure Span where
  start : Nat
  stop : Nat
deriving DecidableEq, Inhabited

namespace Span

/-- A span with no byte in it. -/
def isEmpty (span : Span) : Bool :=
  span.stop ≤ span.start

/-- The part of the text that the span covers, if both its ends fall between characters. -/
def slice? (source : String) (span : Span) : Option String := do
  let start ← source.pos? ⟨span.start⟩
  let stop ← source.pos? ⟨span.stop⟩
  if h : start ≤ stop then some (source.slice start stop h).copy else none

/-- The part of the text that the span covers, empty where the span does not fit. -/
def slice (source : String) (span : Span) : String :=
  (span.slice? source).getD ""

/-- The characters of the text that the span covers, none where the span does not fit. -/
def chars (source : String) (span : Span) : List Char :=
  (span.slice source).toList

/-- The span without the blanks at both ends of its text; a span of blanks alone shrinks to its
start. -/
def trim (source : String) (span : Span) : Span :=
  let cs := span.chars source
  if cs.all isBlank then
    ⟨span.start, span.start⟩
  else
    ⟨span.start + byteLength (cs.takeWhile isBlank),
      span.stop - byteLength (cs.reverse.takeWhile isBlank)⟩

/-- Whether the text of the span holds nothing but blanks. -/
def onlyBlanks (source : String) (span : Span) : Bool :=
  (span.trim source).isEmpty

/-- A span gives a part of the text when the text before it and the part reach to its ends. -/
theorem slice?_eq_some_iff {source text : String} {span : Span} :
    slice? source span = some text ↔
      ∃ before after, source = before ++ text ++ after ∧
        span = ⟨before.utf8ByteSize, before.utf8ByteSize + text.utf8ByteSize⟩ := by
  rw [slice?]
  constructor
  · intro h
    obtain ⟨start, hstart, h⟩ := Option.bind_eq_some_iff.1 h
    obtain ⟨stop, hstop, h⟩ := Option.bind_eq_some_iff.1 h
    split at h
    · rename_i hle
      obtain ⟨before, after, hsplits, hsplits'⟩ :=
        String.copy_slice_eq_iff_splits.1 ⟨hle, Option.some.inj h⟩
      refine ⟨before, after, hsplits'.eq_append, ?_⟩
      have h₁ := hsplits.offset_eq_rawEndPos.symm.trans (offset_eq_of_pos? hstart)
      have h₂ := hsplits'.offset_eq_rawEndPos.symm.trans (offset_eq_of_pos? hstop)
      cases span
      simp_all [String.Pos.Raw.ext_iff]
    · cases h
  · rintro ⟨before, after, rfl, rfl⟩
    obtain ⟨stop, hstop, hsplits'⟩ := exists_pos?_eq_some (before ++ text) after
    obtain ⟨start, hstart, hsplits⟩ := exists_pos?_eq_some before (text ++ after)
    rw [String.utf8ByteSize_append] at hstop
    revert start
    rw [← String.append_assoc]
    intro start hstart hsplits
    obtain ⟨hle, h⟩ := String.copy_slice_eq_iff_splits.2 ⟨before, after, hsplits, hsplits'⟩
    simp [hstart, hstop, hle, h]

/-- Slicing out the middle of a text gives the middle. -/
theorem slice?_append {source : String} {cs ds es : List Char}
    (h : source.toList = cs ++ ds ++ es) :
    slice? source ⟨byteLength cs, byteLength cs + byteLength ds⟩ = some (String.ofList ds) := by
  rw [slice?_eq_some_iff]
  refine ⟨String.ofList cs, String.ofList es, ?_, ?_⟩
  · rw [← String.ofList_append, ← String.ofList_append, ← h, String.ofList_toList]
  · rw [utf8ByteSize_ofList, utf8ByteSize_ofList]

theorem chars_append {source : String} {cs ds es : List Char}
    (h : source.toList = cs ++ ds ++ es) :
    chars source ⟨byteLength cs, byteLength cs + byteLength ds⟩ = ds := by
  rw [chars, slice, slice?_append h, Option.getD_some, String.toList_ofList]

end Span

/-- The line and column of a place given by its offset; an offset beyond the end stands for the
end, and one inside a character for the first column of the first line. -/
def Position.locate (source : String) (offset : Nat) : Position :=
  let offset := min offset source.utf8ByteSize
  { Position.after (Span.chars source ⟨0, offset⟩) with offset }

end TextTemplate
