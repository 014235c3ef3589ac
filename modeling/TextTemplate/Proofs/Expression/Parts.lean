import Mathlib.Data.List.TakeWhile
import TextTemplate.Proofs.Expression.Matched

/-!
# Parts of a source

Where the texts of a source stand when it is put together from them: a span that covers a text
covers, without the blanks at its ends, the text without the blanks at its ends; and cut at a
separator it gives spans that cover the texts between the separators, if these close their brackets
and have no such separator outside them.

## Main definitions

* `Span.Covers` — the text that a span covers.

## Main results

* `Span.Covers.trim`, `Span.Covers.onlyBlanks` — the text without blanks at its ends.
* `Span.Covers.splitTopLevel_closed`, `Span.Covers.splitTopLevel_append` — a text in one part, and
  one that goes on behind a separator.
-/

namespace TextTemplate

/-! ### Blanks at the ends of a text -/

theorem trim_eq_nil_iff {cs : List Char} :
    trimEnd (trimStart cs) = [] ↔ cs.all isBlank = true := by
  rw [trimEnd, List.reverse_eq_nil_iff, List.dropWhile_eq_nil_iff]
  constructor
  · intro h
    rw [← List.takeWhile_append_dropWhile (p := isBlank) (l := cs), List.all_append,
      List.all_takeWhile, Bool.true_and, List.all_eq_true]
    exact fun c hc => h c (List.mem_reverse.2 hc)
  · intro h c hc
    exact List.all_eq_true.1 h c ((List.dropWhile_sublist _).mem (List.mem_reverse.1 hc))

theorem trimEnd_append (cs blanks : List Char) (h : ∀ c ∈ blanks, isBlank c = true) :
    trimEnd (cs ++ blanks) = trimEnd cs := by
  rw [trimEnd, trimEnd, List.reverse_append,
    List.dropWhile_append_of_pos fun c hc => h c (List.mem_reverse.1 hc)]

/-- A text is the blanks at its start, the text without the blanks at its ends, and the blanks at
its end. -/
theorem eq_append_trim_append {cs : List Char} (h : cs.all isBlank = false) :
    cs = cs.takeWhile isBlank ++ trimEnd (trimStart cs) ++
      (cs.reverse.takeWhile isBlank).reverse := by
  have hback : trimStart cs =
      trimEnd (trimStart cs) ++ ((trimStart cs).reverse.takeWhile isBlank).reverse := by
    rw [trimEnd, ← List.reverse_append, List.takeWhile_append_dropWhile, List.reverse_reverse]
  have hbehind : cs.reverse.takeWhile isBlank = (trimStart cs).reverse.takeWhile isBlank := by
    have hsplit : cs.reverse = (trimStart cs).reverse ++ (cs.takeWhile isBlank).reverse := by
      rw [← List.reverse_append, trimStart, List.takeWhile_append_dropWhile]
    rw [hsplit, List.takeWhile_append, if_neg]
    intro hwhole
    have hblank := List.takeWhile_sublist isBlank |>.eq_of_length hwhole
    have hall : (trimStart cs).reverse.all isBlank = true := hblank ▸ List.all_takeWhile
    rw [List.all_reverse] at hall
    rw [← List.takeWhile_append_dropWhile (p := isBlank) (l := cs), List.all_append,
      List.all_takeWhile, Bool.true_and] at h
    exact Bool.noConfusion (h.symm.trans hall)
  rw [hbehind, List.append_assoc, ← hback, trimStart, List.takeWhile_append_dropWhile]

namespace Span

/-- The span covers this part of the source. -/
def Covers (source : String) (span : Span) (text : List Char) : Prop :=
  ∃ before after, source.toList = before ++ text ++ after ∧
    span = ⟨byteLength before, byteLength before + byteLength text⟩

namespace Covers

variable {source : String} {span : Span} {text : List Char}

theorem chars_eq (h : span.Covers source text) : span.chars source = text := by
  obtain ⟨before, after, heq, rfl⟩ := h
  exact chars_append heq

theorem slice_eq (h : span.Covers source text) : span.slice source = String.ofList text := by
  rw [← h.chars_eq, chars, String.ofList_toList]

theorem stop_eq (h : span.Covers source text) : span.stop = span.start + byteLength text := by
  obtain ⟨before, after, -, rfl⟩ := h
  rfl

/-- The span of a part of the text. -/
theorem part {before after : List Char} (h : span.Covers source (before ++ text ++ after)) :
    (Span.mk (span.start + byteLength before)
      (span.start + byteLength before + byteLength text)).Covers source text := by
  obtain ⟨front, back, heq, rfl⟩ := h
  exact ⟨front ++ before, after ++ back, by simp [heq], by simp⟩

/-- The span of blanks only, without the blanks at its ends. -/
theorem trim_of_blank (h : span.Covers source text) (hblank : text.all isBlank = true) :
    span.trim source = ⟨span.start, span.start⟩ := by
  rw [Span.trim, h.chars_eq]
  simp only [hblank, if_true]

/-- Any other span without the blanks at its ends. -/
theorem trim_of_not_blank (h : span.Covers source text) (hblank : text.all isBlank = false) :
    span.trim source =
      ⟨span.start + byteLength (text.takeWhile isBlank),
        span.start + byteLength (text.takeWhile isBlank) +
          byteLength (trimEnd (trimStart text))⟩ := by
  have hbytes := congrArg byteLength (eq_append_trim_append hblank)
  simp only [byteLength_append, byteLength_reverse] at hbytes
  have hstop : span.stop - byteLength (text.reverse.takeWhile isBlank) =
      span.start + byteLength (text.takeWhile isBlank) + byteLength (trimEnd (trimStart text)) := by
    rw [h.stop_eq]
    omega
  rw [Span.trim, h.chars_eq]
  simp only [hblank, Bool.false_eq_true, if_false, hstop]

/-- The span without the blanks at its ends covers the text without the blanks at its ends. -/
theorem trim (h : span.Covers source text) :
    (span.trim source).Covers source (trimEnd (trimStart text)) := by
  cases hblank : text.all isBlank with
  | true =>
    rw [h.trim_of_blank hblank]
    have h' : span.Covers source ([] ++ [] ++ text) := h
    simpa [trim_eq_nil_iff.2 hblank] using h'.part
  | false =>
    rw [h.trim_of_not_blank hblank]
    rw [eq_append_trim_append hblank] at h
    exact h.part

theorem onlyBlanks (h : span.Covers source text) :
    span.onlyBlanks source = text.all isBlank := by
  rw [Span.onlyBlanks, isEmpty, h.trim.stop_eq, Bool.eq_iff_iff, decide_eq_true_eq,
    ← trim_eq_nil_iff, ← byteLength_eq_zero_iff]
  omega

end Covers

end Span

/-! ### Cutting at separators -/

section Cutting

variable {separator : Char} {start pos depth : Nat} {cs : List Char}

/-- Strings are passed over. -/
theorem splitTopLevelFrom_quoted {quote : Char} {inside : List Char} (hq : isQuote quote = true)
    (h : Quoted quote inside) :
    splitTopLevelFrom separator start pos depth (.quoted quote) (inside ++ cs) =
      splitTopLevelFrom separator start (pos + byteLength inside) depth .plain cs := by
  induction h generalizing pos with
  | ends => simp [splitTopLevelFrom, ne_backslash_of_isQuote hq]
  | escaped _ ih => simp [splitTopLevelFrom, ih, Nat.add_assoc]
  | char hplain hother _ ih => simp [splitTopLevelFrom, hplain, hother, ih, Nat.add_assoc]

/-- A text that closes its brackets is passed over, if the separator is not in it or only inside
brackets. -/
theorem splitTopLevelFrom_closed {avoid : Option Char} {text : List Char} (h : Closed avoid text)
    (hstays : avoid = some separator ∨ depth ≠ 0) :
    splitTopLevelFrom separator start pos depth .plain (text ++ cs) =
      splitTopLevelFrom separator start (pos + byteLength text) depth .plain cs := by
  induction h generalizing pos depth cs with
  | nil => rfl
  | @char avoid c text hplain hother _ ih =>
    have hstays' : ¬ (c = separator ∧ depth = 0) := by
      rintro ⟨rfl, rfl⟩
      exact hstays.elim hother (· rfl)
    simp [splitTopLevelFrom, hplain.1, hplain.2.1, hplain.2.2, hstays', ih hstays, Nat.add_assoc]
  | string hquote hquoted _ ih =>
    simp [splitTopLevelFrom, hquote, splitTopLevelFrom_quoted hquote hquoted, ih hstays,
      Nat.add_assoc]
  | bracket hopens hinner _ ihin ih =>
    have hcloses := isCloser_of_closerOf hopens
    simp [splitTopLevelFrom, hopens, isQuote_of_closerOf hopens, ihin, hcloses,
      isQuote_of_isCloser hcloses, closerOf_of_isCloser hcloses, ih hstays, Nat.add_assoc]

private theorem splitTopLevelFrom_separator (hplain : IsPlain separator) :
    splitTopLevelFrom separator start pos 0 .plain (separator :: cs) =
      ⟨start, pos⟩ :: splitTopLevelFrom separator (pos + separator.utf8Size)
        (pos + separator.utf8Size) 0 .plain cs := by
  rw [splitTopLevelFrom]
  simp [hplain.1, hplain.2.1, hplain.2.2]

/-- The first part starts where the text starts. -/
theorem exists_splitTopLevelFrom_eq (quoting : Quoting) : ∃ stop parts,
    splitTopLevelFrom separator start pos depth quoting cs = ⟨start, stop⟩ :: parts := by
  induction cs generalizing pos depth quoting with
  | nil => exact ⟨pos, [], by rw [splitTopLevelFrom]⟩
  | cons c cs ih =>
    cases quoting with
    | quoted | escaped => exact ih _
    | plain =>
      rw [splitTopLevelFrom]
      split_ifs
      · exact ih _
      · exact ih _
      · exact ih _
      · exact ⟨_, _, rfl⟩
      · exact ih _

end Cutting

namespace Span.Covers

variable {source : String} {span : Span} {separator : Char} {text rest : List Char}

theorem splitTopLevel_closed (h : span.Covers source text)
    (hclosed : Closed (some separator) text) :
    splitTopLevel source span separator = [span] := by
  have hwhole : splitTopLevelFrom separator span.start span.start 0 .plain (text ++ []) = _ :=
    splitTopLevelFrom_closed hclosed (.inl rfl)
  rw [List.append_nil] at hwhole
  rw [splitTopLevel, h.chars_eq, hwhole, splitTopLevelFrom, ← h.stop_eq]

theorem splitTopLevel_append (h : span.Covers source (text ++ separator :: rest))
    (hclosed : Closed (some separator) text) (hplain : IsPlain separator) :
    ∃ first second : Span, first.Covers source text ∧ second.Covers source rest ∧
      second.stop = span.stop ∧
      splitTopLevel source span separator = first :: splitTopLevel source second separator := by
  have hfirst : span.Covers source ([] ++ text ++ separator :: rest) := h
  have hsecond : span.Covers source ((text ++ [separator]) ++ rest ++ []) := by simpa using h
  refine ⟨_, _, hfirst.part, hsecond.part, ?_, ?_⟩
  · simp [h.stop_eq, Nat.add_assoc]
  · rw [splitTopLevel, splitTopLevel, h.chars_eq, hsecond.part.chars_eq,
      splitTopLevelFrom_closed hclosed (.inl rfl), splitTopLevelFrom_separator hplain]
    simp [Nat.add_assoc]

end Span.Covers

theorem exists_splitTopLevel_eq (source : String) (span : Span) (separator : Char) :
    ∃ stop parts, splitTopLevel source span separator = ⟨span.start, stop⟩ :: parts :=
  exists_splitTopLevelFrom_eq .plain

end TextTemplate
