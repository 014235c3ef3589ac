import TextTemplate.Proofs.Expression.Parts
import TextTemplate.Proofs.Likeness.Carried

/-!
# Directives that have moved

Where a part of a source stands in another source, at another place perhaps, its directives can be
carried over: an expression that has been read is the same there, and one that is still to be read
has the same text. Where they have moved to may be known.

## Main definitions

* `Places`: which offsets of two sources correspond.
* `Span.Moved`: spans that cover the same text.
* `Slot.Copied`: expressions that are the same, at other places.

## Main results

* `carries_moved`: directives whose bodies have moved can be carried over.
-/

namespace TextTemplate

/-- Which offsets of one source correspond to which offsets of another one. -/
abbrev Places := Nat → Nat → Prop

/-- All of them, as far as it matters. -/
def Places.any : Places := fun _ _ => True

/-- The spans cover the same text, each in its source, at places that correspond. -/
def Span.Moved (places : Places) (source source' : String) (span span' : Span) : Prop :=
  ∃ text, span.Covers source text ∧ span'.Covers source' text ∧
    ∀ n ≤ byteLength text, places (span.start + n) (span'.start + n)

/-- The two are the same expression, or the same text, at places that correspond, of which one is
still to be read. -/
inductive Slot.Copied (places : Places) (source source' : String) : Slot → Slot → Prop
  | parsed (span span' : Span) (expr : Expr) :
      Slot.Copied places source source' (.parsed span expr) (.parsed span' expr)
  | raw {span span' : Span} (same : span.slice source = span'.slice source')
      (starts : places span.start span'.start) :
      Slot.Copied places source source' (.raw span) (.raw span')

theorem Slot.Copied.refl {places : Places} {source : String}
    (hrefl : ∀ offset, places offset offset) :
    ∀ slot : Slot, Slot.Copied places source source slot slot
  | .parsed span expr => .parsed span span expr
  | .raw span => .raw rfl (hrefl span.start)

/-! ### Cutting at separators -/

/-- The spans of the same part of a text that starts at these bytes. -/
def SamePart (text : List Char) (base base' : Nat) (part part' : Span) : Prop :=
  ∃ before middle after, text = before ++ middle ++ after ∧
    part = ⟨base + byteLength before, base + byteLength before + byteLength middle⟩ ∧
    part' = ⟨base' + byteLength before, base' + byteLength before + byteLength middle⟩

/-- Where a text is cut depends on the text only. What has been read of the part that is being read
is `read`. -/
theorem forall₂_splitTopLevelFrom (separator : Char) (base base' : Nat) {text : List Char}
    (cs : List Char) : ∀ (before read : List Char) (depth : Nat) (quoting : Quoting),
      text = before ++ read ++ cs →
      List.Forall₂ (SamePart text base base')
        (splitTopLevelFrom separator (base + byteLength before)
          (base + byteLength before + byteLength read) depth quoting cs)
        (splitTopLevelFrom separator (base' + byteLength before)
          (base' + byteLength before + byteLength read) depth quoting cs) := by
  induction cs with
  | nil =>
    intro before read depth quoting htext
    rw [splitTopLevelFrom, splitTopLevelFrom]
    exact .cons ⟨before, read, [], htext, rfl, rfl⟩ .nil
  | cons c cs ih =>
    intro before read depth quoting htext
    have hread : text = before ++ (read ++ [c]) ++ cs := by simpa using htext
    have hpos (base : Nat) : base + byteLength before + byteLength read + c.utf8Size =
        base + byteLength before + byteLength (read ++ [c]) := by
      rw [byteLength_append, byteLength_cons, byteLength_nil]
      omega
    cases quoting with
    | escaped quote | quoted quote =>
      rw [splitTopLevelFrom, splitTopLevelFrom, hpos, hpos]
      exact ih before (read ++ [c]) depth _ hread
    | plain =>
      rw [splitTopLevelFrom, splitTopLevelFrom]
      simp only [hpos]
      split_ifs
      · exact ih before (read ++ [c]) depth _ hread
      · exact ih before (read ++ [c]) _ _ hread
      · exact ih before (read ++ [c]) _ _ hread
      · have hnext (base : Nat) : base + byteLength before + byteLength (read ++ [c]) =
            base + byteLength (before ++ (read ++ [c])) := by
          rw [byteLength_append before, Nat.add_assoc]
        rw [hnext, hnext]
        refine .cons ⟨before, read, c :: cs, htext, rfl, rfl⟩ ?_
        exact ih (before ++ (read ++ [c])) [] 0 .plain (by simpa using htext)
      · exact ih before (read ++ [c]) depth _ hread

namespace Span.Moved

variable {places : Places} {source source' : String} {span span' : Span}

theorem slice_eq (h : span.Moved places source source' span') :
    span.slice source = span'.slice source' := by
  obtain ⟨text, hspan, hspan', -⟩ := h
  rw [hspan.slice_eq, hspan'.slice_eq]

private theorem start (h : span.Moved places source source' span') :
    places span.start span'.start := by
  obtain ⟨text, -, -, hplaces⟩ := h
  exact hplaces 0 (Nat.zero_le _)

private theorem forall₂_splitTopLevel {text : List Char} (h : span.Covers source text)
    (h' : span'.Covers source' text) (separator : Char) :
    List.Forall₂ (SamePart text span.start span'.start) (splitTopLevel source span separator)
      (splitTopLevel source' span' separator) := by
  rw [splitTopLevel, splitTopLevel, h.chars_eq, h'.chars_eq]
  exact forall₂_splitTopLevelFrom separator span.start span'.start text [] [] 0 .plain rfl

section Part

variable {text : List Char} (h : span.Covers source text) (h' : span'.Covers source' text)
  (hplaces : ∀ n ≤ byteLength text, places (span.start + n) (span'.start + n)) {part part' : Span}
  (hpart : SamePart text span.start span'.start part part')

include h h' hplaces hpart

/-- A part of a text that has moved has moved. -/
theorem of_samePart : part.Moved places source source' part' := by
  obtain ⟨before, middle, after, rfl, rfl, rfl⟩ := hpart
  refine ⟨middle, h.part, h'.part, fun n hn => ?_⟩
  rw [Nat.add_assoc, Nat.add_assoc]
  refine hplaces _ ?_
  rw [byteLength_append, byteLength_append]
  omega

/-- So has all that stands behind its start. -/
theorem behind_of_samePart :
    (Span.mk part.start span.stop).Moved places source source' ⟨part'.start, span'.stop⟩ := by
  obtain ⟨before, middle, after, rfl, rfl, rfl⟩ := hpart
  rw [List.append_assoc, ← List.append_nil (before ++ (middle ++ after))] at h h' hplaces
  have hstop := h.stop_eq
  have hstop' := h'.stop_eq
  rw [List.append_nil, byteLength_append, ← Nat.add_assoc] at hstop hstop'
  rw [hstop, hstop']
  refine ⟨middle ++ after, h.part, h'.part, fun n hn => ?_⟩
  rw [Nat.add_assoc, Nat.add_assoc]
  refine hplaces _ ?_
  rw [byteLength_append, byteLength_append]
  omega

end Part

private theorem trim (h : span.Moved places source source' span') :
    (span.trim source).Moved places source source' (span'.trim source') := by
  obtain ⟨text, hspan, hspan', hplaces⟩ := h
  refine of_samePart hspan hspan' hplaces ?_
  cases hblank : text.all isBlank with
  | true =>
    exact ⟨[], [], text, rfl, hspan.trim_of_blank hblank, hspan'.trim_of_blank hblank⟩
  | false =>
    exact ⟨_, _, _, eq_append_trim_append hblank, hspan.trim_of_not_blank hblank,
      hspan'.trim_of_not_blank hblank⟩

end Span.Moved

/-- Directives whose bodies have moved can be carried over by the same compiler. -/
theorem carries_moved (compiler : Compiler) (places : Places) (source source' : String) :
    Carries compiler compiler source source' (Span.Moved places source source')
      (Slot.Copied places source source') where
  extensions := rfl
  slice h := h.slice_eq
  trim h := h.trim
  onlyBlanks h := by
    obtain ⟨text, hspan, hspan', -⟩ := h
    rw [hspan.onlyBlanks, hspan'.onlyBlanks]
  split h separator := by
    obtain ⟨text, hspan, hspan', hplaces⟩ := h
    exact (Span.Moved.forall₂_splitTopLevel hspan hspan' separator).imp fun _ _ hpart =>
      .of_samePart hspan hspan' hplaces hpart
  behind h separator := by
    obtain ⟨text, hspan, hspan', hplaces⟩ := h
    exact (Span.Moved.forall₂_splitTopLevel hspan hspan' separator).imp fun _ _ hpart =>
      .behind_of_samePart hspan hspan' hplaces hpart
  spells h slot hslot := by
    cases hslot with
    | parsed hmode hparse =>
      rw [h.trim.slice_eq] at hparse
      exact ⟨_, .parsed hmode hparse, .parsed _ _ _⟩
    | raw hmode => exact ⟨_, .raw hmode, .raw h.trim.slice_eq h.trim.start⟩

end TextTemplate
