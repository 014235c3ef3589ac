import TextTemplate.Proofs.Attempt
import TextTemplate.Template.Role

/-!
# Expressions and loop headers by rules

When a span spells an expression, as far as the mode looks at it, and when a part of a loop's header
is a variable with its source; apart from how either is checked.

## Main definitions

* `Spells`, `Misspells`: whether a span spells an expression.
* `IsBinding`, `IsBadBinding`: whether a part of a loop's header is a variable and its source.

## Main results

* `Directive.slot_eq_ok_iff`, `Directive.slot_eq_error_iff`: the first are the rules of
  `Directive.slot`.
* `Directive.loopBinding_eq_ok_iff`, `Directive.loopBinding_eq_error_iff`: the second are those of
  `Directive.loopBinding`.
-/

namespace TextTemplate

open Attempt

/-! ### Expressions -/

section Spelling

variable (mode : Mode) (source : String)

/-- The text of the span, blanks at its ends apart, is an expression as far as the mode looks: in
compiled mode it has to be well formed, in interpreted mode it is not looked at. -/
inductive Spells (span : Span) : Slot → Prop
  | parsed {e : Expr} (looks : mode = .compiled)
      (wellFormed : Expr.parse ((span.trim source).slice source) = .ok e) :
      Spells span (.parsed (span.trim source) e)
  | raw (looks : mode = .interpreted) : Spells span (.raw (span.trim source))

/-- The text of the span is no expression, and the mode looks; offsets in the message count from
the start of the source. -/
def Misspells (span : Span) (fault : CompileFault) : Prop :=
  mode = .compiled ∧ ∃ e, Expr.parse ((span.trim source).slice source) = .error e ∧
    fault = .expression (e.shift (span.trim source).start).message

end Spelling

namespace Directive

variable {compiler : Compiler} {source : String} {d : Directive}

theorem slot_eq_ok_iff {span : Span} {slot : Slot} :
    d.slot compiler source span = .ok slot ↔ Spells compiler.mode source span slot := by
  rw [Directive.slot, mapError_eq_ok_iff]
  cases hm : compiler.mode with
  | compiled =>
    rw [Slot.ofSpan]
    cases hp : Expr.parse ((span.trim source).slice source) with
    | error e =>
      simp only [Slot.read, hp, mapError_error, Except.map, reduceCtorEq, false_iff]
      rintro (⟨-, h⟩ | ⟨h⟩)
      · simp [hp] at h
      · cases h
    | ok e =>
      simp only [Slot.read, hp, mapError_ok, Except.map, Except.ok.injEq]
      constructor
      · rintro rfl
        exact .parsed rfl hp
      · rintro (⟨-, h⟩ | ⟨h⟩)
        · rw [hp, Except.ok.injEq] at h
          rw [h]
        · cases h
  | interpreted =>
    simp only [Slot.ofSpan, Except.ok.injEq]
    constructor
    · rintro rfl
      exact .raw rfl
    · rintro (⟨h, -⟩ | ⟨-⟩)
      · cases h
      · rfl

theorem slot_eq_error_iff {span : Span} {e : CompileError} :
    d.slot compiler source span = .error e ↔
      ∃ fault, Misspells compiler.mode source span fault ∧ e = d.error fault := by
  rw [Directive.slot, mapError_eq_error_iff]
  cases hm : compiler.mode with
  | compiled =>
    rw [Slot.ofSpan]
    cases hp : Expr.parse ((span.trim source).slice source) with
    | error e' =>
      simp only [Slot.read, hp, mapError_error, Except.map, Except.error.injEq, Misspells, true_and]
      constructor
      · rintro ⟨e, rfl, rfl⟩
        exact ⟨_, ⟨e', rfl, rfl⟩, rfl⟩
      · rintro ⟨_, ⟨e, rfl, rfl⟩, rfl⟩
        exact ⟨_, rfl, rfl⟩
    | ok e' => simp [Slot.read, hp, Except.map, Misspells]
  | interpreted => simp [Slot.ofSpan, Misspells]

end Directive

/-! ### The header of a loop -/

section Header

variable (mode : Mode) (source : String)

/-- The part of a header is a variable, a colon and a source that is not blank. -/
inductive IsBinding (part : Span) : LoopBinding → Prop
  | mk {before after : Span} {slot : Slot}
      (colon : splitTopLevel source part ':' = [before, after])
      (named : Directive.isLoopVariable ((before.trim source).slice source).toList = true)
      (nonblank : after.onlyBlanks source = false) (spells : Spells mode source after slot) :
      IsBinding part ⟨(before.trim source).slice source, slot⟩

/-- What is wrong with a part of a header: it does not have one colon, or no variable before it, or
no source behind it. -/
inductive IsBadBinding (part : Span) : CompileFault → Prop
  | colon (many : ∀ before after, splitTopLevel source part ':' ≠ [before, after]) :
      IsBadBinding part
        (.malformedLoop s!"expected exactly one ':' in '{trim (part.slice source)}'")
  | unnamed {before after : Span} (colon : splitTopLevel source part ':' = [before, after])
      (unnamed :
        Directive.isLoopVariable ((before.trim source).slice source).toList = false) :
      IsBadBinding part
        (.malformedLoop s!"invalid loop variable '{(before.trim source).slice source}'")
  | missing {before after : Span} (colon : splitTopLevel source part ':' = [before, after])
      (named : Directive.isLoopVariable ((before.trim source).slice source).toList = true)
      (blank : after.onlyBlanks source = true) :
      IsBadBinding part
        (.malformedLoop s!"missing source expression for '{(before.trim source).slice source}'")
  | expression {before after : Span} {fault : CompileFault}
      (colon : splitTopLevel source part ':' = [before, after])
      (named : Directive.isLoopVariable ((before.trim source).slice source).toList = true)
      (nonblank : after.onlyBlanks source = false) (misspells : Misspells mode source after fault) :
      IsBadBinding part fault

end Header

namespace Directive

variable {compiler : Compiler} {source : String} {d : Directive}

/-- A part of a header that has one colon. -/
theorem loopBinding_of_colon {part before after : Span}
    (h : splitTopLevel source part ':' = [before, after]) :
    d.loopBinding compiler source part =
      if isLoopVariable ((before.trim source).slice source).toList = false then
        .error (d.error (.malformedLoop
          s!"invalid loop variable '{(before.trim source).slice source}'"))
      else if after.onlyBlanks source = true then
        .error (d.error (.malformedLoop
          s!"missing source expression for '{(before.trim source).slice source}'"))
      else LoopBinding.mk ((before.trim source).slice source) <$> d.slot compiler source after := by
  rw [loopBinding]
  simp only [h]
  cases isLoopVariable ((before.trim source).slice source).toList <;>
    cases after.onlyBlanks source <;> rfl

/-- A part of a header that has no colon or more than one. -/
theorem loopBinding_of_no_colon {part : Span}
    (h : ∀ before after, splitTopLevel source part ':' ≠ [before, after]) :
    d.loopBinding compiler source part = .error (d.error (.malformedLoop
      s!"expected exactly one ':' in '{trim (part.slice source)}'")) := by
  rw [loopBinding]
  split
  · exact absurd ‹_› (h _ _)
  · rfl

theorem loopBinding_eq_ok_iff {part : Span} {binding : LoopBinding} :
    d.loopBinding compiler source part = .ok binding ↔
      IsBinding compiler.mode source part binding := by
  constructor
  · intro h
    by_cases hsplit : ∃ before after, splitTopLevel source part ':' = [before, after]
    · obtain ⟨before, after, hsplit⟩ := hsplit
      rw [loopBinding_of_colon hsplit] at h
      split_ifs at h with hname hblank
      obtain ⟨slot, hslot, rfl⟩ := map_eq_ok_iff.1 h
      exact .mk hsplit (by simpa using hname) (by simpa using hblank) (slot_eq_ok_iff.1 hslot)
    · rw [loopBinding_of_no_colon fun _ _ hs => hsplit ⟨_, _, hs⟩] at h
      cases h
  · rintro ⟨hsplit, hname, hblank, hslot⟩
    rw [loopBinding_of_colon hsplit, if_neg (by simp [hname]), if_neg (by simp [hblank]),
      slot_eq_ok_iff.2 hslot]
    rfl

theorem loopBinding_eq_error_iff {part : Span} {e : CompileError} :
    d.loopBinding compiler source part = .error e ↔
      ∃ fault, IsBadBinding compiler.mode source part fault ∧ e = d.error fault := by
  constructor
  · intro h
    by_cases hsplit : ∃ before after, splitTopLevel source part ':' = [before, after]
    · obtain ⟨before, after, hsplit⟩ := hsplit
      rw [loopBinding_of_colon hsplit] at h
      split_ifs at h with hname hblank
      · exact ⟨_, .unnamed hsplit hname, (Except.error.inj h).symm⟩
      · exact ⟨_, .missing hsplit (by simpa using hname) hblank, (Except.error.inj h).symm⟩
      · obtain ⟨fault, hfault, rfl⟩ := slot_eq_error_iff.1 (map_eq_error_iff.1 h)
        exact ⟨fault, .expression hsplit (by simpa using hname) (by simpa using hblank) hfault,
          rfl⟩
    · have hmany : ∀ before after, splitTopLevel source part ':' ≠ [before, after] :=
        fun _ _ hs => hsplit ⟨_, _, hs⟩
      rw [loopBinding_of_no_colon hmany] at h
      exact ⟨_, .colon hmany, (Except.error.inj h).symm⟩
  · rintro ⟨fault, h, rfl⟩
    cases h with
    | colon hmany => rw [loopBinding_of_no_colon hmany]
    | unnamed hsplit hname => rw [loopBinding_of_colon hsplit, if_pos hname]
    | missing hsplit hname hblank =>
      rw [loopBinding_of_colon hsplit, if_neg (by simp [hname]), if_pos hblank]
    | expression hsplit hname hblank hfault =>
      rw [loopBinding_of_colon hsplit, if_neg (by simp [hname]), if_neg (by simp [hblank]),
        map_eq_error_iff]
      exact slot_eq_error_iff.2 ⟨fault, hfault, rfl⟩

end Directive

end TextTemplate
