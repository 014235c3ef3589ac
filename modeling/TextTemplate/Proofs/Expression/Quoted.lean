import TextTemplate.Proofs.Expression.InDirective
import TextTemplate.Proofs.Expression.RoundTrip

/-!
# Names in quotes

A text without quotes and backslashes stands in single quotes as it is, and an include of it is an
include of the name that it is.

## Main definitions

* `IsVerbatim`: texts that are not changed in quotes.
* `inQuotes`: a text in quotes.

## Main results

* `Expr.parse_inQuotes`: reading such a text in quotes.
* `Directive.Reads.exists_includeFile`: what an include of it does.
-/

namespace TextTemplate

/-- The text has no single quotes and no backslashes. -/
def IsVerbatim (text : String) : Prop :=
  ∀ c ∈ text.toList, c ≠ '\'' ∧ c ≠ '\\'

instance (text : String) : Decidable (IsVerbatim text) :=
  List.decidableBAll (fun c => c ≠ '\'' ∧ c ≠ '\\') text.toList

/-- The text in single quotes. -/
def inQuotes (text : String) : String :=
  "'" ++ text ++ "'"

section Quotes

variable {text : String}

private theorem toList_inQuotes (text : String) :
    (inQuotes text).toList = '\'' :: (text.toList ++ ['\'']) := by
  simp [inQuotes]

private theorem quoted?_verbatim {cs : List Char} (h : ∀ c ∈ cs, c ≠ '\'' ∧ c ≠ '\\')
    (rest : List Char) :
    quoted? '\'' (cs ++ '\'' :: rest) = some (cs, rest) := by
  induction cs with
  | nil => simp [quoted?]
  | cons c cs ih =>
    obtain ⟨hquote, hbackslash⟩ := h c List.mem_cons_self
    have hrest := ih fun d hd => h d (List.mem_cons_of_mem _ hd)
    simp [quoted?, hrest, hquote, hbackslash]

private theorem unescape_verbatim {cs : List Char} (h : ∀ c ∈ cs, c ≠ '\'' ∧ c ≠ '\\') :
    unescape cs = cs := by
  induction cs with
  | nil => rfl
  | cons c cs ih =>
    obtain ⟨-, hbackslash⟩ := h c List.mem_cons_self
    have hrest := ih fun d hd => h d (List.mem_cons_of_mem _ hd)
    simp [unescape, hrest, hbackslash]

/-- A text in quotes is one token. -/
theorem lex_inQuotes (h : IsVerbatim text) : lex (inQuotes text) = .ok [⟨0, .string text⟩] := by
  have hreading : Reading.ofCons '\'' (text.toList ++ ['\'']) =
      ⟨.ok (.string text), '\'' :: (text.toList ++ ['\'']), []⟩ := by
    rw [Reading.ofCons, if_neg (by decide), if_neg (by decide), if_pos (by decide),
      quoted?_verbatim h]
    simp [unescape_verbatim h]
  rw [lex, toList_inQuotes, lexFrom_cons rfl, hreading]
  dsimp only
  rw [lexFrom_nil]
  rfl

/-- It is read as the string that it is. -/
theorem Expr.parse_inQuotes (h : IsVerbatim text) :
    Expr.parse (inQuotes text) = .ok (.literal (.string text)) := by
  have hprintable : Printable (.literal (.string text)) := .single (.literal trivial)
  have hlevels : nesting 0 0 (.literal (.string text)) < maxNesting := Nat.succ_pos _
  obtain ⟨es, hes, hstatements⟩ := hprintable.statements hlevels
  rw [← hes]
  exact parse_eq_ok_iff.2 ⟨_, es, lex_inQuotes h, hstatements, rfl⟩

private theorem isSingle_inQuotes (h : IsVerbatim text) : IsSingle (inQuotes text) := by
  refine ⟨_, lex_inQuotes h, .of_forall fun t ht => ?_⟩
  obtain rfl : t = .string text := by simpa using ht
  exact ⟨by simp [IsBracket], by simp⟩

/-- What a directive spells, a template holds. -/
theorem Spells.holds {mode : Mode} {source : String} {span : Span} {slot : Slot} {e : Expr}
    (h : Spells mode source span slot) (hspan : span.Covers source text.toList)
    (hparse : Expr.parse text = .ok e) : slot.Holds source text e mode := by
  have hwritten := hspan.trim.slice?_eq
  cases h with
  | raw hmode => subst hmode; exact .raw hwritten
  | parsed hmode hparse' =>
    subst hmode
    have htrim : Expr.parse ((span.trim source).slice source) = .ok e := by
      rw [Span.slice, hwritten]
      exact Expr.parse_trim hparse
    cases htrim.symm.trans hparse'
    exact .parsed hwritten

/-- An include of a text in quotes includes the file of this name, and evaluates nothing before. -/
theorem Directive.Reads.exists_includeFile {compiler : Compiler} {source : String} {d : Directive}
    {role : Role} (h : d.Reads compiler source role) (hname : d.name = "include")
    (htext : IsVerbatim text) (hbody : d.body.Covers source (inQuotes text).toList) :
    ∃ target, role = .standsAlone (.includeFile target none) ∧
      ∀ level : Level, target.eval level.environment source = pure (.string text) := by
  obtain ⟨lexemes, hlex, harranged⟩ := isSingle_inQuotes htext
  have hcut := hbody.splitTopLevel_closed (Expr.closed_semicolon_of_lex hlex harranged)
  cases h with
  | expression hnamed => rw [hname] at hnamed; cases hnamed
  | loop hnamed | comment hnamed | ends hnamed => rw [hname] at hnamed; simp at hnamed
  | goesOn hnamed => rw [hname] at hnamed; simp at hnamed
  | custom hother => exact absurd (by rw [hname]; decide) hother
  | @target make target pre hnamed hspells hpre =>
    rw [hname] at hnamed
    cases hnamed
    rw [Directive.targetSpan, hcut] at hspells
    rw [Directive.preSpan?, hcut] at hpre
    cases hpre
    have hparse := Expr.parse_inQuotes htext
    exact ⟨target, rfl, (hspells.holds hbody hparse).eval_eq hparse⟩

end Quotes

end TextTemplate
