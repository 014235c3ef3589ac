import TextTemplate.Proofs.Grammar.Derivation
import TextTemplate.Proofs.Likeness.Tree

/-!
# Directives that are carried over

What a directive is depends on its name and on the text of its body only. Where the expressions of
a source can be carried over to another source, or to another compiler, so can its directives, with
everything that is read from them.

## Main definitions

* `Carries`: expressions that can be carried over.
* `Directive.Carried`: directives of the same name and text.

## Main results

* `Directive.Reads.carried`, `Directive.Continues.carried`, `Directive.Ends.carried`: such
  directives have the same role, and do the same to a block.
-/

namespace TextTemplate

/-- The two roles are the same, with expressions that are alike. -/
inductive Role.Alike (alike : Slot → Slot → Prop) : Role → Role → Prop
  | opens {left right : Opener} (opener : Opener.Alike alike left right) :
      Role.Alike alike (.opens left) (.opens right)
  | standsAlone {left right : Action} (action : Action.Alike alike left right) :
      Role.Alike alike (.standsAlone left) (.standsAlone right)
  | goesOn : Role.Alike alike .goesOn .goesOn
  | ends : Role.Alike alike .ends .ends

/-- The expressions of one source, read by one compiler, can be carried over to another source and
compiler: spans that correspond have the same text and correspond in their parts, and where one
spells an expression, the other one spells an expression that is alike. -/
structure Carries (left right : Compiler) (source source' : String) (spans : Span → Span → Prop)
    (alike : Slot → Slot → Prop) : Prop where
  extensions : left.extensions = right.extensions
  slice {span span' : Span} (h : spans span span') : span.slice source = span'.slice source'
  trim {span span' : Span} (h : spans span span') : spans (span.trim source) (span'.trim source')
  onlyBlanks {span span' : Span} (h : spans span span') :
    span.onlyBlanks source = span'.onlyBlanks source'
  split {span span' : Span} (h : spans span span') (separator : Char) :
    List.Forall₂ spans (splitTopLevel source span separator) (splitTopLevel source' span' separator)
  behind {span span' : Span} (h : spans span span') (separator : Char) :
    List.Forall₂ (fun part part' => spans ⟨part.start, span.stop⟩ ⟨part'.start, span'.stop⟩)
      (splitTopLevel source span separator) (splitTopLevel source' span' separator)
  spells {span span' : Span} (h : spans span span') {slot : Slot}
    (spelled : Spells left.mode source span slot) :
    ∃ slot', Spells right.mode source' span' slot' ∧ alike slot slot'

/-- Directives of the same name, with bodies that correspond. -/
structure Directive.Carried (spans : Span → Span → Prop) (left right : Directive) : Prop where
  name : left.name = right.name
  body : spans left.body right.body

section Carried

variable {left right : Compiler} {source source' : String} {spans : Span → Span → Prop}
  {alike : Slot → Slot → Prop} (h : Carries left right source source' spans alike)
  {d d' : Directive} (hd : d.Carried spans d')

include h

/-! ### Expressions and headers of loops -/

private theorem Spells.rel_carried {span span' : Option Span} (hspans : Option.Rel spans span span')
    {slot : Option Slot} (hslot : Option.Rel (Spells left.mode source) span slot) :
    ∃ slot', Option.Rel (Spells right.mode source') span' slot' ∧ Option.Rel alike slot slot' := by
  cases hspans with
  | none =>
    cases hslot
    exact ⟨none, .none, .none⟩
  | some hspans =>
    obtain ⟨hslot⟩ := hslot
    obtain ⟨slot', hslot', halike⟩ := h.spells hspans hslot
    exact ⟨some slot', .some hslot', .some halike⟩

theorem IsBinding.carried {part part' : Span} (hparts : spans part part') {binding : LoopBinding}
    (hbinding : IsBinding left.mode source part binding) :
    ∃ binding', IsBinding right.mode source' part' binding' ∧
      LoopBinding.Alike alike binding binding' := by
  obtain ⟨hcolon, hnamed, hnonblank, hslot⟩ := hbinding
  have hsplit := h.split hparts ':'
  rw [hcolon] at hsplit
  generalize hcolon' : splitTopLevel source' part' ':' = parts at hsplit
  obtain _ | ⟨hbefore, _ | ⟨hafter, ⟨⟩⟩⟩ := hsplit
  obtain ⟨slot', hslot', halike⟩ := h.spells hafter hslot
  have hname := h.slice (h.trim hbefore)
  rw [hname] at hnamed ⊢
  exact ⟨_, .mk hcolon' hnamed (h.onlyBlanks hafter ▸ hnonblank) hslot', rfl, halike⟩

private theorem IsBinding.forall₂_carried {parts parts' : List Span}
    (hparts : List.Forall₂ spans parts parts') {bindings : List LoopBinding}
    (hbindings : List.Forall₂ (IsBinding left.mode source) parts bindings) :
    ∃ bindings', List.Forall₂ (IsBinding right.mode source') parts' bindings' ∧
      List.Forall₂ (LoopBinding.Alike alike) bindings bindings' := by
  induction hparts generalizing bindings with
  | nil =>
    cases hbindings
    exact ⟨[], .nil, .nil⟩
  | cons hpart _ ih =>
    obtain _ | ⟨hbinding, hrest⟩ := hbindings
    obtain ⟨binding', hbinding', halike⟩ := hbinding.carried h hpart
    obtain ⟨bindings', hbindings', halikes⟩ := ih hrest
    exact ⟨binding' :: bindings', .cons hbinding' hbindings', .cons halike halikes⟩

/-! ### Directives -/

namespace Directive

include hd

private theorem Carried.targetSpan : spans (d.targetSpan source) (d'.targetSpan source') := by
  have hparts := h.split hd.body ';'
  rw [Directive.targetSpan, Directive.targetSpan]
  generalize splitTopLevel source d.body ';' = parts at hparts
  generalize splitTopLevel source' d'.body ';' = parts' at hparts
  cases hparts with
  | nil => exact hd.body
  | cons hfirst => exact hfirst

private theorem Carried.preSpan? : Option.Rel spans (d.preSpan? source) (d'.preSpan? source') := by
  have hparts := h.behind hd.body ';'
  rw [Directive.preSpan?, Directive.preSpan?]
  generalize splitTopLevel source d.body ';' = parts at hparts
  generalize splitTopLevel source' d'.body ';' = parts' at hparts
  cases hparts with
  | nil => exact .none
  | cons _ hrest =>
    cases hrest with
    | nil => exact .none
    | cons hsecond =>
      simp only [List.tail_cons, List.head?_cons, Option.map_some, Option.filter_some,
        h.onlyBlanks hsecond]
      split
      · exact .some hsecond
      · exact .none

omit h hd in
private theorem alike_of_expressionRole? {make : Slot → Role} {name : String}
    (hmake : expressionRole? name = some make) {slot slot' : Slot} (halike : alike slot slot') :
    Role.Alike alike (make slot) (make slot') := by
  unfold expressionRole? at hmake
  split at hmake <;> cases hmake
  · exact .opens (.conditional (.some halike))
  · exact .opens (.declare halike)
  · exact .standsAlone (.expression halike)
  · exact .standsAlone (.eval halike)
  · exact .standsAlone (.code halike)

omit h hd in
private theorem alike_of_targetRole? {make : Slot → Option Slot → Role} {name : String}
    (hmake : targetRole? name = some make) {slot slot' : Slot} {pre pre' : Option Slot}
    (halike : alike slot slot') (hpre : Option.Rel alike pre pre') :
    Role.Alike alike (make slot pre) (make slot' pre') := by
  unfold targetRole? at hmake
  split at hmake <;> cases hmake
  · exact .standsAlone (.includeFile halike hpre)
  · exact .standsAlone (.includeNamed halike hpre)

/-- A directive that is carried over has the same role. -/
theorem Reads.carried {role : Role} (hreads : d.Reads left source role) :
    ∃ role', d'.Reads right source' role' ∧ Role.Alike alike role role' := by
  cases hreads with
  | expression hnamed hslot =>
    obtain ⟨slot', hslot', halike⟩ := h.spells hd.body hslot
    exact ⟨_, .expression (hd.name ▸ hnamed) hslot', alike_of_expressionRole? hnamed halike⟩
  | target hnamed hslot hpre =>
    obtain ⟨slot', hslot', halike⟩ := h.spells (hd.targetSpan h) hslot
    obtain ⟨pre', hpre', halikePre⟩ := Spells.rel_carried h (hd.preSpan? h) hpre
    exact ⟨_, .target (hd.name ▸ hnamed) hslot' hpre', alike_of_targetRole? hnamed halike halikePre⟩
  | loop hnamed hnonblank hheader =>
    obtain ⟨bindings', hheader', halike⟩ :=
      IsBinding.forall₂_carried h (h.split hd.body ',') hheader
    exact ⟨_, .loop (hd.name ▸ hnamed) (h.onlyBlanks hd.body ▸ hnonblank) hheader',
      .opens (.loop halike .none)⟩
  | comment hnamed => exact ⟨_, .comment (hd.name ▸ hnamed), .standsAlone .comment⟩
  | goesOn hnamed => exact ⟨_, .goesOn (hd.name ▸ hnamed), .goesOn⟩
  | ends hnamed => exact ⟨_, .ends (hd.name ▸ hnamed), .ends⟩
  | @custom kind custom hother hknown hfits =>
    rw [hd.name] at hother hknown
    refine ⟨_, .custom hother (h.extensions ▸ hknown) (h.slice hd.body ▸ hfits), ?_⟩
    cases custom.opensBlock with
    | true => exact .opens (.custom custom)
    | false => exact .standsAlone (.custom custom)

theorem Reads.goesOn_carried (hreads : d.Reads left source .goesOn) :
    d'.Reads right source' .goesOn := by
  obtain ⟨_, hreads', ⟨⟩⟩ := hreads.carried h hd
  exact hreads'

theorem Reads.ends_carried (hreads : d.Reads left source .ends) : d'.Reads right source' .ends := by
  obtain ⟨_, hreads', ⟨⟩⟩ := hreads.carried h hd
  exact hreads'

theorem Continues.carried {condition : Option Slot}
    (hcontinues : d.Continues left source condition) :
    ∃ condition', d'.Continues right source' condition' ∧
      Option.Rel alike condition condition' := by
  cases hcontinues with
  | otherwise hnamed hblank =>
    exact ⟨none, .otherwise (hd.name ▸ hnamed) (h.onlyBlanks hd.body ▸ hblank), .none⟩
  | condition hhas hslot =>
    obtain ⟨slot', hslot', halike⟩ := h.spells hd.body hslot
    exact ⟨some slot', .condition (hd.name ▸ h.onlyBlanks hd.body ▸ hhas) hslot', .some halike⟩

theorem Ends.carried {opener opener' other : Opener} (hends : d.Ends left source opener opener')
    (halike : Opener.Alike alike opener other) :
    ∃ other', d'.Ends right source' other other' ∧ Opener.Alike alike opener' other' := by
  cases hends with
  | conditional => cases halike with | conditional hc => exact ⟨_, .conditional, .conditional hc⟩
  | declare => cases halike with | declare hname => exact ⟨_, .declare, .declare hname⟩
  | custom => cases halike with | custom => exact ⟨_, .custom, .custom _⟩
  | bare hblank =>
    rw [h.onlyBlanks hd.body] at hblank
    cases halike with | loop hheader _ => exact ⟨_, .bare hblank, .loop hheader .none⟩
  | separated hnonblank hslot =>
    rw [h.onlyBlanks hd.body] at hnonblank
    cases halike with
    | loop hheader _ =>
      obtain ⟨slot', hslot', hseparator⟩ := h.spells hd.body hslot
      exact ⟨_, .separated hnonblank hslot', .loop hheader (.some hseparator)⟩

end Directive

end Carried

end TextTemplate
