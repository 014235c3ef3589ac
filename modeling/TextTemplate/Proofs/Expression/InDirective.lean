import TextTemplate.Proofs.Expression.Later
import TextTemplate.Proofs.Expression.Parts
import TextTemplate.Proofs.Simulation.Caches
import TextTemplate.Proofs.Structure.Matching
import TextTemplate.Render.Renderer

/-!
# Expressions in directives

An expression can be written in a directive as it is: the directive ends behind it, and the commas,
colons and semicolons that separate the parts of a directive are not found in it. So what a template
makes of a directive that is put together from expressions are these expressions.

## Main definitions

* `expressionSource`, `loopSource`, `includeSource` — directives that are put together from texts.
* `Slot.Holds` — an expression of a template that was written as a text.

## Main results

* `expressions_in_directives` — what these directives compile to.
-/

namespace TextTemplate

/-! ### Sources of one directive -/

theorem IsHead.not_isEscape {cs name inside : List Char} (h : IsHead cs name inside) :
    ¬IsEscape cs := by
  rintro ⟨hhead⟩
  exact not_isHead_of_isSigil hhead.isSigil h

section Compile

variable {compiler : Compiler} {source : String} {name body : List Char}

/-- A directive behind a text, and what is behind the directive. -/
theorem scans_of_directive (before : List Char) {cs : List Char} {outline : Outline}
    (hname : name.all isDirectiveNamePart = true)
    (hnoDigit : name.head?.any Char.isDigit = false) (hbalanced : Balanced '}' body)
    (hrest : Scans (byteLength (before ++ '@' :: name ++ '{' :: body ++ ['}']))
      (before ++ '@' :: name ++ '{' :: body ++ ['}']) cs outline) :
    Scans (byteLength before) before ('@' :: (name ++ '{' :: (body ++ '}' :: cs)))
      (outline.prepend [.directive (directiveAt before '@' name body)]) := by
  have hhead : IsHead ('@' :: (name ++ '{' :: (body ++ '}' :: cs))) name (body ++ '}' :: cs) :=
    .mk _ rfl (List.all_eq_true.1 hname) ((Option.any_eq_false ..).1 hnoDigit)
  have hscans : Scans (byteLength before) before _ _ :=
    .directive hhead.not_isEscape hhead hbalanced hrest
  rwa [textPiece, if_neg (Nat.lt_irrefl _), List.nil_append] at hscans

theorem scans_nil {before : List Char} : Scans (byteLength before) before [] ⟨[], none⟩ := by
  have hscans : Scans (byteLength before) before [] _ := .done
  rwa [textPiece, if_neg (Nat.lt_irrefl _)] at hscans

private theorem phrases_of_directives (ds : List Directive)
    (unterminated : Option (String × Position)) :
    (Outline.mk (ds.map .directive) unterminated).phrases = ds.map .directive := by
  induction ds with
  | nil => rfl
  | cons d ds ih =>
    rw [Outline.phrases] at ih ⊢
    simp only [List.map_cons, joinTexts, ne_eq, not_true_eq_false, and_false, if_false, ih]
    rfl

/-- The body of a directive covers what stands between its braces. -/
theorem covers_body {before after : List Char} {sigil : Char}
    (h : source.toList = before ++ sigil :: name ++ '{' :: body ++ after) :
    (directiveAt before sigil name body).body.Covers source body := by
  refine ⟨before ++ sigil :: name ++ ['{'], after, ?_, ?_⟩
  · simp [h]
  · simp [directiveAt, Nat.add_assoc]

/-- A source that is a directive which stands alone. -/
theorem compile_of_action {action : Action} (hname : name.all isDirectiveNamePart = true)
    (hnoDigit : name.head?.any Char.isDigit = false) (hbalanced : Balanced '}' body)
    (hsource : source.toList = '@' :: (name ++ '{' :: (body ++ ['}'])))
    (hreads : (directiveAt [] '@' name body).Reads compiler source (.standsAlone action)) :
    Program.compile compiler source = .ok ⟨source,
      #[((directiveAt [] '@' name body).node (.action action)).followedBy 1,
        finishNode source.utf8ByteSize]⟩ := by
  have hscans := scans_of_directive [] hname hnoDigit hbalanced scans_nil
  rw [← hsource] at hscans
  have houtline := Outline.ofSource_eq_iff.2 hscans
  refine compile_eq_ok_iff.2 ⟨by rw [houtline]; rfl, .action _ action .done, ?_, rfl⟩
  rw [houtline]
  exact (phrases_of_directives [directiveAt [] '@' name body] none) ▸ .action hreads .done

/-- A source that is a block without a body. -/
theorem compile_of_block {opener : Opener} (hname : name.all isDirectiveNamePart = true)
    (hnoDigit : name.head?.any Char.isDigit = false) (hbalanced : Balanced '}' body)
    (hsource : source.toList =
      '@' :: (name ++ '{' :: (body ++ '}' :: ['@', 'e', 'n', 'd', '{', '}'])))
    (hreads : (directiveAt [] '@' name body).Reads compiler source (.opens opener))
    (hunchanged : ∀ closer : Directive, closer.body.onlyBlanks source = true →
      closer.Ends compiler source opener opener) :
    ∃ closer : Directive, Program.compile compiler source = .ok ⟨source,
      #[((directiveAt [] '@' name body).node (.block opener none none (some 1))).followedBy 1,
        (closer.node .terminal).followedBy 2, finishNode source.utf8ByteSize]⟩ := by
  let before := [] ++ '@' :: name ++ '{' :: body ++ ['}']
  let closer := directiveAt before '@' ['e', 'n', 'd'] []
  have hend : ['e', 'n', 'd'].all isDirectiveNamePart = true := by decide
  have hends : Scans (byteLength before) before ['@', 'e', 'n', 'd', '{', '}'] _ :=
    scans_of_directive before hend (by decide) .nil scans_nil
  have hscans := scans_of_directive [] hname hnoDigit hbalanced hends
  rw [← hsource] at hscans
  have houtline := Outline.ofSource_eq_iff.2 hscans
  have hblank : closer.body.onlyBlanks source = true := by
    have haround : source.toList = before ++ '@' :: ['e', 'n', 'd'] ++ '{' :: [] ++ ['}'] := by
      simp [hsource, before]
    have hcovers : closer.body.Covers source [] := covers_body haround
    rw [hcovers.onlyBlanks, List.all_nil]
  refine ⟨closer, compile_eq_ok_iff.2 ⟨by rw [houtline]; rfl,
    .block _ opener .done (.closed closer) .done, ?_, rfl⟩⟩
  rw [houtline]
  have hclosed : Branches.Derives compiler source opener ([] ++ [.directive closer]) opener .done
      (.closed closer) := .closed .done (.ends rfl) (hunchanged closer hblank)
  have hderives : Body.Derives compiler source
      ([directiveAt [] '@' name body, closer].map Phrase.directive) _ :=
    .block hreads hclosed .done
  exact (phrases_of_directives [directiveAt [] '@' name body, closer] none) ▸ hderives

end Compile

/-! ### What a directive holds -/

/-- The expression of a text, blanks at its ends apart, as a template in this mode holds it: read
already, or where it stands. -/
inductive Slot.Holds (source text : String) (e : Expr) : Mode → Slot → Prop
  | parsed {span : Span} (written : span.slice? source = some (trim text)) :
      Holds source text e .compiled (.parsed span e)
  | raw {span : Span} (written : span.slice? source = some (trim text)) :
      Holds source text e .interpreted (.raw span)

private theorem trim_append_append {before after : List Char}
    (hbefore : ∀ c ∈ before, isBlank c = true) (hafter : ∀ c ∈ after, isBlank c = true)
    (cs : List Char) :
    trimEnd (trimStart (before ++ cs ++ after)) = trimEnd (trimStart cs) := by
  rw [List.append_assoc, trimStart, List.dropWhile_append_of_pos hbefore]
  cases hblank : cs.all isBlank with
  | true =>
    have hall : (cs ++ after).all isBlank = true := by
      rw [List.all_append, hblank, Bool.true_and, List.all_eq_true]
      exact hafter
    exact (trim_eq_nil_iff.2 hall).trans (trim_eq_nil_iff.2 hblank).symm
  | false =>
    have hsome : cs.dropWhile isBlank ≠ [] := by
      intro hnone
      rw [List.dropWhile_eq_nil_iff] at hnone
      exact Bool.noConfusion (hblank.symm.trans (List.all_eq_true.2 hnone))
    rw [List.dropWhile_append, if_neg (by simpa using hsome), trimEnd_append _ _ hafter]
    rfl

private theorem all_isBlank_of_trim_ne {text : String} (h : trim text ≠ "") :
    text.toList.all isBlank = false := by
  rw [← Bool.not_eq_true]
  intro hblank
  refine h ?_
  rw [trim, trim_eq_nil_iff.2 hblank]

section Slots

variable {source text : String} {span : Span} {e : Expr}

theorem Span.Covers.slice?_eq {cs : List Char} (h : span.Covers source cs) :
    span.slice? source = some (String.ofList cs) := by
  obtain ⟨before, after, heq, rfl⟩ := h
  exact slice?_append heq

/-- A span around a text that is an expression spells this expression. -/
theorem exists_spells (mode : Mode) {before after : List Char}
    (hbefore : ∀ c ∈ before, isBlank c = true) (hafter : ∀ c ∈ after, isBlank c = true)
    (h : span.Covers source (before ++ text.toList ++ after)) (hparse : Expr.parse text = .ok e) :
    ∃ slot, Spells mode source span slot ∧ slot.Holds source text e mode := by
  have hwritten := h.trim.slice?_eq
  rw [trim_append_append hbefore hafter] at hwritten
  cases mode with
  | compiled =>
    refine ⟨_, .parsed rfl ?_, .parsed hwritten⟩
    rw [Span.slice, hwritten]
    exact Expr.parse_trim hparse
  | interpreted => exact ⟨_, .raw rfl, .raw hwritten⟩

/-- What a template holds is evaluated as the expression. -/
theorem Slot.Holds.eval_eq {mode : Mode} {slot : Slot} (h : slot.Holds source text e mode)
    (hparse : Expr.parse text = .ok e) (level : Level) :
    slot.eval level.environment source = e.eval level.environment := by
  cases h with
  | parsed => rfl
  | raw hwritten =>
    refine level.eval_raw ?_
    rw [Span.slice, hwritten]
    exact Expr.parse_trim hparse

end Slots

/-! ### A pure expression -/

/-- The source that is an expression directive. -/
def expressionSource (text : String) : String :=
  "@\x7b" ++ text ++ "\x7d"

private theorem compile_expressionSource (compiler : Compiler) {text : String} {e : Expr}
    (hparse : Expr.parse text = .ok e) :
    ∃ (program : Program) (node : Node) (slot : Slot),
      Program.compile compiler (expressionSource text) = .ok program ∧
      program.pureExpression? = some (node, slot) ∧ node.span.start = 0 ∧ node.name = "" ∧
      slot.Holds (expressionSource text) text e compiler.mode := by
  have hsource : (expressionSource text).toList =
      '@' :: ([] ++ '{' :: (text.toList ++ ['}'])) := by
    simp [expressionSource]
  have haround : (expressionSource text).toList =
      [] ++ '@' :: [] ++ '{' :: text.toList ++ ['}'] := by
    simp [hsource]
  let d := directiveAt [] '@' [] text.toList
  have hcovers : d.body.Covers (expressionSource text) ([] ++ text.toList ++ []) := by
    simpa using covers_body haround
  obtain ⟨slot, hspells, hholds⟩ := exists_spells compiler.mode (by simp) (by simp) hcovers hparse
  have hreads : d.Reads compiler (expressionSource text) (.standsAlone (.expression slot)) :=
    .expression rfl (by simpa using hspells)
  have hcompiled := compile_of_action (by simp) (by simp)
    ((Expr.closed_comma_of_parse hparse).balanced rfl) hsource hreads
  have hsize : d.span = ⟨0, (expressionSource text).utf8ByteSize⟩ := by
    rw [← byteLength_toList, hsource]
    simp [d, directiveAt]
  refine ⟨_, (d.node (.action (.expression slot))).followedBy 1, slot, hcompiled, ?_, rfl, rfl,
    hholds⟩
  exact if_pos hsize

/-! ### Loops -/

/-- The source that is a loop without a body, over expressions. -/
def loopSource (header : List (String × String)) : String :=
  "@foreach\x7b" ++ ", ".intercalate (header.map fun part => part.1 ++ " : " ++ part.2) ++
    "\x7d@end\x7b\x7d"

private theorem trim_of_noBlank {cs : List Char} (h : ∀ c ∈ cs, isBlank c = false) :
    trimEnd (trimStart cs) = cs := by
  have hsame (cs : List Char) (h : ∀ c ∈ cs, isBlank c = false) : cs.dropWhile isBlank = cs := by
    cases cs with
    | nil => rfl
    | cons c cs => rw [List.dropWhile_cons_of_neg (by simp [h c])]
  rw [trimStart, hsame cs h, trimEnd, hsame cs.reverse fun c hc => h c (List.mem_reverse.1 hc),
    List.reverse_reverse]

section Header

variable (mode : Mode) {source : String} {span : Span} {name text : String} {lead : List Char}

/-- A part of a header, with blanks in front of it. -/
theorem exists_isBinding (hblank : ∀ c ∈ lead, isBlank c = true)
    (h : span.Covers source (lead ++ (name ++ " : " ++ text).toList))
    (hvariable : Directive.isLoopVariable name.toList = true) {e : Expr}
    (hparse : Expr.parse text = .ok e) (hnonblank : trim text ≠ "") :
    ∃ binding : LoopBinding, IsBinding mode source span binding ∧ binding.name = name ∧
      binding.source.Holds source text e mode := by
  have hshape : (name ++ " : " ++ text).toList =
      name.toList ++ [' '] ++ ':' :: ([' '] ++ text.toList) := by
    simp
  rw [hshape, ← List.append_assoc, ← List.append_assoc] at h
  have hpart : ∀ c ∈ name.toList, isNamePart c = true := by
    rw [Directive.isLoopVariable, Bool.and_eq_true, List.all_eq_true] at hvariable
    exact hvariable.2
  have hfront : Closed (some ':') (lead ++ name.toList ++ [' ']) := by
    refine .of_notMem_specials (by simp [specials]) fun c hc => ?_
    simp only [List.mem_append, List.mem_singleton] at hc
    rcases hc with (hc | hc) | rfl
    · exact notMem_specials_of_isBlank (hblank c hc)
    · exact notMem_specials_of_isNamePart (hpart c hc)
    · decide
  have hbehind : Closed (some ':') ([' '] ++ text.toList) :=
    .char (by decide) (by simp) (Expr.closed_colon_of_parse hparse)
  obtain ⟨first, second, hfirst, hsecond, -, hcut⟩ := h.splitTopLevel_append hfront (by decide)
  rw [hsecond.splitTopLevel_closed hbehind] at hcut
  have hspaces : ∀ c ∈ [' '], isBlank c = true := List.all_eq_true.1 rfl
  have hnamed : (first.trim source).slice source = name := by
    rw [hfirst.trim.slice_eq, trim_append_append hblank hspaces,
      trim_of_noBlank fun c hc => isBlank_of_isNamePart (hpart c hc), String.ofList_toList]
  have hsome : second.onlyBlanks source = false := by
    rw [hsecond.onlyBlanks, List.all_append, all_isBlank_of_trim_ne hnonblank, Bool.and_false]
  have haround : second.Covers source ([' '] ++ text.toList ++ []) := by simpa using hsecond
  obtain ⟨slot, hspells, hholds⟩ := exists_spells mode hspaces (by simp) haround hparse
  refine ⟨⟨name, slot⟩, ?_, rfl, hholds⟩
  have hbinding := IsBinding.mk hcut (by rw [hnamed]; exact hvariable) hsome hspells
  rwa [hnamed] at hbinding

/-- A part of the header of a loop: a variable and an expression that is not blank. -/
def IsHeaderPart (part : String × String) : Prop :=
  Directive.isLoopVariable part.1.toList = true ∧ (∃ e, Expr.parse part.2 = .ok e) ∧
    trim part.2 ≠ ""

/-- What a template holds of a part of the header of a loop. -/
def LoopBinding.Holds (mode : Mode) (source : String) (part : String × String)
    (binding : LoopBinding) : Prop :=
  binding.name = part.1 ∧
    ∃ e, Expr.parse part.2 = .ok e ∧ binding.source.Holds source part.2 e mode

/-- The text of a part of the header of a loop. -/
def headerText (part : String × String) : List Char :=
  (part.1 ++ " : " ++ part.2).toList

private theorem closed_headerText {part : String × String} (h : IsHeaderPart part) :
    Closed (some ',') (headerText part) := by
  obtain ⟨hvariable, ⟨e, hparse⟩, -⟩ := h
  rw [Directive.isLoopVariable, Bool.and_eq_true, List.all_eq_true] at hvariable
  have hshape : headerText part = part.1.toList ++ [' ', ':', ' '] ++ part.2.toList := by
    simp [headerText]
  rw [hshape]
  refine Closed.append (.append (.of_notMem_specials (by simp [specials]) fun c hc => ?_) ?_)
    (Expr.closed_comma_of_parse hparse)
  · exact notMem_specials_of_isNamePart (hvariable.2 c hc)
  · exact .of_all (by decide)

/-- The header of a loop is cut into its parts. -/
theorem exists_bindings {header : List (String × String)} (hnonempty : header ≠ [])
    (hheader : ∀ part ∈ header, IsHeaderPart part) (hblank : ∀ c ∈ lead, isBlank c = true)
    (h : span.Covers source (lead ++ [',', ' '].intercalate (header.map headerText))) :
    ∃ bindings, List.Forall₂ (IsBinding mode source) (splitTopLevel source span ',') bindings ∧
      List.Forall₂ (LoopBinding.Holds mode source) header bindings := by
  have hofBlanks (cs : List Char) (hcs : ∀ c ∈ cs, isBlank c = true) : Closed (some ',') cs :=
    .of_notMem_specials (by simp [specials]) fun c hc => notMem_specials_of_isBlank (hcs c hc)
  induction header generalizing span lead with
  | nil => exact (hnonempty rfl).elim
  | cons part header ih =>
    obtain ⟨hpart, hrest⟩ := List.forall_mem_cons.1 hheader
    have hclosed := (hofBlanks lead hblank).append (closed_headerText hpart)
    obtain ⟨hvariable, ⟨e, hparse⟩, hnonblank⟩ := hpart
    cases header with
    | nil =>
      have hcovers : span.Covers source (lead ++ headerText part) := by simpa using h
      obtain ⟨binding, hbinding, hnamed, hholds⟩ :=
        exists_isBinding mode hblank hcovers hvariable hparse hnonblank
      refine ⟨[binding], ?_, .cons ⟨hnamed, e, hparse, hholds⟩ .nil⟩
      rw [hcovers.splitTopLevel_closed hclosed]
      exact .cons hbinding .nil
    | cons next header =>
      have hcovers : span.Covers source ((lead ++ headerText part) ++
          ',' :: ([' '] ++ [',', ' '].intercalate ((next :: header).map headerText))) := by
        simpa using h
      obtain ⟨first, second, hfirst, hsecond, -, hcut⟩ :=
        hcovers.splitTopLevel_append hclosed (by decide)
      obtain ⟨binding, hbinding, hnamed, hholds⟩ :=
        exists_isBinding mode hblank hfirst hvariable hparse hnonblank
      obtain ⟨bindings, hareBindings, hold⟩ := ih (by simp) hrest (List.all_eq_true.1 rfl) hsecond
      refine ⟨binding :: bindings, ?_, .cons ⟨hnamed, e, hparse, hholds⟩ hold⟩
      rw [hcut]
      exact .cons hbinding hareBindings

end Header

/-- A text with commas only inside brackets, as texts of which it is made, joined by commas. -/
theorem closed_intercalate {texts : List (List Char)}
    (h : ∀ text ∈ texts, Closed none text) : Closed none ([',', ' '].intercalate texts) := by
  induction texts with
  | nil => exact .nil
  | cons text texts ih =>
    obtain ⟨hfirst, hrest⟩ := List.forall_mem_cons.1 h
    cases texts with
    | nil => simpa using hfirst
    | cons next texts =>
      rw [List.intercalate_cons_cons]
      exact (hfirst.append (.of_all (by decide))).append (ih hrest)

private theorem compile_loopSource (compiler : Compiler) {header : List (String × String)}
    (hnonempty : header ≠ []) (hheader : ∀ part ∈ header, IsHeaderPart part) :
    ∃ program bindings, Program.compile compiler (loopSource header) = .ok program ∧
      program.nodes.toList.map Node.kind =
        [.block (.loop bindings none) none none (some 1), .terminal, .finish] ∧
      List.Forall₂ (LoopBinding.Holds compiler.mode (loopSource header)) header bindings := by
  let name := ['f', 'o', 'r', 'e', 'a', 'c', 'h']
  let body := [',', ' '].intercalate (header.map headerText)
  have hsource : (loopSource header).toList =
      '@' :: (name ++ '{' :: (body ++ '}' :: ['@', 'e', 'n', 'd', '{', '}'])) := by
    simp [loopSource, name, body, String.toList_intercalate]
    rfl
  have haround : (loopSource header).toList =
      [] ++ '@' :: name ++ '{' :: body ++ '}' :: ['@', 'e', 'n', 'd', '{', '}'] := by
    simp [hsource]
  let d := directiveAt [] '@' name body
  have hcovers : d.body.Covers (loopSource header) ([] ++ body) := covers_body haround
  obtain ⟨bindings, hareBindings, hold⟩ :=
    exists_bindings compiler.mode hnonempty hheader (by simp) hcovers
  have hbalanced : Balanced '}' body := by
    refine (closed_intercalate fun text htext => ?_).balanced rfl
    obtain ⟨part, hpart, rfl⟩ := List.mem_map.1 htext
    exact (closed_headerText (hheader part hpart)).weaken
  have hnonblank : d.body.onlyBlanks (loopSource header) = false := by
    rw [hcovers.onlyBlanks, List.all_eq_false]
    obtain ⟨part, header, rfl⟩ := List.exists_cons_of_ne_nil hnonempty
    refine ⟨':', ?_, by decide⟩
    cases header <;> simp [body, headerText]
  have hreads : d.Reads compiler (loopSource header) (.opens (.loop bindings none)) :=
    .loop rfl hnonblank hareBindings
  obtain ⟨closer, hcompiled⟩ := compile_of_block (by decide) (by decide) hbalanced hsource hreads
    fun _ hblank => .bare hblank
  exact ⟨_, bindings, hcompiled, rfl, hold⟩

/-! ### Includes -/

/-- The source that includes what one expression names, after another one has been evaluated. -/
def includeSource (target pre : String) : String :=
  "@include\x7b" ++ target ++ "; " ++ pre ++ "\x7d"

/-- Outside brackets and strings, the text has no semicolon. -/
def IsSingle (text : String) : Prop :=
  ∃ lexemes, lex text = .ok lexemes ∧
    Arranged (· ≠ .symbol .semicolon) (lexemes.map Lexeme.token)

/-- A text without symbols is such a text. -/
theorem isSingle_of_noSymbol {text : String}
    (h : (lex text).toOption.any
      (fun lexemes => lexemes.all fun lexeme => !lexeme.token matches .symbol _) = true) :
    IsSingle text := by
  obtain ⟨lexemes, hlex, hnoSymbol⟩ := Attempt.exists_eq_ok_and h
  refine ⟨lexemes, hlex, .of_forall fun t ht => ?_⟩
  obtain ⟨lexeme, hmem, rfl⟩ := List.mem_map.1 ht
  have := List.all_eq_true.1 hnoSymbol lexeme hmem
  cases htoken : lexeme.token with
  | symbol s => simp [htoken] at this
  | int | float | string | ident => exact ⟨by simp [IsBracket], by simp⟩

private theorem compile_includeSource (compiler : Compiler) {target pre : String} {e e' : Expr}
    (htarget : Expr.parse target = .ok e) (hsingle : IsSingle target)
    (hpre : Expr.parse pre = .ok e') (hnonblank : trim pre ≠ "") :
    ∃ program targetSlot preSlot,
      Program.compile compiler (includeSource target pre) = .ok program ∧
      program.nodes.toList.map Node.kind =
        [.action (.includeFile targetSlot (some preSlot)), .finish] ∧
      targetSlot.Holds (includeSource target pre) target e compiler.mode ∧
      preSlot.Holds (includeSource target pre) pre e' compiler.mode := by
  let name := ['i', 'n', 'c', 'l', 'u', 'd', 'e']
  let body := target.toList ++ ';' :: ([' '] ++ pre.toList)
  have hsource : (includeSource target pre).toList = '@' :: (name ++ '{' :: (body ++ ['}'])) := by
    simp [includeSource, name, body]
  have haround : (includeSource target pre).toList =
      [] ++ '@' :: name ++ '{' :: body ++ ['}'] := by
    simp [hsource]
  have hcovers := covers_body haround
  obtain ⟨lexemes, hlex, harranged⟩ := hsingle
  have hclosed := Expr.closed_semicolon_of_lex hlex harranged
  obtain ⟨first, second, hfirst, hsecond, hstop, hcut⟩ :=
    hcovers.splitTopLevel_append hclosed (by decide)
  obtain ⟨stop, parts, hparts⟩ :=
    exists_splitTopLevel_eq (includeSource target pre) second ';'
  have halone : first.Covers (includeSource target pre) ([] ++ target.toList ++ []) := by
    simpa using hfirst
  have hbehind : second.Covers (includeSource target pre) ([' '] ++ pre.toList ++ []) := by
    simpa using hsecond
  obtain ⟨targetSlot, hspells, hholds⟩ :=
    exists_spells compiler.mode (by simp) (by simp) halone htarget
  obtain ⟨preSlot, hspellsPre, holdsPre⟩ :=
    exists_spells compiler.mode (List.all_eq_true.1 rfl) (by simp) hbehind hpre
  let d := directiveAt [] '@' name body
  have htargetSpan : d.targetSpan (includeSource target pre) = first := by
    rw [Directive.targetSpan, hcut]
    rfl
  have hpreSpan : d.preSpan? (includeSource target pre) = some second := by
    rw [Directive.preSpan?, hcut, hparts]
    have hnonblank' : second.onlyBlanks (includeSource target pre) = false := by
      rw [hsecond.onlyBlanks, List.all_append, all_isBlank_of_trim_ne hnonblank, Bool.and_false]
    simp [d, ← hstop, hnonblank']
  have hbalanced : Balanced '}' body := by
    have hbehind : Closed none (';' :: ([' '] ++ pre.toList)) :=
      .char (by decide) (by simp)
        (.char (by decide) (by simp) (Expr.closed_comma_of_parse hpre).weaken)
    exact (hclosed.weaken.append hbehind).balanced rfl
  have hreads : d.Reads compiler (includeSource target pre)
      (.standsAlone (.includeFile targetSlot (some preSlot))) :=
    .target rfl (by rw [htargetSpan]; exact hspells) (by rw [hpreSpan]; exact .some hspellsPre)
  have hcompiled := compile_of_action (by decide) (by decide) hbalanced hsource hreads
  exact ⟨_, targetSlot, preSlot, hcompiled, rfl, hholds, holdsPre⟩

/-! ### All of them -/

private theorem Position.locate_zero (source : String) : locate source 0 = start := by
  have hsplit : source.toList = [] ++ [] ++ source.toList := by simp
  have hnone := Span.chars_append hsplit
  rw [byteLength_nil] at hnone
  rw [locate, Nat.zero_min, hnone]
  rfl

/-- The directives of a template hold the expressions that are written in them. For every text that
is an expression, the template that is the text in an expression directive has, in both modes and
in every state, the value or the error of the expression, and does what its evaluation does. A loop
over expressions that are not blank runs over these; and an include that names its target by an
expression without a semicolon outside brackets and strings, with an expression that is not blank
behind a semicolon, has these two. -/
theorem expressions_in_directives (compiler : Compiler) :
    (∀ (text : String) (e : Expr), Expr.parse text = .ok e →
      ∀ (store : Store) (origin : Option Path), ∃ template store',
        store.compile compiler (expressionSource text) origin = .ok (template, store') ∧
        template.program.isPureExpression = true ∧
        ∀ (options : RenderOptions) (files : FileTree) (later : Store),
          let evaluated := (e.eval (options.level files).environment).run.run
            (options.initial template later .collector)
          template.evaluate options files later =
            ⟨evaluated.1.mapError fun error => error.toTemplateError.annotate Position.start "",
              evaluated.2.sink, evaluated.2.resolver, evaluated.2.store⟩) ∧
    (∀ header : List (String × String), header ≠ [] → (∀ part ∈ header, IsHeaderPart part) →
      ∃ program bindings, Program.compile compiler (loopSource header) = .ok program ∧
        program.nodes.toList.map Node.kind =
          [.block (.loop bindings none) none none (some 1), .terminal, .finish] ∧
        List.Forall₂ (LoopBinding.Holds compiler.mode (loopSource header)) header bindings) ∧
    ∀ (target pre : String) (e e' : Expr), Expr.parse target = .ok e → IsSingle target →
      Expr.parse pre = .ok e' → trim pre ≠ "" →
        ∃ program targetSlot preSlot,
          Program.compile compiler (includeSource target pre) = .ok program ∧
          program.nodes.toList.map Node.kind =
            [.action (.includeFile targetSlot (some preSlot)), .finish] ∧
          targetSlot.Holds (includeSource target pre) target e compiler.mode ∧
          preSlot.Holds (includeSource target pre) pre e' compiler.mode := by
  refine ⟨fun text e hparse store origin => ?_, fun header => compile_loopSource compiler,
    fun target pre e e' htarget hsingle hpre hnonblank =>
      compile_includeSource compiler htarget hsingle hpre hnonblank⟩
  obtain ⟨program, node, slot, hcompile, hpure, hstart, hname, hholds⟩ :=
    compile_expressionSource compiler hparse
  obtain ⟨template, store', hload, rfl⟩ := Store.exists_compile hcompile store origin
  obtain ⟨hsource, -⟩ := Store.of_compile_eq_ok hload
  refine ⟨template, store', hload, by rw [Program.isPureExpression, hpure]; rfl,
    fun options files later => ?_⟩
  have hevaluates : (options.level files).evaluate template slot =
      RenderM.ofEval (e.eval (options.level files).environment) := by
    rw [Level.evaluate, hsource, hholds.eval_eq hparse]
  rw [Template.evaluate, hpure]
  simp only [hevaluates, hstart, hname]
  rw [RenderM.outcome, Level.located, run_adapt, RenderM.ofEval, run_adapt, Position.locate_zero]
  generalize (e.eval (options.level files).environment).run.run
    (options.initial template later .collector) = reached
  obtain ⟨_ | _, _⟩ := reached <;> rfl

/-- A string with a brace, a loop over a list and a call, and an include whose target has a
semicolon in a string. -/
theorem expressions_in_directives_strings :
    (∃ template store', Store.empty.compile ⟨.interpreted, []⟩
        (expressionSource "f('\x7d', [1])") none = .ok (template, store') ∧
          template.program.isPureExpression = true) ∧
      (∃ program, Program.compile ⟨.compiled, []⟩
        (loopSource [("i", "[1, ':']"), ("j", " g(',') ")]) = .ok program) ∧
      ∃ program, Program.compile ⟨.compiled, []⟩ (includeSource "'a;b'" "x = 1; y") =
        .ok program := by
  have hcompiles (text : String) (h : (Expr.parse text).isOk = true) :
      ∃ e, Expr.parse text = .ok e :=
    Attempt.exists_eq_ok h
  refine ⟨?_, ?_, ?_⟩
  · obtain ⟨e, hparse⟩ := hcompiles "f('\x7d', [1])" (by decide +kernel)
    obtain ⟨template, store', hload, hpure, -⟩ :=
      (expressions_in_directives ⟨.interpreted, []⟩).1 _ e hparse .empty none
    exact ⟨template, store', hload, hpure⟩
  · obtain ⟨program, _, hcompile, -⟩ := (expressions_in_directives ⟨.compiled, []⟩).2.1
      [("i", "[1, ':']"), ("j", " g(',') ")] (by simp) (by
        intro part hpart
        simp only [List.mem_cons, List.not_mem_nil, or_false] at hpart
        rcases hpart with rfl | rfl
        · exact ⟨by decide +kernel, hcompiles _ (by decide +kernel), by decide +kernel⟩
        · exact ⟨by decide +kernel, hcompiles _ (by decide +kernel), by decide +kernel⟩)
    exact ⟨program, hcompile⟩
  · obtain ⟨e, htarget⟩ := hcompiles "'a;b'" (by decide +kernel)
    obtain ⟨e', hpre⟩ := hcompiles "x = 1; y" (by decide +kernel)
    have hsingle : IsSingle "'a;b'" := isSingle_of_noSymbol (by decide +kernel)
    obtain ⟨program, _, _, hcompile, -⟩ := (expressions_in_directives ⟨.compiled, []⟩).2.2
      "'a;b'" "x = 1; y" e e' htarget hsingle hpre (by decide +kernel)
    exact ⟨program, hcompile⟩

end TextTemplate
