import Mathlib.Data.List.Infix
import TextTemplate.Proofs.Simulation.Caches
import TextTemplate.Proofs.Structure.Links
import TextTemplate.Render.Renderer

/-!
# Writing a text in a template

Where the head of a directive would start, a doubled sigil stands for the sigil itself. With its
sigils doubled at these places, and at no others, any text can be written in a template: the
template is plain text, and renders to the text.

## Main definitions

* `StartsHead`: a text that starts with the head of a directive.
* `doubleSigils`: a text with the sigils of its heads doubled.
* `Compiler.RendersAs`: the source of a template that always renders to the same text.

## Main results

* `exists_scans_doubled`: such a text is read as literal text only, which makes up the text.
* `rendersAs_doubleSigils`: it renders to the text, and so does a text without heads.
-/

namespace TextTemplate

/-! ### Heads of directives -/

/-- The text starts with the head of a directive. -/
def StartsHead (cs : List Char) : Prop :=
  ∃ name inside, IsHead cs name inside

private theorem startsHead_iff_isSome (cs : List Char) :
    (directiveHead? cs).isSome = true ↔ StartsHead cs := by
  rw [Option.isSome_iff_exists, StartsHead]
  simp only [Prod.exists, directiveHead?_eq_some_iff]

instance (cs : List Char) : Decidable (StartsHead cs) :=
  decidable_of_iff _ (startsHead_iff_isSome cs)

/-! ### Doubling sigils -/

/-- A text with the sigils doubled where heads of directives start. -/
def doubled : List Char → List Char
  | [] => []
  | c :: cs => if StartsHead (c :: cs) then c :: c :: doubled cs else c :: doubled cs

/-- A text with the sigils doubled where heads of directives start. -/
def doubleSigils (text : String) : String :=
  String.ofList (doubled text.toList)

private theorem doubled_of_not_isSigil {c : Char} (h : isSigil c = false) (cs : List Char) :
    doubled (c :: cs) = c :: doubled cs := by
  have hnone : ¬StartsHead (c :: cs) := by
    rintro ⟨_, _, hhead⟩
    simp [hhead.isSigil] at h
  rw [doubled, if_neg hnone]

/-- Nothing is doubled in front of the brace of a head. -/
theorem doubled_append {before : List Char} (h : ∀ c ∈ before, isSigil c = false)
    (after : List Char) : doubled (before ++ after) = before ++ doubled after := by
  induction before with
  | nil => rfl
  | cons c before ih =>
    rw [List.cons_append, doubled_of_not_isSigil (h c List.mem_cons_self),
      ih fun d hd => h d (List.mem_cons_of_mem c hd)]
    rfl

/-- What stands there after doubling up to the brace of a head stood there before. -/
theorem exists_of_doubled_eq_append {before after cs : List Char}
    (h : ∀ c ∈ before, isSigil c = false) (heq : doubled cs = before ++ after) :
    ∃ rest, cs = before ++ rest ∧ doubled rest = after := by
  induction before generalizing cs with
  | nil => exact ⟨cs, rfl, heq⟩
  | cons c before ih =>
    cases cs with
    | nil => cases heq
    | cons d cs =>
      have hhead : d = c := by
        rw [doubled] at heq
        split_ifs at heq <;> exact (List.cons.inj heq).1
      subst hhead
      rw [doubled_of_not_isSigil (h d List.mem_cons_self)] at heq
      obtain ⟨rest, rfl, hrest⟩ := ih (fun e he => h e (List.mem_cons_of_mem d he))
        (List.cons.inj heq).2
      exact ⟨rest, rfl, hrest⟩

/-- Doubling the sigils behind a character makes no head there and breaks none. -/
theorem startsHead_cons_doubled_iff (c : Char) (cs : List Char) :
    StartsHead (c :: doubled cs) ↔ StartsHead (c :: cs) := by
  constructor
  · rintro ⟨name, inside, hhead⟩
    generalize hdoubled : doubled cs = ds at hhead
    obtain ⟨inside, hsigil, hname, hdigit⟩ := hhead
    rw [List.append_cons] at hdoubled
    obtain ⟨rest, rfl, -⟩ := exists_of_doubled_eq_append
      (fun c hc => isSigil_eq_false_of_mem hname hc) hdoubled
    rw [← List.append_cons]
    exact ⟨name, rest, .mk rest hsigil hname hdigit⟩
  · rintro ⟨name, inside, ⟨_, hsigil, hname, hdigit⟩⟩
    rw [List.append_cons, doubled_append fun c hc => isSigil_eq_false_of_mem hname hc,
      ← List.append_cons]
    exact ⟨name, doubled inside, .mk _ hsigil hname hdigit⟩

/-- A doubled sigil is an escape. -/
theorem isEscape_doubled {c : Char} {cs : List Char} (h : StartsHead (c :: cs)) :
    IsEscape (c :: c :: doubled cs) := by
  obtain ⟨name, inside, hhead⟩ := (startsHead_cons_doubled_iff c cs).2 h
  exact .mk hhead

/-- In front of a character that starts no head there is no escape either. Behind it there may be
one, but that one starts with a sigil of its own. -/
theorem not_isEscape_doubled {c : Char} {cs : List Char} (h : ¬StartsHead (c :: cs)) :
    ¬IsEscape (c :: doubled cs) := by
  intro hescape
  generalize hdoubled : doubled cs = ds at hescape
  obtain ⟨hhead⟩ := hescape
  cases cs with
  | nil => cases hdoubled
  | cons d cs =>
    rw [doubled] at hdoubled
    split_ifs at hdoubled with hd
    all_goals obtain ⟨rfl, rfl⟩ := List.cons.inj hdoubled
    · obtain ⟨_, _, hd⟩ := hd
      exact not_isHead_of_isSigil hd.isSigil hhead
    · exact hd ((startsHead_cons_doubled_iff d cs).1 ⟨_, _, hhead⟩)

/-- A text without heads is left as it is. -/
theorem doubled_eq_self {cs : List Char}
    (h : ∀ before rest, cs = before ++ rest → ¬StartsHead rest) : doubled cs = cs := by
  induction cs with
  | nil => rfl
  | cons c cs ih =>
    have hrest : doubled cs = cs :=
      ih fun before rest heq => h (c :: before) rest (by rw [heq]; rfl)
    rw [doubled, if_neg (h [] _ rfl), hrest]

/-! ### Reading -/

/-- The piece of text between two places, if there is one, is what stands there. -/
theorem exists_textPiece_eq {source : String} {before text after : List Char}
    (h : source.toList = before ++ text ++ after) :
    ∃ spans : List Span,
      textPiece (byteLength before) (byteLength (before ++ text)) = spans.map .text ∧
      spans.flatMap (Span.chars source) = text := by
  rw [byteLength_append, textPiece]
  split_ifs with hlt
  · exact ⟨[_], rfl, by rw [List.flatMap_singleton, Span.chars_append h]⟩
  · refine ⟨[], rfl, ?_⟩
    cases text with
    | nil => rfl
    | cons c text =>
      have hpos := c.utf8Size_pos
      rw [byteLength_cons] at hlt
      omega

/-- A text with doubled sigils is read as literal text only, which makes up the text. The literal
text being read stands behind `before`. -/
theorem exists_scans_doubled {source : String} (cs : List Char) :
    ∀ before literal : List Char, source.toList = before ++ literal ++ doubled cs →
      ∃ spans : List Span, Scans (byteLength before) (before ++ literal) (doubled cs)
          ⟨spans.map .text, none⟩ ∧
        spans.flatMap (Span.chars source) = literal ++ cs := by
  induction cs with
  | nil =>
    intro before literal hsource
    obtain ⟨spans, hpiece, hchars⟩ := exists_textPiece_eq hsource
    refine ⟨spans, ?_, by rw [hchars, List.append_nil]⟩
    rw [← hpiece]
    exact .done
  | cons c cs ih =>
    intro before literal hsource
    rw [doubled] at hsource ⊢
    by_cases hhead : StartsHead (c :: cs)
    · rw [if_pos hhead] at hsource ⊢
      have hkept : source.toList = before ++ (literal ++ [c]) ++ c :: doubled cs := by
        rw [hsource]
        simp
      obtain ⟨spans, hpiece, hchars⟩ := exists_textPiece_eq hkept
      obtain ⟨spans', hrest, hchars'⟩ := ih (before ++ literal ++ [c, c]) [] (by rw [hsource]; simp)
      refine ⟨spans ++ spans', ?_, ?_⟩
      · rw [List.append_nil] at hrest
        have hscans : Scans (byteLength before) _ _ _ := .escape (isEscape_doubled hhead) hrest
        rw [List.append_assoc before, hpiece] at hscans
        simpa [Outline.prepend] using hscans
      · rw [List.flatMap_append, hchars, hchars']
        simp
    · rw [if_neg hhead] at hsource ⊢
      obtain ⟨spans, hrest, hchars⟩ := ih before (literal ++ [c]) (by rw [hsource]; simp)
      have hnone (name inside : List Char) : ¬IsHead (c :: doubled cs) name inside := fun h =>
        hhead ((startsHead_cons_doubled_iff c cs).1 ⟨name, inside, h⟩)
      refine ⟨spans, .literal (not_isEscape_doubled hhead) hnone ?_, by simpa using hchars⟩
      rwa [List.append_assoc]

/-! ### Rendering -/

/-- The body that is one text. -/
def Body.ofText (spans : List Span) : Body :=
  if spans = [] then .done else .text spans .done

private theorem derives_ofText {compiler : Compiler} {source : String} {spans : List Span}
    {outline : Outline} (h : outline.pieces = spans.map .text) :
    (Body.ofText spans).Derives compiler source outline.phrases := by
  have hjoin (held more : List Span) :
      joinTexts held [] (more.map .text) = heldBack (more.reverse ++ held) [] := by
    induction more generalizing held with
    | nil => rfl
    | cons span more ih =>
      rw [List.map_cons, joinTexts, ih, List.reverse_cons, List.append_assoc]
      rfl
  rw [Outline.phrases, h, hjoin, List.append_nil, heldBack, Body.ofText]
  by_cases hspans : spans = []
  · rw [if_pos (by simpa using hspans), if_pos hspans]
    exact .done
  · rw [if_neg (by simpa using hspans), if_neg hspans, List.reverse_reverse]
    exact .text .done

theorem run_emit_text (text written : String) (s : RenderState) :
    (RenderM.emit text).run.run { s with sink := .text written } =
      (.ok (), { s with sink := .text (written ++ text) }) := by
  rw [run_emit]
  split_ifs with htext
  · rw [htext, String.append_empty]
  · rfl

/-- A text is written span by span. -/
theorem run_writeText (template : Template) (spans : List Span) (written : String)
    (s : RenderState) :
    (Level.writeText template spans).run.run { s with sink := .text written } =
      (.ok (), { s with
        sink :=
          .text (written ++ String.ofList (spans.flatMap (Span.chars template.source))) }) := by
  induction spans generalizing written with
  | nil =>
    rw [List.flatMap_nil, String.ofList_nil, String.append_empty]
    rfl
  | cons span spans ih =>
    have hspan : String.ofList (span.chars template.source) = span.slice template.source :=
      String.ofList_toList
    rw [Level.writeText, run_bind, run_emit_text, List.flatMap_cons, String.ofList_append, hspan,
      ← String.append_assoc]
    exact ih _

/-- A template that is one text renders to it. -/
theorem run_walk_ofText (level : Level) (template : Template) (spans : List Span)
    (s : RenderState) :
    ((Body.ofText spans).walk level template 0).run.run { s with sink := .collector } =
      (.ok (), { s with
        sink := .text (String.ofList (spans.flatMap (Span.chars template.source))) }) := by
  rw [Body.ofText]
  split_ifs with hspans
  · rw [hspans]
    rfl
  · rw [Body.walk, run_bind, Level.located, run_adapt, Sink.collector, run_writeText,
      String.empty_append]
    rfl

/-- The source compiles, and every render of it gives the text. -/
def Compiler.RendersAs (compiler : Compiler) (source text : String) : Prop :=
  ∀ (store : Store) (origin : Option Path), ∃ template store',
    store.compile compiler source origin = .ok (template, store') ∧
      ∀ (options : RenderOptions) (files : FileTree) (later : Store),
        (template.renderText options files later).result = .ok text

/-- A source that is read as literal text only renders to what makes it up. -/
theorem rendersAs_of_scans {compiler : Compiler} {source text : String} {spans : List Span}
    (hscans : Scans 0 [] source.toList ⟨spans.map .text, none⟩)
    (hchars : spans.flatMap (Span.chars source) = text.toList) :
    compiler.RendersAs source text := by
  intro store origin
  have houtline := Outline.ofSource_eq_iff.2 hscans
  have hbody : (Body.ofText spans).Derives compiler source (Outline.ofSource source).phrases :=
    derives_ofText (by rw [houtline])
  obtain ⟨template, store', hcompile, -⟩ := Store.exists_compile
    (compile_eq_ok_iff.2 ⟨by rw [houtline], _, hbody, rfl⟩) store origin
  obtain ⟨hsource, hcompiler, -⟩ := Store.of_compile_eq_ok hcompile
  have htree : template.tree = Body.ofText spans := by
    rw [Template.tree, hsource, hcompiler, Outline.tree?_eq_of_derives hbody, Option.getD_some]
  refine ⟨template, store', hcompile, fun options files later => ?_⟩
  have hrun : ((options.level files).runPart template .whole).run.run
      (options.initial template later .collector) =
        (.ok (), { options.initial template later .collector with sink := .text text }) := by
    have hwalk := run_walk_ofText (options.level files) template spans
      (options.initial template later .collector)
    rw [← htree, hsource, hchars, String.ofList_toList] at hwalk
    rw [Level.runPart_eq_walkPart]
    exact hwalk
  simp only [Template.renderText, Template.renderInto, RenderM.outcome, hrun]
  rfl

/-- A text with its sigils doubled where heads of directives start renders to the text, in every
mode, with any custom directives and from any state; and so does a text without heads as it is. -/
theorem rendersAs_doubleSigils (compiler : Compiler) (text : String) :
    compiler.RendersAs (doubleSigils text) text ∧
      ((∀ before rest, text.toList = before ++ rest → ¬StartsHead rest) →
        compiler.RendersAs text text) := by
  have hdoubled : compiler.RendersAs (doubleSigils text) text := by
    have htext : (doubleSigils text).toList = doubled text.toList := String.toList_ofList
    obtain ⟨spans, hscans, hchars⟩ := exists_scans_doubled text.toList [] [] htext
    rw [← htext] at hscans
    exact rendersAs_of_scans hscans hchars
  refine ⟨hdoubled, fun hheads => ?_⟩
  rwa [doubleSigils, doubled_eq_self hheads, String.ofList_toList] at hdoubled

/-- Doubling is needed and done at one of the two sigils. -/
theorem rendersAs_doubleSigils_two :
    doubleSigils "$@\x7b\x7d" = "$@@\x7b\x7d" ∧
      Compiler.RendersAs ⟨.compiled, []⟩ "$@@\x7b\x7d" "$@\x7b\x7d" ∧
      Compiler.RendersAs ⟨.interpreted, []⟩ "a@b" "a@b" := by
  have hdoubled : doubleSigils "$@\x7b\x7d" = "$@@\x7b\x7d" := by decide +kernel
  have hheads : ∀ before rest, "a@b".toList = before ++ rest → ¬StartsHead rest := by
    intro before rest heq
    have hrest : rest ∈ "a@b".toList.tails := (List.mem_tails _ _).2 ⟨before, heq.symm⟩
    exact (by decide +kernel : ∀ rest ∈ "a@b".toList.tails, ¬StartsHead rest) rest hrest
  refine ⟨hdoubled, ?_, (rendersAs_doubleSigils _ "a@b").2 hheads⟩
  rw [← hdoubled]
  exact (rendersAs_doubleSigils _ _).1

end TextTemplate