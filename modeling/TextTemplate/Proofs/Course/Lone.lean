import TextTemplate.Proofs.Course.Snapshot
import TextTemplate.Proofs.Expression.InDirective
import TextTemplate.Proofs.Structure.Links
import TextTemplate.Proofs.Text.Items

/-!
# Templates of one expression

A template that is one expression and nothing else has the value of that expression, and any other
has its text. Both are the same render seen from two sides: the expression writes nothing by itself,
and rendering the template only adds that the value is displayed.

## Main definitions

* `IsLoneExpression`: a source that is a sigil and a body in braces.

## Main results

* `Template.isPureExpression_iff`: what such a template is compiled from.
* `Level.keepsSink_evaluate`: evaluating an expression writes nothing.
* `Template.renderText_of_pureExpression?`: such a template renders to the display of its value.
* `evaluate_and_render_agree`: evaluating and rendering any template.
-/

namespace TextTemplate

open Level

/-! ### Sources of one expression -/

/-- The source is a sigil, an opening brace, a body, and the brace that closes it. -/
def IsLoneExpression (source : String) : Prop :=
  ∃ sigil body, isSigil sigil = true ∧ source.toList = sigil :: '{' :: (body ++ ['}']) ∧
    Balanced '}' body

namespace Directive

variable {compiler : Compiler} {source : String} {d : Directive}

/-- A directive without a name is an expression. -/
theorem exists_expression_of_reads {role : Role} (hname : d.name = "")
    (h : d.Reads compiler source role) : ∃ value, role = .standsAlone (.expression value) := by
  cases h with
  | expression hnamed =>
    rw [hname] at hnamed
    cases hnamed
    exact ⟨_, rfl⟩
  | target hnamed =>
    rw [hname] at hnamed
    cases hnamed
  | loop hnamed | comment hnamed | ends hnamed => simp [hname] at hnamed
  | goesOn hnamed => simp [hname] at hnamed
  | custom hother =>
    rw [hname] at hother
    exact absurd hother (by decide)

/-- No other directive is one. -/
theorem name_eq_of_reads_expression {value : Slot}
    (h : d.Reads compiler source (.standsAlone (.expression value))) : d.name = "" := by
  generalize hrole : Role.standsAlone (.expression value) = role at h
  cases h with
  | expression hnamed =>
    rw [expressionRole?.eq_def] at hnamed
    split at hnamed
    · cases hnamed; cases hrole
    · cases hnamed; cases hrole
    · rename_i hname
      exact hname
    · cases hnamed; cases hrole
    · cases hnamed; cases hrole
    · cases hnamed
  | target hnamed =>
    rw [targetRole?.eq_def] at hnamed
    split at hnamed <;> cases hnamed <;> cases hrole
  | custom => split at hrole <;> cases hrole
  | _ => cases hrole

end Directive

/-- A text that starts with a directive starts with a sigil, and the body is closed by its brace. -/
theorem Yields.of_directive {sigil : Char} {cs name body : List Char} {items : List Item}
    (h : Yields [] (sigil :: cs) (.directive name body :: items)) :
    isSigil sigil = true ∧ Balanced '}' body := by
  cases h with
  | directive _ hhead hbalanced _ => exact ⟨hhead.isSigil, hbalanced⟩

/-- The outline of a source that is a directive without a name. -/
theorem outline_of_lone {source : String} {sigil : Char} {body : List Char}
    (hsigil : isSigil sigil = true) (hsource : source.toList = sigil :: '{' :: (body ++ ['}']))
    (hbalanced : Balanced '}' body) :
    Outline.ofSource source = ⟨[.directive (directiveAt [] sigil [] body)], none⟩ := by
  have hhead : IsHead (sigil :: ([] ++ '{' :: (body ++ '}' :: []))) [] (body ++ '}' :: []) :=
    .mk _ hsigil (List.forall_mem_nil _) (by simp)
  have hscans : Scans 0 [] (sigil :: ([] ++ '{' :: (body ++ '}' :: []))) _ :=
    .directive hhead.not_isEscape hhead hbalanced scans_nil
  rw [Outline.ofSource_eq_iff, hsource]
  exact hscans

namespace Template

variable {template : Template}

/-- A template is one expression when its tree is, and the expression is all of its source. -/
theorem isPureExpression_iff_tree :
    template.program.isPureExpression = true ↔
      ∃ d value, template.tree = .action d (.expression value) .done ∧
        d.span = ⟨0, template.source.utf8ByteSize⟩ := by
  have hprogram : template.program = ⟨template.source, (template.tree.layout 0 ++
      [finishNode template.source.utf8ByteSize]).toArray⟩ := by
    rw [← template.toList_nodes, Array.toArray_toList]
    rfl
  rw [hprogram]
  exact Program.isPureExpression_iff

/-- A template is one expression exactly when its source is one. -/
theorem isPureExpression_iff :
    template.program.isPureExpression = true ↔ IsLoneExpression template.source := by
  rw [isPureExpression_iff_tree]
  have hscan : Scans 0 [] template.source.toList (Outline.ofSource template.source) :=
    Outline.ofSource_eq_iff.1 rfl
  have hderives := template.derives_tree
  generalize hphrases : (Outline.ofSource template.source).phrases = phrases at hderives
  constructor
  · rintro ⟨d, value, htree, hspan⟩
    rw [htree] at hderives
    cases hderives with
    | action hreads hrest =>
      have hmem : .directive d ∈ (Outline.ofSource template.source).phrases := by
        rw [hphrases]
        exact List.mem_cons_self
      obtain hmem | hmem := directive_mem_of_mem_joinTexts hmem
      · cases hmem
      obtain ⟨front, sigil, name, body, back, -, items, hsource, rfl, -, hyields⟩ :=
        hscan.exists_around (compile_eq_ok_iff.1 template.compiled).1 hmem
      obtain ⟨hsigil, hbalanced⟩ := hyields.of_directive
      obtain rfl : name = [] :=
        String.ofList_eq_empty_iff.1 (Directive.name_eq_of_reads_expression hreads)
      obtain ⟨hfront, hall⟩ := Span.mk.inj hspan
      obtain rfl : front = [] := byteLength_eq_zero_iff.1 hfront
      rw [← byteLength_toList, hsource] at hall
      obtain rfl : back = [] := byteLength_eq_zero_iff.1 (by simpa using hall)
      exact ⟨sigil, body, hsigil, hsource, hbalanced⟩
  · rintro ⟨sigil, body, hsigil, hsource, hbalanced⟩
    rw [outline_of_lone hsigil hsource hbalanced] at hphrases
    generalize template.tree = tree at hderives
    cases hderives with
    | done | text => cases hphrases
    | block hreads =>
      obtain ⟨hd, -⟩ := List.cons.inj hphrases
      cases hd
      obtain ⟨_, hrole⟩ := Directive.exists_expression_of_reads rfl hreads
      cases hrole
    | action hreads hrest =>
      obtain ⟨hd, rfl⟩ := List.cons.inj hphrases
      cases hd
      obtain ⟨value, hrole⟩ := Directive.exists_expression_of_reads rfl hreads
      cases hrole
      cases hrest
      refine ⟨_, value, rfl, ?_⟩
      rw [← byteLength_toList, hsource]
      simp [directiveAt]

end Template

/-! ### Evaluating writes nothing -/

namespace RenderState

private theorem sink_assign (s : RenderState) (name : String) (value : Value) :
    (s.assign name value).sink = s.sink := by
  have h := congrArg RenderState.sink (s.assign_with_sink s.sink name value)
  exact h

end RenderState

/-- A step that leaves the sink alone. -/
def KeepsSink {ε α : Type} (step : ExceptT ε (StateM RenderState) α) : Prop :=
  ∀ s, (step.run.run s).2.sink = s.sink

theorem KeepsSink.bind {ε α α' : Type} {step : ExceptT ε (StateM RenderState) α}
    {next : α → ExceptT ε (StateM RenderState) α'} (h : KeepsSink step)
    (hnext : ∀ a, KeepsSink (next a)) : KeepsSink (step >>= next) := by
  intro s
  have hstep := h s
  rw [run_bind]
  generalize step.run.run s = after at hstep
  obtain ⟨_ | a, t⟩ := after
  · exact hstep
  · exact (hnext a t).trans hstep

namespace Level

variable (setting : Setting) (levels : Nat)

/-- Evaluating writes nothing. A block that is called writes into a text of its own. -/
theorem keepsSink_environment : Environment.Corresponds
    (fun (_ : Empty → ExceptT EvalError (StateM RenderState) _) step => KeepsSink step)
    (fun _ => (above setting levels).environment) (above setting levels).environment where
  result _ _ := rfl
  bind hstep hnext := hstep.bind hnext
  lookup _ _ := rfl
  assign name value s := s.sink_assign name value
  call callee args s := (setsAside_call setting levels callee args s).2

theorem keepsSink_evaluate (template : Template) (slot : Slot) :
    KeepsSink ((above setting levels).evaluate template slot) := by
  intro s
  rw [evaluate, RenderM.ofEval, run_adapt]
  cases slot with
  | parsed span e => exact Expr.corresponds_eval (keepsSink_environment setting levels) e s
  | raw span =>
    exact corresponds_evaluateText (keepsSink_environment setting levels) (fun _ => rfl) s

end Level

/-! ### Evaluating and rendering -/

namespace Template

variable (template : Template) (options : RenderOptions) (files : FileTree) (store : Store)

/-- The node of a template that is one expression is that of the directive in its tree. -/
theorem exists_tree_of_pureExpression? {template : Template} {node : Node} {value : Slot}
    (h : template.program.pureExpression? = some (node, value)) :
    ∃ d, template.tree = .action d (.expression value) .done ∧
      node = (d.node (.action (.expression value))).followedBy 1 := by
  have hpure : template.program.isPureExpression = true := by
    rw [Program.isPureExpression, h]
    rfl
  obtain ⟨d, value', htree, hspan⟩ := isPureExpression_iff_tree.1 hpure
  have hnodes := template.toList_nodes
  rw [htree] at hnodes
  rw [Program.pureExpression?, hnodes] at h
  have hfound : (if d.span = ⟨0, template.source.utf8ByteSize⟩ then
      some ((d.node (.action (.expression value'))).followedBy 1, value') else none) =
        some (node, value) := h
  rw [if_pos hspan] at hfound
  cases hfound
  exact ⟨d, htree, rfl⟩

/-- What is written into an empty collector is collected. -/
theorem run_emit_collector (text : String) {s : RenderState} (h : s.sink = .collector) :
    (RenderM.emit text).run.run s = (.ok (), { s with sink := .text text }) := by
  obtain ⟨scopes, dirs, declared, resolver, store, sink⟩ := s
  obtain rfl : sink = .text "" := h
  have hrun := run_emit_text text "" ⟨scopes, dirs, declared, resolver, store, .text ""⟩
  rwa [String.empty_append] at hrun

/-- A template that is one expression renders to the display of its value. -/
theorem renderText_of_pureExpression? {node : Node} {value : Slot}
    (h : template.program.pureExpression? = some (node, value)) :
    let rendered := template.renderText options files store
    let evaluated := template.evaluate options files store
    rendered.result = evaluated.result.map Value.display ∧
      rendered.resolver = evaluated.resolver ∧ rendered.store = evaluated.store := by
  obtain ⟨d, htree, rfl⟩ := exists_tree_of_pureExpression? h
  have hrun : (options.level files).runPart template .whole = (do
      located template d.span.start d.name do
        RenderM.emit (← (options.level files).evaluateText template value)
      return) := by
    rw [runPart_eq_walkPart, walkPart, htree]
    rfl
  have hsink := keepsSink_evaluate (options.setting files) options.maxDepth template value
    (options.initial template store .collector)
  rw [← RenderOptions.level] at hsink
  rw [renderText, renderInto, evaluate, h, hrun]
  dsimp only [RenderM.outcome]
  rw [run_bind, located, located, run_adapt, run_adapt, run_bind, Level.evaluateText, run_bind]
  generalize ((options.level files).evaluate template value).run.run
    (options.initial template store .collector) = after at hsink
  obtain ⟨_ | result, s⟩ := after
  · exact ⟨rfl, rfl, rfl⟩
  · have hemit : andThen RenderM.emit
        (andThen (fun value => (pure value.display : RenderM String)) (.ok result, s)) =
          (.ok (), { s with sink := .text result.display }) :=
      run_emit_collector result.display hsink
    rw [hemit]
    exact ⟨rfl, rfl, rfl⟩

end Template

/-- Evaluating a template and rendering it to a text are two views of one result. A template counts
as one expression exactly when its source is a sigil, an opening brace, a body and the brace that
closes it. Such a template renders to the display of the value that it evaluates to, and every other
one evaluates to the text that it renders to; errors are the same, and so are the resolver and the
store afterwards. -/
theorem evaluate_and_render_agree (template : Template) (options : RenderOptions)
    (files : FileTree) (store : Store) :
    let rendered := template.renderText options files store
    let evaluated := template.evaluate options files store
    (template.program.isPureExpression = true ↔ IsLoneExpression template.source) ∧
    (template.program.isPureExpression = true →
      rendered.result = evaluated.result.map Value.display) ∧
    (template.program.isPureExpression = false →
      evaluated.result = rendered.result.map Value.string) ∧
    evaluated.resolver = rendered.resolver ∧ evaluated.store = rendered.store := by
  intro rendered evaluated
  refine ⟨Template.isPureExpression_iff, ?_⟩
  cases hpure : template.program.pureExpression? with
  | some found =>
    obtain ⟨node, value⟩ := found
    have hsome : template.program.isPureExpression = true := by
      rw [Program.isPureExpression, hpure]
      rfl
    obtain ⟨hresult, hresolver, hstore⟩ :=
      template.renderText_of_pureExpression? options files store hpure
    exact ⟨fun _ => hresult, fun h => absurd (hsome.symm.trans h) (by decide), hresolver.symm,
      hstore.symm⟩
  | none =>
    have hnone : template.program.isPureExpression = false := by
      rw [Program.isPureExpression, hpure]
      rfl
    have heval : evaluated = { rendered with result := rendered.result.map Value.string } := by
      change template.evaluate options files store = _
      rw [Template.evaluate, hpure]
    rw [heval]
    exact ⟨fun h => absurd (hnone.symm.trans h) (by decide), fun _ => rfl, rfl, rfl⟩

end TextTemplate
