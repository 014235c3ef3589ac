import TextTemplate.Proofs.Course.Congruence
import TextTemplate.Proofs.Text.Coverage
import TextTemplate.Render.Renderer

/-!
# Where a render fails

An error arises in an operation of a render while some nodes are being run, one within the other:
the node of a directive, those that stand around it in its template, the one that includes the
template or calls the block, and so on outwards. The condition of a branch is evaluated as part of
the branch. What the render reports is what arose, at the place of the innermost of these nodes.

## Main definitions

* `Site`: a node of a template.
* `FailsIn`: a step fails because an error arises in it, while some nodes are being run.
* `Site.Reports`: what is reported of an error that arises in a node.

## Main results

* `FailsIn.run`: a step that fails so has this error, at the place of the innermost node.
* `Level.exists_site_of_runPart`: whatever fails in a template fails in one of its nodes.
* `Template.error_iff_innermost`: the errors of renders and evaluations.
-/

namespace TextTemplate

/-! ### Nodes -/

/-- A node of a template. -/
structure Site where
  template : Template
  place : Nat
  node : Node
  isNode : template.program.node? place = some node

namespace Site

/-- Where the node begins in the source of its template. -/
def position (site : Site) : Position :=
  Position.locate site.template.source site.node.span.start

/-- The error at the place of the innermost node, unless it has a place. -/
def label : List Site → TemplateError → TemplateError
  | [], e => e
  | site :: _, e => e.annotate site.position site.node.name

/-- The place of a node is counted from the start of the source of its template. -/
theorem exists_position_eq (site : Site) : ∃ before after,
    site.template.source.toList = before ++ after ∧
      byteLength before = site.node.span.start ∧ site.position = Position.after before := by
  obtain ⟨before, after, hsource, hbegin⟩ := Program.cuts_start site.template.compiled
    (Array.mem_of_getElem? site.isNode)
  refine ⟨before, after, hsource, hbegin, ?_⟩
  rw [position, ← hbegin]
  exact Position.locate_of_append hsource

/-- Where nodes are run within another one, the place of that one does not count. -/
theorem annotate_label (sites : List Site) (site : Site) (e : TemplateError) :
    (label sites e).annotate site.position site.node.name = label (sites ++ [site]) e := by
  cases sites with
  | nil => rfl
  | cons innermost sites => exact TemplateError.annotate_annotate _ _ _ _ e

end Site

/-! ### Failing -/

/-- The step, begun in this state, fails because this error arises in it while these nodes are being
run, the innermost first. Where a step can be put together in more than one way, it fails in each of
them. -/
inductive FailsIn : {α : Type} → RenderM α → RenderState → List Site → TemplateError → Prop
  | throw {α : Type} {e : TemplateError} (h : e.Arises) (s : RenderState) :
      FailsIn (throw e : RenderM α) s [] e
  | emit {text : String} {s s' : RenderState} {e : TemplateError} :
      (RenderM.emit text).run.run s = (.error e, s') → FailsIn (RenderM.emit text) s [] e
  | caches {α : Type} (f : Store → Except TemplateError α × Array IncludeCache) {s : RenderState}
      {e : TemplateError} (h : e.Arises) : (f s.store).1 = .error e →
        FailsIn (ExceptT.mk fun s =>
          ((f s.store).1, { s with store := { s.store with caches := (f s.store).2 } })) s [] e
  | first {α α' : Type} {step : RenderM α} {next : α → RenderM α'} {s : RenderState}
      {sites : List Site} {e : TemplateError} :
      FailsIn step s sites e → FailsIn (step >>= next) s sites e
  | next {α α' : Type} {step : RenderM α} {next : α → RenderM α'} {s s' : RenderState} {a : α}
      {sites : List Site} {e : TemplateError} :
      step.run.run s = (.ok a, s') → FailsIn (next a) s' sites e →
        FailsIn (step >>= next) s sites e
  | withScope {α : Type} {scope : Scope} {step : RenderM α} {s : RenderState} {sites : List Site}
      {e : TemplateError} :
      FailsIn step (s.pushScope scope) sites e → FailsIn (RenderM.withScope scope step) s sites e
  | withDir {α : Type} {dir : Path} {step : RenderM α} {s : RenderState} {sites : List Site}
      {e : TemplateError} :
      FailsIn step (s.pushDir dir) sites e → FailsIn (RenderM.withDir dir step) s sites e
  | withScopes {α : Type} {scopes : List Scope} {step : RenderM α} {s : RenderState}
      {sites : List Site} {e : TemplateError} :
      FailsIn step { s with scopes } sites e → FailsIn (RenderM.withScopes scopes step) s sites e
  | captured {step : RenderM Unit} {s : RenderState} {sites : List Site} {e : TemplateError} :
      FailsIn step { s with sink := .collector } sites e →
        FailsIn (RenderM.captured step) s sites e
  /-- Running the node of a chain that comes first. -/
  | node {level : Level} {template : Template} {bound place : Nat} {node : Node} {s : RenderState}
      {sites : List Site} {e : TemplateError} (h : template.program.node? place = some node) :
      FailsIn (level.runNode template (level.chain template bound) bound place node) s sites e →
        FailsIn (level.chain template (bound + 1) (some place)) s
          (sites ++ [⟨template, place, node, h⟩]) e
  /-- Evaluating the condition of the branch that comes first. -/
  | condition {level : Level} {template : Template} {runBody : Option Nat → RenderM Unit}
      {bound place : Nat} {node : Node} {slot : Slot} {nested alternative terminus : Option Nat}
      {s : RenderState} {sites : List Site} {e : TemplateError}
      (h : template.program.node? place = some node) :
      node.kind = .block (.conditional (some slot)) nested alternative terminus →
      FailsIn (level.evaluate template slot) s sites e →
        FailsIn (level.runBranches template runBody (bound + 1) (some place)) s
          (sites ++ [⟨template, place, node, h⟩]) e

private theorem arises_of_emit {text : String} {s s' : RenderState} {e : TemplateError}
    (h : (RenderM.emit text).run.run s = (.error e, s')) : e.Arises := by
  rw [run_emit] at h
  split at h
  · cases h
  · obtain ⟨hresult, -⟩ := Prod.mk.inj h
    split at hresult <;> cases hresult
    exact .fault nofun

namespace FailsIn

variable {α : Type} {step : RenderM α} {s : RenderState} {sites : List Site} {e : TemplateError}

theorem arises (h : FailsIn step s sites e) : e.Arises := by
  induction h with
  | throw h => exact h
  | emit h => exact arises_of_emit h
  | caches _ h => exact h
  | first _ ih | next _ _ ih | withScope _ ih | withDir _ ih | withScopes _ ih | captured _ ih
  | node _ _ ih | condition _ _ _ ih => exact ih

/-- The step has the error that arises in it, at the place of the innermost node. -/
theorem run (h : FailsIn step s sites e) : (step.run.run s).1 = .error (Site.label sites e) := by
  induction h with
  | throw => rfl
  | emit h => rw [h]; rfl
  | caches _ _ h => exact h
  | first _ ih =>
    rw [run_bind]
    exact fst_andThen_of_error ih
  | next hstep _ ih =>
    rw [run_bind, hstep]
    exact ih
  | withScope _ ih | withDir _ ih | withScopes _ ih => exact ih
  | captured _ ih =>
    rw [RenderM.captured, run_between, run_bind]
    exact fst_andThen_of_error ih
  | @node level template bound place node s sites e h _ ih =>
    rw [Level.chain]
    simp only [h]
    rw [run_bind]
    refine fst_andThen_of_error ?_
    rw [Level.located, run_adapt, ih, ← Site.annotate_label]
    rfl
  | @condition level template runBody bound place node slot _ _ _ s sites e h hkind _ ih =>
    rw [Level.runBranches]
    simp only [h, hkind]
    rw [run_bind]
    refine fst_andThen_of_error ?_
    rw [Level.isTaken, Level.located, run_adapt, run_bind, fst_andThen_of_error ih,
      ← Site.annotate_label]
    rfl

end FailsIn

/-! ### Whatever fails -/

/-- Wherever the step fails, an error arises in it. -/
def Explained {α : Type} (step : RenderM α) : Prop :=
  ∀ s e, (step.run.run s).1 = .error e → ∃ sites arisen, FailsIn step s sites arisen

namespace Explained

variable {α α' : Type} {step : RenderM α}

theorem bind {next : α → RenderM α'} (h : Explained step) (hnext : ∀ a, Explained (next a)) :
    Explained (step >>= next) := by
  intro s e he
  rw [run_bind] at he
  cases hrun : step.run.run s with
  | mk result s' =>
    rw [hrun] at he
    cases result with
    | error e' =>
      obtain ⟨sites, arisen, hfails⟩ := h s e' (by rw [hrun])
      exact ⟨sites, arisen, .first hfails⟩
    | ok a =>
      obtain ⟨sites, arisen, hfails⟩ := hnext a s' e he
      exact ⟨sites, arisen, .next hrun hfails⟩

/-- A chain fails in the node that comes first, or in the chain of those behind it. -/
theorem chain {level : Level} {template : Template} {bound place : Nat} {node : Node}
    (hnode : template.program.node? place = some node)
    (h : Explained (level.runNode template (level.chain template bound) bound place node))
    {s : RenderState} {e : TemplateError}
    (he : ((level.chain template (bound + 1) (some place)).run.run s).1 = .error e) :
    (∃ sites arisen, FailsIn (level.chain template (bound + 1) (some place)) s
        (sites ++ [⟨template, place, node, hnode⟩]) arisen) ∨
      ∃ next s', ((level.chain template bound next).run.run s').1 = .error e ∧
        ∀ sites arisen, FailsIn (level.chain template bound next) s' sites arisen →
          FailsIn (level.chain template (bound + 1) (some place)) s sites arisen := by
  have hchain : level.chain template (bound + 1) (some place) =
      Level.located template node.span.start node.name
        (level.runNode template (level.chain template bound) bound place node) >>=
      fun next => level.chain template bound next := by
    rw [Level.chain]
    simp only [hnode]
  cases hrun : (level.runNode template (level.chain template bound) bound place node).run.run s with
  | mk result s' =>
    cases result with
    | error e' =>
      obtain ⟨sites, arisen, hfails⟩ := h s e' (by rw [hrun])
      exact .inl ⟨sites, arisen, .node hnode hfails⟩
    | ok next =>
      have hlocated : (Level.located template node.span.start node.name (level.runNode template
          (level.chain template bound) bound place node)).run.run s = (.ok next, s') := by
        rw [Level.located, run_adapt, hrun]
        rfl
      rw [hchain, run_bind, hlocated] at he
      refine .inr ⟨next, s', he, fun sites arisen hfails => ?_⟩
      rw [hchain]
      exact .next hlocated hfails

end Explained

/-- The operations of a render, and running nodes and evaluating conditions, respect that an error
arises wherever a step fails. -/
theorem congruence_explained : Congruence fun {_} (_ step : RenderM _) => Explained step where
  result {α result} h s e he := by
    obtain rfl : result = .error e := he
    exact ⟨[], e, .throw (h e rfl) s⟩
  bind := .bind
  get_bind {α next next'} _ _ h s e he := by
    obtain ⟨sites, arisen, hfails⟩ := h s s e he
    have hget : (get : RenderM RenderState).run.run s = (.ok s, s) := rfl
    exact ⟨sites, arisen, .next hget hfails⟩
  caches f h s e he := ⟨[], e, .caches f (h s.store e he) he⟩
  assign _ _ _ _ := nofun
  declare _ _ _ _ _ := nofun
  emit text s e he := ⟨[], e, .emit (Prod.ext he rfl)⟩
  withScope scope _ _ h s e he := by
    obtain ⟨sites, arisen, hfails⟩ := h (s.pushScope scope) e he
    exact ⟨sites, arisen, .withScope hfails⟩
  withDir dir _ _ h s e he := by
    obtain ⟨sites, arisen, hfails⟩ := h (s.pushDir dir) e he
    exact ⟨sites, arisen, .withDir hfails⟩
  withScopes outer _ _ h s e he := by
    obtain ⟨sites, arisen, hfails⟩ := h { s with scopes := [] :: outer } e he
    exact ⟨sites, arisen, .withScopes hfails⟩
  captured {_ step} h s e he := by
    rw [RenderM.captured, run_between, run_bind] at he
    cases hrun : step.run.run { s with sink := .collector } with
    | mk result s' =>
      rw [hrun] at he
      cases result with
      | error e' =>
        obtain ⟨sites, arisen, hfails⟩ := h _ e' (by rw [hrun])
        exact ⟨sites, arisen, .captured hfails⟩
      | ok a => cases he
  chain hnode h hnext s e he := by
    obtain ⟨sites, arisen, hfails⟩ | ⟨next, s', he', hlater⟩ := Explained.chain hnode h he
    · exact ⟨_, arisen, hfails⟩
    · obtain ⟨sites, arisen, hfails⟩ := hnext next s' e he'
      exact ⟨sites, arisen, hlater sites arisen hfails⟩
  branches {_ level template _ runBody bound place node condition nested alternative terminus}
      hnode hkind hcondition hbody hother s e he := by
    have hbranches : level.runBranches template runBody (bound + 1) (some place) =
        level.isTaken template node.span.start node.name condition >>= fun taken =>
          if taken then runBody nested
          else level.runBranches template runBody bound alternative := by
      rw [Level.runBranches]
      simp only [hnode, hkind]
    have hchosen : ∀ taken : Bool, Explained
        (if taken then runBody nested
          else level.runBranches template runBody bound alternative) := by
      rintro (_ | _)
      · exact hother
      · exact hbody
    cases hrun : (level.isTaken template node.span.start node.name condition).run.run s with
    | mk result s' =>
      cases result with
      | ok taken =>
        rw [hbranches, run_bind, hrun] at he
        obtain ⟨sites, arisen, hfails⟩ := hchosen taken s' e he
        exact ⟨sites, arisen, hbranches ▸ .next hrun hfails⟩
      | error e' =>
        cases condition with
        | none => cases hrun
        | some slot =>
          -- Only the value of the condition can be missing.
          obtain ⟨sites, arisen, hfails⟩ : ∃ sites arisen,
              FailsIn (level.evaluate template slot) s sites arisen := by
            cases hvalue : (level.evaluate template slot).run.run s with
            | mk value t =>
              cases value with
              | error e'' => exact hcondition slot rfl s e'' (by rw [hvalue])
              | ok value =>
                rw [Level.isTaken, Level.located, run_adapt, run_bind, hvalue] at hrun
                cases hrun
          exact ⟨_, arisen, .condition hnode hkind hfails⟩

namespace Level

variable {level : Level}

/-- Whatever fails in a chain of nodes fails in one of its nodes. -/
theorem exists_site_of_chain
    (h : Related (fun {_} (_ step : RenderM _) => Explained step) level level) (template : Template)
    {bound : Nat} {place : Option Nat} {s : RenderState} {e : TemplateError}
    (he : ((level.chain template bound place).run.run s).1 = .error e) :
    ∃ sites site arisen, FailsIn (level.chain template bound place) s (sites ++ [site]) arisen := by
  induction bound generalizing place s with
  | zero => cases place <;> cases he
  | succ bound ih =>
    cases place with
    | none => cases he
    | some place =>
      cases hnode : template.program.node? place with
      | none =>
        rw [chain] at he
        simp only [hnode] at he
        cases he
      | some node =>
        have hrun : Explained
            (level.runNode template (level.chain template bound) bound place node) :=
          @related_runNode _ congruence_explained level level h template
            (level.chain template bound) _ (related_chain congruence_explained h bound) bound place
            node
        obtain ⟨sites, arisen, hfails⟩ | ⟨next, s', he', hlater⟩ := Explained.chain hnode hrun he
        · exact ⟨sites, _, arisen, hfails⟩
        · obtain ⟨sites, site, arisen, hfails⟩ := ih he'
          exact ⟨sites, site, arisen, hlater _ _ hfails⟩

/-- Whatever fails in a part of a template fails in one of its nodes. -/
theorem exists_site_of_runPart (setting : Setting) (levels : Nat) {template : Template}
    {part : Part} {s : RenderState} {e : TemplateError}
    (he : (((above setting levels).runPart template part).run.run s).1 = .error e) :
    ∃ sites site arisen,
      FailsIn ((above setting levels).runPart template part) s (sites ++ [site]) arisen :=
  exists_site_of_chain (related_above congruence_explained setting levels) template he

end Level

/-! ### Renders -/

/-- What is reported of an error that arises in a node: the failure of a render is given the name of
the node and the place at which it begins in the source of its template, and is not the failure of a
block within an expression; that an included template does not compile is reported as it is. -/
inductive Site.Reports (site : Site) : TemplateError → TemplateError → Prop
  | fault {fault : RenderFault} {before after : List Char}
      (hsource : site.template.source.toList = before ++ after)
      (hbegin : byteLength before = site.node.span.start)
      (h : ∀ error, fault ≠ .expression (.nested error)) :
      site.Reports fault.toError
        (.render fault (some (Position.after before)) (some site.node.name))
  | compile (error : CompileError) : site.Reports (.compile error) (.compile error)

private theorem Site.reports_iff {site : Site} {arisen e : TemplateError} (h : arisen.Arises) :
    site.Reports arisen e ↔ e = arisen.annotate site.position site.node.name := by
  obtain ⟨front, behind, hfront, hlength, hposition⟩ := site.exists_position_eq
  cases h with
  | @fault fault hfault =>
    constructor
    · rintro ⟨hsource, hbegin, -⟩
      obtain ⟨rfl, -⟩ := append_inj_of_byteLength_eq (hsource.symm.trans hfront)
        (hbegin.trans hlength.symm)
      rw [hposition]
      rfl
    · rintro rfl
      rw [hposition]
      exact .fault hfront hlength hfault
  | compile error =>
    constructor
    · rintro ⟨⟩
      rfl
    · rintro rfl
      exact .compile error

/-- A step that fails in some node wherever it fails has the errors that arise in it, each of them
reported of the innermost node. -/
theorem FailsIn.run_iff {α : Type} {step : RenderM α} {s : RenderState} {e : TemplateError}
    (hsite : ∀ e, (step.run.run s).1 = .error e →
      ∃ sites site arisen, FailsIn step s (sites ++ [site]) arisen) :
    (step.run.run s).1 = .error e ↔ ∃ innermost enclosing arisen,
      FailsIn step s (innermost :: enclosing) arisen ∧ innermost.Reports arisen e := by
  constructor
  · intro he
    obtain ⟨sites, site, arisen, hfails⟩ := hsite e he
    obtain ⟨innermost, enclosing, hsites⟩ := List.exists_cons_of_ne_nil
      (List.append_ne_nil_of_right_ne_nil sites (List.cons_ne_nil site []))
    rw [hsites] at hfails
    have hrun := hfails.run
    rw [he] at hrun
    exact ⟨innermost, enclosing, arisen, hfails,
      (Site.reports_iff hfails.arises).2 (Except.error.inj hrun)⟩
  · rintro ⟨innermost, enclosing, arisen, hfails, hreports⟩
    rw [(Site.reports_iff hfails.arises).1 hreports]
    exact hfails.run

/-- The node of a template that is one expression. -/
theorem Program.node?_of_pureExpression? {program : Program} {node : Node} {value : Slot}
    (h : program.pureExpression? = some (node, value)) : program.node? 0 = some node := by
  rw [pureExpression?] at h
  split at h
  · rename_i hnodes
    split at h
    · split at h
      · cases h
        rw [node?, ← Array.getElem?_toList, hnodes]
        rfl
      · cases h
    · cases h
  · cases h

namespace Template

variable (template : Template) (options : RenderOptions) (files : FileTree) (store : Store)

/-- Rendering the template into a sink fails because this error arises in it while these nodes are
being run, the innermost first. -/
def FailsIn (sink : Sink) (sites : List Site) (e : TemplateError) : Prop :=
  TextTemplate.FailsIn ((options.level files).runPart template .whole)
    (options.initial template store sink) sites e

/-- Evaluating the template fails so: a template that is one expression is evaluated as part of its
node, and any other is rendered. -/
inductive FailsToEvaluate : List Site → TemplateError → Prop
  | expression {node : Node} {value : Slot} {sites : List Site} {e : TemplateError}
      (h : template.program.pureExpression? = some (node, value)) :
      TextTemplate.FailsIn ((options.level files).evaluate template value)
          (options.initial template store .collector) sites e →
        FailsToEvaluate (sites ++ [⟨template, 0, node, Program.node?_of_pureExpression? h⟩]) e
  | text {sites : List Site} {e : TemplateError} :
      template.program.pureExpression? = none →
      template.FailsIn options files store .collector sites e → FailsToEvaluate sites e

/-- Where an evaluation of an expression fails, it fails in its node. -/
theorem evaluate_error_iff {node : Node} {value : Slot} {e : TemplateError}
    (h : template.program.pureExpression? = some (node, value)) :
    (template.evaluate options files store).result = .error e ↔
      ∃ innermost enclosing arisen, template.FailsToEvaluate options files store
        (innermost :: enclosing) arisen ∧ innermost.Reports arisen e := by
  set s := options.initial template store .collector with hs
  set step := (options.level files).evaluate template value with hstep
  set site : Site := ⟨template, 0, node, Program.node?_of_pureExpression? h⟩ with hsite
  have hresult : (template.evaluate options files store).result =
      (step.run.run s).1.mapError (TemplateError.annotate site.position site.node.name) := by
    rw [evaluate, h]
    rfl
  have hlabel {sites : List Site} {arisen : TemplateError}
      (hfails : TextTemplate.FailsIn step s sites arisen) :
      (template.evaluate options files store).result =
        .error (Site.label (sites ++ [site]) arisen) := by
    rw [hresult, hfails.run, Attempt.mapError_error, Site.annotate_label]
  constructor
  · intro he
    obtain ⟨e', he', -⟩ := Attempt.mapError_eq_error_iff.1 (hresult ▸ he)
    obtain ⟨sites, arisen, hfails⟩ := Level.related_evaluate congruence_explained
      (Level.related_above congruence_explained _ _) template value s e' he'
    obtain ⟨innermost, enclosing, hsites⟩ := List.exists_cons_of_ne_nil
      (List.append_ne_nil_of_right_ne_nil sites (List.cons_ne_nil site []))
    have herror := hlabel hfails
    rw [he, hsites] at herror
    exact ⟨innermost, enclosing, arisen, hsites ▸ .expression h hfails,
      (Site.reports_iff hfails.arises).2 (Except.error.inj herror)⟩
  · rintro ⟨innermost, enclosing, arisen, hfails, hreports⟩
    generalize hall : innermost :: enclosing = all at hfails
    cases hfails with
    | text hnone => rw [h] at hnone; cases hnone
    | expression h' hfails =>
      obtain ⟨rfl, rfl⟩ := Prod.mk.inj (Option.some.inj (h.symm.trans h'))
      rw [hlabel hfails, ← hall, (Site.reports_iff hfails.arises).1 hreports]
      rfl

/-- The errors of a template, when it is rendered and when it is evaluated, are those that arise
while some of its nodes, or of the templates and blocks that it leads to, are being run, reported of
the innermost one of them. -/
theorem error_iff_innermost (e : TemplateError) :
    (∀ sink, (template.renderInto options files store sink).result = .error e ↔
      ∃ innermost enclosing arisen, template.FailsIn options files store sink
        (innermost :: enclosing) arisen ∧ innermost.Reports arisen e) ∧
    ((template.renderText options files store).result = .error e ↔
      ∃ innermost enclosing arisen, template.FailsIn options files store .collector
        (innermost :: enclosing) arisen ∧ innermost.Reports arisen e) ∧
    ((template.evaluate options files store).result = .error e ↔
      ∃ innermost enclosing arisen, template.FailsToEvaluate options files store
        (innermost :: enclosing) arisen ∧ innermost.Reports arisen e) := by
  have hinto (sink : Sink) : (template.renderInto options files store sink).result = .error e ↔
      ∃ innermost enclosing arisen, template.FailsIn options files store sink
        (innermost :: enclosing) arisen ∧ innermost.Reports arisen e :=
    FailsIn.run_iff fun _ => Level.exists_site_of_runPart _ _
  have htext : (template.renderText options files store).result = .error e ↔
      (template.renderInto options files store .collector).result = .error e := by
    rw [renderText]
    exact Attempt.map_eq_error_iff
  refine ⟨hinto, htext.trans (hinto _), ?_⟩
  cases hpure : template.program.pureExpression? with
  | some found => exact template.evaluate_error_iff options files store hpure
  | none =>
    have hfails (sites : List Site) (arisen : TemplateError) :
        template.FailsToEvaluate options files store sites arisen ↔
          template.FailsIn options files store .collector sites arisen := by
      constructor
      · rintro (⟨h, -⟩ | ⟨-, h⟩)
        · rw [hpure] at h
          cases h
        · exact h
      · exact .text hpure
    have heval : (template.evaluate options files store).result = .error e ↔
        (template.renderText options files store).result = .error e := by
      rw [evaluate, hpure]
      exact Attempt.map_eq_error_iff
    simp only [hfails]
    exact heval.trans (htext.trans (hinto _))

/-- A block that fails in the condition of its second branch, called from within an expression of a
directive further down, fails at that branch. -/
example :
    (Store.empty.compile ⟨.compiled, []⟩
      "@declare\x7b'f'\x7d@if\x7b0\x7d@elseif\x7b1 / 0\x7d@end{}@end{}\n@if\x7bf() == ''\x7d@end{}"
      none).toOption.map (fun loaded => (loaded.1.renderText {} .empty loaded.2).result) =
        some (.error (.render (.expression .divisionByZero) (some ⟨19, 1, 20⟩)
          (some "elseif"))) := by
  decide +kernel

end Template

end TextTemplate
