import TextTemplate.Proofs.Evaluation
import TextTemplate.Proofs.Expression.Malformed
import TextTemplate.Proofs.Steps

/-!
# Congruences of steps

However long a render is, it changes its state in a few ways only: it assigns to a variable,
declares a block, changes the include caches, or writes a text; and it runs steps within a new
scope, within a directory, within the scopes of a block, or with what they write captured. A
relation between steps that all these ways respect relates the same render at two levels, once it
relates what the two levels run one level deeper. A property of steps is the case of a relation that
looks at one of the two only.

An error arises in one of these operations, without a place. What then gives it the place of a node
is running a node of a chain and evaluating the condition of a branch.

## Main definitions

* `TemplateError.Arises`: errors as they arise.
* `InnerOperations`, `InnerCongruence`: relations that the operations within a template respect.
* `Operations`, `Congruence`: relations that all operations of a render respect.
* `Level.CallsRelated`, `Level.InnerRelated`: levels where calls of blocks, and includes, are
  related.
* `Level.Related`: levels that differ in what they run one level deeper, which is related.

## Main results

* `Level.CallsRelated.evaluate`, `Level.InnerRelated.runAction`, `Level.InnerRelated.runNode`: the
  steps of expressions, of directives and of nodes.
* `Level.related_runPart`: rendering a part of a template.
* `Level.related_above`: every level is related to itself.
-/

namespace TextTemplate

/-! ### Errors -/

/-- An error as it arises: of a render, without a place, and not the failure of a block that an
expression called; or that an included template does not compile. -/
inductive TemplateError.Arises : TemplateError → Prop
  | fault {fault : RenderFault} (h : ∀ error, fault ≠ .expression (.nested error)) :
      TemplateError.Arises fault.toError
  | compile (error : CompileError) : TemplateError.Arises (.compile error)

/-- Turns the errors of expressions into errors of a render, where the failure of a block that an
expression called stays what it is, and every other error arises. -/
structure Surfaces (surface : EvalError → TemplateError) : Prop where
  nested (error : TemplateError) : surface (.nested error) = error
  arises {e : EvalError} (h : ∀ error, e ≠ .nested error) : (surface e).Arises

private theorem surfaces_toTemplateError : Surfaces EvalError.toTemplateError where
  nested _ := rfl
  arises {e} h := by
    have hfault : ∀ error, RenderFault.expression e ≠ .expression (.nested error) := by
      rintro error ⟨⟩
      exact h error rfl
    cases e with
    | nested error => exact absurd rfl (h error)
    | _ => exact .fault hfault

private theorem surfaces_shift (base : Nat) :
    Surfaces (EvalError.toTemplateError ∘ EvalError.shift base) where
  nested _ := rfl
  arises {e} h := by
    refine surfaces_toTemplateError.arises fun error => ?_
    cases e with
    | nested error => exact absurd rfl (h error)
    | _ => exact nofun

/-- The errors of the operations of expressions arise. -/
theorem Surfaces.arises_of_settled {α : Type} {surface : EvalError → TemplateError}
    (h : Surfaces surface) {result : Except EvalError α} (hresult : Settled result)
    {e : TemplateError} (he : result.mapError surface = .error e) : e.Arises := by
  obtain ⟨error, herror, rfl⟩ := Attempt.mapError_eq_error_iff.1 he
  exact h.arises (hresult error herror).2

/-- That a text is no expression arises. -/
theorem Surfaces.arises_of_parse {surface : EvalError → TemplateError} (h : Surfaces surface)
    {text : String} {e : TemplateError} (he : (Expr.parse text).mapError surface = .error e) :
    e.Arises := by
  obtain ⟨error, herror, rfl⟩ := Attempt.mapError_eq_error_iff.1 he
  obtain ⟨offset, reason, rfl⟩ := Expr.isMalformed_of_parse herror
  exact h.arises nofun

private theorem LoopSource.arises_of_ofValue {value : Value} {fault : RenderFault}
    (h : LoopSource.ofValue value = .error fault) (error : EvalError) :
    fault ≠ .expression error := by
  rintro rfl
  rw [ofValue.eq_def] at h
  split at h <;> cases h

/-! ### Relations -/

/-- Relations between steps that those operations of a render respect that stay within the template
or block that is being run. Next to the state, only `RenderM.emit` looks at the sink. -/
structure InnerOperations (R : {α : Type} → RenderM α → RenderM α → Prop) : Prop where
  result {α : Type} {result : Except TemplateError α} (h : ∀ e, result = .error e → e.Arises) :
    R (ExceptT.mk (pure result)) (ExceptT.mk (pure result))
  bind {α α' : Type} {left right : RenderM α} {next next' : α → RenderM α'} :
    R left right → (∀ a, R (next a) (next' a)) → R (left >>= next) (right >>= next')
  get_bind {α : Type} {next next' : RenderState → RenderM α} :
    (∀ s sink, next { s with sink } = next s) → (∀ s sink, next' { s with sink } = next' s) →
      (∀ s, R (next s) (next' s)) → R (get >>= next) (get >>= next')
  assign (name : String) (value : Value) :
    R (modify (·.assign name value)) (modify (·.assign name value))
  declare (name : String) (template : Template) (place : Nat) :
    R (modify (·.declare name template place)) (modify (·.declare name template place))
  emit (text : String) : R (RenderM.emit text) (RenderM.emit text)
  withScope {α : Type} (scope : Scope) {left right : RenderM α} :
    R left right → R (RenderM.withScope scope left) (RenderM.withScope scope right)
  captured {left right : RenderM Unit} :
    R left right → R (RenderM.captured left) (RenderM.captured right)

/-- Relations between steps that the operations of a render respect: moreover those that change the
include caches, or enter a template or a block. -/
structure Operations (R : {α : Type} → RenderM α → RenderM α → Prop) : Prop
    extends InnerOperations R where
  caches {α : Type} (f : Store → Except TemplateError α × Array IncludeCache)
    (h : ∀ store e, (f store).1 = .error e → e.Arises) :
    R (ExceptT.mk fun s =>
        ((f s.store).1, { s with store := { s.store with caches := (f s.store).2 } }))
      (ExceptT.mk fun s =>
        ((f s.store).1, { s with store := { s.store with caches := (f s.store).2 } }))
  withDir {α : Type} (dir : Path) {left right : RenderM α} :
    R left right → R (RenderM.withDir dir left) (RenderM.withDir dir right)
  withScopes {α : Type} (outer : List Scope) {left right : RenderM α} :
    R left right →
      R (RenderM.withScopes ([] :: outer) left) (RenderM.withScopes ([] :: outer) right)

/-- Relations that moreover running a chain of nodes and looking for the branch to be taken respect:
running a node, and evaluating a condition, happen under the place of the node. -/
structure InnerCongruence (R : {α : Type} → RenderM α → RenderM α → Prop) : Prop
    extends InnerOperations R where
  chain {left right : Level} {template : Template} {bound place : Nat} {node : Node} :
    template.program.node? place = some node →
    R (left.runNode template (left.chain template bound) bound place node)
      (right.runNode template (right.chain template bound) bound place node) →
    (∀ next, R (left.chain template bound next) (right.chain template bound next)) →
      R (left.chain template (bound + 1) (some place))
        (right.chain template (bound + 1) (some place))
  branches {left right : Level} {template : Template} {runBody runBody' : Option Nat → RenderM Unit}
    {bound place : Nat} {node : Node} {condition : Option Slot} {nested alternative terminus :
      Option Nat} :
    template.program.node? place = some node →
    node.kind = .block (.conditional condition) nested alternative terminus →
    (∀ slot, condition = some slot → R (left.evaluate template slot)
      (right.evaluate template slot)) →
    R (runBody nested) (runBody' nested) →
    R (left.runBranches template runBody bound alternative)
      (right.runBranches template runBody' bound alternative) →
      R (left.runBranches template runBody (bound + 1) (some place))
        (right.runBranches template runBody' (bound + 1) (some place))

/-- Relations that all operations of a render respect, and running a chain of nodes and looking for
the branch to be taken. -/
structure Congruence (R : {α : Type} → RenderM α → RenderM α → Prop) : Prop
    extends Operations R, InnerCongruence R

variable {R : {α : Type} → RenderM α → RenderM α → Prop}

namespace InnerOperations

variable {α α' : Type} {left right : RenderM α}

theorem pure (h : InnerOperations R) (a : α) : R (Pure.pure a) (Pure.pure a) := by
  have hresult : ∀ e, (Except.ok a : Except TemplateError α) = .error e → e.Arises := nofun
  exact h.result hresult

private theorem throw (h : InnerOperations R) {e : TemplateError} (he : e.Arises) :
    R (MonadExcept.throw e : RenderM α) (MonadExcept.throw e) := by
  have hresult : ∀ e', (Except.error e : Except TemplateError α) = .error e' → e'.Arises := by
    rintro _ ⟨⟩
    exact he
  exact h.result hresult

private theorem fail (h : InnerOperations R) {fault : RenderFault}
    (hfault : ∀ error, fault ≠ .expression (.nested error)) :
    R (RenderM.fail fault : RenderM α) (RenderM.fail fault) :=
  h.throw (.fault hfault)

theorem map (h : InnerOperations R) (f : α → α') (hstep : R left right) :
    R (left >>= fun a => Pure.pure (f a)) (right >>= fun a => Pure.pure (f a)) :=
  h.bind hstep fun a => h.pure (f a)

private theorem discard (h : InnerOperations R) (hstep : R left right) :
    R (Functor.discard left) (Functor.discard right) := by
  rw [discard_eq_bind, discard_eq_bind]
  exact h.map (fun _ => ()) hstep

/-- A relation that the operations respect and that does not depend on the places in errors. -/
theorem congruence (h : InnerOperations R)
    (hannotate : ∀ {α : Type} (position : Position) (directive : String) {left right : RenderM α},
      R left right → R (ExceptT.adapt (TemplateError.annotate position directive) left)
        (ExceptT.adapt (TemplateError.annotate position directive) right)) :
    InnerCongruence R where
  toInnerOperations := h
  chain hnode hrun hnext := by
    rw [Level.chain, Level.chain]
    simp only [hnode]
    exact h.bind (hannotate _ _ hrun) hnext
  branches {_ _ _ _ _ _ _ _ condition _ _ _} hnode hkind hcondition hbody hother := by
    rw [Level.runBranches, Level.runBranches]
    simp only [hnode, hkind]
    refine h.bind ?_ ?_
    · cases condition with
      | none => exact h.pure true
      | some slot => exact hannotate _ _ (h.map _ (hcondition slot rfl))
    · rintro (_ | _)
      · exact hother
      · exact hbody

end InnerOperations

/-- A relation that all operations respect and that does not depend on the places in errors. -/
theorem Operations.congruence (h : Operations R)
    (hannotate : ∀ {α : Type} (position : Position) (directive : String) {left right : RenderM α},
      R left right → R (ExceptT.adapt (TemplateError.annotate position directive) left)
        (ExceptT.adapt (TemplateError.annotate position directive) right)) :
    Congruence R where
  toOperations := h
  chain := (h.toInnerOperations.congruence hannotate).chain
  branches := (h.toInnerOperations.congruence hannotate).branches

/-! ### Expressions -/

/-- Steps of expressions that are related as steps of a render, wherever their errors surface. -/
def RelatedInside (R : {α : Type} → RenderM α → RenderM α → Prop) {α : Type}
    (left : Unit → ExceptT EvalError (StateM RenderState) α)
    (right : ExceptT EvalError (StateM RenderState) α) : Prop :=
  ∀ surface, Surfaces surface →
    R (ExceptT.adapt surface (left ())) (ExceptT.adapt surface right)

/-! ### Levels -/

namespace Level

/-- Two levels with the same context, where calls of blocks are related. -/
structure CallsRelated (R : {α : Type} → RenderM α → RenderM α → Prop) (left right : Level) :
    Prop where
  context : right.setting.context = left.setting.context
  callBlock (id : Nat) : R (left.callBlock id) (right.callBlock id)

/-- Two levels where moreover the includes of a template are related. -/
structure InnerRelated (R : {α : Type} → RenderM α → RenderM α → Prop) (left right : Level)
    (template : Template) : Prop extends CallsRelated R left right where
  includeFile (place : Nat) (target : Slot) (pre : Option Slot) :
    R (left.includeFile template place target pre) (right.includeFile template place target pre)
  includeNamed (target : Slot) (pre : Option Slot) :
    R (left.includeNamed template target pre) (right.includeNamed template target pre)

/-- Two levels of settings that agree except for how deeply includes and block calls may nest, where
what they run one level deeper is related. -/
structure Related (R : {α : Type} → RenderM α → RenderM α → Prop) (left right : Level) : Prop where
  context : right.setting.context = left.setting.context
  registry : right.setting.registry = left.setting.registry
  files : right.setting.files = left.setting.files
  enter (template : Template) (part : Part) (dir : Path) :
    R (left.enter template part dir) (right.enter template part dir)

private theorem CallsRelated.lookup_eq {left right : Level} (h : CallsRelated R left right)
    (s : RenderState) (name : String) :
    s.lookup right.setting name = s.lookup left.setting name := by
  rw [RenderState.lookup, RenderState.lookup, h.context]

/-! ### Steps that run nothing deeper -/

section Shallow

variable (h : InnerOperations R)

include h

private theorem related_writeText (template : Template) (spans : List Span) :
    R (writeText template spans) (writeText template spans) := by
  induction spans with
  | nil => exact h.pure ()
  | cons span spans ih => exact h.bind (h.emit _) fun _ => ih

private theorem related_runRepeated (between : String) {body body' : RenderM Unit}
    (hbody : R body body') (round rounds : Nat) :
    R (runRepeated between body round rounds) (runRepeated between body' round rounds) := by
  induction rounds generalizing round with
  | zero => exact h.pure ()
  | succ rounds ih =>
    have hround := h.bind (h.withScope [("index", .int (Int64.ofInt round))] hbody)
      fun _ => ih (round + 1)
    rw [runRepeated, runRepeated]
    by_cases hfirst : round = 0
    · rw [if_neg (by simp [hfirst]), if_neg (by simp [hfirst])]
      exact hround
    · rw [if_pos hfirst, if_pos hfirst]
      exact h.bind (h.emit between) fun _ => hround

/-- The operations of expressions. -/
theorem related_settled {α : Type} {result : Except EvalError α} (hresult : Settled result) :
    RelatedInside R (fun _ => ExceptT.mk (pure result)) (ExceptT.mk (pure result)) :=
  fun _ hsurface => h.result fun _ => hsurface.arises_of_settled hresult

/-- Reading an expression. -/
theorem related_parse (text : String) :
    RelatedInside R (fun _ => ExceptT.mk (pure (Expr.parse text)))
      (ExceptT.mk (pure (Expr.parse text))) :=
  fun _ hsurface => h.result fun _ => hsurface.arises_of_parse

/-- Finding a registered template. -/
theorem related_registered {left right : Level}
    (hregistry : right.setting.registry = left.setting.registry) (name : String) :
    R (left.registered name) (right.registered name) := by
  rw [registered, registered, hregistry]
  cases left.setting.registry with
  | none => exact h.fail nofun
  | some registry =>
    dsimp only
    cases registry.find? name with
    | none => exact h.fail nofun
    | some included => exact h.pure included

end Shallow

/-! ### Expressions of a level -/

namespace CallsRelated

section Expressions

variable {left right : Level} (hlevel : CallsRelated R left right) (h : InnerOperations R)

include h hlevel

private theorem call (callee : Value) (args : List Value) :
    RelatedInside R (fun _ => ExceptT.mk (left.call callee args))
      (ExceptT.mk (right.call callee args)) := by
  cases callee with
  | block number name =>
    cases args with
    | nil =>
      intro surface hsurface
      -- The failure of the block passes through the expression, so that the call is a step of the
      -- render at each of the two levels.
      have hsurfaced (level : Level) :
          ExceptT.adapt surface (ExceptT.mk (level.call (.block number name) [])) = (do
            let text ← RenderM.captured (level.callBlock number)
            return Value.string text) := by
        have hunnest : surface ∘ EvalError.nested = id := funext hsurface.nested
        rw [mk_call_block, adapt_bind, adapt_adapt, hunnest, adapt_id]
        rfl
      rw [hsurfaced, hsurfaced]
      exact h.map _ (h.captured (hlevel.callBlock number))
    | cons arg args => exact related_settled h (.error ⟨nofun, nofun⟩)
  | _ => exact related_settled h (.error ⟨nofun, nofun⟩)

private theorem environment :
    Environment.Corresponds (RelatedInside R) (fun _ => left.environment) right.environment where
  result hresult := related_settled h hresult
  bind hstep hnext surface hsurface := by
    rw [adapt_bind, adapt_bind]
    exact h.bind (hstep surface hsurface) fun a => hnext a surface hsurface
  lookup name surface _ := by
    change R (get >>= fun s => pure (s.lookup left.setting name))
      (get >>= fun s => pure (s.lookup right.setting name))
    refine h.get_bind (fun _ _ => rfl) (fun _ _ => rfl) fun s => ?_
    rw [hlevel.lookup_eq]
    exact h.pure _
  assign name value _ _ := h.assign name value
  call := hlevel.call h

theorem evaluate (template : Template) (slot : Slot) :
    R (left.evaluate template slot) (right.evaluate template slot) := by
  have henvironments := hlevel.environment h
  cases slot with
  | parsed span e => exact Expr.corresponds_eval henvironments e _ surfaces_toTemplateError
  | raw span =>
    rw [Level.evaluate, Level.evaluate, RenderM.ofEval, RenderM.ofEval, Slot.eval, Slot.eval,
      adapt_adapt, adapt_adapt]
    exact TextTemplate.corresponds_evaluateText henvironments (related_parse h _) _
      (surfaces_shift span.start)

theorem evaluateText (template : Template) (slot : Slot) :
    R (left.evaluateText template slot) (right.evaluateText template slot) :=
  h.map Value.display (hlevel.evaluate h template slot)

theorem evaluatePre (template : Template) (pre : Option Slot) :
    R (left.evaluatePre template pre) (right.evaluatePre template pre) := by
  cases pre with
  | none => exact h.pure ()
  | some slot => exact h.discard (hlevel.evaluate h template slot)

private theorem evaluateContents (contents : String) :
    R (RenderM.ofEval (TextTemplate.evaluateText left.environment contents))
      (RenderM.ofEval (TextTemplate.evaluateText right.environment contents)) :=
  TextTemplate.corresponds_evaluateText (hlevel.environment h)
    (related_parse h contents) _ surfaces_toTemplateError

/-! ### Loops and directives -/

private theorem loopSources (template : Template) (bindings : List LoopBinding) :
    R (left.loopSources template bindings) (right.loopSources template bindings) := by
  induction bindings with
  | nil => exact h.pure []
  | cons binding bindings ih =>
    refine h.bind (hlevel.evaluate h template binding.source) fun value => ?_
    cases hsource : LoopSource.ofValue value with
    | error fault => exact h.fail fun _ => LoopSource.arises_of_ofValue hsource _
    | ok source => exact h.map _ ih

section Bodies

variable {body body' : RenderM Unit}

private theorem runRounds (template : Template) (sources : List (String × LoopSource))
    (separator : Option Slot) (hbody : R body body') (round rounds : Nat) :
    R (left.runRounds template sources separator body round rounds)
      (right.runRounds template sources separator body' round rounds) := by
  induction rounds generalizing round with
  | zero => exact h.pure ()
  | succ rounds ih =>
    rw [Level.runRounds, Level.runRounds]
    refine h.bind (h.withScope _ hbody) fun _ => ?_
    by_cases hlast : rounds = 0
    · rw [if_neg (by simp [hlast]), if_neg (by simp [hlast])]
      exact ih (round + 1)
    · rw [if_pos hlast, if_pos hlast]
      cases separator with
      | none => exact ih (round + 1)
      | some slot =>
        refine h.bind (hlevel.evaluateText h template slot) fun text => ?_
        exact h.bind (h.emit text) fun _ => ih (round + 1)

private theorem runLoop (template : Template) (bindings : List LoopBinding)
    (separator : Option Slot) (hbody : R body body') :
    R (left.runLoop template bindings separator body)
      (right.runLoop template bindings separator body') :=
  h.bind (hlevel.loopSources h template bindings) fun sources =>
    hlevel.runRounds h template sources separator hbody 0 _

private theorem runCustom (custom : Custom) (contents : String) (ending : Option String)
    (hbody : R body body') :
    R (left.runCustom custom contents ending body)
      (right.runCustom custom contents ending body') := by
  cases custom with
  | repeated count => exact related_runRepeated h _ hbody 0 _
  | wrap =>
    refine h.bind (h.emit "[") fun _ => ?_
    refine h.bind (h.emit contents) fun _ => ?_
    refine h.bind (h.emit "|") fun _ => ?_
    exact h.bind hbody fun _ => h.emit _
  | guarded =>
    refine h.bind (hlevel.evaluateContents h contents) fun value => ?_
    cases value.isTruthy with
    | true => exact hbody
    | false => exact h.pure ()
  | shout => exact h.bind (hlevel.evaluateContents h contents) fun value => h.emit _
  | peek =>
    refine h.get_bind (fun _ _ => rfl) (fun _ _ => rfl) fun s => ?_
    rw [hlevel.lookup_eq]
    cases s.lookup left.setting (trim contents) with
    | none => exact h.emit "?"
    | some value => exact h.emit _
  | term => exact h.emit _
  | fail => exact h.bind (h.emit "<fail>") fun _ => h.fail nofun

end Bodies

private theorem runDeclare (template : Template) (name : Slot) (place : Nat) :
    R (left.runDeclare template name place) (right.runDeclare template name place) :=
  h.bind (hlevel.evaluateText h template name) fun name => h.declare name template place

end Expressions

private theorem runBranches {left right : Level} {template : Template}
    {runBody runBody' : Option Nat → RenderM Unit} (hlevel : CallsRelated R left right)
    (h : InnerCongruence R) (hbody : ∀ nested, R (runBody nested) (runBody' nested))
    (bound : Nat) (place : Option Nat) :
    R (left.runBranches template runBody bound place)
      (right.runBranches template runBody' bound place) := by
  induction bound generalizing place with
  | zero => cases place <;> exact h.pure ()
  | succ bound ih =>
    cases place with
    | none => exact h.pure ()
    | some place =>
      have hskip (hnode : ∀ node condition nested alternative terminus,
          template.program.node? place = some node →
          node.kind ≠ .block (.conditional condition) nested alternative terminus) :
          R (left.runBranches template runBody (bound + 1) (some place))
            (right.runBranches template runBody' (bound + 1) (some place)) := by
        rw [Level.runBranches, Level.runBranches]
        cases hplace : template.program.node? place with
        | none => exact h.pure ()
        | some node =>
          dsimp only
          split
          · exact absurd ‹_› (hnode node _ _ _ _ hplace)
          · exact h.pure ()
      by_cases hnode : ∃ node condition nested alternative terminus,
          template.program.node? place = some node ∧
          node.kind = .block (.conditional condition) nested alternative terminus
      · obtain ⟨node, condition, nested, alternative, terminus, hnode, hkind⟩ := hnode
        exact h.branches hnode hkind
          (fun slot _ => hlevel.evaluate h.toInnerOperations template slot) (hbody nested)
          (ih alternative)
      · push Not at hnode
        exact hskip hnode

end CallsRelated

/-! ### Nodes -/

namespace InnerRelated

variable {left right : Level} {template : Template} (hlevel : InnerRelated R left right template)

include hlevel

theorem runAction (h : InnerOperations R) (place : Nat) (body : Span) (action : Action) :
    R (left.runAction template place body action) (right.runAction template place body action) := by
  cases action with
  | expression value | eval value =>
    exact h.bind (hlevel.evaluateText h template value) fun text => h.emit text
  | code value => exact h.discard (hlevel.evaluate h template value)
  | includeFile target pre => exact hlevel.includeFile place target pre
  | includeNamed target pre => exact hlevel.includeNamed target pre
  | comment => exact h.pure ()
  | custom custom => exact hlevel.runCustom h custom _ none (h.pure ())

variable (h : InnerCongruence R)

include h

theorem runNode {runBody runBody' : Option Nat → RenderM Unit}
    (hbody : ∀ nested, R (runBody nested) (runBody' nested))
    (bound place : Nat) (node : Node) :
    R (left.runNode template runBody bound place node)
      (right.runNode template runBody' bound place node) := by
  rw [Level.runNode, Level.runNode]
  cases node.kind with
  | text spans => exact h.map _ (related_writeText h.toInnerOperations template spans)
  | action action => exact h.map _ (hlevel.runAction h.toInnerOperations place _ action)
  | block opener nested alternative terminus =>
    cases opener with
    | conditional condition => exact h.map _ (hlevel.runBranches h hbody _ _)
    | loop bindings separator =>
      exact h.map _ (hlevel.runLoop h.toInnerOperations template bindings separator (hbody nested))
    | declare name => exact h.map _ (hlevel.runDeclare h.toInnerOperations template name place)
    | custom custom =>
      exact h.map _ (hlevel.runCustom h.toInnerOperations custom _ _ (hbody nested))
  | terminal | finish => exact h.pure none

theorem chain (bound : Nat) (place : Option Nat) :
    R (left.chain template bound place) (right.chain template bound place) := by
  induction bound generalizing place with
  | zero => cases place <;> exact h.pure ()
  | succ bound ih =>
    cases place with
    | none => exact h.pure ()
    | some place =>
      cases hnode : template.program.node? place with
      | none =>
        rw [Level.chain, Level.chain]
        simp only [hnode]
        exact h.pure ()
      | some node => exact h.chain hnode (hlevel.runNode h ih bound place node) ih

/-- Rendering a part of the template is related. -/
theorem runPart (part : Part) : R (left.runPart template part) (right.runPart template part) :=
  hlevel.chain h _ _

end InnerRelated

/-! ### Levels that are related one level deeper -/

section Deep

variable (h : Congruence R) {left right : Level} (hlevel : Related R left right)

include h

/-- Compiling what was read from a file looks at the store and adds an include cache to it. -/
theorem related_compile (compiler : Compiler) (source : String) (origin : Option Path) :
    let step : RenderM Template := do
      let state ← get
      match state.store.compile compiler source origin with
      | .error e => throw (.compile e)
      | .ok (included, store) =>
        set { state with store }
        return included
    R step step := by
  let f (store : Store) : Except TemplateError Template × Array IncludeCache :=
    match store.compile compiler source origin with
    | .error e => (.error (.compile e), store.caches)
    | .ok (included, store) => (.ok included, store.caches)
  have harises (store : Store) (e : TemplateError) (he : (f store).1 = .error e) : e.Arises := by
    dsimp only [f] at he
    split at he
    · cases he
      exact .compile _
    · cases he
  intro step
  -- Nothing but the caches changes, whether the source compiles or not.
  suffices hstep : step = ExceptT.mk fun s =>
      ((f s.store).1, { s with store := { s.store with caches := (f s.store).2 } }) from
    hstep ▸ h.caches f harises
  funext s
  change (match s.store.compile compiler source origin with
    | .error e => throw (.compile e)
    | .ok (included, store) => do
      set { s with store }
      return included : RenderM Template) s =
    ((f s.store).1, { s with store := { s.store with caches := (f s.store).2 } })
  simp only [f, Store.compile]
  cases Template.compile compiler source origin s.store.caches.size <;> rfl

include hlevel

theorem related_callBlock (id : Nat) : R (left.callBlock id) (right.callBlock id) := by
  refine h.get_bind (fun _ _ => rfl) (fun _ _ => rfl) fun s => ?_
  cases s.store.block? id with
  | none => exact h.throw (.fault nofun)
  | some block => exact h.withScopes _ (hlevel.enter _ _ _)

theorem Related.calls : CallsRelated R left right :=
  ⟨hlevel.context, related_callBlock h hlevel⟩

private theorem related_compileFile (template : Template) (path : Path) :
    R (left.compileFile template path) (right.compileFile template path) := by
  rw [compileFile, compileFile, hlevel.files]
  cases left.setting.files.read path with
  | error error => cases error <;> exact h.fail nofun
  | ok source =>
    exact h.bind (h.caches (fun store => (.ok (), (store.countCompilation template).caches)) nofun)
      fun _ => related_compile h _ _ _

theorem related_fetchFile (template : Template) (place : Nat) (path : Path) :
    R (left.fetchFile template place path) (right.fetchFile template place path) := by
  rw [fetchFile, fetchFile]
  cases template.compiler.mode with
  | interpreted => exact related_compileFile h hlevel template path
  | compiled =>
    rw [hlevel.files]
    refine h.get_bind (fun _ _ => rfl) (fun _ _ => rfl) fun s => ?_
    cases s.store.cached? template place path (left.setting.files.modified? path) with
    | some included => exact h.pure included
    | none =>
      refine h.bind (related_compileFile h hlevel template path) fun included => ?_
      exact h.bind (h.caches (fun store =>
        (.ok (), (store.remember template place ⟨path, _, included⟩).caches)) nofun)
        fun _ => h.pure _

theorem related_includeFile (template : Template) (place : Nat) (target : Slot)
    (pre : Option Slot) :
    R (left.includeFile template place target pre)
      (right.includeFile template place target pre) := by
  refine h.bind ((hlevel.calls h).evaluateText h.toInnerOperations template target) fun text => ?_
  refine h.get_bind (fun _ _ => rfl) (fun _ _ => rfl) fun s => ?_
  refine h.bind ((hlevel.calls h).evaluatePre h.toInnerOperations template pre) fun _ => ?_
  refine h.bind (related_fetchFile h hlevel template place _) fun included => ?_
  exact h.get_bind (fun _ _ => rfl) (fun _ _ => rfl) fun s => hlevel.enter _ _ _

theorem related_includeNamed (template : Template) (target : Slot) (pre : Option Slot) :
    R (left.includeNamed template target pre) (right.includeNamed template target pre) := by
  refine h.bind ((hlevel.calls h).evaluateText h.toInnerOperations template target) fun name => ?_
  refine h.bind ((hlevel.calls h).evaluatePre h.toInnerOperations template pre) fun _ => ?_
  refine h.get_bind (fun _ _ => rfl) (fun _ _ => rfl) fun s => ?_
  cases s.declared[name]? with
  | some id => exact related_callBlock h hlevel id
  | none =>
    refine h.bind (related_registered h.toInnerOperations hlevel.registry name) fun included => ?_
    exact h.get_bind (fun _ _ => rfl) (fun _ _ => rfl) fun s => hlevel.enter _ _ _

private theorem Related.inner (template : Template) : InnerRelated R left right template where
  toCallsRelated := hlevel.calls h
  includeFile := related_includeFile h hlevel template
  includeNamed := related_includeNamed h hlevel template

theorem related_evaluate (template : Template) (slot : Slot) :
    R (left.evaluate template slot) (right.evaluate template slot) :=
  (hlevel.calls h).evaluate h.toInnerOperations template slot

theorem related_evaluateContents (contents : String) :
    R (RenderM.ofEval (TextTemplate.evaluateText left.environment contents))
      (RenderM.ofEval (TextTemplate.evaluateText right.environment contents)) :=
  (hlevel.calls h).evaluateContents h.toInnerOperations contents

theorem related_runLoop (template : Template) (bindings : List LoopBinding)
    (separator : Option Slot) {body body' : RenderM Unit} (hbody : R body body') :
    R (left.runLoop template bindings separator body)
      (right.runLoop template bindings separator body') :=
  (hlevel.calls h).runLoop h.toInnerOperations template bindings separator hbody

theorem related_runCustom (custom : Custom) (contents : String) (ending : Option String)
    {body body' : RenderM Unit} (hbody : R body body') :
    R (left.runCustom custom contents ending body)
      (right.runCustom custom contents ending body') :=
  (hlevel.calls h).runCustom h.toInnerOperations custom contents ending hbody

theorem related_runDeclare (template : Template) (name : Slot) (place : Nat) :
    R (left.runDeclare template name place) (right.runDeclare template name place) :=
  (hlevel.calls h).runDeclare h.toInnerOperations template name place

theorem related_runAction (template : Template) (place : Nat) (body : Span) (action : Action) :
    R (left.runAction template place body action) (right.runAction template place body action) :=
  (hlevel.inner h template).runAction h.toInnerOperations place body action

theorem related_runNode {template : Template} {runBody runBody' : Option Nat → RenderM Unit}
    (hbody : ∀ nested, R (runBody nested) (runBody' nested)) (bound place : Nat) (node : Node) :
    R (left.runNode template runBody bound place node)
      (right.runNode template runBody' bound place node) :=
  (hlevel.inner h template).runNode h.toInnerCongruence hbody bound place node

theorem related_chain {template : Template} (bound : Nat) (place : Option Nat) :
    R (left.chain template bound place) (right.chain template bound place) :=
  (hlevel.inner h template).chain h.toInnerCongruence bound place

/-- Rendering a part of a template is related. -/
theorem related_runPart (template : Template) (part : Part) :
    R (left.runPart template part) (right.runPart template part) :=
  (hlevel.inner h template).runPart h.toInnerCongruence part

end Deep

/-- Every level is related to itself. -/
theorem related_above (h : Congruence R) (setting : Setting) (levels : Nat) :
    Related R (above setting levels) (above setting levels) := by
  induction levels with
  | zero => exact ⟨rfl, rfl, rfl, fun _ _ _ => h.fail nofun⟩
  | succ levels ih =>
    exact ⟨rfl, rfl, rfl, fun template part dir =>
      h.withDir dir (related_runPart h ih template part)⟩

end Level

end TextTemplate
