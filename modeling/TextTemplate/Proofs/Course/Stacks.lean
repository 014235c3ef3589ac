import TextTemplate.Proofs.Course.Passes
import TextTemplate.Proofs.Ending.Level

/-!
# The stacks of a render

Scopes, directories and the count of active includes and block calls go up and down together with
what is being run. Every operation of a render leaves as many scopes as it found, the same
directories and the same count, whether it fails or not; and in between there is always a scope, no
more includes and calls are active than are allowed, and there is one directory for each of them and
one for the template that is rendered.

## Main definitions

* `Descends`: the states that a step passes through, with the includes and block calls that are
  active there.
* `Template.ReachesAt`: the states that a render of a template passes through.
* `Operation`: the operations of a render, on a level and without bounds.
* `Restores`: an operation leaves the stacks as they were.

## Main results

* `Descends.exists_dirs`, `Descends.depth_le`: the directories and the depth within a step.
* `Template.ReachesAt.balanced_stacks`: the stacks in every state of a render, and after every
  operation.
-/

namespace TextTemplate

/-! ### The states in between -/

/-- The step, begun in the first state with so many more levels below it, passes through the second
state, where so many includes and block calls that it has entered are active. Only what enters
another level adds a directory. -/
inductive Descends (setting : Setting) : {ε α : Type} → (levels : Nat) →
    ExceptT ε (StateM RenderState) α → RenderState → (depth : Nat) → RenderState → Prop
  | start {ε α : Type} (levels : Nat) (step : ExceptT ε (StateM RenderState) α) (s : RenderState) :
      Descends setting levels step s 0 s
  | finish {ε α : Type} (levels : Nat) {step : ExceptT ε (StateM RenderState) α} (h : Composed step)
      (s : RenderState) : Descends setting levels step s 0 (step.run.run s).2
  | first {ε α α' : Type} {levels depth : Nat} {step : ExceptT ε (StateM RenderState) α}
      {next : α → ExceptT ε (StateM RenderState) α'} {s t : RenderState} :
      Descends setting levels step s depth t → Descends setting levels (step >>= next) s depth t
  | next {ε α α' : Type} {levels depth : Nat} {step : ExceptT ε (StateM RenderState) α}
      {next : α → ExceptT ε (StateM RenderState) α'} {s s' t : RenderState} {a : α}
      (h : Composed step) :
      step.run.run s = (.ok a, s') → Descends setting levels (next a) s' depth t →
        Descends setting levels (step >>= next) s depth t
  | adapt {ε ε' α : Type} {levels depth : Nat} (f : ε → ε')
      {step : ExceptT ε (StateM RenderState) α} {s t : RenderState} :
      Descends setting levels step s depth t →
        Descends setting levels (ExceptT.adapt f step) s depth t
  | get_bind {ε α : Type} {levels depth : Nat}
      {next : RenderState → ExceptT ε (StateM RenderState) α} {s t : RenderState} :
      Descends setting levels (next s) s depth t → Descends setting levels (get >>= next) s depth t
  | withScope {α : Type} {levels depth : Nat} {scope : Scope} {step : RenderM α}
      {s t : RenderState} :
      Descends setting levels step (s.pushScope scope) depth t →
        Descends setting levels (RenderM.withScope scope step) s depth t
  | withScopes {α : Type} {levels depth : Nat} {outer : List Scope} {step : RenderM α}
      {s t : RenderState} :
      Descends setting levels step { s with scopes := [] :: outer } depth t →
        Descends setting levels (RenderM.withScopes ([] :: outer) step) s depth t
  | captured {levels depth : Nat} {step : RenderM Unit} {s t : RenderState} :
      Descends setting levels step { s with sink := .collector } depth t →
        Descends setting levels (RenderM.captured step) s depth t
  | enter {levels depth : Nat} {template : Template} {part : Part} {dir : Path}
      {s t : RenderState} :
      Descends setting levels ((Level.above setting levels).runPart template part) (s.pushDir dir)
          depth t →
        Descends setting (levels + 1)
          ((Level.above setting (levels + 1)).enter template part dir) s (depth + 1) t

namespace Descends

variable {setting : Setting} {ε α : Type} {levels depth : Nat}
  {step : ExceptT ε (StateM RenderState) α} {s t : RenderState}

theorem passes (h : Descends setting levels step s depth t) : Passes step s t := by
  induction h with
  | start => exact .start _ _
  | finish _ h => exact .finish h _
  | first _ ih => exact .first ih
  | next hstep hrun _ ih => exact .next hstep hrun ih
  | adapt f _ ih => exact .adapt f ih
  | get_bind _ ih => exact .get_bind ih
  | withScope _ ih => exact .withScope ih
  | withScopes _ ih => exact .withScopes ih
  | captured _ ih => exact .captured ih
  | enter _ ih => exact .withDir ih

/-- There are never more includes and block calls active than there are levels. -/
theorem depth_le (h : Descends setting levels step s depth t) : depth ≤ levels := by
  induction h with
  | start | finish => exact Nat.zero_le _
  | first _ ih | next _ _ _ ih | adapt _ _ ih | get_bind _ ih | withScope _ ih | withScopes _ ih
  | captured _ ih => exact ih
  | enter _ ih => exact Nat.succ_le_succ ih

/-- Each of them adds one directory to those that there were. -/
theorem exists_dirs (h : Descends setting levels step s depth t) :
    ∃ inner, t.dirs = inner ++ s.dirs ∧ inner.length = depth := by
  induction h with
  | start => exact ⟨[], rfl, rfl⟩
  | finish _ h s => exact ⟨[], (h.steady RenderState.steady_balanced s).dirs, rfl⟩
  | @next _ _ _ _ _ step _ s s' t a hstep hrun _ ih =>
    have hdirs := (hstep.steady RenderState.steady_balanced s).dirs
    rw [hrun] at hdirs
    rwa [← hdirs]
  | first _ ih | adapt _ _ ih | get_bind _ ih | withScope _ ih | withScopes _ ih
  | captured _ ih => exact ih
  | @enter _ _ _ _ dir s _ _ ih =>
    -- The directory that is entered is the outermost of those that are added.
    obtain ⟨inner, hdirs, rfl⟩ := ih
    exact ⟨inner ++ [dir], by rw [hdirs, List.append_assoc]; rfl, by rw [List.length_append]; rfl⟩

/-- What a block passes through, a call of it passes through, one include or block call deeper. -/
theorem callBlock {id : Nat} {block : DeclaredBlock} (hblock : s.store.block? id = some block)
    (h : Descends setting levels
      ((Level.above setting levels).runPart block.template (.bodyAt block.place))
      { s with scopes := [] :: block.scopes, dirs := block.dir :: s.dirs } depth t) :
    Descends setting (levels + 1) ((Level.above setting (levels + 1)).callBlock id) s (depth + 1)
      t := by
  refine .get_bind ?_
  rw [hblock]
  exact .withScopes (.enter h)

/-- What a call of a block passes through, an expression that calls a variable with this value
passes through. -/
theorem eval_call {name name' : String} {id : Nat}
    (hvalue : s.lookup (Level.above setting levels).setting name = some (.block id name'))
    (h : Descends setting levels ((Level.above setting levels).callBlock id)
      { s with sink := .collector } depth t) :
    Descends setting levels
      (((Expr.ident name).call []).eval (Level.above setting levels).environment) s depth t := by
  simp only [Expr.eval, Expr.evalAll]
  refine .next (Level.composed_eval (Level.isComposed_above setting levels) (.ident name))
    (Level.run_valueOf _ hvalue) ?_
  refine .next (.pure []) rfl ?_
  change Descends setting levels
    (ExceptT.mk ((Level.above setting levels).call (.block id name') [])) s depth t
  rw [Level.mk_call_block]
  exact .first (.adapt _ (.captured h))

end Descends

/-- The state is one that rendering or evaluating the template passes through, with so many includes
and block calls active. -/
inductive Template.ReachesAt (template : Template) (options : RenderOptions) (files : FileTree)
    (store : Store) (depth : Nat) : RenderState → Prop
  | render {sink : Sink} {s : RenderState} :
      Descends (options.setting files) options.maxDepth
          ((options.level files).runPart template .whole)
          (options.initial template store sink) depth s →
        Template.ReachesAt template options files store depth s
  | evaluate {node : Node} {value : Slot} {s : RenderState} :
      template.program.pureExpression? = some (node, value) →
      Descends (options.setting files) options.maxDepth
          (Level.located template node.span.start node.name
            ((options.level files).evaluate template value))
          (options.initial template store .collector) depth s →
        Template.ReachesAt template options files store depth s

private theorem Template.ReachesAt.exists_descends {template : Template} {options : RenderOptions}
    {files : FileTree} {store : Store} {depth : Nat} {s : RenderState}
    (h : template.ReachesAt options files store depth s) :
    ∃ (α : Type) (step : RenderM α) (sink : Sink),
      Descends (options.setting files) options.maxDepth step
        (options.initial template store sink) depth s := by
  cases h with
  | render h => exact ⟨_, _, _, h⟩
  | evaluate _ h => exact ⟨_, _, _, h⟩

/-! ### Operations -/

/-- The operations of a render, each of them as the step of a level with so many more levels below
it, and without bounds, where active includes and block calls are counted. -/
inductive Operation (setting : Setting) (levels : Nat) :
    {ε α : Type} → (Nat → ExceptT ε Ongoing α) → ExceptT ε (StateM RenderState) α → Prop
  /-- Running the node at a place. -/
  | node {template : Template} {left place : Nat} {node : Node}
      (hnode : template.program.node? place = some node)
      (hleft : template.program.nodes.size ≤ left + 1 + place) :
      Operation setting levels
        (fun n => Task.node setting (Task.run setting n) template place node)
        ((Level.above setting levels).runNode template
          ((Level.above setting levels).chain template left) left place node)
  /-- Running a chain of nodes, which is also how a custom directive renders its body. -/
  | chain {template : Template} {left : Nat} {place : Option Nat}
      (hleft : ∀ p ∈ place, template.program.nodes.size ≤ left + p) :
      Operation setting levels (fun n => Task.run setting n (.chain template place))
        ((Level.above setting levels).chain template left place)
  /-- Rendering the body of a custom directive with variables of its own. -/
  | body (scope : Scope) {template : Template} {left : Nat} {place : Option Nat}
      (hleft : ∀ p ∈ place, template.program.nodes.size ≤ left + p) :
      Operation setting levels
        (fun n => Step.withScope scope (Task.run setting n (.chain template place)))
        (RenderM.withScope scope ((Level.above setting levels).chain template left place))
  /-- Evaluating an expression. -/
  | eval (e : Expr) :
      Operation setting levels (fun n => e.eval (Task.environment setting (Task.run setting n)))
        (e.eval (Level.above setting levels).environment)
  /-- Evaluating an expression of a template. -/
  | evaluate (template : Template) (slot : Slot) :
      Operation setting levels (fun n => Task.evaluate setting (Task.run setting n) template slot)
        ((Level.above setting levels).evaluate template slot)
  /-- Evaluating a text, as a custom directive does. -/
  | evaluateContents (contents : String) :
      Operation setting levels
        (fun n => Task.evaluateContents setting (Task.run setting n) contents)
        (RenderM.ofEval
          (TextTemplate.evaluateText (Level.above setting levels).environment contents))
  /-- Including a file. -/
  | includeFile (template : Template) (place : Nat) (target : Slot) (pre : Option Slot) :
      Operation setting levels
        (fun n => Task.includeFile setting (Task.run setting n) template place target pre)
        ((Level.above setting levels).includeFile template place target pre)
  /-- Including a block or a template by name. -/
  | includeNamed (template : Template) (target : Slot) (pre : Option Slot) :
      Operation setting levels
        (fun n => Task.includeNamed setting (Task.run setting n) template target pre)
        ((Level.above setting levels).includeNamed template target pre)
  /-- Rendering a block. -/
  | callBlock (id : Nat) :
      Operation setting levels (fun n => Task.callBlock setting (Task.run setting n) id)
        ((Level.above setting levels).callBlock id)
  /-- Calling a value. -/
  | call (callee : Value) (args : List Value) :
      Operation setting levels (fun n => Task.call setting (Task.run setting n) callee args)
        (ExceptT.mk ((Level.above setting levels).call callee args))

namespace Operation

variable {setting : Setting} {levels : Nat} {ε α : Type} {ongoing : Nat → ExceptT ε Ongoing α}
  {step : ExceptT ε (StateM RenderState) α}

private theorem composed (h : Operation setting levels ongoing step) : Composed step := by
  have hlevel := Level.isComposed_above setting levels
  have hchain (template : Template) (left : Nat) (place : Option Nat) :
      Composed ((Level.above setting levels).chain template left place) :=
    Level.related_chain Composed.congruence hlevel left place
  cases h with
  | node => exact Level.composed_runNode hlevel (hchain _ _) _ _ _
  | chain => exact hchain _ _ _
  | body scope => exact (hchain _ _ _).withScope scope
  | eval e => exact Level.composed_eval hlevel e
  | evaluate template slot => exact Level.related_evaluate Composed.congruence hlevel template slot
  | evaluateContents contents =>
    exact Level.related_evaluateContents Composed.congruence hlevel contents
  | includeFile template place target pre =>
    exact Level.related_includeFile Composed.congruence hlevel template place target pre
  | includeNamed template target pre =>
    exact Level.related_includeNamed Composed.congruence hlevel template target pre
  | callBlock id => exact Level.composed_callBlock hlevel id
  | call callee args => exact Level.composed_call hlevel callee args

private theorem ends (h : Operation setting levels ongoing step) :
    Ends setting.limit levels ongoing step := by
  have hlevel := Level.endsBelow_above setting levels
  cases h with
  | @node template left place node hnode hleft =>
    refine Level.ends_runNode hlevel (fun nested hnested => ?_) hnode hleft
    refine Level.ends_chain hlevel template fun first hfirst => ?_
    have := hnested first hfirst
    omega
  | chain hleft => exact Level.ends_chain hlevel _ hleft
  | body scope hleft => exact (Level.ends_chain hlevel _ hleft).withScope scope
  | eval e => exact Expr.corresponds_eval (Level.ends_environment hlevel) e
  | evaluate template slot => exact Level.ends_evaluate hlevel template slot
  | evaluateContents contents => exact Level.ends_evaluateContents hlevel contents
  | includeFile template place target pre =>
    exact Level.ends_includeFile hlevel template place target pre
  | includeNamed template target pre => exact Level.ends_includeNamed hlevel template target pre
  | callBlock id => exact Level.ends_callBlock hlevel id
  | call callee args => exact Level.ends_call hlevel callee args

end Operation

/-- From the state, where so many includes and block calls are active, the operation leaves as many
scopes as there were and the same directories, with the result and the state in which it ends if
nothing bounds it; and then as many includes and block calls are active as before. -/
def Restores (limit depth : Nat) (s : RenderState) {ε α : Type}
    (ongoing : Nat → ExceptT ε Ongoing α) (step : ExceptT ε (StateM RenderState) α) : Prop :=
  ∃ result t, step.run.run s = (result, t) ∧ s.Balanced t ∧
    ∀ peak ≤ limit, ∃ calls, ∃ peak' ≤ limit, ∀ n ≥ calls,
      (ongoing n).run.run ⟨s, depth, peak⟩ = some (result, ⟨t, depth, peak'⟩)

/-- Every operation restores the stacks, on every level. -/
theorem Operation.restores {setting : Setting} {levels depth : Nat} {ε α : Type}
    {ongoing : Nat → ExceptT ε Ongoing α} {step : ExceptT ε (StateM RenderState) α}
    (h : Operation setting levels ongoing step) (hdepth : depth + levels = setting.limit)
    (s : RenderState) : Restores setting.limit depth s ongoing step := by
  refine ⟨_, _, rfl, h.composed.steady RenderState.steady_balanced s, fun peak hpeak => ?_⟩
  obtain ⟨calls, peak', hpeak', hrun⟩ := h.ends ⟨s, depth, peak⟩ hdepth hpeak
  exact ⟨calls, peak', hpeak', hrun⟩

/-! ### Renders -/

/-- In every state of a render there is a scope, no more includes and block calls are active than
are allowed, and there is one directory more than these; and every operation, whether it fails or
not, leaves as many scopes, the same directories, and as many active includes and block calls. -/
theorem Template.ReachesAt.balanced_stacks {template : Template} {options : RenderOptions}
    {files : FileTree} {store : Store} {depth : Nat} {s : RenderState}
    (h : template.ReachesAt options files store depth s) :
    s.scopes ≠ [] ∧ depth ≤ options.maxDepth ∧ s.dirs.length = depth + 1 ∧
      ∀ {ε α : Type} {ongoing : Nat → ExceptT ε Ongoing α}
        {step : ExceptT ε (StateM RenderState) α},
        Operation (options.setting files) (options.maxDepth - depth) ongoing step →
          Restores options.maxDepth depth s ongoing step := by
  obtain ⟨_, _, _, hdescends⟩ := h.exists_descends
  obtain ⟨inner, hdirs, hlength⟩ := hdescends.exists_dirs
  have hscopes := hdescends.passes.scopes_ne_nil (List.cons_ne_nil _ _)
  refine ⟨hscopes, hdescends.depth_le, ?_, fun hoperation =>
    hoperation.restores (Nat.add_sub_cancel' hdescends.depth_le) s⟩
  rw [hdirs, List.length_append, hlength]
  rfl

/-- The variable that an expression calls. -/
def Slot.callee? : Slot → Option String
  | .parsed _ (.call (.ident name) []) => some name
  | _ => none

private theorem Slot.exists_eq_of_callee? {slot : Slot} {name : String}
    (h : slot.callee? = some name) :
    ∃ span, slot = .parsed span (.call (.ident name) []) := by
  rw [callee?.eq_def] at h
  split at h
  · cases h
    exact ⟨_, rfl⟩
  · cases h

/-- A block that a resolver kept from an earlier render is called: inside it, one include or call is
active, and its directory is there next to that of the template. -/
theorem balanced_stacks_kept_block :
    ∃ (template : Template) (store : Store) (s : RenderState),
      template.ReachesAt { resolver := .readOnly [("f", .block 0 "f")] } .empty store 1 s ∧
      s.scopes ≠ [] ∧ s.dirs.length = 2 ∧
      Restores defaultMaxDepth 1 s
        (fun n => Task.callBlock ⟨.null, none, .empty, defaultMaxDepth⟩
          (Task.run ⟨.null, none, .empty, defaultMaxDepth⟩ n) 0)
        ((Level.above ⟨.null, none, .empty, defaultMaxDepth⟩ 63).callBlock 0) := by
  let options : RenderOptions := { resolver := .readOnly [("f", .block 0 "f")] }
  obtain ⟨⟨template, store⟩, -, hcompile⟩ := Attempt.exists_eq_ok_and
    (x := (Store.empty.compile ⟨.compiled, []⟩ "@declare\x7b'f'\x7dx@end{}" none).bind
      fun earlier => (earlier.1.renderInto {} .empty earlier.2 .collector).store.compile
        ⟨.compiled, []⟩ "@{f()}" none)
    (p := fun loaded =>
      loaded.1.program.pureExpression?.bind (fun found => found.2.callee?) = some "f" ∧
        (loaded.2.block? 0).isSome) (by decide +kernel)
  obtain ⟨hexpression, hkept⟩ := of_decide_eq_true hcompile
  obtain ⟨⟨node, value⟩, hpure, hcallee⟩ := Option.bind_eq_some_iff.1 hexpression
  obtain ⟨span, rfl⟩ := Slot.exists_eq_of_callee? hcallee
  obtain ⟨block, hblock⟩ := Option.isSome_iff_exists.1 hkept
  have hvalue : (options.initial template store .collector).lookup (options.setting .empty) "f" =
      some (.block 0 "f") := rfl
  have hinside : Descends (options.setting .empty) 64
      (((Expr.ident "f").call []).eval (Level.above (options.setting .empty) 64).environment)
      (options.initial template store .collector) 1 _ :=
    .eval_call hvalue (.callBlock hblock (.start 63 _ _))
  have hreach : template.ReachesAt options .empty store 1 _ :=
    .evaluate hpure (.adapt _ (.adapt _ hinside))
  obtain ⟨hscopes, -, hdirs, hrestores⟩ := hreach.balanced_stacks
  exact ⟨template, store, _, hreach, hscopes, hdirs, hrestores (.callBlock 0)⟩

end TextTemplate
