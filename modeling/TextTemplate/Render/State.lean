import Std.Data.TreeMap
import TextTemplate.File.Tree
import TextTemplate.Render.Sink
import TextTemplate.Render.Store

/-!
# The state of a render

A render keeps a stack of scopes, of which there is always at least one, a stack with the
directories of the templates and blocks that are being rendered, the blocks declared in it, and the
resolver that stands below its scopes. A variable is looked up in the scopes from the innermost
outwards, then among the declared blocks, then in the resolver, and last among the fields of the
context. An assignment goes to the innermost scope that knows the name, else to the resolver if it
accepts assignments, else to the innermost scope.

## Main definitions

* `Resolver` — a layer of variables below the scopes.
* `Setting` — what stays fixed during a render.
* `RenderState` — what changes.
* `RenderState.lookup`, `RenderState.assign`, `RenderState.declare`.
* `RenderM` — a step of a render, which can fail; what it did before it failed stays done.
-/

namespace TextTemplate

/-- A layer of variables below the scopes: none, one that refuses assignments, or one that accepts
them all. -/
inductive Resolver where
  | absent
  | readOnly (vars : Bindings Value)
  | writable (vars : Bindings Value)

namespace Resolver

/-- The variables of a resolver. -/
def vars : Resolver → Bindings Value
  | absent => []
  | readOnly vars => vars
  | writable vars => vars

/-- The resolver after an assignment, if it accepts it. -/
def assign? (name : String) (value : Value) : Resolver → Option Resolver
  | absent => none
  | readOnly _ => none
  | writable vars => some (writable (vars.insert name value))

end Resolver

/-- What stays fixed during a render: the context, the templates known by name, the files, and how
deeply includes and block calls may nest. -/
structure Setting where
  context : Value
  registry : Option (Bindings Template)
  files : FileTree
  limit : Nat

/-- What changes during a render. The stacks have their innermost entry first; declared blocks are
given by their numbers in the store. -/
structure RenderState where
  scopes : List Scope
  dirs : List Path
  declared : Std.TreeMap String Nat
  resolver : Resolver
  store : Store
  sink : Sink

/-- Binds a name in the innermost scope. -/
def bindInnermost (name : String) (value : Value) : List Scope → List Scope
  | [] => []
  | scope :: outer => scope.insert name value :: outer

/-- Rebinds a name in the innermost scope that knows it. -/
def rebind? (name : String) (value : Value) : List Scope → Option (List Scope)
  | [] => none
  | scope :: outer =>
    if scope.contains name then some (scope.insert name value :: outer)
    else (rebind? name value outer).map (scope :: ·)

namespace RenderState

/-- The state at the start of a render. -/
def initial (dir : Path) (resolver : Resolver) (store : Store) (sink : Sink) : RenderState where
  scopes := [[]]
  dirs := [dir]
  declared := ∅
  resolver
  store
  sink

/-- The value of a variable in the scopes. -/
def lookupScopes (name : String) (scopes : List Scope) : Option Value :=
  scopes.findSome? (Bindings.find? name)

/-- The value of a variable. -/
def lookup (setting : Setting) (state : RenderState) (name : String) : Option Value :=
  lookupScopes name state.scopes
    <|> state.declared[name]?.map (Value.block · name)
    <|> state.resolver.vars.find? name
    <|> setting.context.field? name

/-- The state after an assignment. -/
def assign (state : RenderState) (name : String) (value : Value) : RenderState :=
  match rebind? name value state.scopes with
  | some scopes => { state with scopes }
  | none =>
    match state.resolver.assign? name value with
    | some resolver => { state with resolver }
    | none => { state with scopes := bindInnermost name value state.scopes }

/-- The directory that relative includes are joined to. -/
def currentDir (state : RenderState) : Path :=
  state.dirs.head?.getD ⟨"."⟩

/-- Declares the block whose node stands at a place of a template: it keeps the scopes and the
directory of this moment, and its name is bound to it among the declared blocks and in the innermost
scope. -/
def declare (state : RenderState) (name : String) (template : Template) (place : Nat) :
    RenderState :=
  let (id, store) :=
    state.store.addBlock ⟨name, template, place, state.scopes, state.currentDir⟩
  { state with
    store
    declared := state.declared.insert name id
    scopes := bindInnermost name (.block id name) state.scopes }

/-- Enters a scope with these variables. -/
def pushScope (scope : Scope) (state : RenderState) : RenderState :=
  { state with scopes := scope :: state.scopes }

/-- Leaves the innermost scope. -/
def popScope (state : RenderState) : RenderState :=
  { state with scopes := state.scopes.drop 1 }

/-- Enters a template or a block whose includes are joined to this directory. -/
def pushDir (dir : Path) (state : RenderState) : RenderState :=
  { state with dirs := dir :: state.dirs }

/-- Leaves the template or block entered last. -/
def popDir (state : RenderState) : RenderState :=
  { state with dirs := state.dirs.drop 1 }

end RenderState

/-- A step of a render. -/
abbrev RenderM := ExceptT TemplateError (StateM RenderState)

namespace RenderM

variable {α : Type}

/-- Fails. -/
def fail (fault : RenderFault) : RenderM α :=
  throw fault.toError

/-- Changes the state before a step, and changes it again after the step, whether it failed or not;
what the first change sets aside is given to the second. -/
def between {σ : Type} (enter : RenderState → σ × RenderState)
    (leave : σ → RenderState → RenderState) (step : RenderM α) : RenderM α :=
  ExceptT.mk fun before =>
    let (kept, inside) := enter before
    let (result, after) := step.run.run inside
    (result, leave kept after)

/-- A step in a new scope with these variables. -/
def withScope (scope : Scope) (step : RenderM α) : RenderM α :=
  between (fun before => ((), before.pushScope scope)) (fun _ after => after.popScope) step

/-- A step whose includes are joined to this directory. -/
def withDir (dir : Path) (step : RenderM α) : RenderM α :=
  between (fun before => ((), before.pushDir dir)) (fun _ after => after.popDir) step

/-- A step in other scopes, after which the scopes are what they were. -/
def withScopes (scopes : List Scope) (step : RenderM α) : RenderM α :=
  between (fun before => (before.scopes, { before with scopes }))
    (fun scopes after => { after with scopes }) step

/-- What a step writes, instead of writing it. -/
def captured (step : RenderM Unit) : RenderM String :=
  between (fun before => (before.sink, { before with sink := .collector }))
    (fun sink after => { after with sink })
    (do
      step
      return (← get).sink.collected)

/-- Writes a text, unless it is empty. -/
def emit (text : String) : RenderM Unit := do
  if text ≠ "" then
    let state ← get
    let (sink, failure) := state.sink.append text
    set { state with sink }
    match failure with
    | none => return
    | some reason => fail (.output reason)

/-- Evaluates with an environment; the failure of the expression becomes that of the render. -/
def ofEval (step : ExceptT EvalError (StateM RenderState) α) : RenderM α :=
  ExceptT.adapt EvalError.toTemplateError step

end RenderM

end TextTemplate
