import TextTemplate.Render.Run

/-!
# Rendering a template

A render writes a template's text into a sink, and an evaluation gives its value: a template that
is one expression and nothing else has that expression's value, and any other has its text.

## Main definitions

* `RenderOptions` — what a render can be given, with defaults.
* `Outcome` — the result, with what the render left behind.
* `Template.renderInto`, `Template.renderText`, `Template.evaluate`.
-/

namespace TextTemplate

/-- How deeply includes and block calls may nest unless a render says otherwise. -/
def defaultMaxDepth : Nat := 64

/-- What a render can be given. -/
structure RenderOptions where
  context : Value := .null
  resolver : Resolver := .absent
  registry : Option (Bindings Template) := none
  baseDir : Option Path := none
  maxDepth : Nat := defaultMaxDepth

/-- The result of a render, with the sink, the variables of the resolver and the store as the render
left them, whether it failed or not. -/
structure Outcome (α : Type) where
  result : Except TemplateError α
  sink : Sink
  resolver : Resolver
  store : Store

namespace RenderOptions

variable (options : RenderOptions) (files : FileTree)

/-- What stays fixed during a render with these options. -/
def setting : Setting :=
  ⟨options.context, options.registry, files, options.maxDepth⟩

/-- The state at the start of a render of a template. -/
def initial (template : Template) (store : Store) (sink : Sink) : RenderState :=
  .initial (options.baseDir.getD template.defaultDirectory) options.resolver store sink

/-- The outermost level of a render. -/
def level : Level :=
  .above (options.setting files) options.maxDepth

end RenderOptions

/-- Carries out the steps of a render. -/
def RenderM.outcome {α : Type} (step : RenderM α) (state : RenderState) : Outcome α :=
  let (result, state) := step.run.run state
  ⟨result, state.sink, state.resolver, state.store⟩

namespace Template

/-- Renders a template into a sink. -/
def renderInto (template : Template) (options : RenderOptions) (files : FileTree) (store : Store)
    (sink : Sink) : Outcome Unit :=
  ((options.level files).runPart template .whole).outcome
    (options.initial template store sink)

/-- Renders a template to a text. -/
def renderText (template : Template) (options : RenderOptions) (files : FileTree)
    (store : Store) : Outcome String :=
  let outcome := template.renderInto options files store .collector
  { outcome with result := outcome.result.map fun _ => outcome.sink.collected }

/-- Evaluates a template. -/
def evaluate (template : Template) (options : RenderOptions) (files : FileTree) (store : Store) :
    Outcome Value :=
  match template.program.pureExpression? with
  | some (node, value) =>
    let level := options.level files
    (Level.located template node.span.start node.name (level.evaluate template value)).outcome
      (options.initial template store .collector)
  | none =>
    let outcome := template.renderText options files store
    { outcome with result := outcome.result.map Value.string }

end Template

end TextTemplate
