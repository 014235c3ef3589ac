import TextTemplate.Render.Renderer

/-!
# A set of named templates

An engine compiles templates, keeps them by name, and renders them by name; the templates it keeps
can include each other by name. A name is used once: another template under it is refused, and what
is refused or does not compile leaves the engine as it was.

## Main definitions

* `EngineConfig`, `Engine`.
* `Compiler.load`, `Compiler.loadFile`, `Compiler.loadContent` — new templates from a text, a file
  or bytes.
* `Engine.add`, `Engine.addFile`, `Engine.remove` — change the set.
* `Engine.render` — renders a template of the set.
-/

namespace TextTemplate

namespace Compiler

/-- A new template from a source held in memory or read from a file. -/
def load (compiler : Compiler) (store : Store) (source : String) (origin : Option Path) :
    Except TemplateError (Template × Store) :=
  (store.compile compiler source origin).mapError .compile

/-- A new template from a file. -/
def loadFile (compiler : Compiler) (files : FileTree) (store : Store) (path : Path) :
    Except TemplateError (Template × Store) :=
  match files.read path with
  | .error e => .error (.unreadable (some path) e.message)
  | .ok source => compiler.load store source (some path)

/-- A new template from what a stream holds. -/
def loadContent (compiler : Compiler) (store : Store) (content : Content) :
    Except TemplateError (Template × Store) :=
  match content.read with
  | .error e => .error (.unreadable none e.message)
  | .ok source => compiler.load store source none

end Compiler

/-- What an engine is set up with; the directory is for templates that come from no file. -/
structure EngineConfig where
  mode : Mode := .compiled
  maxDepth : Nat := defaultMaxDepth
  baseDir : Option Path := none
deriving DecidableEq

/-- A set of named templates. -/
structure Engine where
  config : EngineConfig := {}
  templates : Bindings Template := []
  extensions : Extensions := []

namespace Engine

variable (engine : Engine)

/-- The compiler for new templates. -/
def compiler : Compiler :=
  ⟨engine.config.mode, engine.extensions⟩

/-- Makes a custom directive known to the templates added from now on. -/
def register (kind : CustomKind) : Engine :=
  { engine with extensions := engine.extensions.register kind }

/-- Keeps a template that has been made, unless its name is taken or it could not be made. -/
def keep (name : String) (made : Except TemplateError (Template × Store)) :
    Except TemplateError (Engine × Store) :=
  if engine.templates.contains name then
    .error (.templateExists name)
  else
    made.map fun (template, store) =>
      ({ engine with templates := engine.templates.insert name template }, store)

/-- Adds a template under a name. -/
def add (store : Store) (name source : String) : Except TemplateError (Engine × Store) :=
  engine.keep name (engine.compiler.load store source none)

/-- Adds the template of a file under a name. -/
def addFile (files : FileTree) (store : Store) (name : String) (path : Path) :
    Except TemplateError (Engine × Store) :=
  engine.keep name (engine.compiler.loadFile files store path)

/-- Forgets a name. -/
def remove (name : String) : Engine :=
  { engine with templates := engine.templates.erase name }

/-- The options of a render of one of the engine's templates. -/
def options (template : Template) (context : Value) (resolver : Resolver) : RenderOptions where
  context
  resolver
  registry := some engine.templates
  baseDir := if template.origin.isNone then engine.config.baseDir else none
  maxDepth := engine.config.maxDepth

/-- Renders the template of a name. -/
def render (files : FileTree) (store : Store) (name : String) (context : Value)
    (resolver : Resolver) : Outcome String :=
  match engine.templates.find? name with
  | none => ⟨.error (.missingTemplate name), .collector, resolver, store⟩
  | some template => template.renderText (engine.options template context resolver) files store

end Engine

end TextTemplate
