import TextTemplate.Engine
import TextTemplate.Json.Record

/-!
# Templates and settings as documents

A template is written as its source, its mode and the file it came from, in any format that has
strings and what may be absent; reading it compiles the source again, without custom directives. One
such format is JSON. The settings of an engine are written with all their fields, and those that are
missing when they are read are what they are by default.

## Main definitions

* `TemplateText`, `Template.text` — what is written of a template.
* `TemplateFormat`, `TemplateFormat.json` — how it is written and read.
* `Store.restore` — from a document to a template.
* `EngineConfig.toJson`, `EngineConfig.ofJson?`.
-/

namespace TextTemplate

namespace Mode

/-- The name of a mode. -/
def name : Mode → String
  | compiled => "Compiled"
  | interpreted => "Interpreted"

/-- The document of a mode. -/
def toJson (mode : Mode) : JsonValue :=
  .ofString mode.name

/-- The mode of a document: its name alone, or its name with nothing to say. -/
def ofJson? (document : JsonValue) : Option Mode :=
  match document.tag? with
  | some ("Compiled", .null) => some compiled
  | some ("Interpreted", .null) => some interpreted
  | _ => none

end Mode

/-! ### Templates -/

/-- A template that has yet to be compiled. -/
structure TemplateText where
  source : String
  mode : Mode
  origin : Option Path
deriving DecidableEq

namespace TemplateText

/-- The document of a template. -/
def toJson (t : TemplateText) : JsonValue :=
  .record [("source", .ofString t.source), ("mode", t.mode.toJson),
    ("origin", .ofOption .ofPath t.origin)]

/-- The template of a document. A template without a mode is compiled, and one without an origin
comes from no file. -/
def ofJson? (document : JsonValue) : Option TemplateText := do
  let fields ← document.fields? ["source", "mode", "origin"]
  let source ← fields.string? "source"
  let mode ← fields.readOr? "mode" .compiled Mode.ofJson?
  let origin ← fields.readOr? "origin" none (JsonValue.nullable? JsonValue.path?)
  return ⟨source, mode, origin⟩

end TemplateText

namespace Template

/-- What is written of a template. -/
def text (template : Template) : TemplateText :=
  ⟨template.source, template.compiler.mode, template.origin⟩

/-- The document of a template. -/
def toJson (template : Template) : JsonValue :=
  template.text.toJson

end Template

/-- A format of documents: how what is known of a template is written, and how it is read from the
front of a document, with whether the document ends behind it. -/
structure TemplateFormat (Document : Type) where
  write : TemplateText → Document
  read? : Document → Option (TemplateText × Bool)

namespace TemplateFormat

/-- What is written is read back, to the end of the document. -/
def IsFaithful {Document : Type} (format : TemplateFormat Document) : Prop :=
  ∀ t, format.read? (format.write t) = some (t, true)

/-- JSON as text; what stands behind a document has to be blank. -/
def json : TemplateFormat String where
  write t := t.toJson.text
  read? text := do
    let (document, rest) ← JsonValue.ofChars? text.toList
    let t ← TemplateText.ofJson? document
    return (t, JsonValue.dropBlanks rest = [])

end TemplateFormat

/-- Why a template cannot be read from a text. -/
inductive ReadFault where
  | malformed
  | uncompilable (error : CompileError)
deriving DecidableEq

/-- The text of the fault, where the text that was read does not matter. -/
def ReadFault.message? : ReadFault → Option String
  | malformed => none
  | uncompilable error => some s!"Failed to compile template: {error.message}"

/-- A new template from a document. The template is compiled before it is looked at whether the
document ends there. -/
def Store.restore {Document : Type} (format : TemplateFormat Document) (store : Store)
    (document : Document) : Except ReadFault (Template × Store) := do
  match format.read? document with
  | none => throw .malformed
  | some (t, ends) =>
    let restored ← (store.compile ⟨t.mode, []⟩ t.source t.origin).mapError .uncompilable
    if ends then
      return restored
    else
      throw .malformed

/-- A new template from a text in JSON. -/
def Store.readTemplate (store : Store) (text : String) : Except ReadFault (Template × Store) :=
  store.restore .json text

/-! ### Settings -/

namespace EngineConfig

/-- The document of an engine's settings. -/
def toJson (config : EngineConfig) : JsonValue :=
  .record [("mode", config.mode.toJson), ("max_depth", .ofInt config.maxDepth),
    ("base_dir", .ofOption .ofPath config.baseDir)]

/-- The settings of a document. -/
def ofJson? (document : JsonValue) : Option EngineConfig := do
  let default : EngineConfig := {}
  let fields ← document.fields? ["mode", "max_depth", "base_dir"]
  let mode ← fields.readOr? "mode" default.mode Mode.ofJson?
  let maxDepth ← fields.readOr? "max_depth" default.maxDepth JsonValue.natural?
  let baseDir ← fields.readOr? "base_dir" default.baseDir (JsonValue.nullable? JsonValue.path?)
  return ⟨mode, maxDepth, baseDir⟩

end EngineConfig

end TextTemplate
