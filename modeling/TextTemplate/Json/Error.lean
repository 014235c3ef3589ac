import TextTemplate.Error
import TextTemplate.Json.Record

/-!
# Errors as JSON

Each kind of error is written under its tag, with what it says as a record, or as its tag alone if
it says nothing. A failure of an expression stands inside the failure of a render, and the failure
of a called block inside that of an expression.

## Main definitions

* `TemplateError.toJson`, `TemplateError.ofJson?` — from an error to a document and back.
-/

namespace TextTemplate

/-- The document of an alternative with these fields. -/
def JsonValue.variant (tag : String) (fields : JsonFields) : JsonValue :=
  .tagged tag (.record fields)

/-! ### Writing -/

namespace Position

/-- The fields of a position. -/
def jsonFields (p : Position) : JsonFields :=
  [("offset", .ofInt p.offset), ("line", .ofInt p.line), ("column", .ofInt p.column)]

end Position

/-- The document of what is wrong with a template. -/
def CompileFault.toJson : CompileFault → JsonValue
  | unknownDirective name => .variant "UnknownDirective" [("name", .ofString name)]
  | unclosedBlock name => .variant "UnclosedBlock" [("name", .ofString name)]
  | unexpectedEnd => .ofString "UnexpectedEnd"
  | unexpectedElse name => .variant "UnexpectedElse" [("name", .ofString name)]
  | unterminated opener closer =>
    .variant "UnterminatedCapture"
      [("open", .ofString opener.toString), ("close", .ofString closer.toString)]
  | malformedLoop reason => .variant "MalformedForEach" [("reason", .ofString reason)]
  | expression reason => .variant "Expression" [("message", .ofString reason)]
  | custom name reason =>
    .variant "Extension" [("name", .ofString name), ("message", .ofString reason)]

/-- The document of a compile error. -/
def CompileError.toJson (error : CompileError) : JsonValue :=
  .record (error.position.jsonFields ++
    [("directive", .ofString error.directive),
      ("path", .ofOption .ofPath error.path),
      ("kind", error.fault.toJson)])

mutual

/-- The document of the failure of an expression. -/
def EvalError.toJson : EvalError → JsonValue
  | .malformed offset reason =>
    .variant "Syntax" [("offset", .ofInt offset), ("message", .ofString reason)]
  | .unresolvable name => .variant "Unresolvable" [("name", .ofString name)]
  | .operator op left right =>
    .variant "Operator"
      [("op", .ofString op), ("left", .ofString left), ("right", .ofString right)]
  | .unary op operand => .variant "Unary" [("op", .ofString op), ("operand", .ofString operand)]
  | .divisionByZero => .ofString "DivisionByZero"
  | .overflow => .ofString "Overflow"
  | .noField field found =>
    .variant "NoField" [("field", .ofString field), ("found", .ofString found)]
  | .index found index =>
    .variant "Index" [("found", .ofString found), ("index", .ofString index)]
  | .outOfBounds index length =>
    .variant "OutOfBounds" [("index", .ofInt index.toInt), ("len", .ofInt length)]
  | .notCallable found => .variant "NotCallable" [("found", .ofString found)]
  | .arity callee expected found =>
    .variant "Arity"
      [("callee", .ofString callee), ("expected", .ofInt expected), ("found", .ofInt found)]
  | .nested error => .tagged "Nested" error.toJson

/-- The document of why a render stops. -/
def RenderFault.toJson : RenderFault → JsonValue
  | .unsupportedIterable found => .variant "UnsupportedIterable" [("found", .ofString found)]
  | .includeNotFound path => .variant "IncludeNotFound" [("path", .ofPath path)]
  | .includeUnreadable path reason =>
    .variant "IncludeUnreadable" [("path", .ofPath path), ("message", .ofString reason)]
  | .missingRegistry name => .variant "MissingRegistry" [("name", .ofString name)]
  | .templateNotFound name => .variant "TemplateNotFound" [("name", .ofString name)]
  | .recursionLimit limit => .variant "RecursionLimit" [("limit", .ofInt limit)]
  | .expression error => .tagged "Expression" error.toJson
  | .output reason => .variant "Output" [("message", .ofString reason)]
  | .custom name reason =>
    .variant "Extension" [("name", .ofString name), ("message", .ofString reason)]

/-- The document of any failure. -/
def TemplateError.toJson : TemplateError → JsonValue
  | .compile error => .tagged "Compile" error.toJson
  | .render fault position directive =>
    .variant "Runtime"
      [("kind", fault.toJson),
        ("position", .ofOption (fun p => .record p.jsonFields) position),
        ("directive", .ofOption .ofString directive)]
  | .templateExists name => .variant "TemplateExists" [("template_name", .ofString name)]
  | .missingTemplate name => .variant "MissingTemplate" [("template_name", .ofString name)]
  | .unreadable path reason =>
    .variant "Io"
      [("path", .ofOption .ofPath path), ("message", .ofString reason)]

end

/-! ### Reading -/

/-- The position in a record. -/
def Position.ofFields? (fields : JsonFields) : Option Position :=
  return ⟨← fields.natural? "offset", ← fields.natural? "line", ← fields.natural? "column"⟩

/-- What is wrong with a template, from a document. -/
def CompileFault.ofJson? (document : JsonValue) : Option CompileFault := do
  let (tag, item) ← document.tag?
  match tag with
  | "UnexpectedEnd" => return .unexpectedEnd
  | _ =>
    let fields ← item.record?
    match tag with
    | "UnknownDirective" => return .unknownDirective (← fields.string? "name")
    | "UnclosedBlock" => return .unclosedBlock (← fields.string? "name")
    | "UnexpectedElse" => return .unexpectedElse (← fields.string? "name")
    | "UnterminatedCapture" =>
      return .unterminated (← fields.character? "open") (← fields.character? "close")
    | "MalformedForEach" => return .malformedLoop (← fields.string? "reason")
    | "Expression" => return .expression (← fields.string? "message")
    | "Extension" =>
      return .custom (← fields.string? "name") (← fields.string? "message")
    | _ => none

/-- The compile error of a document. -/
def CompileError.ofJson? (document : JsonValue) : Option CompileError := do
  let fields ← document.record?
  let path ← fields.read? "path" (JsonValue.nullable? JsonValue.path?)
  let fault ← fields.read? "kind" CompileFault.ofJson?
  return ⟨← Position.ofFields? fields, ← fields.string? "directive", path, fault⟩

mutual

/-- The failure of an expression, from a document in which so many more failures may nest. -/
def EvalError.ofNested? : Nat → JsonValue → Option EvalError
  | 0, _ => none
  | nesting + 1, document => do
    let (tag, item) ← document.tag?
    match tag with
    | "DivisionByZero" => return .divisionByZero
    | "Overflow" => return .overflow
    | "Nested" => return .nested (← TemplateError.ofNested? nesting item)
    | _ =>
      let fields ← item.record?
      match tag with
      | "Syntax" =>
        return .malformed (← fields.natural? "offset") (← fields.string? "message")
      | "Unresolvable" => return .unresolvable (← fields.string? "name")
      | "Operator" =>
        return .operator (← fields.string? "op") (← fields.string? "left")
          (← fields.string? "right")
      | "Unary" => return .unary (← fields.string? "op") (← fields.string? "operand")
      | "NoField" => return .noField (← fields.string? "field") (← fields.string? "found")
      | "Index" => return .index (← fields.string? "found") (← fields.string? "index")
      | "OutOfBounds" =>
        let index ← fields.read? "index" fun n => n.integer?.bind Checked.ofInt?
        return .outOfBounds index (← fields.natural? "len")
      | "NotCallable" => return .notCallable (← fields.string? "found")
      | "Arity" =>
        return .arity (← fields.string? "callee") (← fields.natural? "expected")
          (← fields.natural? "found")
      | _ => none

/-- Why a render stops, from a document. -/
def RenderFault.ofNested? : Nat → JsonValue → Option RenderFault
  | 0, _ => none
  | nesting + 1, document => do
    let (tag, item) ← document.tag?
    match tag with
    | "Expression" => return .expression (← EvalError.ofNested? nesting item)
    | _ =>
      let fields ← item.record?
      match tag with
      | "UnsupportedIterable" => return .unsupportedIterable (← fields.string? "found")
      | "IncludeNotFound" => return .includeNotFound (← fields.path? "path")
      | "IncludeUnreadable" =>
        return .includeUnreadable (← fields.path? "path") (← fields.string? "message")
      | "MissingRegistry" => return .missingRegistry (← fields.string? "name")
      | "TemplateNotFound" => return .templateNotFound (← fields.string? "name")
      | "RecursionLimit" => return .recursionLimit (← fields.natural? "limit")
      | "Output" => return .output (← fields.string? "message")
      | "Extension" =>
        return .custom (← fields.string? "name") (← fields.string? "message")
      | _ => none

/-- Any failure, from a document. -/
def TemplateError.ofNested? : Nat → JsonValue → Option TemplateError
  | 0, _ => none
  | nesting + 1, document => do
    let (tag, item) ← document.tag?
    match tag with
    | "Compile" => return .compile (← CompileError.ofJson? item)
    | _ =>
      let fields ← item.record?
      match tag with
      | "Runtime" =>
        let fault ← fields.read? "kind" (RenderFault.ofNested? nesting)
        let position ← fields.read? "position"
          (JsonValue.nullable? fun p => p.record?.bind Position.ofFields?)
        let directive ← fields.read? "directive" (JsonValue.nullable? JsonValue.string?)
        return .render fault position directive
      | "TemplateExists" => return .templateExists (← fields.string? "template_name")
      | "MissingTemplate" => return .missingTemplate (← fields.string? "template_name")
      | "Io" =>
        let path ← fields.read? "path" (JsonValue.nullable? JsonValue.path?)
        return .unreadable path (← fields.string? "message")
      | _ => none

end

namespace TemplateError

/-- How many failures may stand inside each other in a document. -/
def maxJsonNesting : Nat := 127

/-- The failure of a document. -/
def ofJson? (document : JsonValue) : Option TemplateError :=
  ofNested? maxJsonNesting document

end TemplateError

end TextTemplate
