import TextTemplate.Error

/-!
# The texts of errors

What each error says. A compile error names its file, if there is one, and its line and column; a
render error names its line and column and its directive, where they are known.
-/

namespace TextTemplate

/-- The text of a place: its line and column. -/
def Position.text (p : Position) : String :=
  s!"line {p.line}, column {p.column}"

/-- What is wrong with a template, in words. -/
def CompileFault.message : CompileFault → String
  | unknownDirective name => s!"unknown token type '{name}'"
  | unclosedBlock name => s!"unclosed block '@{name}'"
  | unexpectedEnd => "unexpected '@end' with no open block"
  | unexpectedElse name => s!"unexpected '@{name}' without a matching open '@if'"
  | unterminated opener closer =>
    s!"unterminated '{opener}' in directive body (expected '{closer}')"
  | malformedLoop reason => s!"malformed foreach header: {reason}"
  | expression reason => s!"invalid expression: {reason}"
  | custom name reason => s!"custom node '{name}' could not be created: {reason}"

/-- The text of a compile error. -/
def CompileError.message (error : CompileError) : String :=
  let file :=
    match error.path with
    | some path => s!" in '{path.text}'"
    | none => ""
  s!"Compile error{file} at {error.position.text}: {error.fault.message}"

/-- Where a render error arose, in words: a bare expression has no name to show. -/
def describePlace : Option Position → Option String → String
  | none, _ => ""
  | some position, some directive =>
    if directive = "" then s!" at {position.text}" else s!" at {position.text} in '@{directive}'"
  | some position, none => s!" at {position.text}"

mutual

/-- Why an expression has no value, in words. -/
def EvalError.message : EvalError → String
  | .malformed offset reason => s!"syntax error at offset {offset}: {reason}"
  | .unresolvable name => s!"unresolvable property or identifier: {name}"
  | .operator op left right => s!"cannot apply '{op}' to {left} and {right}"
  | .unary op operand => s!"cannot apply unary '{op}' to {operand}"
  | .divisionByZero => "division by zero"
  | .overflow => "integer overflow"
  | .noField field found => s!"{found} has no field '{field}'"
  | .index found index => s!"cannot index {found} with {index}"
  | .outOfBounds index length => s!"index {index.toInt} out of bounds for length {length}"
  | .notCallable found => s!"a value of type {found} is not callable"
  | .arity callee expected found => s!"'{callee}' expects {expected} argument(s), got {found}"
  | .nested error => error.message

/-- Why a render stops, in words. -/
def RenderFault.message : RenderFault → String
  | .unsupportedIterable found => s!"cannot iterate over a value of type {found}"
  | .includeNotFound path => s!"file not found: {path.text}"
  | .includeUnreadable path reason => s!"could not read '{path.text}': {reason}"
  | .missingRegistry name => s!"no template registry available to resolve '{name}'"
  | .templateNotFound name => s!"named template not found: {name}"
  | .recursionLimit limit => s!"recursion limit of {limit} exceeded"
  | .expression error => error.message
  | .output reason => s!"output sink failed: {reason}"
  | .custom name reason => s!"custom node '{name}' failed: {reason}"

/-- The text of any failure. -/
def TemplateError.message : TemplateError → String
  | .compile error => error.message
  | .render fault position directive =>
    s!"Render error{describePlace position directive}: {fault.message}"
  | .templateExists name => s!"Template already exists: {name}"
  | .missingTemplate name => s!"Template not found: {name}"
  | .unreadable _ reason => s!"Could not read template source: {reason}"

end

end TextTemplate
