import TextTemplate.Json.Basic

/-!
# Reading JSON

The grammar of JSON: blanks stand between tokens, a comma stands only between items, and a number
has no superfluous zero in front. Reading uses up a character with every second step, which bounds
the number of steps by the length of the text.

## Main definitions

* `JsonValue.ofChars?` — takes a document from the front of a text.
* `JsonValue.ofText?` — the document that a whole text is.
-/

namespace TextTemplate.JsonValue

/-- The blanks of JSON. -/
def isBlank (c : Char) : Bool :=
  c == ' ' || c == '\n' || c == '\t' || c == '\r'

/-- A text without the blanks at its start. -/
def dropBlanks (cs : List Char) : List Char :=
  cs.dropWhile isBlank

mutual

/-- Takes a document from the front of a text, in at most so many steps. -/
def value? : Nat → List Char → Option (JsonValue × List Char)
  | 0, _ => none
  | steps + 1, cs =>
    match dropBlanks cs with
    | 'n' :: 'u' :: 'l' :: 'l' :: rest => some (null, rest)
    | 't' :: 'r' :: 'u' :: 'e' :: rest => some (bool true, rest)
    | 'f' :: 'a' :: 'l' :: 's' :: 'e' :: rest => some (bool false, rest)
    | '"' :: rest => (JsonText.literal? rest).map fun (written, rest) => (string written, rest)
    | '[' :: rest =>
      match dropBlanks rest with
      | ']' :: rest => some (array [], rest)
      | rest => (items? steps rest).map fun (items, rest) => (array items, rest)
    | '\x7b' :: rest =>
      match dropBlanks rest with
      | '\x7d' :: rest => some (object [], rest)
      | rest => (members? steps rest).map fun (members, rest) => (object members, rest)
    | rest => (Numeral.ofChars? rest).map fun (numeral, rest) => (number numeral, rest)

/-- Takes items, at least one, and the bracket behind them from the front of a text. -/
def items? : Nat → List Char → Option (List JsonValue × List Char)
  | 0, _ => none
  | steps + 1, cs => do
    let (item, rest) ← value? steps cs
    match dropBlanks rest with
    | ',' :: rest =>
      let (items, rest) ← items? steps rest
      return (item :: items, rest)
    | ']' :: rest => return ([item], rest)
    | _ => none

/-- Takes members, at least one, and the brace behind them from the front of a text. -/
def members? : Nat → List Char → Option (List (List Char × JsonValue) × List Char)
  | 0, _ => none
  | steps + 1, cs => do
    let (key, rest) ←
      match dropBlanks cs with
      | '"' :: rest => JsonText.literal? rest
      | _ => none
    let rest ←
      match dropBlanks rest with
      | ':' :: rest => some rest
      | _ => none
    let (item, rest) ← value? steps rest
    match dropBlanks rest with
    | ',' :: rest =>
      let (members, rest) ← members? steps rest
      return ((key, item) :: members, rest)
    | '\x7d' :: rest => return ([(key, item)], rest)
    | _ => none

end

/-- Takes a document from the front of a text. -/
def ofChars? (cs : List Char) : Option (JsonValue × List Char) :=
  value? (2 * cs.length + 2) cs

/-- The document that a text is, blanks around it apart. -/
def ofText? (text : String) : Option JsonValue := do
  let (document, rest) ← ofChars? text.toList
  if dropBlanks rest = [] then some document else none

end TextTemplate.JsonValue
