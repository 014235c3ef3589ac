import TextTemplate.Json.Text
import TextTemplate.Number.Numeral

/-!
# JSON

A JSON document as a tree. Numbers are kept as numerals and strings as the characters of their
literals, because what they mean, and whether they mean anything, depends on what they are read as.
The text of a tree has no blanks in it.

## Main definitions

* `JsonValue` — a document as a tree.
* `JsonValue.text` — its text.
* `JsonValue.ofString`, `JsonValue.ofInt`, `JsonValue.record`, `JsonValue.tagged` — the trees of
  strings, integers, records and alternatives.
-/

namespace TextTemplate

/-- A JSON document. The keys of an object are literals too. -/
inductive JsonValue where
  | null
  | bool (b : Bool)
  | number (numeral : Numeral)
  | string (written : List Char)
  | array (items : List JsonValue)
  | object (members : List (List Char × JsonValue))
deriving Inhabited

namespace JsonValue

/-- The text of a string literal. -/
def literalText (written : List Char) : String :=
  "\"" ++ String.ofList written ++ "\""

/-- The text of a key and the colon behind it. -/
def keyText (key : List Char) : String :=
  literalText key ++ ":"

mutual

/-- The text of a document. -/
def text : JsonValue → String
  | null => "null"
  | bool b => if b then "true" else "false"
  | number numeral => numeral.text
  | string written => literalText written
  | array [] => "[]"
  | array (item :: items) => itemsText ("[" ++ item.text) items ++ "]"
  | object [] => "\x7b\x7d"
  | object ((key, item) :: members) =>
    membersText ("\x7b" ++ keyText key ++ item.text) members ++ "\x7d"

/-- A text with more items behind it, a comma in front of each. -/
def itemsText (before : String) : List JsonValue → String
  | [] => before
  | item :: items => itemsText (before ++ "," ++ item.text) items

/-- A text with more members behind it, a comma in front of each. -/
def membersText (before : String) : List (List Char × JsonValue) → String
  | [] => before
  | (key, item) :: members => membersText (before ++ "," ++ keyText key ++ item.text) members

end

/-- The tree of a string. -/
def ofString (s : String) : JsonValue :=
  string (JsonText.escape s.toList)

/-- The tree of an integer. -/
def ofInt (n : Int) : JsonValue :=
  number (.ofInt n)

/-- The tree of what may be absent. -/
def ofOption {α : Type} (encode : α → JsonValue) : Option α → JsonValue
  | none => null
  | some a => encode a

/-- The tree of a record with these fields. -/
def record (fields : List (String × JsonValue)) : JsonValue :=
  object (fields.map fun (name, item) => (JsonText.escape name.toList, item))

/-- The tree of an alternative with something to say. -/
def tagged (tag : String) (item : JsonValue) : JsonValue :=
  record [(tag, item)]

end JsonValue

end TextTemplate
