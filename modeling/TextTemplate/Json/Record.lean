import TextTemplate.File.Path
import TextTemplate.Json.Number
import TextTemplate.Json.Read

/-!
# Records and alternatives in JSON

What a document says when it is read as a string, a number, a record of fields, or an alternative
under a tag. A record is an object; where its fields have an order it can also be an array. An
alternative is an object with its tag as the only key, or its tag alone if it has nothing to say.

## Main definitions

* `JsonValue.string?`, `JsonValue.integer?`, `JsonValue.natural?`, `JsonValue.path?` — what a
  document is.
* `JsonValue.record?`, `JsonValue.fields?` — the fields of a record.
* `JsonValue.tag?` — the tag of an alternative.
* `JsonFields.read?`, `JsonFields.readOr?` — what the fields of a record say.
-/

namespace TextTemplate

/-- The fields of a record by name. -/
abbrev JsonFields := List (String × JsonValue)

namespace JsonValue

/-- The string that a document is. -/
def string? : JsonValue → Option String
  | string written => JsonText.string? written
  | _ => none

/-- The integer that a document is. -/
def integer? : JsonValue → Option Int
  | number numeral => numeral.jsonInteger?
  | _ => none

/-- The natural number that a document is. -/
def natural? (document : JsonValue) : Option Nat :=
  document.integer?.bind Int.toNat?

/-- The path that a document is. -/
def path? (document : JsonValue) : Option Path :=
  document.string?.map Path.mk

/-- The document of a path. -/
def ofPath (path : Path) : JsonValue :=
  ofString path.text

/-- What a document says that may be null. -/
def nullable? {α : Type} (decode : JsonValue → Option α) : JsonValue → Option (Option α)
  | null => some none
  | document => (decode document).map some

/-- The members of an object with their keys as strings. -/
def keyed? (members : List (List Char × JsonValue)) : Option JsonFields :=
  members.mapM fun (key, item) => (JsonText.string? key).map fun name => (name, item)

/-- The fields of a record that is an object. -/
def record? : JsonValue → Option JsonFields
  | object members => keyed? members
  | _ => none

/-- The fields of a record. They are members of an object, none of them twice, among which others
are passed over, or else the items of an array in the order of the names, the last of which can be
missing. -/
def fields? (names : List String) : JsonValue → Option JsonFields
  | array items => if items.length ≤ names.length then some (names.zip items) else none
  | document => do
    let known := (← document.record?).filter fun (name, _) => names.contains name
    if (known.map Prod.fst).Nodup then some known else none

/-- The tag of an alternative and, if it has something to say, what it says. -/
def tag? : JsonValue → Option (String × JsonValue)
  | string written => (JsonText.string? written).map fun tag => (tag, null)
  | object [(key, item)] => (JsonText.string? key).map fun tag => (tag, item)
  | _ => none

end JsonValue

namespace JsonFields

variable {α : Type} (fields : JsonFields) (name : String)

/-- What a field says. -/
def read? (decode : JsonValue → Option α) : Option α :=
  (fields.lookup name).bind decode

/-- What a field says, or a default if it is missing. -/
def readOr? (default : α) (decode : JsonValue → Option α) : Option α :=
  match fields.lookup name with
  | some document => decode document
  | none => some default

/-- The string of a field. -/
def string? : Option String :=
  fields.read? name JsonValue.string?

/-- The natural number of a field. -/
def natural? : Option Nat :=
  fields.read? name JsonValue.natural?

/-- The path of a field. -/
def path? : Option Path :=
  fields.read? name JsonValue.path?

/-- The character of a field, which is a string of one. -/
def character? : Option Char := do
  match (← fields.string? name).toList with
  | [c] => some c
  | _ => none

end JsonFields

end TextTemplate
