import TextTemplate.Json.Number
import TextTemplate.Json.Read
import TextTemplate.Value.Basic

/-!
# Values as JSON

A value without blocks in it is a JSON document: null, truth values, numbers, strings, lists and
maps are what they look like. An integer outside the 64-bit range is read as a floating-point
number, and a floating-point number always shows a point or an exponent, which tells it from an
integer; without a finite value it is written as null. Of two members with one key the later counts.

## Main definitions

* `Value.toJson?`, `Value.ofJson?` — from a value to a document and back.
-/

namespace TextTemplate.Value

/-- Floating-point numbers are written with the fewest digits that read back, positionally where the
first digit stands between the fifth place behind the point and the sixteenth in front of it. -/
def jsonLayout : Decimal.Layout where
  positional := some (-5, 15)
  pointZero := true
  tie := .even

/-- The document of a floating-point number. -/
def floatToJson (x : Float) : JsonValue :=
  match Binary.shape x with
  | .finite negative mantissa exponent => .number (jsonLayout.numeral negative mantissa exponent)
  | .nan | .infinite _ => .null

mutual

/-- The document of a value without blocks. -/
def toJson? : Value → Option JsonValue
  | null => some .null
  | bool b => some (.bool b)
  | int n => some (.ofInt n.toInt)
  | float x => some (floatToJson x)
  | string s => some (.ofString s)
  | list items => (itemsToJson? items).map .array
  | map fields => (fieldsToJson? fields).map .record
  | block .. => none

/-- The documents of the items of a list. -/
def itemsToJson? : List Value → Option (List JsonValue)
  | [] => some []
  | a :: as => do return (← toJson? a) :: (← itemsToJson? as)

/-- The documents of the fields of a map, with their names. -/
def fieldsToJson? : List (String × Value) → Option (List (String × JsonValue))
  | [] => some []
  | (k, a) :: as => do return (k, ← toJson? a) :: (← fieldsToJson? as)

end

/-- The value of a number. -/
def ofNumber : JsonNumber → Value
  | .real x => float x
  | .whole n =>
    match Checked.ofInt? n with
    | some n => int n
    | none => float (Float.ofInt n)

/-- How deeply the lists and maps of a document may nest. -/
def maxJsonNesting : Nat := 127

mutual

/-- The value of a document in which so many more lists and maps may nest. -/
def ofNested? (nesting : Nat) : JsonValue → Option Value
  | .null => some null
  | .bool b => some (bool b)
  | .number numeral => numeral.jsonNumber?.map ofNumber
  | .string written => (JsonText.string? written).map string
  | .array items =>
    match nesting with
    | 0 => none
    | nesting + 1 => (itemsOfNested? nesting items).map list
  | .object members =>
    match nesting with
    | 0 => none
    | nesting + 1 =>
      (fieldsOfNested? nesting members).map fun fields => map (Bindings.ofPairs fields)

/-- The values of the items of an array. -/
def itemsOfNested? (nesting : Nat) : List JsonValue → Option (List Value)
  | [] => some []
  | a :: as => do return (← ofNested? nesting a) :: (← itemsOfNested? nesting as)

/-- The values of the members of an object, with their names. -/
def fieldsOfNested? (nesting : Nat) :
    List (List Char × JsonValue) → Option (List (String × Value))
  | [] => some []
  | (k, a) :: as => do
    return (← JsonText.string? k, ← ofNested? nesting a) :: (← fieldsOfNested? nesting as)

end

/-- The value of a document. -/
def ofJson? (document : JsonValue) : Option Value :=
  ofNested? maxJsonNesting document

end TextTemplate.Value
