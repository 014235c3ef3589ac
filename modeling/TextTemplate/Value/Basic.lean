import TextTemplate.Bindings
import TextTemplate.Number.Decimal

/-!
# Values

What expressions compute with and templates show: null, truth values, 64-bit integers,
floating-point numbers, strings, lists, maps and declared blocks. A block value is a reference to a
block; two references are equal when they refer to the same block, whatever its name. Equality is
structural and never holds between an integer and a floating-point number, and a number that is
"not a number" differs from itself.

## Main definitions

* `Value`, `Value.typeName`, `Value.isTruthy`.
* `Value.equal` — structural equality.
* `Value.display` — the text that a template shows for a value.
-/

namespace TextTemplate

/-- A value; the fields of a map are in the order of their names. -/
inductive Value where
  | null
  | bool (b : Bool)
  | int (n : Int64)
  | float (x : Float)
  | string (s : String)
  | list (items : List Value)
  | map (fields : List (String × Value))
  | block (id : Nat) (name : String)
deriving Inhabited

namespace Value

/-- The name of a value's type. -/
def typeName : Value → String
  | null => "null"
  | bool _ => "bool"
  | int _ => "int"
  | float _ => "float"
  | string _ => "string"
  | list _ => "list"
  | map _ => "map"
  | block .. => "block"

/-- Whether a value counts as true: null, zero and empty values do not. -/
def isTruthy : Value → Bool
  | null => false
  | bool b => b
  | int n => n != 0
  | float x => x != 0.0
  | string s => s != ""
  | list items => !items.isEmpty
  | map fields => !fields.isEmpty
  | block .. => true

/-- The text of a string value. -/
def asString? : Value → Option String
  | string s => some s
  | _ => none

/-- A field of a map value. -/
def field? (name : String) : Value → Option Value
  | map fields => Bindings.find? name fields
  | _ => none

mutual

/-- Structural equality. -/
def equal : Value → Value → Bool
  | null, null => true
  | bool a, bool b => a == b
  | int a, int b => a == b
  | float a, float b => a == b
  | string a, string b => a == b
  | list as, list bs => equalItems as bs
  | map as, map bs => equalFields as bs
  | block a _, block b _ => a == b
  | _, _ => false

/-- Equality of lists, item by item. -/
def equalItems : List Value → List Value → Bool
  | [], [] => true
  | a :: as, b :: bs => equal a b && equalItems as bs
  | _, _ => false

/-- Equality of maps: the same names with equal fields. -/
def equalFields : List (String × Value) → List (String × Value) → Bool
  | [], [] => true
  | (k, a) :: as, (l, b) :: bs => k == l && equal a b && equalFields as bs
  | _, _ => false

end

/-- A floating-point number is shown with the fewest digits that read back, never with an
exponent, and without a fraction when it is whole. -/
def floatLayout : Decimal.Layout where
  positional := none
  pointZero := false
  tie := .up

/-- The text of a floating-point number. -/
def displayFloat (x : Float) : String :=
  match Binary.shape x with
  | .nan => "NaN"
  | .infinite negative => if negative then "-inf" else "inf"
  | .finite negative mantissa exponent => (floatLayout.numeral negative mantissa exponent).text

mutual

/-- The text that a template shows for a value. -/
def display : Value → String
  | null => ""
  | bool b => if b then "true" else "false"
  | int n => toString n.toInt
  | float x => displayFloat x
  | string s => s
  | list [] => "[]"
  | list (a :: as) => displayItems ("[" ++ display a) as ++ "]"
  | map [] => "\x7b\x7d"
  | map ((k, a) :: as) => displayFields ("\x7b" ++ k ++ ": " ++ display a) as ++ "\x7d"
  | block _ name => "<block " ++ name ++ ">"

/-- A text with more items of a list behind it, a comma in front of each. -/
def displayItems (before : String) : List Value → String
  | [] => before
  | a :: as => displayItems (before ++ ", " ++ display a) as

/-- A text with more fields of a map behind it, a comma in front of each. -/
def displayFields (before : String) : List (String × Value) → String
  | [] => before
  | (k, a) :: as => displayFields (before ++ ", " ++ k ++ ": " ++ display a) as

end

end Value

end TextTemplate
