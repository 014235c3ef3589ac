import TextTemplate.Character.Place
import TextTemplate.Error
import TextTemplate.Value.Basic

/-!
# Operations on values

The operators of the expression language, the fields and the elements of values. Integers are
computed exactly or not at all. An operator that meets an integer and a floating-point number, or
two of the latter, computes in floating point. A plus sign joins a string with the text of anything
and joins two lists.

## Main definitions

* `UnaryOp`, `BinaryOp` — the operators.
* `Value.looselyEqual`, `Value.compare?` — equality and order.
* `BinaryOp.apply`, `UnaryOp.apply` — the results of the operators.
* `Value.select`, `Value.index` — fields and elements.
-/

namespace TextTemplate

/-- The operators with one operand. -/
inductive UnaryOp where
  | not
  | neg
deriving DecidableEq

/-- The operators with two operands. -/
inductive BinaryOp where
  | add
  | sub
  | mul
  | div
  | rem
  | eq
  | ne
  | lt
  | le
  | gt
  | ge
  | and
  | or
deriving DecidableEq

/-- The sign of an operator. -/
def BinaryOp.sign : BinaryOp → String
  | add => "+"
  | sub => "-"
  | mul => "*"
  | div => "/"
  | rem => "%"
  | eq => "=="
  | ne => "!="
  | lt => "<"
  | le => "<="
  | gt => ">"
  | ge => ">="
  | and => "&&"
  | or => "||"

namespace Value

/-- A number as a floating-point number. -/
def asFloat? : Value → Option Float
  | int n => some (Float.ofInt n.toInt)
  | float x => some x
  | _ => none

/-- The order of two floating-point numbers, if both are numbers. -/
def compareFloats? (x y : Float) : Option Ordering :=
  if x < y then some .lt else if x == y then some .eq else if y < x then some .gt else none

/-- The order of two values: of two integers, of two strings by their characters, and of any other
two numbers as floating-point numbers. -/
def compare? : Value → Value → Option Ordering
  | int a, int b => some (compareOfLessAndEq a.toInt b.toInt)
  | string a, string b => some (compareOfLessAndEq a b)
  | a, b =>
    match a.asFloat?, b.asFloat? with
    | some x, some y => compareFloats? x y
    | _, _ => none

/-- The equality of the expression language: an integer and a floating-point number are compared
as numbers, all else structurally. -/
def looselyEqual : Value → Value → Bool
  | int a, float b => compare? (int a) (float b) == some .eq
  | float a, int b => compare? (float a) (int b) == some .eq
  | a, b => a.equal b

/-- The error of an operator that does not take its operands. -/
def mismatch (op : BinaryOp) (a b : Value) : EvalError :=
  .operator op.sign a.typeName b.typeName

/-- An integer result, or an overflow. -/
def ofChecked : Option Int64 → Except EvalError Value
  | some n => .ok (int n)
  | none => .error .overflow

/-- The sum of two values. -/
def add : Value → Value → Except EvalError Value
  | int a, int b => ofChecked (Checked.add? a b)
  | string a, b => .ok (string (a ++ b.display))
  | a, string b => .ok (string (a.display ++ b))
  | list as, list bs => .ok (list (as ++ bs))
  | a, b =>
    match a.asFloat?, b.asFloat? with
    | some x, some y => .ok (float (x + y))
    | _, _ => .error (mismatch .add a b)

/-- A computation on two numbers: exact on two integers, else in floating point. -/
def compute (op : BinaryOp) (onInts : Int64 → Int64 → Except EvalError Value)
    (onFloats : Float → Float → Float) : Value → Value → Except EvalError Value
  | int a, int b => onInts a b
  | a, b =>
    match a.asFloat?, b.asFloat? with
    | some x, some y => .ok (float (onFloats x y))
    | _, _ => .error (mismatch op a b)

/-- An integer division, refused for the divisor zero. -/
def divide (result? : Int64 → Int64 → Option Int64) (a b : Int64) : Except EvalError Value :=
  if b = 0 then .error .divisionByZero else ofChecked (result? a b)

/-- A comparison that holds for some of the three orders. -/
def comparison (op : BinaryOp) (holds : Ordering → Bool) (a b : Value) : Except EvalError Value :=
  match compare? a b with
  | some order => .ok (bool (holds order))
  | none => .error (mismatch op a b)

/-- The number of elements of a list or a map, or of characters of a string. -/
def size? : Value → Option Nat
  | list items => some items.length
  | map fields => some fields.length
  | string s => some s.length
  | _ => none

/-- A field of a value: a map's own field, or else the size of a value that has one. -/
def select (target : Value) (name : String) : Except EvalError Value :=
  match target.field? name with
  | some value => .ok value
  | none =>
    let missing : Except EvalError Value := .error (.noField name target.typeName)
    if name = "size" ∨ name = "length" then
      match target.size? with
      | some n => ofChecked (Checked.ofInt? n)
      | none => missing
    else
      missing

/-- A place that is not below zero. -/
def place? (i : Int64) : Option Nat :=
  if i.toInt < 0 then none else some i.toInt.toNat

/-- An element of a list, a character of a string, or a field of a map; a missing field is null. -/
def index : Value → Value → Except EvalError Value
  | list items, int i =>
    match (place? i).bind fun place => items[place]? with
    | some value => .ok value
    | none => .error (.outOfBounds i items.length)
  | string s, int i =>
    match (place? i).bind (charAt? s) with
    | some c => .ok (string (String.singleton c))
    | none => .error (.outOfBounds i s.length)
  | map fields, string key => .ok ((Bindings.find? key fields).getD null)
  | target, i => .error (.index target.typeName i.typeName)

end Value

/-- The result of an operator with two operands, both evaluated. -/
def BinaryOp.apply : BinaryOp → Value → Value → Except EvalError Value
  | .eq, a, b => .ok (.bool (a.looselyEqual b))
  | .ne, a, b => .ok (.bool (!a.looselyEqual b))
  | .lt, a, b => Value.comparison .lt (· == .lt) a b
  | .le, a, b => Value.comparison .le (· != .gt) a b
  | .gt, a, b => Value.comparison .gt (· == .gt) a b
  | .ge, a, b => Value.comparison .ge (· != .lt) a b
  | .add, a, b => a.add b
  | .sub, a, b =>
    Value.compute .sub (fun m n => Value.ofChecked (Checked.sub? m n)) (· - ·) a b
  | .mul, a, b =>
    Value.compute .mul (fun m n => Value.ofChecked (Checked.mul? m n)) (· * ·) a b
  | .div, a, b => Value.compute .div (Value.divide Checked.quotient?) (· / ·) a b
  | .rem, a, b => Value.compute .rem (Value.divide Checked.remainder?) Binary.remainder a b
  | .and, a, b => .ok (.bool (a.isTruthy && b.isTruthy))
  | .or, a, b => .ok (.bool (a.isTruthy || b.isTruthy))

/-- The result of an operator with one operand. -/
def UnaryOp.apply : UnaryOp → Value → Except EvalError Value
  | .not, a => .ok (.bool !a.isTruthy)
  | .neg, .int n => Value.ofChecked (Checked.neg? n)
  | .neg, .float x => .ok (.float (-x))
  | .neg, a => .error (.unary "-" a.typeName)

end TextTemplate
