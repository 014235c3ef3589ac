/-!
# Integers of 64 bits that never wrap

Arithmetic on signed 64-bit integers is done on the unbounded integers, and a result outside the
64-bit range is refused. Division truncates toward zero, and a remainder has the sign of the
dividend; a remainder is refused together with its quotient.

## Main definitions

* `Checked.ofInt?` — the 64-bit integer of a value in range.
* `Checked.add?`, `Checked.sub?`, `Checked.mul?`, `Checked.neg?`, `Checked.quotient?`,
  `Checked.remainder?` — exact results, or none.
* `Checked.read?` — an optional sign and decimal digits.
-/

namespace TextTemplate.Checked

/-- The 64-bit integer with this value, if there is one. -/
def ofInt? (n : Int) : Option Int64 :=
  if -9223372036854775808 ≤ n ∧ n ≤ 9223372036854775807 then some (Int64.ofInt n) else none

def add? (a b : Int64) : Option Int64 :=
  ofInt? (a.toInt + b.toInt)

def sub? (a b : Int64) : Option Int64 :=
  ofInt? (a.toInt - b.toInt)

def mul? (a b : Int64) : Option Int64 :=
  ofInt? (a.toInt * b.toInt)

def neg? (a : Int64) : Option Int64 :=
  ofInt? (-a.toInt)

/-- The quotient truncated toward zero, for a divisor other than zero. -/
def quotient? (a b : Int64) : Option Int64 :=
  ofInt? (a.toInt.tdiv b.toInt)

/-- The remainder of the truncated division, for a divisor other than zero, where the quotient is
in range. -/
def remainder? (a b : Int64) : Option Int64 :=
  if (quotient? a b).isSome then ofInt? (a.toInt.tmod b.toInt) else none

/-- The value of a decimal digit. -/
def digitValue (c : Char) : Nat :=
  c.toNat - '0'.toNat

/-- The number that a list of decimal digits spells. -/
def ofDigits (digits : List Char) : Nat :=
  digits.foldl (fun n c => 10 * n + digitValue c) 0

/-- Reads a text of decimal digits, at least one, with an optional sign in front. -/
def read? (s : String) : Option Int64 :=
  let (negative, digits) :=
    match s.toList with
    | '-' :: cs => (true, cs)
    | '+' :: cs => (false, cs)
    | cs => (false, cs)
  if digits.isEmpty || !digits.all Char.isDigit then
    none
  else
    ofInt? (if negative then -(ofDigits digits : Int) else ofDigits digits)

theorem toInt_of_ofInt? {n : Int} {a : Int64} (h : ofInt? n = some a) : a.toInt = n := by
  rw [ofInt?] at h
  split at h
  · rename_i hrange
    cases h
    exact Int64.toInt_ofInt_of_le hrange.1 (by omega)
  · cases h

theorem ofInt?_toInt (a : Int64) : ofInt? a.toInt = some a := by
  have hlow := a.minValue_le_toInt
  have high := a.toInt_le
  simp only [Int64.toInt_minValue, Int64.toInt_maxValue] at hlow high
  rw [ofInt?, if_pos (by omega), Int64.ofInt_toInt]

end TextTemplate.Checked
