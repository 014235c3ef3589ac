/-!
# String literals of JSON

A string literal stands between quotes. A quote, a backslash and the control characters below the
space are written as escapes in it; a reader also meets escapes that were not needed, and characters
beyond the first 65536 as the two halves of a surrogate pair. A half without its partner spells no
text, and such a literal can be passed over but not read.

## Main definitions

* `JsonText.escape` — the characters of a literal that spells a text.
* `JsonText.literal?` — takes a literal from the front of a text.
* `JsonText.spelled?` — the text that a literal spells.

## Main statements

* `spelled?_escape` — what is escaped spells itself.
* `literal?_escape` — a literal ends where the text that was escaped ends.
-/

namespace TextTemplate.JsonText

/-- A hexadecimal digit below sixteen. -/
def hexDigit (n : Nat) : Char :=
  Char.ofNat (if n < 10 then '0'.toNat + n else 'a'.toNat + (n - 10))

/-- The value of a hexadecimal digit. -/
def hexValue? (c : Char) : Option Nat :=
  if '0' ≤ c ∧ c ≤ '9' then some (c.toNat - '0'.toNat)
  else if 'a' ≤ c ∧ c ≤ 'f' then some (c.toNat - 'a'.toNat + 10)
  else if 'A' ≤ c ∧ c ≤ 'F' then some (c.toNat - 'A'.toNat + 10)
  else none

/-- The number that four hexadecimal digits spell. -/
def unit? (a b c d : Char) : Option Nat :=
  return 4096 * (← hexValue? a) + 256 * (← hexValue? b) + 16 * (← hexValue? c) + (← hexValue? d)

/-- The character that a backslash and a letter stand for. -/
def shortEscape? : Char → Option Char
  | '"' => some '"'
  | '\\' => some '\\'
  | '/' => some '/'
  | 'b' => some '\x08'
  | 'f' => some '\x0c'
  | 'n' => some '\n'
  | 'r' => some '\r'
  | 't' => some '\t'
  | _ => none

/-- How a character is written in a literal. -/
def escapeChar (c : Char) : List Char :=
  match c with
  | '"' => ['\\', '"']
  | '\\' => ['\\', '\\']
  | '\x08' => ['\\', 'b']
  | '\x0c' => ['\\', 'f']
  | '\n' => ['\\', 'n']
  | '\r' => ['\\', 'r']
  | '\t' => ['\\', 't']
  | c =>
    if c.toNat < 32 then
      ['\\', 'u', '0', '0', hexDigit (c.toNat / 16), hexDigit (c.toNat % 16)]
    else
      [c]

/-- The characters of a literal that spells a text. -/
def escape (text : List Char) : List Char :=
  text.flatMap escapeChar

/-- Takes a literal from the front of a text, behind its opening quote: its characters as they are
written, and what follows the closing quote. -/
def literal? : List Char → Option (List Char × List Char)
  | [] => none
  | c :: cs =>
    if c = '"' then
      some ([], cs)
    else if c = '\\' then
      match cs with
      | [] => none
      | e :: cs =>
        if e = 'u' then
          match cs with
          | h :: i :: j :: k :: cs =>
            if (unit? h i j k).isSome then
              (literal? cs).map fun (written, rest) => (c :: e :: h :: i :: j :: k :: written, rest)
            else
              none
          | _ => none
        else if (shortEscape? e).isSome then
          (literal? cs).map fun (written, rest) => (c :: e :: written, rest)
        else
          none
    else if c.toNat < 32 then
      none
    else
      (literal? cs).map fun (written, rest) => (c :: written, rest)

/-- The character beyond the first 65536 of which two numbers are the halves. -/
def pair (high low : Nat) : Char :=
  Char.ofNat (65536 + 1024 * (high - 55296) + (low - 56320))

/-- The text that the characters of a literal spell. -/
def spelled? : List Char → Option (List Char)
  | [] => some []
  | c :: cs =>
    if c = '\\' then
      match cs with
      | [] => none
      | e :: cs =>
        if e = 'u' then
          match cs with
          | h :: i :: j :: k :: cs => do
            let unit ← unit? h i j k
            if 55296 ≤ unit ∧ unit < 56320 then
              match cs with
              | '\\' :: 'u' :: p :: q :: r :: s :: cs =>
                let low ← unit? p q r s
                if 56320 ≤ low ∧ low < 57344 then
                  (spelled? cs).map (pair unit low :: ·)
                else
                  none
              | _ => none
            else if 56320 ≤ unit ∧ unit < 57344 then
              none
            else
              (spelled? cs).map (Char.ofNat unit :: ·)
          | _ => none
        else
          match shortEscape? e with
          | some plain => (spelled? cs).map (plain :: ·)
          | none => none
    else
      (spelled? cs).map (c :: ·)

/-- The string that the characters of a literal spell. -/
def string? (written : List Char) : Option String :=
  (spelled? written).map String.ofList

theorem hexValue?_hexDigit : ∀ n < 16, hexValue? (hexDigit n) = some n := by
  decide

/-- A control character is the unit that its escape names. -/
theorem unit?_control {n : Nat} (h : n < 32) :
    unit? '0' '0' (hexDigit (n / 16)) (hexDigit (n % 16)) = some n := by
  have hzero : hexValue? '0' = some 0 := by decide
  rw [unit?, hzero, hexValue?_hexDigit _ (by omega), hexValue?_hexDigit _ (by omega)]
  exact congrArg some (by omega)

theorem spelled?_short {e plain : Char} (h : shortEscape? e = some plain) (rest : List Char) :
    spelled? ('\\' :: e :: rest) = (spelled? rest).map (plain :: ·) := by
  have hnotUnit : e ≠ 'u' := by
    rintro rfl
    cases h
  rw [spelled?.eq_def]
  simp [hnotUnit, h]

theorem spelled?_plain {c : Char} (h : c ≠ '\\') (rest : List Char) :
    spelled? (c :: rest) = (spelled? rest).map (c :: ·) := by
  rw [spelled?.eq_def]
  simp [h]

theorem spelled?_control {c : Char} (h : c.toNat < 32) (rest : List Char) :
    spelled? ('\\' :: 'u' :: '0' :: '0' ::
        hexDigit (c.toNat / 16) :: hexDigit (c.toNat % 16) :: rest) =
      (spelled? rest).map (c :: ·) := by
  have high : ¬ (55296 ≤ c.toNat ∧ c.toNat < 56320) := by omega
  have hlow : ¬ (56320 ≤ c.toNat ∧ c.toNat < 57344) := by omega
  rw [spelled?.eq_def]
  simp [unit?_control h, high, hlow, Char.ofNat_toNat]

theorem spelled?_escapeChar_append (c : Char) (rest : List Char) :
    spelled? (escapeChar c ++ rest) = (spelled? rest).map (c :: ·) := by
  rw [escapeChar.eq_def]
  split
  iterate 7 exact spelled?_short rfl rest
  split
  · rename_i hcontrol
    exact spelled?_control hcontrol rest
  · rename_i hslash _ _ _ _ _ _
    exact spelled?_plain hslash rest

/-- What is escaped spells itself. -/
theorem spelled?_escape (text : List Char) : spelled? (escape text) = some text := by
  induction text with
  | nil => rfl
  | cons c text ih =>
    rw [escape, List.flatMap_cons, spelled?_escapeChar_append, ← escape, ih, Option.map_some]

theorem literal?_short {e plain : Char} (h : shortEscape? e = some plain) (rest : List Char) :
    literal? ('\\' :: e :: rest) =
      (literal? rest).map fun (written, after) => ('\\' :: e :: written, after) := by
  have hnotUnit : e ≠ 'u' := by
    rintro rfl
    cases h
  rw [literal?.eq_def]
  simp [hnotUnit, h]

theorem literal?_plain {c : Char} (hquote : c ≠ '"') (hslash : c ≠ '\\') (h : ¬ c.toNat < 32)
    (rest : List Char) :
    literal? (c :: rest) = (literal? rest).map fun (written, after) => (c :: written, after) := by
  rw [literal?.eq_def]
  simp [hquote, hslash, h]

theorem literal?_quote (rest : List Char) : literal? ('"' :: rest) = some ([], rest) := by
  rw [literal?.eq_def]
  simp

theorem literal?_escapeChar_append (c : Char) (rest : List Char) :
    literal? (escapeChar c ++ rest) =
      (literal? rest).map fun (written, after) => (escapeChar c ++ written, after) := by
  rw [escapeChar.eq_def]
  split
  iterate 7 exact literal?_short rfl rest
  split
  · rename_i hcontrol
    rw [List.cons_append, literal?.eq_def]
    simp [unit?_control hcontrol]
  · rename_i hquote hslash _ _ _ _ _ hcontrol
    exact literal?_plain hquote hslash hcontrol rest

/-- The literal of a text ends at the quote behind it. -/
theorem literal?_escape (text rest : List Char) :
    literal? (escape text ++ '"' :: rest) = some (escape text, rest) := by
  induction text with
  | nil => exact literal?_quote rest
  | cons c text ih =>
    rw [escape, List.flatMap_cons, List.append_assoc, literal?_escapeChar_append, ← escape, ih,
      Option.map_some]

/-- The string that a literal was made of is the string it spells. -/
theorem string?_escape (s : String) : string? (escape s.toList) = some s := by
  rw [string?, spelled?_escape, Option.map_some, String.ofList_toList]

end TextTemplate.JsonText
