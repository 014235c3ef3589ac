import TextTemplate.Character.Blank
import TextTemplate.Character.Letter
import TextTemplate.Source.Bracket
import TextTemplate.Value.Operation

/-!
# Tokens of the expression language

A text is read from left to right into numbers, strings, names and symbols, with blanks between
them as they come. A point belongs to a number only when a digit follows, and at most once; of the
symbols the longest that fits is read.

## Main definitions

* `Symbol`, `Token`, `Lexeme` — a token with the byte offset where it starts.
* `Reading.ofCons` — the token at the front of a text; `Reading.spelling_append_rest` says that
  nothing of the text is lost.
* `lex` — the tokens of a text, or why it has none.
-/

namespace TextTemplate

/-- The symbols of the expression language. -/
inductive Symbol where
  | eqEq | bangEq | ltEq | gtEq | andAnd | orOr | plusEq | minusEq
  | plus | minus | star | slash | percent | lt | gt | bang | eq
  | openParen | closeParen | openBracket | closeBracket | comma | dot | semicolon
deriving DecidableEq

namespace Symbol

/-- The characters of a symbol. -/
def chars : Symbol → List Char
  | eqEq => ['=', '=']
  | bangEq => ['!', '=']
  | ltEq => ['<', '=']
  | gtEq => ['>', '=']
  | andAnd => ['&', '&']
  | orOr => ['|', '|']
  | plusEq => ['+', '=']
  | minusEq => ['-', '=']
  | plus => ['+']
  | minus => ['-']
  | star => ['*']
  | slash => ['/']
  | percent => ['%']
  | lt => ['<']
  | gt => ['>']
  | bang => ['!']
  | eq => ['=']
  | openParen => ['(']
  | closeParen => [')']
  | openBracket => ['[']
  | closeBracket => [']']
  | comma => [',']
  | dot => ['.']
  | semicolon => [';']

/-- The text of a symbol. -/
def text (s : Symbol) : String :=
  String.ofList s.chars

/-- All symbols, those of two characters first. -/
def all : List Symbol :=
  [eqEq, bangEq, ltEq, gtEq, andAnd, orOr, plusEq, minusEq, plus, minus, star, slash, percent, lt,
    gt, bang, eq, openParen, closeParen, openBracket, closeBracket, comma, dot, semicolon]

/-- The longest symbol that the text starts with. -/
def atStart? (cs : List Char) : Option Symbol :=
  all.find? fun s => s.chars.isPrefixOf cs

/-- The text starts with the characters of the symbol. -/
theorem chars_append_drop_of_atStart? {cs : List Char} {s : Symbol} (h : atStart? cs = some s) :
    s.chars ++ cs.drop s.chars.length = cs := by
  have hstarts : s.chars.isPrefixOf cs = true := by
    simpa using List.find?_some h
  obtain ⟨rest, rfl⟩ := List.isPrefixOf_iff_prefix.1 hstarts
  simp

theorem chars_ne_nil (s : Symbol) : s.chars ≠ [] := by
  cases s <;> simp [chars]

end Symbol

/-- A token. -/
inductive Token where
  | int (n : Int64)
  | float (x : Float)
  | string (s : String)
  | ident (name : String)
  | symbol (s : Symbol)

/-- How messages name a token. -/
def Token.describe : Token → String
  | int n => toString n.toInt
  | float x => Value.displayFloat x
  | string s => "'" ++ s ++ "'"
  | ident name => name
  | symbol s => s.text

/-- A token and the byte offset where it starts. -/
structure Lexeme where
  offset : Nat
  token : Token

/-- The fraction that the text starts with: the digits behind a point, at least one, and the text
after them. -/
def fraction? : List Char → Option (List Char × List Char)
  | '.' :: cs =>
    if cs.head?.any Char.isDigit then
      some (cs.takeWhile Char.isDigit, cs.dropWhile Char.isDigit)
    else
      none
  | _ => none

/-- A fraction is a point, its digits and what follows. -/
theorem eq_of_fraction? {cs digits rest : List Char} (h : fraction? cs = some (digits, rest)) :
    cs = '.' :: digits ++ rest := by
  rw [fraction?.eq_def] at h
  split at h
  · split at h
    · cases h
      simp
    · cases h
  · cases h

/-- The string whose opening quote has been read: its characters as they are written, and the text
after the closing quote. A backslash protects the character behind it. -/
def quoted? (quote : Char) : List Char → Option (List Char × List Char)
  | [] => none
  | ['\\'] => none
  | '\\' :: c :: cs => (quoted? quote cs).map fun (written, rest) => ('\\' :: c :: written, rest)
  | c :: cs =>
    if c = quote then some ([], cs)
    else (quoted? quote cs).map fun (written, rest) => (c :: written, rest)

/-- A string is what is written in it, the closing quote and what follows. -/
theorem eq_of_quoted? {quote : Char} {cs written rest : List Char}
    (h : quoted? quote cs = some (written, rest)) : cs = written ++ quote :: rest := by
  fun_induction quoted? quote cs generalizing written rest with
  | case1 => cases h
  | case2 => cases h
  | case3 c cs ih =>
    obtain ⟨⟨written', rest'⟩, hcs, heq⟩ := Option.map_eq_some_iff.1 h
    cases heq
    simp [ih hcs]
  | case4 => cases h; rfl
  | case5 c cs _ _ _ ih =>
    obtain ⟨⟨written', rest'⟩, hcs, heq⟩ := Option.map_eq_some_iff.1 h
    cases heq
    simp [ih hcs]

/-- The character that a backslash and this character stand for. -/
def escaped : Char → Char
  | 'n' => '\n'
  | 't' => '\t'
  | 'r' => '\r'
  | c => c

/-- The characters that the characters written in a string stand for. -/
def unescape : List Char → List Char
  | [] => []
  | '\\' :: c :: cs => escaped c :: unescape cs
  | c :: cs => c :: unescape cs

/-- The front of a text: a token or why there is none, the characters that were read for it, and
the text after them. -/
structure Reading where
  token : Except String Token
  spelling : List Char
  rest : List Char

namespace Reading

/-- The number that the text starts with. -/
def number (cs : List Char) : Reading :=
  let whole := cs.takeWhile Char.isDigit
  let rest := cs.dropWhile Char.isDigit
  match fraction? rest with
  | some (fraction, rest) =>
    ⟨.ok (.float (Numeral.toFloat ⟨false, whole, fraction, none⟩)), whole ++ '.' :: fraction, rest⟩
  | none =>
    match Checked.ofInt? (Checked.ofDigits whole) with
    | some n => ⟨.ok (.int n), whole, rest⟩
    | none => ⟨.error "number too large to fit in target type", whole, rest⟩

/-- The token that a text starts with; its first character `c` is not a blank. -/
def ofCons (c : Char) (cs : List Char) : Reading :=
  if c.isDigit then
    number (c :: cs)
  else if isNameStart c then
    let name := c :: cs.takeWhile isNamePart
    ⟨.ok (.ident (String.ofList name)), name, cs.dropWhile isNamePart⟩
  else if isQuote c then
    match quoted? c cs with
    | some (written, rest) =>
      ⟨.ok (.string (String.ofList (unescape written))), c :: written ++ [c], rest⟩
    | none => ⟨.error "unterminated string literal", c :: cs, []⟩
  else
    match Symbol.atStart? (c :: cs) with
    | some s => ⟨.ok (.symbol s), s.chars, (c :: cs).drop s.chars.length⟩
    | none => ⟨.error ("unexpected character '" ++ String.singleton c ++ "'"), c :: cs, []⟩

theorem spelling_append_rest_number (cs : List Char) :
    (number cs).spelling ++ (number cs).rest = cs := by
  rw [number]
  split
  · rename_i h
    simp only [List.append_assoc, List.cons_append]
    rw [← List.cons_append, ← eq_of_fraction? h, List.takeWhile_append_dropWhile]
  · split <;> exact List.takeWhile_append_dropWhile

/-- Nothing is lost: what was read and what follows are the text. -/
theorem spelling_append_rest (c : Char) (cs : List Char) :
    (ofCons c cs).spelling ++ (ofCons c cs).rest = c :: cs := by
  rw [ofCons]
  split
  · exact spelling_append_rest_number _
  · split
    · simp
    · split
      · split
        · rename_i h
          simp [eq_of_quoted? h]
        · simp
      · split
        · rename_i h
          exact Symbol.chars_append_drop_of_atStart? h
        · simp

/-- Something is read. -/
theorem spelling_ne_nil (c : Char) (cs : List Char) : (ofCons c cs).spelling ≠ [] := by
  rw [ofCons]
  split
  · rename_i hdigit
    have hwhole : (c :: cs).takeWhile Char.isDigit ≠ [] := by simp [hdigit]
    rw [number]
    split
    · simp
    · split <;> exact hwhole
  · split
    · simp
    · split
      · split <;> simp
      · split
        · exact Symbol.chars_ne_nil _
        · simp

/-- What follows is shorter than the text. -/
theorem length_rest_le (c : Char) (cs : List Char) : (ofCons c cs).rest.length ≤ cs.length := by
  have h := congrArg List.length (spelling_append_rest c cs)
  have := List.length_pos_iff.2 (spelling_ne_nil c cs)
  simp only [List.length_append, List.length_cons] at h
  omega

end Reading

/-- The tokens of a text that starts at byte `offset`. -/
def lexFrom (offset : Nat) (cs : List Char) : Except EvalError (List Lexeme) :=
  match cs with
  | [] => .ok []
  | c :: cs =>
    if isBlank c then
      lexFrom (offset + c.utf8Size) cs
    else
      let reading := Reading.ofCons c cs
      match reading.token with
      | .error reason => .error (.malformed offset reason)
      | .ok token => do
        let lexemes ← lexFrom (offset + byteLength reading.spelling) reading.rest
        return ⟨offset, token⟩ :: lexemes
termination_by cs.length
decreasing_by
  · simp
  · exact Nat.lt_succ_of_le (Reading.length_rest_le c cs)

/-- The tokens of a text. -/
def lex (source : String) : Except EvalError (List Lexeme) :=
  lexFrom 0 source.toList

end TextTemplate
