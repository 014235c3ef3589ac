import TextTemplate.Expr.Basic
import TextTemplate.Expr.Token

/-!
# Reading expressions

From the weakest to the strongest binding: statements between semicolons, assignments, which group
to the right, the binary operators in six levels, which group to the left, the unary operators, and
fields, elements and calls behind a primary expression. Every assignment, every bracketed or listed
expression and every operand of a unary operator is one level deeper than what it stands in, and
`maxNesting` levels are allowed; the readers are defined by recursion on the levels that are left.
They are written as functions of the tokens, so that a level is looked into only where it is read.
Within a level, no chain of operators and no list is longer than the text has tokens, which is how
often the readers of chains and lists go on at most (`tokens`).

## Main definitions

* `Parser` — a reader of tokens.
* `Expr.deeper`, `Expr.operandAbove` — the readers of a level.
* `Expr.parse` — the expression that a text spells.
-/

namespace TextTemplate

/-- The tokens left to read, and the byte offset where the text ends. -/
structure Tokens where
  left : List Lexeme
  stop : Nat

/-- A reader of tokens. -/
abbrev Parser := StateT Tokens (Except EvalError)

namespace Parser

variable {α : Type}

/-- The next token. -/
def peek? : Parser (Option Token) :=
  return (← get).left.head?.map Lexeme.token

/-- The offset of the next token, or of the end. -/
def here : Parser Nat := do
  let tokens ← get
  return (tokens.left.head?.map Lexeme.offset).getD tokens.stop

/-- Passes over the next token. -/
def skip : Parser Unit :=
  modify fun tokens => { tokens with left := tokens.left.drop 1 }

/-- The next token, if it is a symbol. -/
def peekSymbol? : Parser (Option Symbol) := do
  match ← peek? with
  | some (.symbol s) => return some s
  | _ => return none

/-- Passes over the symbol, if it comes next. -/
def consume (s : Symbol) : Parser Bool := do
  if (← peekSymbol?) = some s then
    skip
    return true
  else
    return false

/-- Fails at the next token. -/
def fail (reason : String) : Parser α := do
  throw (.malformed (← here) reason)

/-- Fails because something else was expected here. -/
def unexpected (expected : String) : Parser α := do
  let found := ((← peek?).map Token.describe).getD "end of expression"
  fail s!"expected {expected}, found {found}"

/-- Passes over a symbol that has to come next. -/
def expect (s : Symbol) : Parser Unit := do
  if !(← consume s) then
    unexpected s!"'{s.text}'"

end Parser

namespace Expr

open TextTemplate.Parser

variable (tokens : Nat)

/-- How many levels of nesting an expression may have. -/
def maxNesting : Nat := 128

/-- Fails because the expression nests too deeply. -/
def tooDeep : Parser Expr :=
  fail "expression nested too deeply"

/-- Goes on behind a left operand while one of the operators comes next. -/
def chainTail (ops : List (Symbol × BinaryOp)) (operand : Parser Expr) :
    Nat → Expr → Parser Expr
  | 0, left => return left
  | more + 1, left => do
    match (← peekSymbol?).bind fun s => List.lookup s ops with
    | none => return left
    | some op =>
      skip
      let right ← operand
      chainTail ops operand more (.binary op left right)

/-- Operands joined by operators of one level, which group to the left. -/
def chain (ops : List (Symbol × BinaryOp)) (operand : Parser Expr) : Parser Expr := do
  let left ← operand
  chainTail ops operand tokens left

/-- The binary operators, level by level, the weakest first. -/
def levels : List (List (Symbol × BinaryOp)) :=
  [[(.orOr, .or)],
    [(.andAnd, .and)],
    [(.eqEq, .eq), (.bangEq, .ne)],
    [(.ltEq, .le), (.gtEq, .ge), (.lt, .lt), (.gt, .gt)],
    [(.plus, .add), (.minus, .sub)],
    [(.star, .mul), (.slash, .div), (.percent, .rem)]]

/-- Operands joined by binary operators of all levels. -/
def operations (operand : Parser Expr) : Parser Expr :=
  levels.foldr (chain tokens) operand

/-- The operator of an assignment sign: none for a plain assignment. -/
def assignmentOp? : Symbol → Option (Option BinaryOp)
  | .eq => some none
  | .plusEq => some (some .add)
  | .minusEq => some (some .sub)
  | _ => none

/-- An assignment, whose right side is read by `deeper`, or operands joined by operators. -/
def assignment (deeper operand : Parser Expr) : Parser Expr := do
  match (← get).left with
  | ⟨_, .ident name⟩ :: ⟨_, .symbol s⟩ :: _ =>
    match assignmentOp? s with
    | some op =>
      skip
      skip
      return .assign name op (← deeper)
    | none => operations tokens operand
  | _ => operations tokens operand

/-- Items separated by commas, at least one, up to the closing symbol. -/
def someItems (item : Parser Expr) (close : Symbol) : Nat → Parser (List Expr)
  | 0 => do
    let first ← item
    expect close
    return [first]
  | more + 1 => do
    let first ← item
    if ← consume .comma then
      return first :: (← someItems item close more)
    else
      expect close
      return [first]

/-- Items separated by commas up to the closing symbol. -/
def items (item : Parser Expr) (close : Symbol) : Parser (List Expr) := do
  if ← consume close then
    return []
  else
    someItems item close tokens

/-- The literal or the variable that a name stands for. -/
def ofName : String → Expr
  | "true" => .literal (.bool true)
  | "false" => .literal (.bool false)
  | "null" => .literal .null
  | name => .ident name

/-- A literal, a name, or an expression in brackets, which is read by `deeper`. -/
def primary (deeper : Parser Expr) : Parser Expr := do
  match ← peek? with
  | some (.int n) =>
    skip
    return .literal (.int n)
  | some (.float x) =>
    skip
    return .literal (.float x)
  | some (.string s) =>
    skip
    return .literal (.string s)
  | some (.ident name) =>
    skip
    return ofName name
  | some (.symbol .openParen) =>
    skip
    let inner ← deeper
    expect .closeParen
    return inner
  | some (.symbol .openBracket) =>
    skip
    return .list (← items tokens deeper .closeBracket)
  | some (.symbol s) => fail s!"unexpected '{s.text}'"
  | none => fail "unexpected end of expression"

/-- The name of a field behind a dot. A dot that ends the text is itself what is reported. -/
def fieldName (dot : Nat) : Parser String := do
  match ← peek? with
  | some (.ident name) =>
    skip
    return name
  | some _ => unexpected "a field name"
  | none => throw (.malformed dot s!"expected a field name, found {Symbol.dot.text}")

/-- Fields, elements and calls behind an expression. -/
def suffixes (deeper : Parser Expr) : Nat → Expr → Parser Expr
  | 0, target => return target
  | more + 1, target => do
    match ← peekSymbol? with
    | some .dot =>
      let dot ← here
      skip
      let name ← fieldName dot
      suffixes deeper more (.field target name)
    | some .openBracket =>
      skip
      let place ← deeper
      expect .closeBracket
      suffixes deeper more (.index target place)
    | some .openParen =>
      skip
      let args ← items tokens deeper .closeParen
      suffixes deeper more (.call target args)
    | _ => return target

/-- An operand of the binary operators: unary operators in front of another operand, or a primary
expression with what stands behind it. -/
def operand (deeperOperand deeper : Parser Expr) : Parser Expr := do
  if ← consume .bang then
    return .unary .not (← deeperOperand)
  else if ← consume .minus then
    return .unary .neg (← deeperOperand)
  else
    let target ← primary tokens deeper
    suffixes tokens deeper tokens target

mutual

/-- The reader of an expression one level deeper, when so many levels are left. -/
def deeper : Nat → Parser Expr
  | 0 => tooDeep
  | levels + 1 => fun left => assignment tokens (deeper levels) (operandAbove levels) left

/-- The reader of an operand on a level that has so many levels below it. -/
def operandAbove : Nat → Parser Expr
  | 0 => operand tokens tooDeep tooDeep
  | levels + 1 => fun left =>
    operand tokens (operandAbove levels)
      (fun inside => assignment tokens (deeper levels) (operandAbove levels) inside) left

end

/-- Statements separated by semicolons; superfluous semicolons are passed over. -/
def statements (statement : Parser Expr) : Nat → Parser (List Expr)
  | 0 => return []
  | more + 1 => do
    modify fun t => { t with left := t.left.dropWhile fun l => l.token matches .symbol .semicolon }
    if (← peek?).isNone then
      return []
    else
      let first ← statement
      if (← peekSymbol?) = some .semicolon then
        return first :: (← statements statement more)
      else
        return [first]

/-- The expression of a list of statements; no statement stands for null. -/
def ofStatements : List Expr → Expr
  | [] => .literal .null
  | [only] => only
  | several => .sequence several

/-- A whole text: statements and then nothing else. -/
def whole : Parser Expr := do
  let all ← statements (deeper tokens maxNesting) (tokens + 1)
  if (← peek?).isSome then
    unexpected "end of expression"
  else
    return ofStatements all

/-- The expression that a text spells, or why it spells none. -/
def parse (source : String) : Except EvalError Expr := do
  let lexemes ← lex source
  let (expr, _) ← (whole lexemes.length).run ⟨lexemes, source.utf8ByteSize⟩
  return expr

end Expr

end TextTemplate
