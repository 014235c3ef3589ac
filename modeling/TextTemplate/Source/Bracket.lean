import TextTemplate.Source.Span

/-!
# Brackets, quotes and top-level separators

The body of a directive ends at the brace that closes it. Brackets of the three kinds nest inside
it, and quoted strings, in which a backslash protects the next character, hide the brackets they
hold. A closer that is not the one expected next is an ordinary character.

A body can be cut at the separators that stand outside all strings and brackets. Here every opener
raises and every closer lowers the depth, whatever their kinds.

## Main definitions

* `closerOf` — the closer of an opener.
* `captureBody?` — the text up to the brace that closes it, and the text after that brace.
* `splitTopLevel` — the parts of a span between top-level separators.
-/

namespace TextTemplate

/-- The closer that belongs to an opener. -/
def closerOf : Char → Option Char
  | '{' => some '}'
  | '[' => some ']'
  | '(' => some ')'
  | _ => none

/-- The three closers. -/
def isCloser (c : Char) : Bool :=
  c == '}' || c == ']' || c == ')'

/-- The two quotes. -/
def isQuote (c : Char) : Bool :=
  c == '"' || c == '\''

/-- Where a reader of bracketed text stands: outside strings, inside a string that the given quote
will end, or inside one just after a backslash. -/
inductive Quoting where
  | plain
  | quoted (quote : Char)
  | escaped (quote : Char)
deriving DecidableEq, Inhabited

/-- Reads up to the closer that empties the stack of expected closers: the text before it and the
text after it. -/
def captureUpTo? : List Char → Quoting → List Char → Option (List Char × List Char)
  | _, _, [] => none
  | expected, .escaped quote, c :: cs =>
    (captureUpTo? expected (.quoted quote) cs).map fun (body, rest) => (c :: body, rest)
  | expected, .quoted quote, c :: cs =>
    let next : Quoting :=
      if c = '\\' then .escaped quote else if c = quote then .plain else .quoted quote
    (captureUpTo? expected next cs).map fun (body, rest) => (c :: body, rest)
  | expected, .plain, c :: cs =>
    if isQuote c then
      (captureUpTo? expected (.quoted c) cs).map fun (body, rest) => (c :: body, rest)
    else
      match closerOf c with
      | some closer =>
        (captureUpTo? (closer :: expected) .plain cs).map fun (body, rest) => (c :: body, rest)
      | none =>
        if isCloser c && expected.head? == some c then
          match expected.tail with
          | [] => some ([], cs)
          | outer =>
            (captureUpTo? outer .plain cs).map fun (body, rest) => (c :: body, rest)
        else
          (captureUpTo? expected .plain cs).map fun (body, rest) => (c :: body, rest)

/-- The body that starts here and the text after the brace that closes it, if one does. -/
def captureBody? (cs : List Char) : Option (List Char × List Char) :=
  captureUpTo? ['}'] .plain cs

/-- A captured text and what follows it are the text read, less the last closer. -/
theorem length_of_captureUpTo? {expected : List Char} {q : Quoting} {cs body rest : List Char}
    (h : captureUpTo? expected q cs = some (body, rest)) :
    body.length + rest.length + 1 = cs.length := by
  induction cs generalizing expected q body rest with
  | nil => simp [captureUpTo?] at h
  | cons c cs ih =>
    have hstep {e : List Char} {q : Quoting}
        (h : (captureUpTo? e q cs).map (fun (b, r) => (c :: b, r)) = some (body, rest)) :
        body.length + rest.length + 1 = (c :: cs).length := by
      obtain ⟨⟨b, r⟩, hb, heq⟩ := Option.map_eq_some_iff.1 h
      cases heq
      have := ih hb
      simp only [List.length_cons]
      omega
    cases q with
    | escaped quote => exact hstep h
    | quoted quote => exact hstep h
    | plain =>
      rw [captureUpTo?] at h
      split at h
      · exact hstep h
      · split at h
        · exact hstep h
        · split at h
          · split at h
            · cases h
              simp
            · exact hstep h
          · exact hstep h

theorem length_of_captureBody? {cs body rest : List Char}
    (h : captureBody? cs = some (body, rest)) : body.length + rest.length + 1 = cs.length :=
  length_of_captureUpTo? h

/-- Cuts a text that starts at byte `at` at its top-level separators; `start` is where the part
being read begins. -/
def splitTopLevelFrom (separator : Char) :
    Nat → Nat → Nat → Quoting → List Char → List Span
  | start, pos, _, _, [] => [⟨start, pos⟩]
  | start, pos, depth, .escaped quote, c :: cs =>
    splitTopLevelFrom separator start (pos + c.utf8Size) depth (.quoted quote) cs
  | start, pos, depth, .quoted quote, c :: cs =>
    let next : Quoting :=
      if c = '\\' then .escaped quote else if c = quote then .plain else .quoted quote
    splitTopLevelFrom separator start (pos + c.utf8Size) depth next cs
  | start, pos, depth, .plain, c :: cs =>
    let pos' := pos + c.utf8Size
    if isQuote c then
      splitTopLevelFrom separator start pos' depth (.quoted c) cs
    else if (closerOf c).isSome then
      splitTopLevelFrom separator start pos' (depth + 1) .plain cs
    else if isCloser c then
      splitTopLevelFrom separator start pos' (depth - 1) .plain cs
    else if c = separator ∧ depth = 0 then
      ⟨start, pos⟩ :: splitTopLevelFrom separator pos' pos' 0 .plain cs
    else
      splitTopLevelFrom separator start pos' depth .plain cs

/-- The parts of a span between the separators outside all strings and brackets. -/
def splitTopLevel (source : String) (span : Span) (separator : Char) : List Span :=
  splitTopLevelFrom separator span.start span.start 0 .plain (span.chars source)

end TextTemplate
