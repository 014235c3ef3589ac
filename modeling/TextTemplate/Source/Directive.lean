import TextTemplate.Source.Bracket

/-!
# The directives of a source text

A directive is a sigil, a possibly empty name, and a body in braces: `@name{body}` or
`$name{body}`. A name is made of ASCII letters, digits and underscores and does not start with a
digit. A doubled sigil in front of a name and a brace is an escape: it stands for one sigil, and
what follows it is plain text.

`Outline.ofSource` cuts a source into the pieces between which nothing is left but the second
sigils of escapes. When the body of a directive is not closed, the pieces before it are followed by
that directive's name and place.

## Main definitions

* `Directive`, `Piece`, `Outline` — what a source is made of.
* `directiveHead?` — the name that a directive head gives, and the text after its brace.
* `Outline.ofSource` — the pieces of a source, in order.
-/

namespace TextTemplate

/-- A directive in its source: its name, the place of its sigil, the span of the whole, and the
span between its braces. -/
structure Directive where
  name : String
  position : Position
  span : Span
  body : Span
deriving DecidableEq, Inhabited

/-- A piece of a source: a span of literal text, or a directive. -/
inductive Piece where
  | text (span : Span)
  | directive (d : Directive)
deriving DecidableEq

/-- The pieces of a source in order and, if the last directive's body is not closed, that
directive's name and place. -/
structure Outline where
  pieces : List Piece
  unterminated : Option (String × Position)
deriving DecidableEq

/-- The two characters that start a directive. -/
def isSigil (c : Char) : Bool :=
  c == '@' || c == '$'

/-- The characters of a directive's name. -/
def isDirectiveNamePart (c : Char) : Bool :=
  c.isAlphanum || c == '_'

/-- If the text starts with a directive head, a sigil, a name and an opening brace: the name and
the text after the brace. -/
def directiveHead? : List Char → Option (List Char × List Char)
  | [] => none
  | c :: cs =>
    if isSigil c && !(cs.head?.any Char.isDigit) then
      match cs.dropWhile isDirectiveNamePart with
      | '{' :: rest => some (cs.takeWhile isDirectiveNamePart, rest)
      | _ => none
    else
      none

/-- Whether the text starts with an escape: a sigil in front of a directive head with the same
sigil. -/
def startsWithEscape : List Char → Bool
  | c :: d :: cs => isSigil c && c == d && (directiveHead? (d :: cs)).isSome
  | _ => false

theorem length_lt_of_directiveHead? {cs name rest : List Char}
    (h : directiveHead? cs = some (name, rest)) : rest.length < cs.length := by
  cases cs with
  | nil => simp [directiveHead?] at h
  | cons c cs =>
    rw [directiveHead?] at h
    split at h
    · split at h
      · rename_i tail heq
        cases h
        have := (List.dropWhile_sublist isDirectiveNamePart : List.Sublist _ cs).length_le
        rw [heq] at this
        simp only [List.length_cons] at this ⊢
        omega
      · cases h
    · cases h

/-- The piece of literal text from `start` to `stop`, if there is any text between them. -/
def textPiece (start stop : Nat) : List Piece :=
  if start < stop then [.text ⟨start, stop⟩] else []

namespace Outline

/-- More pieces in front. -/
def prepend (pieces : List Piece) (outline : Outline) : Outline :=
  { outline with pieces := pieces ++ outline.pieces }

/-- The pieces of the text `cs`, which starts at `here`; the literal text being read started at
byte `start`. -/
def scan (start : Nat) (here : Position) (cs : List Char) : Outline :=
  match cs with
  | [] => ⟨textPiece start here.offset, none⟩
  | c :: rest =>
    if startsWithEscape (c :: rest) then
      let kept := here.step c
      let skipped := kept.step c
      prepend (textPiece start kept.offset) (scan skipped.offset skipped rest.tail)
    else
      match _head : directiveHead? (c :: rest) with
      | none => scan start (here.step c) rest
      | some (name, inside) =>
        let opened := (name.foldl Position.step (here.step c)).step '{'
        match _body : captureBody? inside with
        | none => ⟨textPiece start here.offset, some (String.ofList name, here)⟩
        | some (body, after) =>
          let closing := body.foldl Position.step opened
          let closed := closing.step '}'
          let d : Directive :=
            ⟨String.ofList name, here, ⟨here.offset, closed.offset⟩,
              ⟨opened.offset, closing.offset⟩⟩
          prepend (textPiece start here.offset ++ [.directive d])
            (scan closed.offset closed after)
termination_by cs.length
decreasing_by
  · simp only [List.length_tail, List.length_cons]
    omega
  · simp
  · have h₁ := length_lt_of_directiveHead? _head
    have h₂ := length_of_captureBody? _body
    omega

/-- The pieces of a source. -/
def ofSource (source : String) : Outline :=
  scan 0 Position.start source.toList

end Outline

end TextTemplate
