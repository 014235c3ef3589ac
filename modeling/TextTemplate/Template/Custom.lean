import TextTemplate.Character.Blank
import TextTemplate.Number.Checked

/-!
# Custom directives

Directives beyond the built-in ones. A compiler knows some of them by name; when it meets one, what
is registered under the name makes the directive for its body, or says why the body does not fit.
Any name can be registered with anything that makes directives; registering a name again replaces
what stood under it. Some directives open a block, which their `@end` closes.

## Main definitions

* `Custom` — a custom directive made for its body.
* `CustomKind` — a name, and what makes directives of that name.
* `Extensions` — the custom directives that a compiler knows.

## Main results

* `Extensions.find?_register` — a name leads to what was registered under it last.
-/

namespace TextTemplate

/-- A custom directive in a template. -/
inductive Custom where
  /-- Renders its block a number of times. -/
  | repeated (count : Int64)
  /-- Renders its block between brackets. -/
  | wrap
  /-- Renders its block if its body is true. -/
  | guarded
  /-- Shows the value of its body in capitals. -/
  | shout
  /-- Shows the type and text of a variable. -/
  | peek
  /-- Shows whether it has an end. -/
  | term
  /-- Writes a little and fails. -/
  | fail
deriving DecidableEq

/-- Whether a custom directive opens a block. -/
def Custom.opensBlock : Custom → Bool
  | repeated _ | wrap | guarded => true
  | shout | peek | term | fail => false

/-- A kind of custom directive: its name, and what makes the directive for its body or says why it
cannot be made. -/
structure CustomKind where
  name : String
  make : String → Except String Custom

namespace CustomKind

/-- Renders its block as often as the body says. -/
def repeated : CustomKind where
  name := "repeat"
  make body :=
    match Checked.read? (trim body) with
    | some count => .ok (.repeated count)
    | none => .error s!"bad count '{trim body}'"

/-- Never fits. -/
def reject : CustomKind := ⟨"reject", fun body => .error s!"rejected: {body}"⟩

/-- A kind that fits every body. -/
def always (name : String) (custom : Custom) : CustomKind := ⟨name, fun _ => .ok custom⟩

def wrap : CustomKind := always "wrap" .wrap
def guarded : CustomKind := always "when" .guarded
def shout : CustomKind := always "shout" .shout
def peek : CustomKind := always "peek" .peek
def term : CustomKind := always "term" .term
def fail : CustomKind := always "fail" .fail

/-- A kind for every custom directive, and one that never fits. -/
def all : List CustomKind :=
  [repeated, reject, wrap, guarded, shout, peek, term, fail]

end CustomKind

/-- The custom directives that a compiler knows. -/
abbrev Extensions := List CustomKind

namespace Extensions

/-- What is registered under a name. -/
def find? (extensions : Extensions) (name : String) : Option CustomKind :=
  List.find? (fun kind => kind.name == name) extensions

/-- The known directives and one more, which replaces what is registered under its name. -/
def register (extensions : Extensions) (kind : CustomKind) : Extensions :=
  kind :: extensions.filter fun other => other.name != kind.name

/-- A name leads to what was registered under it last. -/
theorem find?_register (extensions : Extensions) (kind : CustomKind) (name : String) :
    (extensions.register kind).find? name =
      if kind.name = name then some kind else extensions.find? name := by
  rw [register, find?, find?, List.find?_cons]
  by_cases h : kind.name = name
  · simp [h]
  · have hkept : (fun other : CustomKind =>
        decide ((other.name != kind.name) = true ∧ (other.name == name) = true)) =
        fun other => other.name == name := by
      funext other
      by_cases hname : other.name = name
      · simp [hname, Ne.symm h]
      · simp [hname]
    simp only [beq_false_of_ne h, if_neg h, List.find?_filter, hkept]

end Extensions

end TextTemplate
