import TextTemplate.Source.Directive
import TextTemplate.Template.Custom
import TextTemplate.Template.Slot

/-!
# What directives do

A directive either stands alone or opens a block, which reaches to its `@end`.

## Main definitions

* `Action` — what a directive that stands alone does.
* `Opener` — what a directive that opens a body does with it.
-/

namespace TextTemplate

/-- A variable of a loop and what it runs over. -/
structure LoopBinding where
  name : String
  source : Slot

/-- What a directive that stands alone does. -/
inductive Action where
  | expression (value : Slot)
  | eval (value : Slot)
  | code (value : Slot)
  | includeFile (target : Slot) (pre : Option Slot)
  | includeNamed (target : Slot) (pre : Option Slot)
  | comment
  | custom (directive : Custom)

/-- What a directive that opens a body does with it; a branch without a condition is always
taken. -/
inductive Opener where
  | conditional (condition : Option Slot)
  | loop (bindings : List LoopBinding) (separator : Option Slot)
  | declare (name : Slot)
  | custom (directive : Custom)

end TextTemplate
