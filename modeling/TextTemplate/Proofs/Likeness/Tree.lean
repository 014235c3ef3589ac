import TextTemplate.Proofs.Structure.Walk

/-!
# Trees that differ in when expressions are read

A source gives one tree in each mode. The two have the same shape; an expression that one has read
when the source was compiled is read in the other one when it is evaluated.

## Main definitions

* `Slot.Alike`: expressions of the same source, read at different times.
* `Body.Alike`, `Branches.Alike`: trees with such expressions.

## Main results

* `Body.Alike.bodyAt?`: the bodies of their blocks are alike, too.
-/

namespace TextTemplate

/-! ### Directives that differ in their expressions -/

section Alike

variable (alike : Slot → Slot → Prop)

/-- The two bind the same variable to such expressions. -/
def LoopBinding.Alike (left right : LoopBinding) : Prop :=
  left.name = right.name ∧ alike left.source right.source

/-- The two do the same with such expressions. -/
inductive Action.Alike : Action → Action → Prop
  | expression {left right : Slot} (value : alike left right) :
      Action.Alike (.expression left) (.expression right)
  | eval {left right : Slot} (value : alike left right) : Action.Alike (.eval left) (.eval right)
  | code {left right : Slot} (value : alike left right) : Action.Alike (.code left) (.code right)
  | includeFile {left right : Slot} {before before' : Option Slot} (target : alike left right)
      (pre : Option.Rel alike before before') :
      Action.Alike (.includeFile left before) (.includeFile right before')
  | includeNamed {left right : Slot} {before before' : Option Slot} (target : alike left right)
      (pre : Option.Rel alike before before') :
      Action.Alike (.includeNamed left before) (.includeNamed right before')
  | comment : Action.Alike .comment .comment
  | custom (directive : Custom) : Action.Alike (.custom directive) (.custom directive)

/-- The two do the same to their bodies with such expressions. -/
inductive Opener.Alike : Opener → Opener → Prop
  | conditional {left right : Option Slot} (condition : Option.Rel alike left right) :
      Opener.Alike (.conditional left) (.conditional right)
  | loop {bindings bindings' : List LoopBinding} {left right : Option Slot}
      (header : List.Forall₂ (LoopBinding.Alike alike) bindings bindings')
      (separator : Option.Rel alike left right) :
      Opener.Alike (.loop bindings left) (.loop bindings' right)
  | declare {left right : Slot} (name : alike left right) :
      Opener.Alike (.declare left) (.declare right)
  | custom (directive : Custom) : Opener.Alike (.custom directive) (.custom directive)

end Alike

section Refl

variable {alike : Slot → Slot → Prop} (hrefl : ∀ slot, alike slot slot)

include hrefl

theorem rel_refl_of_slots : ∀ slot : Option Slot, Option.Rel alike slot slot
  | none => .none
  | some slot => .some (hrefl slot)

theorem Action.Alike.refl : ∀ action : Action, Action.Alike alike action action
  | .expression slot => .expression (hrefl slot)
  | .eval slot => .eval (hrefl slot)
  | .code slot => .code (hrefl slot)
  | .includeFile target pre => .includeFile (hrefl target) (rel_refl_of_slots hrefl pre)
  | .includeNamed target pre => .includeNamed (hrefl target) (rel_refl_of_slots hrefl pre)
  | .comment => .comment
  | .custom directive => .custom directive

theorem Opener.Alike.refl : ∀ opener : Opener, Opener.Alike alike opener opener
  | .conditional condition => .conditional (rel_refl_of_slots hrefl condition)
  | .loop _ separator =>
    .loop (List.forall₂_same.2 fun binding _ => ⟨rfl, hrefl binding.source⟩)
      (rel_refl_of_slots hrefl separator)
  | .declare name => .declare (hrefl name)
  | .custom directive => .custom directive

end Refl

/-! ### Trees of one source -/

section Source

variable (source : String)

/-- The two are the same expression; one may have been read while the other one is still to be
read. -/
inductive Slot.Alike : Slot → Slot → Prop
  | same (slot : Slot) : Slot.Alike slot slot
  | later {span : Span} {expr : Expr} (reads : Slot.read source span = .ok expr) :
      Slot.Alike (.parsed span expr) (.raw span)

mutual

/-- The two trees have the same shape and such expressions. -/
inductive Body.Alike : Body → Body → Prop
  | done : Body.Alike .done .done
  | text {rest rest' : Body} (spans : List Span) (follows : Body.Alike rest rest') :
      Body.Alike (.text spans rest) (.text spans rest')
  | action {left right : Action} {rest rest' : Body} (d : Directive)
      (alike : Action.Alike (Slot.Alike source) left right) (follows : Body.Alike rest rest') :
      Body.Alike (.action d left rest) (.action d right rest')
  | block {left right : Opener} {body body' rest rest' : Body} {branches branches' : Branches}
      (d : Directive) (alike : Opener.Alike (Slot.Alike source) left right)
      (inside : Body.Alike body body') (others : Branches.Alike branches branches')
      (follows : Body.Alike rest rest') :
      Body.Alike (.block d left body branches rest) (.block d right body' branches' rest')

/-- The rests of two blocks have the same shape and such expressions. -/
inductive Branches.Alike : Branches → Branches → Prop
  | closed (closer : Directive) : Branches.Alike (.closed closer) (.closed closer)
  | branch {left right : Option Slot} {body body' : Body} {more more' : Branches} (d : Directive)
      (condition : Option.Rel (Slot.Alike source) left right) (inside : Body.Alike body body')
      (others : Branches.Alike more more') :
      Branches.Alike (.branch d left body more) (.branch d right body' more')

end

end Source

variable {source : String}

mutual

theorem Body.Alike.refl : ∀ body : Body, Body.Alike source body body
  | .done => .done
  | .text spans rest => .text spans (Body.Alike.refl rest)
  | .action d action rest => .action d (Action.Alike.refl .same action) (Body.Alike.refl rest)
  | .block d opener body branches rest =>
    .block d (Opener.Alike.refl .same opener) (Body.Alike.refl body) (Branches.Alike.refl branches)
      (Body.Alike.refl rest)

theorem Branches.Alike.refl : ∀ branches : Branches, Branches.Alike source branches branches
  | .closed closer => .closed closer
  | .branch d condition body more =>
    .branch d (rel_refl_of_slots .same condition) (Body.Alike.refl body) (Branches.Alike.refl more)

end

/-! ### The shape of trees that are alike -/

mutual

theorem Body.Alike.width_eq {left right : Body} : Body.Alike source left right →
    left.width = right.width
  | .done => rfl
  | .text _ hrest => by rw [Body.width, Body.width, hrest.width_eq]
  | .action _ _ hrest => by rw [Body.width, Body.width, hrest.width_eq]
  | .block _ _ hbody hbranches hrest => by
    rw [Body.width, Body.width, hbody.width_eq, hbranches.width_eq, hrest.width_eq]

theorem Branches.Alike.width_eq {left right : Branches} : Branches.Alike source left right →
    left.width = right.width
  | .closed _ => rfl
  | .branch _ _ hbody hmore => by
    rw [Branches.width, Branches.width, hbody.width_eq, hmore.width_eq]

end

theorem Branches.Alike.closer_eq {left right : Branches} : Branches.Alike source left right →
    left.closer = right.closer
  | .closed _ => rfl
  | .branch _ _ _ hmore => by rw [Branches.closer, Branches.closer, hmore.closer_eq]

mutual

/-- The bodies of the blocks at a place are alike, or there is none in either tree. -/
theorem Body.Alike.bodyAt? {left right : Body} : ∀ {n : Nat}, Body.Alike source left right →
    Option.Rel (Body.Alike source) (left.bodyAt? n) (right.bodyAt? n)
  | _, .done => .none
  | 0, .text _ _ => .none
  | n + 1, .text _ hrest => hrest.bodyAt?
  | 0, .action _ _ _ => .none
  | n + 1, .action _ _ hrest => hrest.bodyAt?
  | 0, .block _ _ hbody _ _ => .some hbody
  | n + 1, .block _ _ hbody hbranches hrest => by
    rw [Body.bodyAt?, Body.bodyAt?, ← hbody.width_eq, ← hbranches.width_eq]
    split_ifs
    · exact hbody.bodyAt?
    · exact hbranches.bodyAt?
    · exact hrest.bodyAt?

theorem Branches.Alike.bodyAt? {left right : Branches} : ∀ {n : Nat},
    Branches.Alike source left right →
      Option.Rel (Body.Alike source) (left.bodyAt? n) (right.bodyAt? n)
  | _, .closed _ => .none
  | 0, .branch _ _ _ _ => .none
  | 1, .branch _ _ hbody _ => .some hbody
  | n + 2, .branch _ _ hbody hmore => by
    rw [Branches.bodyAt?, Branches.bodyAt?, ← hbody.width_eq]
    split_ifs
    · exact hbody.bodyAt?
    · exact hmore.bodyAt?

end

end TextTemplate
