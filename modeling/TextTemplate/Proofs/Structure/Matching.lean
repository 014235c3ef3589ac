import TextTemplate.Proofs.Grammar.Acceptance
import TextTemplate.Template.Basic

/-!
# The tree of a template

Every directive that ends a block or a branch belongs to the directive that opened it. Read from
the last phrase to the first, a directive that opens a block meets the rest of its own block and
no other, so that one pass matches them all.

## Main definitions

* `Unopened`: what is known of the phrases from a place on.
* `Unopened.add`: what is known with one more phrase in front.
* `Template.tree`: the tree of a template.

## Main results

* `Body.Derives.foldrM_add`: the pass finds the tree of a derivation.
* `Template.toList_nodes`: the nodes of a template are those of its tree.
* `Program.isPureExpression_iff`: the tree of a template that is one expression.
-/

namespace TextTemplate

/-- One body behind another one. -/
def Body.append : Body → Body → Body
  | .done, last => last
  | .text spans rest, last => .text spans (rest.append last)
  | .action d a rest, last => .action d a (rest.append last)
  | .block d opener body branches rest, last => .block d opener body branches (rest.append last)

@[simp] theorem Body.append_done (body : Body) : body.append .done = body := by
  match body with
  | .done => rfl
  | .text _ rest => rw [append, rest.append_done]
  | .action _ _ rest => rw [append, rest.append_done]
  | .block _ _ _ _ rest => rw [append, rest.append_done]

/-- The directive that ends the block. -/
def Branches.closer : Branches → Directive
  | .closed closer => closer
  | .branch _ _ _ more => more.closer

/-- What is known of the phrases from a place on: the body that starts there, and of the blocks
that are ended but not opened behind it, the innermost first, the rest of the block and the body
that follows the block. -/
structure Unopened where
  body : Body
  ended : List (Branches × Body)

namespace Unopened

/-- There are no more phrases. -/
def nothing : Unopened := ⟨.done, []⟩

variable (compiler : Compiler) (source : String)

/-- What is known with one more phrase in front. -/
def add (phrase : Phrase) (unopened : Unopened) : Option Unopened := do
  match phrase with
  | .text spans => return { unopened with body := .text spans unopened.body }
  | .directive d =>
    match ← (d.role compiler source).toOption, unopened.ended with
    | .standsAlone action, _ => return { unopened with body := .action d action unopened.body }
    | .ends, ended => return ⟨.done, (.closed d, unopened.body) :: ended⟩
    | .goesOn, (branches, last) :: ended =>
      let condition ← (d.branchCondition compiler source).toOption
      return ⟨.done, (.branch d condition unopened.body branches, last) :: ended⟩
    | .opens opener, (branches, last) :: ended =>
      let opener ← (branches.closer.ending compiler source opener).toOption
      return ⟨.block d opener unopened.body branches last, ended⟩
    | _, [] => none

end Unopened

/-- The body that phrases are, if every block is opened and ended in them. -/
def Outline.tree? (compiler : Compiler) (source : String) (outline : Outline) : Option Body :=
  match outline.phrases.foldrM (Unopened.add compiler source) Unopened.nothing with
  | some ⟨body, []⟩ => some body
  | _ => none

/-- The tree of a template. -/
def Template.tree (template : Template) : Body :=
  ((Outline.ofSource template.source).tree? template.compiler template.source).getD .done

section Derivation

variable {compiler : Compiler} {source : String}

/-! ### Adding one phrase -/

namespace Unopened

variable {d : Directive} {unopened : Unopened}

private theorem add_standsAlone {action : Action}
    (h : d.Reads compiler source (.standsAlone action)) :
    unopened.add compiler source (.directive d) =
      some { unopened with body := .action d action unopened.body } := by
  simp [add, Directive.role_eq_ok_iff.2 h, Except.toOption]

private theorem add_ends (h : d.Reads compiler source .ends) :
    unopened.add compiler source (.directive d) =
      some ⟨.done, (.closed d, unopened.body) :: unopened.ended⟩ := by
  simp [add, Directive.role_eq_ok_iff.2 h, Except.toOption]

private theorem add_goesOn {condition : Option Slot} {body last : Body} {branches : Branches}
    {ended : List (Branches × Body)} (h : d.Reads compiler source .goesOn)
    (hcontinues : d.Continues compiler source condition) :
    add compiler source (.directive d) ⟨body, (branches, last) :: ended⟩ =
      some ⟨.done, (.branch d condition body branches, last) :: ended⟩ := by
  simp [add, Directive.role_eq_ok_iff.2 h, Directive.branchCondition_eq_ok_iff.2 hcontinues,
    Except.toOption]

private theorem add_opens {opener opener' : Opener} {body last : Body} {branches : Branches}
    {ended : List (Branches × Body)} (h : d.Reads compiler source (.opens opener))
    (hends : branches.closer.Ends compiler source opener opener') :
    add compiler source (.directive d) ⟨body, (branches, last) :: ended⟩ =
      some ⟨.block d opener' body branches last, ended⟩ := by
  simp [add, Directive.role_eq_ok_iff.2 h, Directive.ending_eq_ok_iff.2 hends, Except.toOption]

end Unopened

/-! ### The tree of a derivation -/

/-- The last directive of a block settles its opener. -/
theorem Branches.Derives.closer_ends {opener opener' : Opener} {phrases : List Phrase} {body : Body}
    {branches : Branches} : Branches.Derives compiler source opener phrases opener' body branches →
      branches.closer.Ends compiler source opener opener' := by
  intro h
  cases h with
  | closed _ _ hends => exact hends
  | branch => exact .conditional

mutual

/-- The pass finds the tree of a derivation, and puts what was found behind it last. -/
theorem Body.Derives.foldrM_add {phrases : List Phrase} {body : Body} (unopened : Unopened) :
    body.Derives compiler source phrases →
      phrases.foldrM (Unopened.add compiler source) unopened =
        some { unopened with body := body.append unopened.body }
  | .done => rfl
  | .text hrest => by
    rw [List.foldrM_cons, hrest.foldrM_add unopened]
    rfl
  | .action hreads hrest => by
    rw [List.foldrM_cons, hrest.foldrM_add unopened]
    exact Unopened.add_standsAlone hreads
  | .block hreads hblock hrest => by
    rw [List.foldrM_cons, List.foldrM_append, hrest.foldrM_add unopened, Option.bind_eq_bind,
      Option.bind_some, hblock.foldrM_add]
    exact Unopened.add_opens hreads hblock.closer_ends

/-- In front of what follows a block the pass finds the rest of the block. -/
theorem Branches.Derives.foldrM_add {opener opener' : Opener} {phrases : List Phrase} {body : Body}
    {branches : Branches} (unopened : Unopened) :
    Branches.Derives compiler source opener phrases opener' body branches →
      phrases.foldrM (Unopened.add compiler source) unopened =
        some ⟨body, (branches, unopened.body) :: unopened.ended⟩
  | .closed hbody hreads _ => by
    rw [List.foldrM_append, List.foldrM_cons, List.foldrM_nil, pure_bind,
      Unopened.add_ends hreads, Option.bind_eq_bind, Option.bind_some, hbody.foldrM_add,
      Body.append_done]
  | .branch hbody hreads hcontinues hmore => by
    rw [List.foldrM_append, List.foldrM_cons, hmore.foldrM_add unopened, Option.bind_eq_bind,
      Option.bind_some, Unopened.add_goesOn hreads hcontinues, Option.bind_some, hbody.foldrM_add,
      Body.append_done]

end

theorem Outline.tree?_eq_of_derives {outline : Outline} {body : Body}
    (h : body.Derives compiler source outline.phrases) :
    outline.tree? compiler source = some body := by
  rw [tree?, h.foldrM_add Unopened.nothing]
  simp [Unopened.nothing]

end Derivation

/-! ### Templates of one expression -/

private theorem Body.eq_done_of_width {body : Body} (h : body.width = 0) : body = .done := by
  cases body with
  | done => rfl
  | text | action | block => simp [Body.width] at h

private theorem Program.pureExpression?_eq_none {program : Program} (h : program.nodes.size ≠ 2) :
    program.pureExpression? = none := by
  rw [pureExpression?]
  split
  · rename_i hnodes
    simp [← Array.length_toList, hnodes] at h
  · rfl

/-- A program is one expression directive and nothing else when its tree is that directive, and the
directive is the whole source. -/
theorem Program.isPureExpression_iff {source : String} {body : Body} {last : Node} :
    (⟨source, (body.layout 0 ++ [last]).toArray⟩ : Program).isPureExpression = true ↔
      ∃ d value, body = .action d (.expression value) .done ∧
        d.span = ⟨0, source.utf8ByteSize⟩ := by
  constructor
  · intro h
    by_cases hwidth : body.width = 1
    · cases body with
      | done => simp [Body.width] at hwidth
      | text spans rest =>
        obtain rfl : rest = .done := Body.eq_done_of_width (by simpa [Body.width] using hwidth)
        cases h
      | action d a rest =>
        obtain rfl : rest = .done := Body.eq_done_of_width (by simpa [Body.width] using hwidth)
        cases a with
        | expression value =>
          refine ⟨d, value, rfl, ?_⟩
          by_contra hspan
          simp [isPureExpression, pureExpression?, Body.layout, Node.followedBy, Directive.node,
            hspan] at h
        | _ => cases h
      | block d opener inner branches rest =>
        simp only [Body.width] at hwidth
        omega
    · rw [isPureExpression, pureExpression?_eq_none (by simpa using hwidth)] at h
      cases h
  · rintro ⟨d, value, rfl, hspan⟩
    simp [isPureExpression, pureExpression?, Body.layout, Node.followedBy, Directive.node, hspan]

/-! ### The tree of a template -/

namespace Template

variable (template : Template)

/-- The phrases of a template are a body, and the nodes of that body are those of the template. -/
theorem derives_tree_and_toList_nodes :
    template.tree.Derives template.compiler template.source
        (Outline.ofSource template.source).phrases ∧
      template.program.nodes.toList =
        template.tree.layout 0 ++ [finishNode template.source.utf8ByteSize] := by
  obtain ⟨-, body, hbody, hprogram⟩ := compile_eq_ok_iff.1 template.compiled
  have htree : template.tree = body := by
    rw [tree, source, Outline.tree?_eq_of_derives hbody, Option.getD_some]
  have hnodes := congrArg (fun program : Program => program.nodes.toList) hprogram
  rw [htree]
  exact ⟨hbody, hnodes⟩

theorem derives_tree :
    template.tree.Derives template.compiler template.source
      (Outline.ofSource template.source).phrases :=
  template.derives_tree_and_toList_nodes.1

theorem toList_nodes :
    template.program.nodes.toList =
      template.tree.layout 0 ++ [finishNode template.source.utf8ByteSize] :=
  template.derives_tree_and_toList_nodes.2

end Template

end TextTemplate
