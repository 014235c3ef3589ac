import TextTemplate.Proofs.Structure.Matching

/-!
# Custom directives and who knows them

A compiler needs to know the custom directives of a source, and of what it knows nothing else
matters. A source without any compiles in the same way whatever is known; and where nothing is
known, a source that others compile is refused at the first one, because all that stands in front
of it is taken as before.

## Main definitions

* `Outline.customs`, `Template.customs`: the custom directives of a source, in their order.
* `Node.custom?`: the custom directive that a node stands for.

## Main results

* `Program.compile_congr`: what is known does not matter where there is none.
* `Program.compile_eq_unknown`: the first one is refused where nothing is known.
* `Template.filterMap_custom_nodes`: the custom directives of a template are those of its nodes.
-/

namespace TextTemplate

open Attempt

/-- The directive itself, if its name has no meaning of its own. -/
def Directive.custom? (d : Directive) : Option Directive :=
  if d.name ∈ builtInNames then none else some d

/-- The custom directive that a piece is. -/
def Piece.custom? : Piece → Option Directive
  | .text _ => none
  | .directive d => d.custom?

/-- The custom directives of a source, in their order. -/
def Outline.customs (outline : Outline) : List Directive :=
  outline.pieces.filterMap Piece.custom?

/-- The custom directives of a template, in their order. -/
def Template.customs (template : Template) : List Directive :=
  (Outline.ofSource template.source).customs

namespace Directive

variable {d : Directive}

private theorem custom?_of_mem (h : d.name ∈ builtInNames) : d.custom? = none :=
  if_pos h

private theorem custom?_of_notMem (h : d.name ∉ builtInNames) : d.custom? = some d :=
  if_neg h

private theorem custom?_eq_none_iff : d.custom? = none ↔ d.name ∈ builtInNames := by
  simp [custom?]

private theorem custom?_eq_some_iff {custom : Directive} :
    d.custom? = some custom ↔ d.name ∉ builtInNames ∧ d = custom := by
  simp [custom?]

end Directive

/-! ### What is known -/

section Known

variable {mode : Mode} (known known' : Extensions) {source : String}

/-- The role of a directive whose name has a meaning of its own does not depend on what is known. -/
theorem Directive.role_congr {d : Directive} (h : d.name ∈ builtInNames) :
    d.role ⟨mode, known⟩ source = d.role ⟨mode, known'⟩ source := by
  rcases name_cases d.name with ⟨make, hn⟩ | ⟨make, hn⟩ | hn | hn | hn | hn | hn
  · rw [role_of_expressionRole? hn, role_of_expressionRole? hn]
    rfl
  · rw [role_of_targetRole? hn, role_of_targetRole? hn]
    rfl
  · rw [role_of_loop hn, role_of_loop hn]
    rfl
  · rw [role_of_comment hn, role_of_comment hn]
  · rw [role_of_goesOn hn, role_of_goesOn hn]
  · rw [role_of_ends hn, role_of_ends hn]
  · exact absurd h hn

/-- A custom directive has no role where nothing is known. -/
theorem Directive.role_eq_unknown {d : Directive} (h : d.name ∉ builtInNames) :
    d.role ⟨mode, []⟩ source = .error (d.error (.unknownDirective d.name)) :=
  role_eq_error_iff.2 ⟨_, .unknown h rfl, rfl⟩

/-- A piece that is no custom directive is taken in the same way whatever is known. -/
theorem Assembly.add_congr {piece : Piece} (h : piece.custom? = none) (a : Assembly) :
    a.add ⟨mode, known⟩ source piece = a.add ⟨mode, known'⟩ source piece := by
  cases piece with
  | text span => rfl
  | directive d =>
    rw [add, Directive.role_congr known known' (Directive.custom?_eq_none_iff.1 h)]
    rfl

/-- A custom directive is refused where nothing is known. -/
theorem Assembly.add_eq_unknown {piece : Piece} {d : Directive} (h : piece.custom? = some d)
    (a : Assembly) :
    a.add ⟨mode, []⟩ source piece = .error (d.error (.unknownDirective d.name)) := by
  cases piece with
  | text span => cases h
  | directive d' =>
    obtain ⟨hname, rfl⟩ := Directive.custom?_eq_some_iff.1 h
    rw [add, Directive.role_eq_unknown hname]
    rfl

namespace Outline

variable {outline : Outline}

/-- Without custom directives, what is known does not matter. -/
theorem arena_congr (h : outline.customs = []) :
    outline.arena ⟨mode, known⟩ source = outline.arena ⟨mode, known'⟩ source := by
  have hpieces := List.filterMap_eq_nil_iff.1 h
  rw [arena, arena, foldlM_congr fun piece hpiece a =>
    Assembly.add_congr known known' (hpieces piece hpiece) a]

/-- Where nothing is known, a source that others compile is refused at its first custom directive:
all that stands in front of it is taken as they take it. -/
theorem arena_eq_unknown {d : Directive} {others : List Directive} {arena : Arena}
    (h : outline.customs = d :: others) (hknown : outline.arena ⟨mode, known⟩ source = .ok arena) :
    outline.arena ⟨mode, []⟩ source = .error (d.error (.unknownDirective d.name)) := by
  obtain ⟨before, piece, after, hpieces, hbefore, hpiece, -⟩ := List.filterMap_eq_cons_iff.1 h
  rw [Outline.arena, hpieces, List.foldlM_append, bind_eq_ok_iff] at hknown
  obtain ⟨assembly, hknown, -⟩ := hknown
  obtain ⟨reached, hreached, -⟩ := bind_eq_ok_iff.1 hknown
  rw [foldlM_congr fun piece hpiece a => Assembly.add_congr known [] (hbefore piece hpiece) a]
    at hreached
  rw [Outline.arena, hpieces, List.foldlM_append, hreached, ok_bind, List.foldlM_cons,
    Assembly.add_eq_unknown hpiece]
  rfl

end Outline

/-! ### Programs and templates -/

namespace Program

variable {d : Directive} {others : List Directive} {program : Program}

theorem compile_congr (h : (Outline.ofSource source).customs = []) :
    compile ⟨mode, known⟩ source = compile ⟨mode, known'⟩ source := by
  rw [compile, compile, Outline.arena_congr known known' h]

theorem compile_eq_unknown (h : (Outline.ofSource source).customs = d :: others)
    (hknown : compile ⟨mode, known⟩ source = .ok program) :
    compile ⟨mode, []⟩ source = .error (d.error (.unknownDirective d.name)) := by
  obtain ⟨arena, harena, -⟩ := bind_eq_ok_iff.1 hknown
  rw [compile, Outline.arena_eq_unknown known h harena]
  rfl

end Program

end Known

/-- A template compiled without extensions has no custom directives. -/
theorem Template.customs_eq_nil {template : Template} (h : template.compiler.extensions = []) :
    template.customs = [] := by
  obtain ⟨program, origin, ⟨mode, extensions⟩, cache, hcompiled⟩ := template
  obtain rfl : extensions = [] := h
  cases hcustoms : (Outline.ofSource program.source).customs with
  | nil => exact hcustoms
  | cons d others =>
    have hrefused := Program.compile_eq_unknown [] hcustoms hcompiled
    cases hcompiled.symm.trans hrefused

/-! ### The nodes of custom directives -/

/-- Whether a directive with this role is a custom one. -/
def Role.isCustom : Role → Bool
  | .opens (.custom _) => true
  | .standsAlone (.custom _) => true
  | _ => false

/-- Where the custom directive that a node stands for was written, and its name. -/
def Node.custom? (node : Node) : Option (Span × String) :=
  match node.kind with
  | .action (.custom _) => some (node.span, node.name)
  | .block (.custom _) _ _ _ => some (node.span, node.name)
  | _ => none

/-- The custom directive that a phrase is. -/
def Phrase.custom? : Phrase → Option (Span × String)
  | .text _ => none
  | .directive d => d.custom?.map fun d => (d.span, d.name)

section Nodes

variable {compiler : Compiler} {source : String} {d : Directive}

/-- A directive has the role of a custom one when its name has no meaning of its own. -/
theorem Directive.isCustom_of_reads {role : Role} (h : d.Reads compiler source role) :
    role.isCustom = true ↔ d.name ∉ builtInNames := by
  cases h with
  | expression hn =>
    unfold expressionRole? at hn
    split at hn <;> cases hn <;> simp [Role.isCustom, builtInNames, *]
  | target hn =>
    unfold targetRole? at hn
    split at hn <;> cases hn <;> simp [Role.isCustom, builtInNames, *]
  | loop hn | comment hn | ends hn => simp [Role.isCustom, builtInNames, hn]
  | goesOn hn => rcases hn with hn | hn <;> simp [Role.isCustom, builtInNames, hn]
  | custom hother =>
    refine iff_of_true ?_ hother
    split <;> rfl

private theorem Phrase.custom?_of_reads {role : Role} (h : d.Reads compiler source role) :
    (Phrase.directive d).custom? = if role.isCustom then some (d.span, d.name) else none := by
  have hrole := Directive.isCustom_of_reads h
  split_ifs with hcustom
  · rw [custom?, Directive.custom?_of_notMem (hrole.1 hcustom), Option.map_some]
  · rw [custom?, Directive.custom?_of_mem (not_not.1 fun hname => hcustom (hrole.2 hname)),
      Option.map_none]

private theorem Node.custom?_action (d : Directive) (action : Action) (next : Nat) :
    ((d.node (.action action)).followedBy next).custom? =
      if (Role.standsAlone action).isCustom then some (d.span, d.name) else none := by
  cases action <;> rfl

private theorem Node.custom?_blockNode (d : Directive) (opener : Opener) (body : Body)
    (branches : Branches) (place after terminus : Nat) :
    (blockNode d opener body branches place after terminus).custom? =
      if (Role.opens opener).isCustom then some (d.span, d.name) else none := by
  cases opener <;> rfl

/-- A block is that of a custom directive from its opening to its end. -/
theorem Directive.Ends.isCustom {opener opener' : Opener}
    (h : d.Ends compiler source opener opener') :
    (Role.opens opener').isCustom = (Role.opens opener).isCustom := by
  cases h <;> rfl

private theorem Branches.Derives.isCustom {opener opener' : Opener} {phrases : List Phrase}
    {body : Body} {branches : Branches}
    (h : Branches.Derives compiler source opener phrases opener' body branches) :
    (Role.opens opener').isCustom = (Role.opens opener).isCustom := by
  cases h with
  | closed _ _ hends => exact hends.isCustom
  | branch => rfl

mutual

/-- The custom directives among the nodes of a body are those of its phrases. -/
theorem Body.Derives.filterMap_custom_layout {phrases : List Phrase} {body : Body} (place : Nat) :
    body.Derives compiler source phrases →
      (body.layout place).filterMap Node.custom? = phrases.filterMap Phrase.custom?
  | .done => rfl
  | .text hrest => by
    rw [Body.layout, List.filterMap_cons, List.filterMap_cons, hrest.filterMap_custom_layout]
    rfl
  | .action hreads hrest => by
    rw [Body.layout, List.filterMap_cons, List.filterMap_cons, hrest.filterMap_custom_layout,
      Node.custom?_action, Phrase.custom?_of_reads hreads]
  | .block hreads hblock hrest => by
    rw [Body.layout, List.filterMap_cons, List.filterMap_cons, List.filterMap_append,
      hblock.filterMap_custom_layout, List.filterMap_append, hrest.filterMap_custom_layout,
      Node.custom?_blockNode, Phrase.custom?_of_reads hreads, hblock.isCustom]

/-- So are those among the nodes of the rest of a block. -/
theorem Branches.Derives.filterMap_custom_layout {opener opener' : Opener} {phrases : List Phrase}
    {body : Body} {branches : Branches} : ∀ place terminus after : Nat,
    Branches.Derives compiler source opener phrases opener' body branches →
      (body.layout place ++ branches.layout terminus after).filterMap Node.custom? =
        phrases.filterMap Phrase.custom?
  | _, _, _, .closed hbody hreads _ => by
    rw [List.filterMap_append, List.filterMap_append, hbody.filterMap_custom_layout,
      List.filterMap_cons, Phrase.custom?_of_reads hreads]
    rfl
  | _, _, _, .branch hbody hreads _ hmore => by
    rw [List.filterMap_append, List.filterMap_append, hbody.filterMap_custom_layout,
      List.filterMap_cons, Phrase.custom?_of_reads hreads, Branches.layout, List.filterMap_cons,
      List.filterMap_cons, hmore.filterMap_custom_layout]
    rfl

end

end Nodes

/-! ### Phrases and pieces -/

private theorem filterMap_custom_heldBack (spans : List Span) {comments : List Directive}
    (h : ∀ d ∈ comments, d.custom? = none) :
    (heldBack spans comments).filterMap Phrase.custom? = [] := by
  rw [List.filterMap_eq_nil_iff]
  intro phrase hphrase
  cases phrase with
  | text => rfl
  | directive d =>
    rw [Phrase.custom?, h d (directive_mem_of_mem_heldBack hphrase), Option.map_none]

/-- Joining texts moves comments only. -/
theorem filterMap_custom_joinTexts (pieces : List Piece) (spans : List Span)
    {comments : List Directive} (h : ∀ d ∈ comments, d.custom? = none) :
    (joinTexts spans comments pieces).filterMap Phrase.custom? =
      (pieces.filterMap Piece.custom?).map fun d => (d.span, d.name) := by
  induction pieces generalizing spans comments with
  | nil => exact filterMap_custom_heldBack spans h
  | cons piece pieces ih =>
    cases piece with
    | text span => exact ih (span :: spans) h
    | directive d =>
      rw [joinTexts]
      split_ifs with hcomment
      · have hd : d.custom? = none :=
          Directive.custom?_of_mem (by rw [hcomment.1]; decide)
        rw [ih spans (List.forall_mem_cons.2 ⟨hd, h⟩), List.filterMap_cons, Piece.custom?, hd]
      · rw [List.filterMap_append, filterMap_custom_heldBack spans h, List.nil_append,
          List.filterMap_cons, List.filterMap_cons, ih [] (List.forall_mem_nil _), Phrase.custom?,
          Piece.custom?]
        cases d.custom? <;> rfl

/-- The nodes of custom directives are, in their order, those of the custom directives that the
source has. -/
theorem Template.filterMap_custom_nodes (template : Template) :
    template.program.nodes.toList.filterMap Node.custom? =
      template.customs.map fun d => (d.span, d.name) := by
  rw [template.toList_nodes, List.filterMap_append,
    template.derives_tree.filterMap_custom_layout 0]
  exact (List.append_nil _).trans (filterMap_custom_joinTexts
    (Outline.ofSource template.source).pieces [] (List.forall_mem_nil _))

end TextTemplate
