import TextTemplate.Proofs.Likeness.Carried

/-!
# Compiling in both modes

What compiles in compiled mode compiles in interpreted mode, to a tree of the same shape. A source
that does not compile in compiled mode has the same error in interpreted mode, unless that error
is about an expression, which interpreted mode does not look at.

## Main definitions

* `Compiler.Precedes`: compilers that differ at most in when they read expressions.
* `CompileFault.isExpression`: whether an error is about an expression.

## Main results

* `Body.Derives.exists_alike`: derivations in both modes.
* `Reports.of_precedes`: errors in both modes.
-/

namespace TextTemplate

/-- The two compilers know the same custom directives; they read expressions at the same time, or
the left one when it compiles and the right one later. -/
structure Compiler.Precedes (left right : Compiler) : Prop where
  extensions : left.extensions = right.extensions
  mode : left.mode = right.mode ∨ left.mode = .compiled ∧ right.mode = .interpreted

theorem Compiler.Precedes.of_eq {left right : Compiler} (h : left = right) : left.Precedes right :=
  ⟨congrArg Compiler.extensions h, .inl (congrArg Compiler.mode h)⟩

/-- Whether an error is about an expression. -/
def CompileFault.isExpression : CompileFault → Bool
  | .expression _ => true
  | _ => false

/-- The two blocks were opened by the same directive, with expressions that are alike. -/
def Frame.Alike (source : String) (left right : Frame) : Prop :=
  left.first = right.first ∧ Opener.Alike (Slot.Alike source) left.opener right.opener

section Precedes

variable {left right : Compiler} {source : String} {d : Directive}

/-! ### Expressions -/

private theorem Spells.exists_alike (h : left.Precedes right) {span : Span} {slot : Slot}
    (hslot : Spells left.mode source span slot) :
    ∃ slot', Spells right.mode source span slot' ∧ Slot.Alike source slot slot' := by
  obtain hmode | ⟨hleft, hright⟩ := h.mode
  · exact ⟨slot, hmode ▸ hslot, .same slot⟩
  · cases hslot with
    | parsed _ hparse =>
      refine ⟨_, .raw hright, .later ?_⟩
      rw [Slot.read, hparse]
      rfl
    | raw hmode => rw [hleft] at hmode; cases hmode

/-- Expressions are carried over as they stand, to be read later perhaps. -/
theorem Compiler.Precedes.carries (h : left.Precedes right) :
    Carries left right source source Eq (Slot.Alike source) where
  extensions := h.extensions
  slice hspan := by rw [hspan]
  trim hspan := by rw [hspan]
  onlyBlanks hspan := by rw [hspan]
  split hspan _ := by
    rw [hspan]
    exact List.forall₂_same.2 fun _ _ => rfl
  behind hspan _ := by
    rw [hspan]
    exact List.forall₂_same.2 fun _ _ => rfl
  spells hspan _ hslot := by
    subst hspan
    exact hslot.exists_alike h

/-- An error that is not about an expression is none of a span. -/
theorem Misspells.isExpression {mode : Mode} {span : Span} {fault : CompileFault}
    (h : Misspells mode source span fault) : fault.isExpression = true := by
  obtain ⟨-, e, -, rfl⟩ := h
  rfl

/-! ### Headers of loops -/

private theorem IsBadBinding.of_precedes {part : Span} {fault : CompileFault}
    (hbad : IsBadBinding left.mode source part fault) (hfault : fault.isExpression = false) :
    IsBadBinding right.mode source part fault := by
  cases hbad with
  | colon hcolon => exact .colon hcolon
  | unnamed hcolon hname => exact .unnamed hcolon hname
  | missing hcolon hname hblank => exact .missing hcolon hname hblank
  | expression _ _ _ hmisspells => simp [hmisspells.isExpression] at hfault

/-! ### Directives -/

namespace Directive

private theorem Faulty.of_precedes (h : left.Precedes right) {fault : CompileFault}
    (hfaulty : d.Faulty left source fault) (hfault : fault.isExpression = false) :
    d.Faulty right source fault := by
  cases hfaulty with
  | expression _ hmisspells => simp [hmisspells.isExpression] at hfault
  | target _ hmisspells => simp [hmisspells.isExpression] at hfault
  | pre _ _ _ hmisspells => simp [hmisspells.isExpression] at hfault
  | header hnamed hblank => exact .header hnamed hblank
  | binding hnamed hnonblank hparts hgood hbad =>
    refine .binding hnamed hnonblank hparts (fun part hpart => ?_) (hbad.of_precedes hfault)
    obtain ⟨binding, hbinding⟩ := hgood part hpart
    obtain ⟨binding', hbinding', -⟩ := hbinding.carried h.carries rfl
    exact ⟨binding', hbinding'⟩
  | unknown hother hunknown => exact .unknown hother (h.extensions ▸ hunknown)
  | rejected hother hknown hrejects => exact .rejected hother (h.extensions ▸ hknown) hrejects

end Directive

/-! ### Derivations -/

mutual

/-- A derivation in one mode is one in the other mode, of a tree of the same shape. -/
theorem Body.Derives.exists_alike (h : left.Precedes right) {phrases : List Phrase} {body : Body} :
    body.Derives left source phrases →
      ∃ body' : Body, body'.Derives right source phrases ∧ Body.Alike source body body'
  | .done => ⟨.done, .done, .done⟩
  | .text hrest =>
    have ⟨_, hrest', halike⟩ := hrest.exists_alike h
    ⟨_, .text hrest', .text _ halike⟩
  | .action hreads hrest => by
    obtain ⟨_, hreads', ⟨⟩⟩ := hreads.carried h.carries ⟨rfl, rfl⟩
    obtain ⟨rest', hrest', halike⟩ := hrest.exists_alike h
    exact ⟨_, .action hreads' hrest', .action _ ‹_› halike⟩
  | .block hreads hblock hrest => by
    obtain ⟨_, hreads', ⟨⟩⟩ := hreads.carried h.carries ⟨rfl, rfl⟩
    obtain ⟨opener', body', branches', hblock', hopener, hbody, hbranches⟩ :=
      hblock.exists_alike h ‹_›
    obtain ⟨rest', hrest', halike⟩ := hrest.exists_alike h
    exact ⟨_, .block hreads' hblock' hrest', .block _ hopener hbody hbranches halike⟩

theorem Branches.Derives.exists_alike (h : left.Precedes right) {opener opener' other : Opener}
    {phrases : List Phrase} {body : Body} {branches : Branches} :
    Branches.Derives left source opener phrases opener' body branches →
      Opener.Alike (Slot.Alike source) opener other →
        ∃ other' body' branches',
          Branches.Derives right source other phrases other' body' branches' ∧
          Opener.Alike (Slot.Alike source) opener' other' ∧ Body.Alike source body body' ∧
          Branches.Alike source branches branches'
  | .closed hbody hreads hends, halike =>
    have ⟨_, hbody', halikeBody⟩ := hbody.exists_alike h
    have ⟨_, hends', halikeOpener⟩ := hends.carried h.carries ⟨rfl, rfl⟩ halike
    ⟨_, _, _, .closed hbody' (hreads.ends_carried h.carries ⟨rfl, rfl⟩) hends', halikeOpener,
      halikeBody, .closed _⟩
  | .branch hbody hreads hcontinues hmore, halike => by
    obtain ⟨body', hbody', halikeBody⟩ := hbody.exists_alike h
    obtain ⟨condition', hcontinues', hcondition⟩ := hcontinues.carried h.carries ⟨rfl, rfl⟩
    obtain ⟨_, _, _, hmore', -, halikeInside, halikeMore⟩ :=
      hmore.exists_alike h (.conditional hcondition)
    obtain rfl := hmore'.opener_eq
    obtain ⟨⟨hslot⟩⟩ := halike
    exact ⟨_, _, _, .branch hbody' (hreads.goesOn_carried h.carries ⟨rfl, rfl⟩) hcontinues' hmore',
      .conditional (.some hslot), halikeBody, .branch _ hcondition halikeInside halikeMore⟩

end

/-- The start of a body in one mode is one in the other mode, with the same blocks open. -/
theorem Opened.exists_alike (h : left.Precedes right) {phrases : List Phrase}
    {frames : List Frame} :
    Opened left source phrases frames →
      ∃ frames', Opened right source phrases frames' ∧
        List.Forall₂ (Frame.Alike source) frames frames'
  | .outermost hbody =>
    have ⟨_, hbody', _⟩ := hbody.exists_alike h
    ⟨[], .outermost hbody', .nil⟩
  | .opened hcontext hreads hbody => by
    obtain ⟨frames', hcontext', hframes⟩ := hcontext.exists_alike h
    obtain ⟨_, hreads', ⟨⟩⟩ := hreads.carried h.carries ⟨rfl, rfl⟩
    obtain ⟨body', hbody', -⟩ := hbody.exists_alike h
    exact ⟨_, .opened hcontext' hreads' hbody', .cons ⟨rfl, ‹_›⟩ hframes⟩
  | .branched hcontext hreads hcontinues hbody => by
    obtain ⟨frames', hcontext', hframes⟩ := hcontext.exists_alike h
    obtain ⟨condition', hcontinues', hcondition⟩ := hcontinues.carried h.carries ⟨rfl, rfl⟩
    obtain ⟨body', hbody', -⟩ := hbody.exists_alike h
    cases hframes with
    | @cons _ frame' _ others' hframe hothers =>
      obtain ⟨first', opener'⟩ := frame'
      obtain ⟨rfl, ⟨⟨hslot⟩⟩⟩ := hframe
      exact ⟨_, .branched hcontext' (hreads.goesOn_carried h.carries ⟨rfl, rfl⟩) hcontinues' hbody',
        .cons ⟨rfl, .conditional hcondition⟩ hothers⟩

/-! ### Errors -/

private theorem Breaks.of_precedes (h : left.Precedes right) {frames frames' : List Frame}
    {fault : CompileFault} (hframes : List.Forall₂ (Frame.Alike source) frames frames')
    (hbreaks : Breaks left source frames d fault) (hfault : fault.isExpression = false) :
    Breaks right source frames' d fault := by
  cases hbreaks with
  | faulty hfaulty => exact .faulty (hfaulty.of_precedes h hfault)
  | strayElse hreads hstray =>
    have hreads' := hreads.goesOn_carried h.carries ⟨rfl, rfl⟩
    refine .strayElse hreads' fun first condition outer hopen => ?_
    subst hopen
    cases hframes with
    | @cons frame _ others _ hframe hothers =>
      obtain ⟨first', opener'⟩ := frame
      obtain ⟨rfl, ⟨⟨hslot⟩⟩⟩ := hframe
      exact hstray _ _ _ rfl
  | condition _ _ _ hmisspells => simp [hmisspells.isExpression] at hfault
  | strayEnd hreads hstray =>
    subst hstray
    cases hframes
    exact .strayEnd (hreads.ends_carried h.carries ⟨rfl, rfl⟩) rfl
  | separator _ _ _ hmisspells => simp [hmisspells.isExpression] at hfault

/-- An error that is not about an expression is the error in both modes. -/
theorem Reports.of_precedes (h : left.Precedes right) {outline : Outline} {e : CompileError}
    (hreports : Reports left source outline e) (hfault : e.fault.isExpression = false) :
    Reports right source outline e := by
  cases hreports with
  | directive hphrases hcontext hbreaks =>
    obtain ⟨frames', hcontext', hframes⟩ := hcontext.exists_alike h
    exact .directive hphrases hcontext' (hbreaks.of_precedes h hframes hfault)
  | unterminated hunterminated hcontext =>
    obtain ⟨frames', hcontext', -⟩ := hcontext.exists_alike h
    exact .unterminated hunterminated hcontext'
  | unclosed hterminated hcontext =>
    obtain ⟨frames', hcontext', hframes⟩ := hcontext.exists_alike h
    cases hframes with
    | cons hframe hframes =>
      rw [hframe.1]
      exact .unclosed hterminated hcontext'

/-! ### Programs and templates -/

/-- What compiles with the left compiler compiles with the right one, to as many nodes, and is one
expression for both or for neither. -/
theorem Program.exists_compile_of_precedes (h : left.Precedes right) {program : Program}
    (hcompile : Program.compile left source = .ok program) :
    ∃ program', Program.compile right source = .ok program' ∧
      program'.nodes.size = program.nodes.size ∧
      program'.isPureExpression = program.isPureExpression := by
  obtain ⟨hterminated, body, hbody, rfl⟩ := compile_eq_ok_iff.1 hcompile
  obtain ⟨body', hbody', halike⟩ := hbody.exists_alike h
  refine ⟨_, compile_eq_ok_iff.2 ⟨hterminated, body', hbody', rfl⟩, ?_, ?_⟩
  · simp [halike.width_eq]
  · rw [Bool.eq_iff_iff, isPureExpression_iff, isPureExpression_iff]
    constructor
    · rintro ⟨d, value, rfl, hspan⟩
      cases halike with
      | action _ hvalue hrest =>
        cases hvalue
        cases hrest
        exact ⟨d, _, rfl, hspan⟩
    · rintro ⟨d, value, rfl, hspan⟩
      cases halike with
      | action _ hvalue hrest =>
        cases hvalue
        cases hrest
        exact ⟨d, _, rfl, hspan⟩

/-- An error that is not about an expression is the same for both compilers. -/
theorem Program.compile_eq_error_of_precedes (h : left.Precedes right) {e : CompileError}
    (hcompile : Program.compile left source = .error e) (hfault : e.fault.isExpression = false) :
    Program.compile right source = .error e :=
  compile_eq_error_iff.2 ((compile_eq_error_iff.1 hcompile).of_precedes h hfault)

/-- An error for the right compiler is the error for the left one, unless that is about an
expression. -/
theorem Program.exists_compile_eq_error_of_precedes (h : left.Precedes right) {e : CompileError}
    (hcompile : Program.compile right source = .error e) :
    ∃ e', Program.compile left source = .error e' ∧ (e' = e ∨ e'.fault.isExpression = true) := by
  cases hleft : Program.compile left source with
  | ok program =>
    obtain ⟨program', hprogram, -⟩ := exists_compile_of_precedes h hleft
    rw [hprogram] at hcompile
    cases hcompile
  | error e' =>
    refine ⟨e', rfl, ?_⟩
    cases hfault : e'.fault.isExpression with
    | true => exact .inr rfl
    | false =>
      rw [compile_eq_error_of_precedes h hleft hfault] at hcompile
      exact .inl (Except.error.inj hcompile)

end Precedes

/-- The trees of templates that are compiled from the same source are alike. -/
theorem Template.tree_alike {left right : Template} (hsource : left.source = right.source)
    (h : left.compiler.Precedes right.compiler) :
    Body.Alike left.source left.tree right.tree := by
  obtain ⟨body, hbody, halike⟩ := left.derives_tree.exists_alike h
  have htree : right.tree = body := by
    rw [tree, ← hsource, Outline.tree?_eq_of_derives hbody, Option.getD_some]
  rw [htree]
  exact halike

end TextTemplate
