import TextTemplate.Proofs.Grammar.Refusal
import TextTemplate.Proofs.Grammar.Scan
import TextTemplate.Template.Program

/-!
# What compiles, and where the first error is

A source compiles when the bodies of its directives are closed and its phrases are a body of the
block grammar. Otherwise the error is that of the first directive that does not fit behind the
phrases in front of it; then, when all of them fit, that of a directive whose body is not closed;
and then that of the innermost block without an end.

## Main definitions

* `Reports`: the error of a source.

## Main results

* `Outline.arena_eq_ok_iff`, `Outline.arena_eq_error_iff`: the nodes of a source, or its error.
* `compile_accepts_and_reports`: what compiles, and the error of what does not.
-/

namespace TextTemplate

open Attempt

section Grammar

variable (compiler : Compiler) (source : String)

/-- The error of a source with these pieces. -/
inductive Reports (outline : Outline) : CompileError → Prop
  | directive {before after : List Phrase} {d : Directive} {frames : List Frame}
      {fault : CompileFault} (phrases : outline.phrases = before ++ .directive d :: after)
      (context : Opened compiler source before frames)
      (breaks : Breaks compiler source frames d fault) : Reports outline (d.error fault)
  | unterminated {name : String} {position : Position} {frames : List Frame}
      (unterminated : outline.unterminated = some (name, position))
      (context : Opened compiler source outline.phrases frames) :
      Reports outline ⟨position, name, none, .unterminated '\x7b' '\x7d'⟩
  | unclosed {frame : Frame} {frames : List Frame} (terminated : outline.unterminated = none)
      (context : Opened compiler source outline.phrases (frame :: frames)) :
      Reports outline (frame.first.error (.unclosedBlock frame.first.name))

end Grammar

/-! ### The nodes and the error of a source -/

section Source

variable {compiler : Compiler} {source : String} {outline : Outline}

private theorem Opened.derives {phrases : List Phrase} :
    Opened compiler source phrases [] → ∃ body : Body, body.Derives compiler source phrases
  | .outermost h => ⟨_, h⟩

namespace Outline

/-- What is done at the end of the pieces can as well be done at the end of the phrases, if it puts
what is held back among the nodes first. -/
theorem foldlM_bind_eq {α : Type} {f : Assembly → Except CompileError α}
    (h : ∀ a, f a.flush = f a) :
    outline.pieces.foldlM (Assembly.add compiler source) Assembly.empty >>= f =
      outline.phrases.foldlM (Assembly.addPhrase compiler source) Assembly.empty >>= f := by
  have hphrases : Assembly.flush <$> outline.pieces.foldlM (Assembly.add compiler source)
      Assembly.empty =
        outline.phrases.foldlM (Assembly.addPhrase compiler source) Assembly.empty :=
    Assembly.flush_foldlM_add outline.pieces (by simp [Assembly.empty]) fun _ => rfl
  rw [← hphrases]
  cases outline.pieces.foldlM (Assembly.add compiler source) Assembly.empty with
  | error e => rfl
  | ok a => exact (h a).symm

private theorem arena_of_terminated (h : outline.unterminated = none) :
    outline.arena compiler source =
      outline.phrases.foldlM (Assembly.addPhrase compiler source) Assembly.empty >>=
        Assembly.finish source := by
  rw [← foldlM_bind_eq fun _ => rfl, arena]
  simp only [h]

private theorem arena_of_unterminated {name : String} {position : Position}
    (h : outline.unterminated = some (name, position)) :
    outline.arena compiler source =
      outline.phrases.foldlM (Assembly.addPhrase compiler source) Assembly.empty >>=
        fun _ => .error ⟨position, name, none, .unterminated '\x7b' '\x7d'⟩ := by
  rw [← foldlM_bind_eq fun _ => rfl, arena]
  simp only [h]
  rfl

/-- The nodes of a source are those of its tree, and the node that ends the template. -/
theorem arena_eq_ok_iff {arena : Arena} :
    outline.arena compiler source = .ok arena ↔
      outline.unterminated = none ∧ ∃ body : Body, body.Derives compiler source outline.phrases ∧
        arena.nodes.toList = body.layout 0 ++ [finishNode source.utf8ByteSize] := by
  cases h : outline.unterminated with
  | some unterminated =>
    rw [arena_of_unterminated h, bind_eq_ok_iff]
    simp
  | none =>
    rw [arena_of_terminated h, bind_eq_ok_iff, and_iff_right rfl]
    constructor
    · rintro ⟨a, hphrases, ha⟩
      obtain ⟨arena', opens, frames, rfl, hopened, hframes⟩ := Assembly.opened_of_foldlM hphrases
      cases hframes with
      | cons => cases ha
      | nil =>
        obtain ⟨body, hbody⟩ := hopened.derives
        obtain ⟨arena'', hrun, hlinked⟩ := Assembly.foldlM_of_derives hbody .empty []
        cases hphrases.symm.trans hrun
        cases ha
        exact ⟨body, hbody, (Arena.toList_append ..).trans (congrArg (· ++ _) hlinked)⟩
    · rintro ⟨body, hbody, harena⟩
      obtain ⟨arena', hrun, hlinked⟩ := Assembly.foldlM_of_derives hbody .empty []
      refine ⟨_, hrun, congrArg Except.ok (Arena.eq_of_toList ?_)⟩
      rw [harena]
      exact (Arena.toList_append ..).trans (congrArg (· ++ _) hlinked)

theorem arena_eq_error_iff {e : CompileError} :
    outline.arena compiler source = .error e ↔ Reports compiler source outline e := by
  cases h : outline.unterminated with
  | some unterminated =>
    obtain ⟨name, position⟩ := unterminated
    rw [arena_of_unterminated h, bind_eq_error_iff, Assembly.foldlM_eq_error_iff]
    constructor
    · rintro (⟨before, d, after, frames, fault, hphrases, hcontext, hbreaks, rfl⟩ | ⟨a, ha, he⟩)
      · exact .directive hphrases hcontext hbreaks
      · obtain ⟨arena, opens, frames, rfl, hcontext, -⟩ := Assembly.opened_of_foldlM ha
        cases he
        exact .unterminated h hcontext
    · rintro (⟨hphrases, hcontext, hbreaks⟩ | ⟨h', hcontext⟩ | ⟨h', -⟩)
      · exact .inl ⟨_, _, _, _, _, hphrases, hcontext, hbreaks, rfl⟩
      · cases h.symm.trans h'
        obtain ⟨arena, opens, hphrases, -⟩ := Assembly.exists_foldlM_of_opened hcontext
        exact .inr ⟨_, hphrases, rfl⟩
      · simp [h] at h'
  | none =>
    rw [arena_of_terminated h, bind_eq_error_iff, Assembly.foldlM_eq_error_iff]
    constructor
    · rintro (⟨before, d, after, frames, fault, hphrases, hcontext, hbreaks, rfl⟩ | ⟨a, ha, he⟩)
      · exact .directive hphrases hcontext hbreaks
      · obtain ⟨arena, opens, frames, rfl, hcontext, hframes⟩ := Assembly.opened_of_foldlM ha
        cases hframes with
        | nil => cases he
        | @cons block frame others frames hblock hframes =>
          cases he
          rw [hblock.1]
          exact .unclosed h hcontext
    · rintro (⟨hphrases, hcontext, hbreaks⟩ | ⟨h', -⟩ | ⟨-, hcontext⟩)
      · exact .inl ⟨_, _, _, _, _, hphrases, hcontext, hbreaks, rfl⟩
      · simp [h] at h'
      · obtain ⟨arena, _, hphrases, hframes⟩ := Assembly.exists_foldlM_of_opened hcontext
        obtain ⟨block, opens, hblock, -, rfl⟩ := List.forall₂_cons_right_iff.1 hframes
        exact .inr ⟨_, hphrases, by rw [← hblock.1]; rfl⟩

end Outline

/-! ### Where the error is -/

theorem directive_mem_of_mem_heldBack {d : Directive} {spans : List Span}
    {comments : List Directive} (h : .directive d ∈ heldBack spans comments) : d ∈ comments := by
  rw [heldBack, List.mem_append] at h
  obtain h | h := h
  · split_ifs at h <;> simp at h
  · simpa using h

/-- The directives among phrases are those among the pieces, and comments held back. -/
theorem directive_mem_of_mem_joinTexts {d : Directive} {pieces : List Piece} {spans : List Span}
    {comments : List Directive} (h : .directive d ∈ joinTexts spans comments pieces) :
    d ∈ comments ∨ .directive d ∈ pieces := by
  induction pieces generalizing spans comments with
  | nil => exact .inl (directive_mem_of_mem_heldBack h)
  | cons piece pieces ih =>
    cases piece with
    | text span =>
      obtain h | h := ih h
      · exact .inl h
      · exact .inr (List.mem_cons_of_mem _ h)
    | directive d' =>
      rw [joinTexts] at h
      split_ifs at h with hcomment
      · obtain h | h := ih h
        · obtain rfl | h := List.mem_cons.1 h
          · exact .inr List.mem_cons_self
          · exact .inl h
        · exact .inr (List.mem_cons_of_mem _ h)
      · obtain h | h := List.mem_append.1 h
        · exact .inl (directive_mem_of_mem_heldBack h)
        · obtain h | h := List.mem_cons.1 h
          · cases h
            exact .inr List.mem_cons_self
          · obtain h | h := ih h
            · cases h
            · exact .inr (List.mem_cons_of_mem _ h)

/-- The directives of open blocks are among the phrases. -/
theorem Opened.first_mem {phrases : List Phrase} {frames : List Frame}
    (h : Opened compiler source phrases frames) :
    ∀ frame ∈ frames, .directive frame.first ∈ phrases := by
  induction h with
  | outermost => simp
  | opened _ _ _ ih =>
    refine List.forall_mem_cons.2 ⟨by simp, fun frame hframe => ?_⟩
    exact List.mem_append_left _ (ih frame hframe)
  | branched _ _ _ _ ih =>
    obtain ⟨hfirst, hframes⟩ := List.forall_mem_cons.1 ih
    refine List.forall_mem_cons.2 ⟨?_, fun frame hframe => ?_⟩
    · exact List.mem_append_left _ hfirst
    · exact List.mem_append_left _ (hframes frame hframe)

/-- The error of a source stands at the sigil of the directive concerned. -/
theorem standsAt_of_reports {cs : List Char} {e : CompileError} (hscan : Scans 0 [] cs outline)
    (h : Reports compiler source outline e) : StandsAt cs e.directive e.position := by
  have hmem {d : Directive} (hd : .directive d ∈ outline.phrases) :
      StandsAt cs d.name d.position := by
    obtain hd | hd := directive_mem_of_mem_joinTexts hd
    · cases hd
    · exact hscan.standsAt_of_mem hd
  cases h with
  | directive hphrases => exact hmem (by simp [hphrases])
  | unterminated hunterminated => exact hscan.standsAt_of_unterminated hunterminated
  | unclosed _ hcontext => exact hmem (hcontext.first_mem _ List.mem_cons_self)

theorem compile_eq_error_iff {e : CompileError} :
    Program.compile compiler source = .error e ↔
      Reports compiler source (Outline.ofSource source) e := by
  rw [Program.compile, bind_eq_error_iff, ← Outline.arena_eq_error_iff]
  simp [pure, Except.pure]

/-- A program is a source with the nodes of its tree. -/
theorem compile_eq_ok_iff {program : Program} :
    Program.compile compiler source = .ok program ↔
      (Outline.ofSource source).unterminated = none ∧
        ∃ body : Body, body.Derives compiler source (Outline.ofSource source).phrases ∧
          program = ⟨source, (body.layout 0 ++ [finishNode source.utf8ByteSize]).toArray⟩ := by
  rw [Program.compile, bind_eq_ok_iff]
  simp only [Outline.arena_eq_ok_iff, pure_eq_ok_iff]
  constructor
  · rintro ⟨arena, ⟨hterminated, body, hbody, harena⟩, rfl⟩
    exact ⟨hterminated, body, hbody, by rw [← harena]⟩
  · rintro ⟨hterminated, body, hbody, rfl⟩
    exact ⟨⟨_⟩, ⟨hterminated, body, hbody, rfl⟩, rfl⟩

/-- A source compiles exactly when every directive in it is closed and its phrases are a body of
the block grammar. Otherwise the error is that of the first directive that does not fit behind the
phrases in front of it; when all of them fit, that of a directive that is not closed; and when all
of them are, that of the innermost block without an end. It always stands at the sigil of the
directive concerned. -/
theorem compile_accepts_and_reports (compiler : Compiler) (source : String) :
    let outline := Outline.ofSource source
    Scans 0 [] source.toList outline ∧
      ((∃ program, Program.compile compiler source = .ok program) ↔
        outline.unterminated = none ∧
          ∃ body : Body, body.Derives compiler source outline.phrases) ∧
      ∀ e, Program.compile compiler source = .error e ↔
        Reports compiler source outline e ∧ StandsAt source.toList e.directive e.position := by
  have hscan := Outline.ofSource_eq_iff.1 (rfl : Outline.ofSource source = _)
  refine ⟨hscan, ⟨?_, ?_⟩, fun e => ?_⟩
  · rintro ⟨program, h⟩
    obtain ⟨hterminated, body, hbody, -⟩ := compile_eq_ok_iff.1 h
    exact ⟨hterminated, body, hbody⟩
  · rintro ⟨hterminated, body, hbody⟩
    exact ⟨_, compile_eq_ok_iff.2 ⟨hterminated, body, hbody, rfl⟩⟩
  · rw [compile_eq_error_iff]
    exact ⟨fun h => ⟨h, standsAt_of_reports hscan h⟩, And.left⟩

end Source

end TextTemplate
