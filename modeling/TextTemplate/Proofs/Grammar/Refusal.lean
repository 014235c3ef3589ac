import Mathlib.Data.List.Induction
import TextTemplate.Proofs.Grammar.Assembly

/-!
# What can be put together and what is refused

The phrases that can be put together are the starts of bodies, and the blocks open then are those
open behind such a start. What is refused is the first directive that does not fit behind the
phrases in front of it.

## Main definitions

* `Breaks`: what is wrong with a directive behind the start of a body.

## Main results

* `Assembly.exists_foldlM_of_opened`, `Assembly.opened_of_foldlM`: what can be put together.
* `Assembly.foldlM_eq_error_iff`: what is refused.
-/

namespace TextTemplate

open Attempt

section Grammar

variable (compiler : Compiler) (source : String)

/-- What is wrong with a directive behind phrases that leave these blocks open: it has no role, or
its role has no place there, or it does not go on with the block, or end it, as it should. -/
inductive Breaks (frames : List Frame) (d : Directive) : CompileFault → Prop
  | faulty {fault : CompileFault} (faulty : d.Faulty compiler source fault) : Breaks frames d fault
  | strayElse (reads : d.Reads compiler source .goesOn)
      (stray : ∀ first condition outer, frames ≠ ⟨first, .conditional (some condition)⟩ :: outer) :
      Breaks frames d (.unexpectedElse d.name)
  | condition {first : Directive} {condition : Slot} {outer : List Frame} {fault : CompileFault}
      (reads : d.Reads compiler source .goesOn)
      (branch : frames = ⟨first, .conditional (some condition)⟩ :: outer)
      (has : d.name = "else" → d.body.onlyBlanks source = false)
      (misspells : Misspells compiler.mode source d.body fault) : Breaks frames d fault
  | strayEnd (reads : d.Reads compiler source .ends) (stray : frames = []) :
      Breaks frames d .unexpectedEnd
  | separator {first : Directive} {bindings : List LoopBinding} {separator : Option Slot}
      {outer : List Frame} {fault : CompileFault} (reads : d.Reads compiler source .ends)
      (loop : frames = ⟨first, .loop bindings separator⟩ :: outer)
      (nonblank : d.body.onlyBlanks source = false)
      (misspells : Misspells compiler.mode source d.body fault) : Breaks frames d fault

end Grammar

namespace Assembly

variable {compiler : Compiler} {source : String} {arena : Arena} {opens : List OpenBlock}
  {frames : List Frame}

/-! ### Behind the start of a body -/

/-- The open blocks are those that the grammar sees. -/
def Represents (arena : Arena) : List OpenBlock → List Frame → Prop :=
  List.Forall₂ fun block frame => block.first = frame.first ∧ block.Shows arena frame.opener

theorem Represents.cons {block : OpenBlock} {frame : Frame} (hfirst : block.first = frame.first)
    (hshows : block.Shows arena frame.opener) (h : Represents arena opens frames) :
    Represents arena (block :: opens) (frame :: frames) :=
  List.Forall₂.cons ⟨hfirst, hshows⟩ h

theorem Represents.mono {arena' : Arena} (h : Represents arena opens frames)
    (harena : ∀ place opener, arena.opener? place = some opener →
      arena'.opener? place = some opener) : Represents arena' opens frames :=
  h.imp fun _ _ ⟨hfirst, hshows⟩ => ⟨hfirst, hshows.mono harena⟩

/-- The start of a body can be put together, and the same blocks are open behind it. -/
theorem exists_foldlM_of_opened {phrases : List Phrase}
    (h : Opened compiler source phrases frames) :
    ∃ arena opens, phrases.foldlM (addPhrase compiler source) empty = .ok (settled arena opens) ∧
      Represents arena opens frames := by
  induction h with
  | outermost h =>
    obtain ⟨arena, hrun, -⟩ := foldlM_of_derives h .empty []
    exact ⟨arena, [], hrun, .nil⟩
  | @opened d opener _ _ _ body _ hreads hinside ih =>
    obtain ⟨arena, opens, hbefore, hframes⟩ := ih
    obtain ⟨arena', hrun, hlinked⟩ := foldlM_of_derives hinside (arena.append (d.opening opener))
      (⟨d, arena.size, []⟩ :: opens)
    have hgrows : (arena.append (d.opening opener)).linked <+: arena'.linked :=
      ⟨_, hlinked.symm⟩
    have hshows : OpenBlock.Shows arena' ⟨d, arena.size, []⟩ opener :=
      ⟨Arena.opener?_of_linked hgrows (Arena.opener?_append_opening ..), .inl rfl⟩
    refine ⟨arena', ⟨d, arena.size, []⟩ :: opens, ?_, .cons rfl hshows (hframes.mono ?_)⟩
    · rw [List.foldlM_append, hbefore, ok_bind, List.foldlM_cons, addPhrase_opens hreads, ok_bind,
        hrun]
    · exact fun place opener h => Arena.opener?_of_linked hgrows (Arena.opener?_append _ h)
  | @branched d _ condition next _ _ _ body _ hreads hcontinues hinside ih =>
    obtain ⟨arena, _, hbefore, hframes⟩ := ih
    obtain ⟨block, opens, ⟨hfirst, hshows⟩, hothers, rfl⟩ := List.forall₂_cons_right_iff.1 hframes
    have hothers : Represents arena opens _ := hothers
    obtain ⟨arena', hrun, hlinked⟩ := foldlM_of_derives hinside
      (arena.openBranch block.current d next)
      (⟨block.first, arena.size + 1, block.branches⟩ :: opens)
    have hgrows : (arena.openBranch block.current d next).linked <+: arena'.linked :=
      ⟨_, hlinked.symm⟩
    have hshows' := (hshows.openBranch d next).of_linked hgrows
    refine ⟨arena', ⟨block.first, arena.size + 1, block.branches⟩ :: opens, ?_,
      .cons hfirst hshows' (hothers.mono ?_)⟩
    · rw [List.foldlM_append, hbefore, ok_bind, List.foldlM_cons,
        addPhrase_goesOn hreads hshows.current hcontinues, ok_bind, hrun]
    · exact fun place opener h => Arena.opener?_of_linked hgrows (Arena.opener?_openBranch _ _ _ h)

/-- Behind one more phrase that is taken there is still the start of a body. -/
theorem opened_of_addPhrase {phrases : List Phrase} {phrase : Phrase} {a : Assembly}
    (hcontext : Opened compiler source phrases frames) (hframes : Represents arena opens frames)
    (h : addPhrase compiler source (settled arena opens) phrase = .ok a) :
    ∃ frames', Opened compiler source (phrases ++ [phrase]) frames' := by
  cases phrase with
  | text spans => exact ⟨frames, hcontext.append (.text .done)⟩
  | directive d =>
    rw [addPhrase, add_directive] at h
    obtain ⟨role, hrole, hfollow⟩ := bind_eq_ok_iff.1 h
    have hreads := Directive.role_eq_ok_iff.1 hrole
    cases role with
    | opens opener => exact ⟨_, .opened hcontext hreads .done⟩
    | standsAlone action => exact ⟨_, hcontext.append (.action hreads .done)⟩
    | goesOn =>
      simp only [follow, addBranch, flush_settled] at hfollow
      cases hframes with
      | nil => cases hfollow
      | @cons block frame others frames hblock hframes =>
        obtain ⟨first, opener⟩ := frame
        simp only [opens_settled, arena_settled, hblock.2.current] at hfollow
        split at hfollow
        · rename_i heq
          cases heq
          obtain ⟨next, hnext, -⟩ := bind_eq_ok_iff.1 hfollow
          exact ⟨_, .branched hcontext hreads (Directive.branchCondition_eq_ok_iff.1 hnext) .done⟩
        · cases hfollow
    | ends =>
      simp only [follow, closeBlock, flush_settled] at hfollow
      cases hframes with
      | nil => cases hfollow
      | @cons block frame others frames hblock hframes =>
        obtain ⟨arena', harena, -⟩ := bind_eq_ok_iff.1 hfollow
        rw [arena_settled, (hblock.2.closeBody d).endOpener_eq compiler source d] at harena
        obtain ⟨opener, hopener, -⟩ := map_eq_ok_iff.1 harena
        exact ⟨frames, hcontext.close fun hinside =>
          ⟨opener, _, .closed hinside hreads (Directive.ending_eq_ok_iff.1 hopener)⟩⟩

/-- What can be put together is the start of a body with the same blocks open. -/
theorem opened_of_foldlM {phrases : List Phrase} {a : Assembly}
    (h : phrases.foldlM (addPhrase compiler source) empty = .ok a) :
    ∃ arena opens frames, a = settled arena opens ∧ Opened compiler source phrases frames ∧
      Represents arena opens frames := by
  induction phrases using List.reverseRecOn generalizing a with
  | nil =>
    cases h
    exact ⟨.empty, [], [], rfl, .outermost .done, .nil⟩
  | append_singleton phrases phrase ih =>
    have h' := h
    rw [List.foldlM_append, bind_eq_ok_iff] at h
    obtain ⟨a', hbefore, h⟩ := h
    obtain ⟨arena, opens, frames, rfl, hcontext, hframes⟩ := ih hbefore
    obtain ⟨frames', hcontext'⟩ := opened_of_addPhrase hcontext hframes (by simpa using h)
    -- The same phrases lead to one assembly only.
    obtain ⟨arena', opens', hrun, hframes'⟩ := exists_foldlM_of_opened hcontext'
    exact ⟨arena', opens', frames', Except.ok.inj (h'.symm.trans hrun), hcontext', hframes'⟩

/-! ### What does not fit -/

section Refused

variable {d : Directive} {e : CompileError} {fault : CompileFault}

/-- Why a block is not gone on with. -/
theorem breaks_of_goesOn (hframes : Represents arena opens frames)
    (hreads : d.Reads compiler source .goesOn)
    (h : (settled arena opens).follow compiler source d .goesOn = .error e) :
    ∃ fault, Breaks compiler source frames d fault ∧ e = d.error fault := by
  simp only [follow, addBranch, flush_settled] at h
  cases hframes with
  | nil =>
    cases h
    exact ⟨_, .strayElse hreads fun _ _ _ heq => List.cons_ne_nil _ _ heq.symm, rfl⟩
  | @cons block frame others frames hblock hframes =>
    obtain ⟨first, opener⟩ := frame
    simp only [opens_settled, arena_settled, hblock.2.current] at h
    split at h
    · rename_i heq
      cases heq
      obtain h | ⟨_, _, h⟩ := bind_eq_error_iff.1 h
      · obtain ⟨hhas, fault, hfault, rfl⟩ := Directive.branchCondition_eq_error_iff.1 h
        exact ⟨fault, .condition hreads rfl hhas hfault, rfl⟩
      · cases h
    · rename_i hstray
      cases h
      refine ⟨_, .strayElse hreads fun first condition outer heq => ?_, rfl⟩
      cases heq
      exact hstray condition rfl

/-- Why a block is not ended. -/
theorem breaks_of_ends (hframes : Represents arena opens frames)
    (hreads : d.Reads compiler source .ends)
    (h : (settled arena opens).follow compiler source d .ends = .error e) :
    ∃ fault, Breaks compiler source frames d fault ∧ e = d.error fault := by
  simp only [follow, closeBlock, flush_settled] at h
  cases hframes with
  | nil =>
    cases h
    exact ⟨_, .strayEnd hreads rfl, rfl⟩
  | @cons block frame others frames hblock hframes =>
    obtain ⟨first, opener⟩ := frame
    obtain h | ⟨_, _, h⟩ := bind_eq_error_iff.1 h
    · rw [arena_settled, (hblock.2.closeBody d).endOpener_eq compiler source d,
        map_eq_error_iff] at h
      obtain ⟨⟨bindings, separator, hloop⟩, hblank, fault, hfault, rfl⟩ :=
        Directive.ending_eq_error_iff.1 h
      cases hloop
      exact ⟨fault, .separator hreads rfl hblank hfault, rfl⟩
    · cases h

private theorem follow_of_strayElse (hframes : Represents arena opens frames)
    (hstray : ∀ first condition outer, frames ≠ ⟨first, .conditional (some condition)⟩ :: outer) :
    (settled arena opens).follow compiler source d .goesOn =
      .error (d.error (.unexpectedElse d.name)) := by
  simp only [follow, addBranch, flush_settled]
  cases hframes with
  | nil => rfl
  | @cons block frame others frames hblock hframes =>
    obtain ⟨first, opener⟩ := frame
    simp only [opens_settled, arena_settled, hblock.2.current]
    split
    · rename_i heq
      cases heq
      exact absurd rfl (hstray _ _ _)
    · rfl

private theorem follow_of_condition {first : Directive} {condition : Slot} {outer : List Frame}
    (hframes : Represents arena opens (⟨first, .conditional (some condition)⟩ :: outer))
    (hhas : d.name = "else" → d.body.onlyBlanks source = false)
    (hfault : Misspells compiler.mode source d.body fault) :
    (settled arena opens).follow compiler source d .goesOn = .error (d.error fault) := by
  obtain ⟨block, others, hblock, -, rfl⟩ := List.forall₂_cons_right_iff.1 hframes
  simp only [follow, addBranch, flush_settled, opens_settled, arena_settled, hblock.2.current]
  have hcondition := Directive.branchCondition_eq_error_iff.2 ⟨hhas, fault, hfault, rfl⟩
  exact bind_eq_error_iff.2 (.inl hcondition)

private theorem follow_of_separator {first : Directive} {bindings : List LoopBinding}
    {separator : Option Slot} {outer : List Frame}
    (hframes : Represents arena opens (⟨first, .loop bindings separator⟩ :: outer))
    (hnonblank : d.body.onlyBlanks source = false)
    (hfault : Misspells compiler.mode source d.body fault) :
    (settled arena opens).follow compiler source d .ends = .error (d.error fault) := by
  obtain ⟨block, others, hblock, -, rfl⟩ := List.forall₂_cons_right_iff.1 hframes
  simp only [follow, closeBlock, flush_settled, opens_settled, arena_settled]
  rw [bind_eq_error_iff, (hblock.2.closeBody d).endOpener_eq compiler source d, map_eq_error_iff]
  exact .inl (Directive.ending_eq_error_iff.2 ⟨⟨_, _, rfl⟩, hnonblank, fault, hfault, rfl⟩)

/-- What is refused behind the start of a body. -/
theorem addPhrase_eq_error_iff (hframes : Represents arena opens frames) :
    addPhrase compiler source (settled arena opens) (.directive d) = .error e ↔
      ∃ fault, Breaks compiler source frames d fault ∧ e = d.error fault := by
  rw [addPhrase, add_directive, bind_eq_error_iff, Directive.role_eq_error_iff]
  constructor
  · rintro (⟨fault, hfault, rfl⟩ | ⟨role, hrole, h⟩)
    · exact ⟨fault, .faulty hfault, rfl⟩
    have hreads := Directive.role_eq_ok_iff.1 hrole
    cases role with
    | opens opener => cases h
    | standsAlone action => cases action <;> cases h
    | goesOn => exact breaks_of_goesOn hframes hreads h
    | ends => exact breaks_of_ends hframes hreads h
  · rintro ⟨fault, h, rfl⟩
    have hrole {role : Role} (hreads : d.Reads compiler source role) :=
      Directive.role_eq_ok_iff.2 hreads
    cases h with
    | faulty hfault => exact .inl ⟨fault, hfault, rfl⟩
    | strayElse hreads hstray => exact .inr ⟨_, hrole hreads, follow_of_strayElse hframes hstray⟩
    | condition hreads hbranch hhas hfault =>
      subst hbranch
      exact .inr ⟨_, hrole hreads, follow_of_condition hframes hhas hfault⟩
    | strayEnd hreads hstray =>
      subst hstray
      cases hframes
      exact .inr ⟨_, hrole hreads, rfl⟩
    | separator hreads hloop hnonblank hfault =>
      subst hloop
      exact .inr ⟨_, hrole hreads, follow_of_separator hframes hnonblank hfault⟩

end Refused

/-- What is refused: the first phrase that does not fit behind those before it. -/
theorem foldlM_eq_error_iff {phrases : List Phrase} {e : CompileError} :
    phrases.foldlM (addPhrase compiler source) empty = .error e ↔
      ∃ before d after frames fault, phrases = before ++ .directive d :: after ∧
        Opened compiler source before frames ∧ Breaks compiler source frames d fault ∧
        e = d.error fault := by
  rw [Attempt.foldlM_eq_error_iff]
  constructor
  · rintro ⟨before, phrase, after, a, rfl, hbefore, h⟩
    obtain ⟨arena, opens, frames, rfl, hcontext, hframes⟩ := opened_of_foldlM hbefore
    cases phrase with
    | text spans => cases h
    | directive d =>
      obtain ⟨fault, hbreaks, rfl⟩ := (addPhrase_eq_error_iff hframes).1 h
      exact ⟨before, d, after, frames, fault, rfl, hcontext, hbreaks, rfl⟩
  · rintro ⟨before, d, after, frames, fault, rfl, hcontext, hbreaks, rfl⟩
    obtain ⟨arena, opens, hbefore, hframes⟩ := exists_foldlM_of_opened hcontext
    exact ⟨before, _, after, _, rfl, hbefore,
      (addPhrase_eq_error_iff hframes).2 ⟨fault, hbreaks, rfl⟩⟩

end Assembly

end TextTemplate
