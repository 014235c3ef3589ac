import TextTemplate.Proofs.Grammar.Role
import TextTemplate.Proofs.Grammar.Tree

/-!
# The block grammar

A body is a sequence of texts, directives that stand alone and blocks. A block is an opening
directive, a body and an `@end`; between them an `@if` has more branches, each with a body of its
own, and none behind the one without a condition. Texts that nothing but comments separate are one
text, and those comments stand behind it.

## Main definitions

* `Phrase`, `Outline.phrases`: what the grammar is about.
* `Body.Derives`, `Branches.Derives`: the grammar, with the tree that a derivation gives.
* `Opened`: the starts of derivations, with the blocks that are still open.

## Main results

* `Opened.close`: the innermost open block of such a start can be ended.
-/

namespace TextTemplate

open Attempt

/-! ### Phrases -/

/-- A text, which comments may have cut into spans, or a directive. -/
inductive Phrase where
  | text (spans : List Span)
  | directive (d : Directive)

/-- The text held back and the comments behind it, both the latest first. -/
def heldBack (spans : List Span) (comments : List Directive) : List Phrase :=
  (if spans = [] then [] else [.text spans.reverse]) ++ comments.reverse.map .directive

/-- The phrases of pieces that follow a text and the comments that cut it. -/
def joinTexts (spans : List Span) (comments : List Directive) : List Piece → List Phrase
  | [] => heldBack spans comments
  | .text span :: pieces => joinTexts (span :: spans) comments pieces
  | .directive d :: pieces =>
    if d.name = "comment" ∧ spans ≠ [] then
      joinTexts spans (d :: comments) pieces
    else
      heldBack spans comments ++ .directive d :: joinTexts [] [] pieces

/-- The phrases of a source. -/
def Outline.phrases (outline : Outline) : List Phrase :=
  joinTexts [] [] outline.pieces

/-! ### The directives of a block -/

namespace Directive

variable (compiler : Compiler) (source : String) (d : Directive)

/-- The condition of the branch that the directive opens: its body, but a blank `@else` has none. -/
inductive Continues : Option Slot → Prop
  | otherwise (named : d.name = "else") (blank : d.body.onlyBlanks source = true) : Continues none
  | condition {slot : Slot} (has : d.name = "else" → d.body.onlyBlanks source = false)
      (spells : Spells compiler.mode source d.body slot) : Continues (some slot)

/-- The opener of a block that the directive ends: its body is the separator of a loop, unless it is
blank. -/
inductive Ends : Opener → Opener → Prop
  | conditional {condition : Option Slot} : Ends (.conditional condition) (.conditional condition)
  | declare {name : Slot} : Ends (.declare name) (.declare name)
  | custom {custom : Custom} : Ends (.custom custom) (.custom custom)
  | bare {bindings : List LoopBinding} {separator : Option Slot}
      (blank : d.body.onlyBlanks source = true) :
      Ends (.loop bindings separator) (.loop bindings none)
  | separated {bindings : List LoopBinding} {separator : Option Slot} {slot : Slot}
      (nonblank : d.body.onlyBlanks source = false)
      (spells : Spells compiler.mode source d.body slot) :
      Ends (.loop bindings separator) (.loop bindings (some slot))

end Directive

namespace Directive

variable {compiler : Compiler} {source : String} {d : Directive}

theorem branchCondition_eq_ok_iff {next : Option Slot} :
    d.branchCondition compiler source = .ok next ↔ d.Continues compiler source next := by
  rw [branchCondition]
  split_ifs with h
  · constructor
    · rintro ⟨⟩
      exact .otherwise h.1 h.2
    · rintro (_ | ⟨hhas, _⟩)
      · rfl
      · simp [hhas h.1] at h
  · rw [map_eq_ok_iff]
    constructor
    · rintro ⟨slot, hslot, rfl⟩
      exact .condition (fun hd => by simpa [hd] using h) (slot_eq_ok_iff.1 hslot)
    · rintro (⟨hd, hblank⟩ | ⟨hhas, hslot⟩)
      · exact absurd ⟨hd, hblank⟩ h
      · exact ⟨_, slot_eq_ok_iff.2 hslot, rfl⟩

theorem branchCondition_eq_error_iff {e : CompileError} :
    d.branchCondition compiler source = .error e ↔
      (d.name = "else" → d.body.onlyBlanks source = false) ∧
        ∃ fault, Misspells compiler.mode source d.body fault ∧ e = d.error fault := by
  rw [branchCondition]
  split_ifs with h
  · simp [h]
  · rw [map_eq_error_iff, slot_eq_error_iff]
    exact (and_iff_right fun hd => by simpa [hd] using h).symm

theorem ending_eq_ok_iff {opener opener' : Opener} :
    d.ending compiler source opener = .ok opener' ↔ d.Ends compiler source opener opener' := by
  constructor
  · intro h
    cases opener with
    | loop bindings separator =>
      rw [ending] at h
      split_ifs at h with hblank
      · cases h
        exact .bare hblank
      · obtain ⟨slot, hslot, rfl⟩ := map_eq_ok_iff.1 h
        exact .separated (by simpa using hblank) (slot_eq_ok_iff.1 hslot)
    | conditional => cases h; exact .conditional
    | declare => cases h; exact .declare
    | custom => cases h; exact .custom
  · rintro (_ | _ | _ | hblank | ⟨hblank, hslot⟩)
    · rfl
    · rfl
    · rfl
    · rw [ending, if_pos hblank]
    · rw [ending, if_neg (by simp [hblank]), slot_eq_ok_iff.2 hslot]
      rfl

theorem ending_eq_error_iff {opener : Opener} {e : CompileError} :
    d.ending compiler source opener = .error e ↔
      (∃ bindings separator, opener = .loop bindings separator) ∧
        d.body.onlyBlanks source = false ∧
        ∃ fault, Misspells compiler.mode source d.body fault ∧ e = d.error fault := by
  cases opener with
  | loop bindings separator =>
    rw [ending]
    split_ifs with hblank
    · simp [hblank]
    · rw [map_eq_error_iff, slot_eq_error_iff]
      simp [hblank]
  | conditional | declare | custom => simp [ending]

end Directive

/-! ### The grammar -/

section Grammar

variable (compiler : Compiler) (source : String)

mutual

/-- The phrases are a body. -/
inductive Body.Derives : List Phrase → Body → Prop
  | done : Body.Derives [] .done
  | text {spans : List Span} {phrases : List Phrase} {rest : Body}
      (follows : Body.Derives phrases rest) :
      Body.Derives (.text spans :: phrases) (.text spans rest)
  | action {d : Directive} {action : Action} {phrases : List Phrase} {rest : Body}
      (reads : d.Reads compiler source (.standsAlone action))
      (follows : Body.Derives phrases rest) :
      Body.Derives (.directive d :: phrases) (.action d action rest)
  | block {d : Directive} {opener opener' : Opener} {inside phrases : List Phrase} {body : Body}
      {branches : Branches} {rest : Body} (reads : d.Reads compiler source (.opens opener))
      (block : Branches.Derives opener inside opener' body branches)
      (follows : Body.Derives phrases rest) :
      Body.Derives (.directive d :: (inside ++ phrases)) (.block d opener' body branches rest)

/-- The phrases are the rest of a block with this opener, up to its end: the body of the branch, and
the branches behind it. The second opener is what its end makes of the first. -/
inductive Branches.Derives : Opener → List Phrase → Opener → Body → Branches → Prop
  | closed {d : Directive} {opener opener' : Opener} {inside : List Phrase} {body : Body}
      (derives : Body.Derives inside body) (reads : d.Reads compiler source .ends)
      (ends : d.Ends compiler source opener opener') :
      Branches.Derives opener (inside ++ [.directive d]) opener' body (.closed d)
  | branch {d : Directive} {condition : Slot} {next : Option Slot} {inside phrases : List Phrase}
      {body body' : Body} {more : Branches} (derives : Body.Derives inside body)
      (reads : d.Reads compiler source .goesOn) (continues : d.Continues compiler source next)
      (follows : Branches.Derives (.conditional next) phrases (.conditional next) body' more) :
      Branches.Derives (.conditional (some condition)) (inside ++ .directive d :: phrases)
        (.conditional (some condition)) body (.branch d next body' more)

end

/-- A block that has been opened: the directive that opened it, and the opener of its current
branch. -/
structure Frame where
  first : Directive
  opener : Opener

/-- The phrases are the start of a body in which these blocks are open, the innermost first. -/
inductive Opened : List Phrase → List Frame → Prop
  | outermost {phrases : List Phrase} {body : Body}
      (derives : body.Derives compiler source phrases) :
      Opened phrases []
  | opened {d : Directive} {opener : Opener} {before inside : List Phrase} {frames : List Frame}
      {body : Body} (context : Opened before frames)
      (reads : d.Reads compiler source (.opens opener))
      (derives : Body.Derives compiler source inside body) :
      Opened (before ++ .directive d :: inside) (⟨d, opener⟩ :: frames)
  | branched {d first : Directive} {condition : Slot} {next : Option Slot}
      {before inside : List Phrase} {frames : List Frame} {body : Body}
      (context : Opened before (⟨first, .conditional (some condition)⟩ :: frames))
      (reads : d.Reads compiler source .goesOn) (continues : d.Continues compiler source next)
      (derives : Body.Derives compiler source inside body) :
      Opened (before ++ .directive d :: inside) (⟨first, .conditional next⟩ :: frames)

end Grammar

variable {compiler : Compiler} {source : String}

/-! ### Putting derivations together -/

/-- One body behind another one is a body. -/
theorem Body.Derives.append {phrases more : List Phrase} {body last : Body} :
    body.Derives compiler source phrases → last.Derives compiler source more →
      ∃ whole : Body, whole.Derives compiler source (phrases ++ more)
  | .done, hmore => ⟨last, hmore⟩
  | .text hrest, hmore =>
    have ⟨_, h⟩ := hrest.append hmore
    ⟨_, .text h⟩
  | .action hreads hrest, hmore =>
    have ⟨_, h⟩ := hrest.append hmore
    ⟨_, .action hreads h⟩
  | .block hreads hblock hrest, hmore => by
    obtain ⟨_, h⟩ := hrest.append hmore
    rw [List.cons_append, List.append_assoc]
    exact ⟨_, .block hreads hblock h⟩

/-- The condition of a branch is settled before its end. -/
theorem Branches.Derives.opener_eq {phrases : List Phrase} {condition : Option Slot}
    {opener : Opener} {body : Body} {branches : Branches} :
    Branches.Derives compiler source (.conditional condition) phrases opener body branches →
      opener = .conditional condition
  | .closed _ _ .conditional => rfl
  | .branch .. => rfl

namespace Opened

variable {phrases : List Phrase} {frame : Frame} {frames : List Frame}

/-- The innermost body can go on. -/
theorem append {more : List Phrase} {last : Body} :
    Opened compiler source phrases frames → last.Derives compiler source more →
      Opened compiler source (phrases ++ more) frames
  | .outermost h, hmore =>
    have ⟨_, h⟩ := h.append hmore
    .outermost h
  | .opened hcontext hreads h, hmore => by
    obtain ⟨_, h⟩ := h.append hmore
    rw [List.append_assoc, List.cons_append]
    exact .opened hcontext hreads h
  | .branched hcontext hreads hcontinues h, hmore => by
    obtain ⟨_, h⟩ := h.append hmore
    rw [List.append_assoc, List.cons_append]
    exact .branched hcontext hreads hcontinues h

/-- The innermost block can be ended by phrases that go on with its current branch up to an end. The
recursion follows the branches back to the directive that opened the block. -/
theorem close {tail : List Phrase} : ∀ {phrases : List Phrase} {frame : Frame},
    Opened compiler source phrases (frame :: frames) →
    (∀ {inside : List Phrase} {body : Body}, body.Derives compiler source inside →
      ∃ opener branches, Branches.Derives compiler source frame.opener (inside ++ tail) opener
        body branches) →
    Opened compiler source (phrases ++ tail) frames
  | _, _, .opened hcontext hreads h, htail => by
    obtain ⟨opener, branches, hblock⟩ := htail h
    rw [List.append_assoc, List.cons_append]
    exact hcontext.append (by simpa using Body.Derives.block hreads hblock .done)
  | _, _, .branched hcontext hreads hcontinues h, htail => by
    obtain ⟨opener, branches, hblock⟩ := htail h
    obtain rfl := hblock.opener_eq
    rw [List.append_assoc, List.cons_append]
    exact hcontext.close fun hinside => ⟨_, _, .branch hinside hreads hcontinues hblock⟩
termination_by phrases => phrases.length

end Opened

end TextTemplate
