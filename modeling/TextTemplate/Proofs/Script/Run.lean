import TextTemplate.Proofs.Course.Output
import TextTemplate.Proofs.Script.Parts
import TextTemplate.Proofs.Structure.Links
import TextTemplate.Proofs.Text.Escape

/-!
# Running a script

As long as what is written is collected in one text, running the tree of a template is running its
script: it makes no difference how many pieces a text is written in, and a comment does nothing.

## Main definitions

* `SameOnText`: steps that do the same where one text is collected.
* `Script.run`, `Alternatives.run`: running a script.
* `Template.scriptAt?`: what is run of a template, as a script.
* `Script.Placed`: the places in a script are those of a template.

## Main results

* `Body.sameOnText_walk`: running a tree is running its script.
* `Template.placed_script`: the bodies of the blocks in the script of a template are where their
  places say.
-/

namespace TextTemplate

/-! ### Collecting one text -/

/-- What is written is collected in one text. -/
def Sink.IsText (sink : Sink) : Prop :=
  ∃ written, sink = .text written

theorem Sink.isText_collector : Sink.collector.IsText := ⟨"", rfl⟩

theorem Sink.IsText.append {sink : Sink} (h : sink.IsText) (text : String) :
    (sink.append text).1.IsText := by
  obtain ⟨written, rfl⟩ := h
  exact ⟨written ++ text, rfl⟩

/-- The steps do the same in every state that collects one text, and such a state is left. -/
def SameOnText {α : Type} (left right : RenderM α) : Prop :=
  ∀ s, s.sink.IsText →
    left.run.run s = right.run.run s ∧ (left.run.run s).2.sink.IsText

namespace SameOnText

variable {α α' : Type} {left right : RenderM α}

theorem bind {next next' : α → RenderM α'} (h : SameOnText left right)
    (hnext : ∀ a, SameOnText (next a) (next' a)) :
    SameOnText (left >>= next) (right >>= next') := by
  intro s hs
  obtain ⟨hrun, hsink⟩ := h s hs
  rw [run_bind, run_bind, ← hrun]
  generalize left.run.run s = first at hsink
  obtain ⟨_ | a, t⟩ := first
  · exact ⟨rfl, hsink⟩
  · exact hnext a t hsink

private theorem between {σ : Type} {enter : RenderState → σ × RenderState}
    {leave : σ → RenderState → RenderState} (h : SameOnText left right)
    (henter : ∀ s, s.sink.IsText → (enter s).2.sink.IsText)
    (hleave : ∀ s t, s.sink.IsText → t.sink.IsText → (leave (enter s).1 t).sink.IsText) :
    SameOnText (RenderM.between enter leave left) (RenderM.between enter leave right) := by
  intro s hs
  obtain ⟨hrun, hsink⟩ := h _ (henter s hs)
  rw [run_between, run_between, hrun]
  exact ⟨rfl, hleave s _ hs (hrun ▸ hsink)⟩

private theorem adapt (h : SameOnText left right) (f : TemplateError → TemplateError) :
    SameOnText (ExceptT.adapt f left) (ExceptT.adapt f right) := by
  intro s hs
  obtain ⟨hrun, hsink⟩ := h s hs
  rw [run_adapt, run_adapt, ← hrun]
  exact ⟨rfl, hsink⟩

private theorem emit (text : String) : SameOnText (RenderM.emit text) (RenderM.emit text) := by
  intro s hs
  refine ⟨rfl, ?_⟩
  rw [run_emit]
  split_ifs
  · exact hs
  · exact hs.append text

private theorem operations : Operations SameOnText where
  result _ _ hs := ⟨rfl, hs⟩
  bind := .bind
  get_bind _ _ h s hs := h s s hs
  caches _ _ _ hs := ⟨rfl, hs⟩
  assign name value s hs := by
    refine ⟨rfl, ?_⟩
    change (s.assign name value).sink.IsText
    rwa [show s.assign name value = { s.assign name value with sink := s.sink } from
      RenderState.assign_with_sink s s.sink name value]
  declare _ _ _ _ hs := ⟨rfl, hs⟩
  emit := .emit
  withScope _ _ _ h := h.between (fun _ hs => hs) fun _ _ _ ht => ht
  withDir _ _ _ h := h.between (fun _ hs => hs) fun _ _ _ ht => ht
  withScopes _ _ _ h := h.between (fun _ hs => hs) fun _ _ _ ht => ht
  captured h := by
    have hcollected : SameOnText (do return (← get).sink.collected)
        (do return (← get).sink.collected) := fun _ hs => ⟨rfl, hs⟩
    exact (h.bind fun _ => hcollected).between (fun _ _ => Sink.isText_collector)
      fun _ _ hs _ => hs

theorem congruence : Congruence SameOnText :=
  operations.congruence fun _ _ _ _ h => h.adapt _

end SameOnText

/-! ### Running a script -/

section Run

variable (level : Level) (template : Template)

open Level

mutual

/-- Runs a script. -/
def Script.run : Script → RenderM Unit
  | .done => return
  | .char c rest => do
    RenderM.emit (.singleton c)
    rest.run
  | .action place d action rest => do
    located template d.span.start d.name (level.runAction template place d.body action)
    rest.run
  | .block place d opener body others rest => do
    located template d.span.start d.name <|
      match opener with
      | .conditional condition => do
        if ← level.isTaken template d.span.start d.name condition then
          body.run
        else
          others.run
      | .loop bindings separator => level.runLoop template bindings separator body.run
      | .declare name => level.runDeclare template name place
      | .custom custom =>
        level.runCustom custom (d.body.slice template.source)
          (some (others.closer.body.slice template.source)) body.run
    rest.run

/-- Runs the first branch that is taken, if there is one. -/
def Alternatives.run : Alternatives → RenderM Unit
  | .closed _ => return
  | .branch d condition body more => do
    if ← level.isTaken template d.span.start d.name condition then
      body.run
    else
      more.run

end

end Run

section Walk

variable {level : Level} {template : Template}

/-- Characters are written as one text. -/
theorem Script.run_ofText (level : Level) (template : Template) (text : List Char) (rest : Script)
    (written : String) (s : RenderState) :
    ((Script.ofText text rest).run level template).run.run { s with sink := .text written } =
      (rest.run level template).run.run
        { s with sink := .text (written ++ String.ofList text) } := by
  induction text generalizing written with
  | nil =>
    rw [String.ofList_nil, String.append_empty]
    rfl
  | cons c text ih =>
    change ((RenderM.emit (.singleton c) >>= fun _ => (Script.ofText text rest).run level
      template) : RenderM Unit).run.run _ = _
    rw [run_bind, run_emit_text]
    change ((Script.ofText text rest).run level template).run.run _ = _
    rw [ih, String.append_assoc, String.ofList_cons]

/-- One script is run behind another one. -/
theorem Script.run_append : ∀ script last : Script, (script.append last).run level template =
    (do script.run level template; last.run level template)
  | .done, _ => by rw [append, run, pure_bind]
  | .char _ rest, last => by rw [append, run, run, rest.run_append last, bind_assoc]
  | .action _ _ _ rest, last => by rw [append, run, run, rest.run_append last, bind_assoc]
  | .block _ _ opener _ _ rest, last => by
    cases opener <;> rw [append, run, run, rest.run_append last, bind_assoc]

private theorem Branches.closer_script (source : String) : ∀ (branches : Branches) (place : Nat),
    (branches.script source place).closer = branches.closer
  | .closed _, _ => rfl
  | .branch _ _ _ more, _ => more.closer_script source _

/-- Whether a branch is taken does not depend on how texts are written. -/
theorem Level.sameOnText_isTaken (hlevel : Level.Related SameOnText level level) (offset : Nat)
    (name : String) (condition : Option Slot) :
    SameOnText (level.isTaken template offset name condition)
      (level.isTaken template offset name condition) := by
  cases condition with
  | none => exact SameOnText.operations.pure true
  | some slot =>
    exact .adapt (SameOnText.operations.map _
      (Level.related_evaluate SameOnText.congruence hlevel template slot)) _

variable (hlevel : Level.Related SameOnText level level)

include hlevel

mutual

/-- Running a tree is running its script. -/
theorem Body.sameOnText_walk (place : Nat) : ∀ body : Body,
    SameOnText (body.walk level template place)
      ((body.script template.source place).run level template)
  | .done => SameOnText.operations.pure ()
  | .text spans rest => by
    have hrest := Body.sameOnText_walk (place + 1) rest
    rintro ⟨scopes, dirs, declared, resolver, store, sink⟩ ⟨written, rfl⟩
    rw [Body.walk, run_bind, Level.located, run_adapt, Body.script]
    have htext := run_writeText template spans written
      ⟨scopes, dirs, declared, resolver, store, .text written⟩
    have hchars := Script.run_ofText level template
      (textOf template.source spans) (rest.script template.source (place + 1)) written
      ⟨scopes, dirs, declared, resolver, store, .text written⟩
    dsimp only at htext hchars
    rw [htext, hchars]
    exact hrest _ ⟨_, rfl⟩
  | .action d action rest => by
    have hrest := Body.sameOnText_walk (place + 1) rest
    rw [Body.walk, Body.script]
    have haction := SameOnText.adapt
      (Level.related_runAction SameOnText.congruence hlevel template place d.body action)
      (TemplateError.annotate (Position.locate template.source d.span.start) d.name)
    cases hcomment : action.isComment with
    | true =>
      obtain rfl : action = .comment := by cases action <;> first | rfl | cases hcomment
      exact fun s hs => hrest s hs
    | false => exact haction.bind fun _ => hrest
  | .block d opener body branches rest => by
    have hbody := Body.sameOnText_walk (place + 1) body
    have hbranches := Branches.sameOnText_walk (place + 1 + body.width) branches
    cases opener with
    | conditional condition =>
      rw [Body.walk, Body.script, Script.run]
      refine .bind (.adapt (.bind (Level.sameOnText_isTaken hlevel _ _ condition) ?_) _) fun _ =>
        Body.sameOnText_walk _ rest
      rintro (_ | _)
      · exact hbranches
      · exact hbody
    | loop bindings separator =>
      rw [Body.walk, Body.script, Script.run]
      exact .bind (.adapt (Level.related_runLoop SameOnText.congruence hlevel template bindings
        separator hbody) _) fun _ => Body.sameOnText_walk _ rest
    | declare name =>
      rw [Body.walk, Body.script, Script.run]
      exact .bind (.adapt (Level.related_runDeclare SameOnText.congruence hlevel template name
        place) _) fun _ => Body.sameOnText_walk _ rest
    | custom custom =>
      rw [Body.walk, Body.script, Script.run, Branches.closer_script]
      exact .bind (.adapt (Level.related_runCustom SameOnText.congruence hlevel custom _ _
        hbody) _) fun _ => Body.sameOnText_walk _ rest

/-- So is running the rest of a block. -/
theorem Branches.sameOnText_walk (place : Nat) : ∀ branches : Branches,
    SameOnText (branches.walk level template place)
      ((branches.script template.source place).run level template)
  | .closed _ => SameOnText.operations.pure ()
  | .branch d condition body more => by
    have hbody := Body.sameOnText_walk (place + 2) body
    have hmore := Branches.sameOnText_walk (place + 2 + body.width) more
    rw [Branches.walk, Branches.script, Alternatives.run]
    refine .bind (Level.sameOnText_isTaken hlevel _ _ condition) fun taken => ?_
    cases taken with
    | true => exact hbody
    | false => exact hmore

end

end Walk

/-! ### Places -/

/-- What is run of a template, as a script. -/
def Template.scriptAt? (template : Template) : Part → Option Script
  | .whole => some template.script
  | .bodyAt place =>
    (template.tree.bodyAt? place).map (·.script template.source (place + 1))

section Placed

variable (bodyAt : Nat → Option Script)

mutual

/-- At the places of the blocks their bodies are found. -/
def Script.Placed : Script → Prop
  | .done => True
  | .char _ rest => rest.Placed
  | .action _ _ _ rest => rest.Placed
  | .block place _ _ body others rest =>
    bodyAt place = some body ∧ body.Placed ∧ others.Placed ∧ rest.Placed

/-- So are those of the blocks in the branches. -/
def Alternatives.Placed : Alternatives → Prop
  | .closed _ => True
  | .branch _ _ body more => body.Placed ∧ more.Placed

end

variable {bodyAt}

theorem Script.placed_append : ∀ {script last : Script},
    (script.append last).Placed bodyAt ↔ script.Placed bodyAt ∧ last.Placed bodyAt
  | .done, _ => by rw [append, Placed, true_and]
  | .char _ rest, _ => rest.placed_append
  | .action _ _ _ rest, _ => rest.placed_append
  | .block _ _ _ _ _ rest, last => by
    rw [append, Placed, Placed, rest.placed_append]
    simp only [and_assoc]

private theorem Script.placed_ofText {text : List Char} {rest : Script} :
    (Script.ofText text rest).Placed bodyAt ↔ rest.Placed bodyAt := by
  induction text with
  | nil => rfl
  | cons c text ih => exact ih

end Placed

private theorem Branches.bodyAt?_eq_none : ∀ {branches : Branches} {n : Nat}, branches.width < n →
    branches.bodyAt? n = none
  | .closed _, _, _ => rfl
  | .branch .., 0, h => absurd h (Nat.not_lt_zero _)
  | .branch .., 1, h => by
    rw [Branches.width] at h
    omega
  | .branch _ _ body more, n + 2, h => by
    rw [Branches.width] at h
    rw [Branches.bodyAt?, if_neg (by omega), more.bodyAt?_eq_none (by omega)]

section Trees

variable (source : String) (bodyAt : Nat → Option Body)

mutual

/-- The script of a part of a tree is placed where the part is. -/
theorem Body.placed_script : ∀ (body : Body) (place : Nat),
    (∀ n inner, body.bodyAt? n = some inner → bodyAt (place + n) = some inner) →
      (body.script source place).Placed fun p => (bodyAt p).map (·.script source (p + 1))
  | .done, _, _ => trivial
  | .text _ rest, place, h => by
    rw [Body.script, Script.placed_ofText]
    refine rest.placed_script (place + 1) fun n inner hinner => ?_
    rw [Nat.add_assoc, Nat.add_comm 1]
    exact h (n + 1) inner hinner
  | .action _ action rest, place, h => by
    have hrest := rest.placed_script (place + 1) fun n inner hinner => by
      rw [Nat.add_assoc, Nat.add_comm 1]
      exact h (n + 1) inner hinner
    rw [Body.script]
    split_ifs <;> exact hrest
  | .block _ _ body branches rest, place, h => by
    rw [Body.script, Script.Placed]
    refine ⟨?_, body.placed_script (place + 1) fun n inner hinner => ?_,
      branches.placed_script (place + 1 + body.width) fun n inner hinner => ?_,
      rest.placed_script _ fun n inner hinner => ?_⟩
    · rw [show bodyAt place = some body from h 0 body rfl]
      rfl
    · have hlt : n < body.width := by
        by_contra hle
        rw [Body.bodyAt?_eq_none (by omega)] at hinner
        cases hinner
      rw [Nat.add_assoc, Nat.add_comm 1]
      refine h (n + 1) inner ?_
      rwa [Body.bodyAt?, if_pos hlt]
    · have hle : n ≤ branches.width := by
        by_contra hlt
        rw [Branches.bodyAt?_eq_none (by omega)] at hinner
        cases hinner
      rw [show place + 1 + body.width + n = place + (body.width + n + 1) by omega]
      refine h (body.width + n + 1) inner ?_
      rwa [Body.bodyAt?, if_neg (by omega), if_pos (by omega), Nat.add_sub_cancel_left]
    · rw [show place + 1 + body.width + branches.width + 1 + n =
        place + (body.width + branches.width + 1 + n + 1) by omega]
      refine h _ inner ?_
      rwa [Body.bodyAt?, if_neg (by omega), if_neg (by omega), Nat.add_sub_cancel_left]

/-- So is the script of the rest of a block. -/
theorem Branches.placed_script : ∀ (branches : Branches) (place : Nat),
    (∀ n inner, branches.bodyAt? n = some inner → bodyAt (place + n) = some inner) →
      (branches.script source place).Placed fun p => (bodyAt p).map (·.script source (p + 1))
  | .closed _, _, _ => trivial
  | .branch _ _ body more, place, h => by
    rw [Branches.script, Alternatives.Placed]
    refine ⟨body.placed_script (place + 2) fun n inner hinner => ?_,
      more.placed_script (place + 2 + body.width) fun n inner hinner => ?_⟩
    · have hlt : n < body.width := by
        by_contra hle
        rw [Body.bodyAt?_eq_none (by omega)] at hinner
        cases hinner
      rw [Nat.add_assoc, Nat.add_comm 2]
      refine h (n + 2) inner ?_
      rwa [Branches.bodyAt?, if_pos hlt]
    · rw [show place + 2 + body.width + n = place + (body.width + n + 2) by omega]
      refine h (body.width + n + 2) inner ?_
      rwa [Branches.bodyAt?, if_neg (by omega), Nat.add_sub_cancel_left]

end

end Trees

section Parts

variable {source : String} {bodyAt : Nat → Option Script} {inner : Body}

mutual

/-- The places in the script of a body are those of what it is in. -/
theorem Body.placed_of_bodyAt? : ∀ {body : Body} {n place : Nat}, body.bodyAt? n = some inner →
    (body.script source place).Placed bodyAt → (inner.script source (place + n + 1)).Placed bodyAt
  | .done, _, _, h, _ => nomatch h
  | .text _ _, 0, _, h, _ | .action _ _ _, 0, _, h, _ => nomatch h
  | .text _ rest, n + 1, place, h, hplaced => by
    rw [Body.script, Script.placed_ofText] at hplaced
    rw [show place + (n + 1) = place + 1 + n by omega]
    exact rest.placed_of_bodyAt? h hplaced
  | .action _ action rest, n + 1, place, h, hplaced => by
    rw [show place + (n + 1) = place + 1 + n by omega]
    rw [Body.script] at hplaced
    split_ifs at hplaced <;> exact rest.placed_of_bodyAt? h hplaced
  | .block _ _ body branches rest, 0, place, h, hplaced => by
    obtain rfl : body = inner := Option.some.inj h
    exact hplaced.2.1
  | .block _ _ body branches rest, n + 1, place, h, hplaced => by
    obtain ⟨-, hbody, hbranches, hrest⟩ := hplaced
    rw [Body.bodyAt?] at h
    split_ifs at h with hinside hbranch
    · rw [show place + (n + 1) = place + 1 + n by omega]
      exact body.placed_of_bodyAt? h hbody
    · rw [show place + (n + 1) = place + 1 + body.width + (n - body.width) by omega]
      exact branches.placed_of_bodyAt? h hbranches
    · rw [show place + (n + 1) = place + 1 + body.width + branches.width + 1 +
        (n - (body.width + branches.width + 1)) by omega]
      exact rest.placed_of_bodyAt? h hrest

/-- So are those in the script of a body in the rest of a block. -/
theorem Branches.placed_of_bodyAt? : ∀ {branches : Branches} {n place : Nat},
    branches.bodyAt? n = some inner → (branches.script source place).Placed bodyAt →
      (inner.script source (place + n + 1)).Placed bodyAt
  | .closed _, _, _, h, _ => nomatch h
  | .branch _ _ _ _, 0, _, h, _ => nomatch h
  | .branch _ _ body _, 1, _, h, hplaced => by
    obtain rfl : body = inner := Option.some.inj h
    exact hplaced.1
  | .branch _ _ body more, n + 2, place, h, hplaced => by
    obtain ⟨hbody, hmore⟩ := hplaced
    rw [Branches.bodyAt?] at h
    split_ifs at h with hinside
    · rw [show place + (n + 2) = place + 2 + n by omega]
      exact body.placed_of_bodyAt? h hbody
    · rw [show place + (n + 2) = place + 2 + body.width + (n - body.width) by omega]
      exact more.placed_of_bodyAt? h hmore

end

end Parts

/-- The places in the script of a template are those of the template. -/
theorem Template.placed_script (template : Template) :
    template.script.Placed fun place => template.scriptAt? (.bodyAt place) :=
  template.tree.placed_script template.source template.tree.bodyAt? 0 fun n inner hinner => by
    rwa [Nat.zero_add]

/-- So are those in the scripts of its parts. -/
theorem Template.placed_of_scriptAt? {template : Template} {part : Part} {script : Script}
    (h : template.scriptAt? part = some script) :
    script.Placed fun place => template.scriptAt? (.bodyAt place) := by
  cases part with
  | whole =>
    obtain rfl : template.script = script := Option.some.inj h
    exact template.placed_script
  | bodyAt place =>
    obtain ⟨body, hbody, rfl⟩ := Option.map_eq_some_iff.1 h
    have hplaced := Body.placed_of_bodyAt? hbody template.placed_script
    rwa [Nat.zero_add] at hplaced

/-- Running a part of a template is running its script. -/
theorem Level.sameOnText_runPart {level : Level} (hlevel : Level.Related SameOnText level level)
    {template : Template} {part : Part} {script : Script}
    (h : template.scriptAt? part = some script) :
    SameOnText (level.runPart template part) (script.run level template) := by
  rw [Level.runPart_eq_walkPart]
  cases part with
  | whole =>
    cases h
    exact Body.sameOnText_walk hlevel 0 template.tree
  | bodyAt place =>
    obtain ⟨body, hbody, rfl⟩ := Option.map_eq_some_iff.1 h
    rw [Level.walkPart, hbody]
    exact Body.sameOnText_walk hlevel (place + 1) body

/-- A part that is not there is not run. -/
theorem Level.runPart_of_scriptAt?_eq_none {level : Level} {template : Template} {part : Part}
    (h : template.scriptAt? part = none) : level.runPart template part = pure () := by
  cases part with
  | whole => cases h
  | bodyAt place => rw [Level.runPart_eq_walkPart, Level.walkPart, Option.map_eq_none_iff.1 h]

end TextTemplate
