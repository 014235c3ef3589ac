import TextTemplate.Proofs.Script.Simulation
import TextTemplate.Proofs.Session.History

/-!
# Texts that sessions write

A render of a text collects it in one sink. In a session two such renders can be compared by the
scripts that they run, each starting from the same sound store.

## Main results

* `Template.renderText_eq_ok_iff`: the text that a render writes.
* `Store.Sound.stores_scripts`, `RenderOptions.KnownIn.simulates_scripts`: where renders of scripts
  start.
* `Setting.Simulates.above_scripts`, `Simulates.exists_results`: what they lead to.
-/

namespace TextTemplate

section Texts

variable {template : Template} {options : RenderOptions} {files : FileTree} {store : Store}

/-- A render to a text, by what it does to the state. -/
theorem Template.renderText_of_run {result : Except TemplateError Unit} {s : RenderState}
    (h : ((options.level files).runPart template .whole).run.run
      (options.initial template store .collector) = (result, s)) :
    template.renderText options files store =
      ⟨result.map fun _ => s.sink.collected, s.sink, s.resolver, s.store⟩ := by
  rw [renderText, renderInto, RenderM.outcome, h]

theorem Template.renderText_eq_ok_iff {text : String} :
    (template.renderText options files store).result = .ok text ↔
      ∃ s, ((options.level files).runPart template .whole).run.run
        (options.initial template store .collector) = (.ok (), s) ∧ s.sink = .text text := by
  have hsink := (Level.related_runPart SameOnText.congruence
    (Level.related_above SameOnText.congruence (options.setting files) options.maxDepth) template
    .whole (options.initial template store .collector) Sink.isText_collector).2
  rw [← RenderOptions.level] at hsink
  generalize hrun : ((options.level files).runPart template .whole).run.run
    (options.initial template store .collector) = last at hsink
  obtain ⟨result, s⟩ := last
  obtain ⟨collected, hcollected⟩ := hsink
  rw [renderText_of_run hrun]
  dsimp only at hcollected ⊢
  rw [hcollected]
  cases result with
  | error =>
    constructor
    · intro h
      cases h
    · rintro ⟨_, h, -⟩
      cases h
  | ok =>
    refine ⟨fun h => ⟨s, rfl, hcollected.trans (congrArg Sink.text (Except.ok.inj h))⟩, ?_⟩
    rintro ⟨_, ⟨⟩, hsink⟩
    exact congrArg Except.ok (Sink.text.inj (hcollected.symm.trans hsink))

end Texts

section Scripts

variable {c : Comparison} {w : World} {v : View} {placement : Placement} {inlinable : Inlinable}
  {owners : List Compiler}

/-- A sound store corresponds to itself. -/
theorem Store.Sound.stores_scripts (ht : c.IsTextual placement inlinable)
    (hrefl : ∀ compiler, c.compilers compiler compiler) {store : Store}
    (h : store.Sound c.trees owners)
    (hplaces : ∀ block ∈ store.blocks.toList, ∃ places,
      placement block.template block.template places ∧ ∀ offset, places offset offset) :
    c.Stores ⟨owners, owners⟩ store store where
  blocks := List.forall₂_same.2 fun block hblock =>
    have hhosts := ⟨hrefl _, h.blocks block hblock, h.blocks block hblock⟩
    have ⟨_, hplacement, hplaces⟩ := hplaces block hblock
    ⟨⟨hhosts, c.paths_refl _, ht.entries.2 (.of_source rfl rfl hplacement hplaces _)⟩, rfl, rfl⟩
  left := h.faithful
  right := h.faithful

/-- So does the setting of a render. -/
theorem RenderOptions.KnownIn.simulates_scripts
    (hrefl : ∀ compiler, c.compilers compiler compiler) {templates : List Template}
    {options : RenderOptions} (h : options.KnownIn templates)
    (howned : ∀ template ∈ templates, template.OwnedIn owners)
    (htexts : ∀ template, IsRegistered options.registry template → c.texts template.source)
    {files : FileTree} (hfiles : c.trees files) :
    (options.setting files).Simulates c ⟨owners, owners⟩ (options.setting files) where
  context := rfl
  files := rfl
  known := hfiles
  limit := rfl
  registry := .refl fun template htemplate =>
    have hknown := howned template (h template htemplate)
    ⟨⟨⟨hrefl _, hknown, hknown⟩, rfl, htexts template htemplate⟩, rfl⟩

/-- The levels of a setting correspond to themselves, where nothing is inlined. -/
theorem Setting.Simulates.above_scripts
    (ht : c.IsTextual placement fun _ _ _ _ _ => False) {setting : Setting}
    (h : setting.Simulates c w setting) (levels : Nat) :
    (Level.above setting levels).Simulates c w (Level.above setting levels) := by
  induction levels with
  | zero => exact h.of_enter fun {_} _ {_ _} _ => .fail _
  | succ levels ih =>
    refine h.of_enter fun {v} hv {e e'} hentries => ?_
    have hlevel := Level.related_above SameOnText.congruence setting levels
    exact ((ih.mono hv).runEntry ht .none hlevel hlevel
      hentries).withDir hentries.dirs

/-- Where a comparison is never given up, it leads to corresponding states and results. -/
theorem Simulates.exists_results (hescapes : ∀ e, ¬c.escapes e) (hexcuses : ∀ e, ¬c.excuses e)
    {left right : RenderM Unit} (h : Simulates c c.rendering v Same left right)
    {s t : RenderState} (hst : c.States v s t) :
    ∃ v', v ≤ v' ∧ c.States v' (left.run.run s).2 (right.run.run t).2 ∧
      Results c.rendering (Same v'.world) (left.run.run s).1 (right.run.run t).1 := by
  obtain hgiven | hends := h v le_rfl s t hst
  · generalize (left.run.run s).1 = result at hgiven
    generalize (right.run.run t).1 = result' at hgiven
    cases hgiven with
    | escapes he => exact absurd he (hescapes _)
    | excused he => exact absurd he (hexcuses _)
  · exact hends

end Scripts

end TextTemplate
