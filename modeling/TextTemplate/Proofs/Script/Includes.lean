import TextTemplate.Proofs.Expression.Quoted
import TextTemplate.Proofs.Script.Run
import TextTemplate.Proofs.Simulation.Walk

/-!
# What an include does

An include of a file either fails, or enters a template of the text of the file. A template that is
nothing but an include therefore writes what the file writes in its directory.

## Main definitions

* `Level.Includes`: what an include of a file does.
* `includeOf`: an include of a name in quotes.
* `Template.WritesIn`: what a template writes in a directory.

## Main results

* `Level.includes_includeFile`: an include of a file, as a step.
* `Template.WritesIn.of_include`: what an include of a file writes.
-/

namespace TextTemplate

/-! ### Entering a file -/

/-- What an include of a file does: it fails, because the file cannot be read or does not compile,
or it enters a template of the text, in the directory of the file. -/
inductive Level.Includes (trees : FileTree → Prop) (owners : List Compiler) (level : Level)
    (compiler : Compiler) (path : Path) (s : RenderState) :
    Except TemplateError Unit × RenderState → Prop
  | fails {e : TemplateError} {s' : RenderState} (fails : ∀ text,
        level.setting.files.read path = .ok text → ∃ e, Program.compile compiler text = .error e) :
      level.Includes trees owners compiler path s (.error e, s')
  | enters {included : Template} {owners' : List Compiler} {caches : Array IncludeCache}
      {dir : Path} (grows : owners <+: owners')
      (faithful : Store.Faithful trees owners' { s.store with caches })
      (reads : level.setting.files.read path = .ok included.source)
      (made : included.compiler = compiler) (owned : included.OwnedIn owners')
      (leads : path.parent?.getD s.currentDir = dir) :
      level.Includes trees owners compiler path s
        ((level.enter included .whole dir).run.run { s with store := { s.store with caches } })

/-- An include of the file of this name. -/
theorem Level.includes_includeFile {trees : FileTree → Prop} (hconsistent : Consistent trees)
    {level : Level} {a : Template} {target : Slot} {name : String}
    (htarget : target.eval level.environment a.source = pure (.string name))
    (hfiles : trees level.setting.files) {owners : List Compiler} {s : RenderState}
    (hfaithful : s.store.Faithful trees owners) (howned : a.OwnedIn owners) (place : Nat) :
    level.Includes trees owners a.compiler (s.currentDir.join ⟨name⟩) s
      ((level.includeFile a place target none).run.run s) := by
  have htext : (level.evaluateText a target).run.run s = (.ok name, s) := by
    rw [evaluateText, evaluate, htarget]
    rfl
  have hrun : (level.includeFile a place target none).run.run s =
      andThen (fun included => do
          let dir := (s.currentDir.join ⟨name⟩).parent?.getD (← get).currentDir
          level.enter included .whole dir)
        ((level.fetchFile a place (s.currentDir.join ⟨name⟩)).run.run s) := by
    rw [includeFile, run_bind, htext, andThen, run_get_bind, evaluatePre, run_bind]
    change andThen _ ((pure () : RenderM Unit).run.run s) = _
    rw [show (pure () : RenderM Unit).run.run s = (.ok (), s) from rfl, andThen, run_bind]
  have hleads : LeadsTo trees owners
      (Fetches · a.compiler level.setting.files (s.currentDir.join ⟨name⟩)) s
      (level.fetchFile a place (s.currentDir.join ⟨name⟩)) :=
    leadsTo_fetchFile hconsistent hfiles hfaithful howned place
  obtain ⟨owners', caches, hgrows, hstate, hfaithful', hfetches⟩ := hleads
  rw [hrun]
  generalize (level.fetchFile a place (s.currentDir.join ⟨name⟩)).run.run s = fetched
    at hstate hfetches
  obtain ⟨result, s'⟩ := fetched
  cases hfetches with
  | notFound hread | unreadable hread =>
    refine .fails fun _ hread' => ?_
    cases hread.symm.trans hread'
  | malformed hread hfails =>
    refine .fails fun _ hread' => ?_
    cases hread.symm.trans hread'
    exact ⟨_, hfails⟩
  | included hreads hmade howned' =>
    obtain rfl : s' = _ := hstate
    rw [andThen, run_get_bind]
    exact .enters hgrows hfaithful' hreads hmade howned' rfl

/-! ### Templates that are an include -/

/-- An include of the file of this name. -/
def includeOf (name : String) : String :=
  "@include\x7b" ++ inQuotes name ++ "\x7d"

theorem toList_includeOf (name : String) :
    (includeOf name).toList = includeText (inQuotes name).toList := by
  simp [includeOf, includeText]

section Items

variable {a : Template}

/-- The script of a template whose only item is an include. -/
theorem Template.exists_script_of_include {name : String} (hverbatim : IsVerbatim name)
    (hitems : (Outline.ofSource a.source).items a.source =
      [.directive "include".toList (inQuotes name).toList]) :
    ∃ place d target, a.script = .action place d (.includeFile target none) .done ∧
      ∀ level : Level, target.eval level.environment a.source = pure (.string name) := by
  have hmarks := Outline.map_item_marks a.source
  rw [hitems] at hmarks
  obtain ⟨mark, rest, heq, hmark, hrest⟩ := List.map_eq_cons_iff.1 hmarks
  cases List.map_eq_nil_iff.1 hrest
  cases mark with
  | char => cases hmark
  | directive place d =>
    rw [Mark.item, Item.directive.injEq] at hmark
    obtain ⟨body, hbody⟩ := Outline.exists_covers_of_mem_marks (heq ▸ List.mem_cons_self)
    obtain rfl : body = (inQuotes name).toList := hbody.chars_eq.symm.trans hmark.2
    have hreads {role : Role} (h : d.Reads a.compiler a.source role) :=
      h.exists_includeFile (String.toList_inj.1 hmark.1) hverbatim hbody
    have hderives := a.script_derives
    generalize hscript : a.script = script at hderives
    generalize hms : Outline.marks a.source = ms at heq hderives
    cases hderives with
    | done => cases heq
    | char => cases heq
    | action hread _ hrest =>
      cases heq
      cases hrest
      obtain ⟨target, hrole, heval⟩ := hreads hread
      cases hrole
      exact ⟨_, _, target, rfl, heval⟩
    | block hread =>
      obtain ⟨⟨⟩, -⟩ := List.cons.inj heq
      obtain ⟨_, hrole, -⟩ := hreads hread
      cases hrole

/-- The script of a template without directives. -/
theorem Template.script_of_chars {text : List Char}
    (hitems : (Outline.ofSource a.source).items a.source = text.map .char) :
    a.script = Script.ofText text .done := by
  have hmarks := Outline.map_item_marks a.source
  rw [hitems, Item.scripted_map_char] at hmarks
  clear hitems
  have hderives := a.script_derives
  generalize Outline.marks a.source = ms at hmarks hderives
  generalize a.script = script at hderives
  induction text generalizing ms script with
  | nil =>
    cases List.map_eq_nil_iff.1 hmarks
    cases hderives
    rfl
  | cons c text ih =>
    obtain ⟨mark, rest, rfl, hmark, hrest⟩ := List.map_eq_cons_iff.1 hmarks
    cases mark with
    | char =>
      cases hmark
      cases hderives with
      | char _ hfollows =>
        exact congrArg (Script.char c) (ih _ hrest _ hfollows)
    | directive => cases hmark

end Items

section Writing

variable {trees : FileTree → Prop} {setting : Setting} {levels : Nat} {a : Template} {dir : Path}
  {name text written : String}

/-- Wherever the caches are faithful, the template writes this text in the directory. -/
def Template.WritesIn (trees : FileTree → Prop) (level : Level) (dir : Path) (a : Template)
    (text : String) : Prop :=
  ∀ (owners : List Compiler) (s : RenderState) (before : String), s.currentDir = dir →
    s.store.Faithful trees owners → a.OwnedIn owners → s.sink = .text before →
    ∃ s', (level.runPart a .whole).run.run s = (.ok (), s') ∧ s'.sink = .text (before ++ text)

/-- A text without directives is written as its characters. -/
theorem Template.WritesIn.of_chars {text : List Char}
    (hitems : (Outline.ofSource a.source).items a.source = text.map .char) :
    a.WritesIn trees (.above setting levels) dir (String.ofList text) := by
  rintro owners ⟨scopes, dirs, declared, resolver, store, _⟩ before - - - rfl
  have hlevel := Level.related_above SameOnText.congruence setting levels
  have hscript : a.scriptAt? .whole = some _ := congrArg some (script_of_chars hitems)
  rw [(Level.sameOnText_runPart hlevel hscript _ ⟨_, rfl⟩).1]
  have hrun := Script.run_ofText (.above setting levels) a text .done before
    ⟨scopes, dirs, declared, resolver, store, .text before⟩
  exact ⟨_, hrun, rfl⟩

/-- The include of a file, where a template is nothing else. -/
theorem Template.exists_run_include (levels : Nat) (hconsistent : Consistent trees)
    (hfiles : trees setting.files) (hverbatim : IsVerbatim name)
    (hitems : (Outline.ofSource a.source).items a.source =
      [.directive "include".toList (inQuotes name).toList]) {owners : List Compiler}
    {s : RenderState} (hfaithful : s.store.Faithful trees owners) (howned : a.OwnedIn owners)
    (hsink : s.sink.IsText) :
    ∃ last position directive,
      (Level.above setting levels).Includes trees owners a.compiler (s.currentDir.join ⟨name⟩) s
        last ∧
      ((Level.above setting levels).runPart a .whole).run.run s =
        (last.1.mapError (TemplateError.annotate position directive), last.2) := by
  obtain ⟨place, d, target, hscript, htarget⟩ := exists_script_of_include hverbatim hitems
  have hlevel := Level.related_above SameOnText.congruence setting levels
  have hincludes := Level.includes_includeFile hconsistent (htarget (.above setting levels))
    (by rwa [Level.setting_above]) hfaithful howned place
  refine ⟨_, Position.locate a.source d.span.start, d.name, hincludes, ?_⟩
  have hscript : a.scriptAt? .whole = some _ := congrArg some hscript
  rw [(Level.sameOnText_runPart hlevel hscript s hsink).1, Script.run, run_bind, Level.located,
    run_adapt, Level.runAction]
  generalize ((Level.above setting levels).includeFile a place target none).run.run s = last
  obtain ⟨_ | _, s'⟩ := last
  · rfl
  · rfl

/-- Where the file cannot be read, there is an error. -/
theorem Template.exists_error_of_include (hconsistent : Consistent trees)
    (hfiles : trees setting.files) (hverbatim : IsVerbatim name)
    (hitems : (Outline.ofSource a.source).items a.source =
      [.directive "include".toList (inQuotes name).toList]) {owners : List Compiler}
    {s : RenderState} (hfaithful : s.store.Faithful trees owners) (howned : a.OwnedIn owners)
    (hsink : s.sink.IsText) {e : FileError}
    (hread : setting.files.read (s.currentDir.join ⟨name⟩) = .error e) :
    ∃ e, (((Level.above setting levels).runPart a .whole).run.run s).1 = .error e := by
  obtain ⟨last, position, directive, hincludes, hrun⟩ := exists_run_include levels
    hconsistent hfiles hverbatim hitems hfaithful howned hsink
  rw [hrun]
  cases hincludes with
  | fails => exact ⟨_, rfl⟩
  | enters _ _ hreads =>
    rw [Level.setting_above] at hreads
    cases hread.symm.trans hreads

/-- Where the file can be read and compiles, what it writes in its directory is written. -/
theorem Template.WritesIn.of_include (hconsistent : Consistent trees) (hfiles : trees setting.files)
    (hverbatim : IsVerbatim name)
    (hitems : (Outline.ofSource a.source).items a.source =
      [.directive "include".toList (inQuotes name).toList])
    (hread : setting.files.read (dir.join ⟨name⟩) = .ok text)
    (hcompiles : ∃ program, Program.compile a.compiler text = .ok program) {parent : Path}
    (hparent : (dir.join ⟨name⟩).parent? = some parent)
    (hwrites : ∀ included : Template, included.source = text → included.compiler = a.compiler →
      included.WritesIn trees (.above setting levels) parent written) :
    a.WritesIn trees (.above setting (levels + 1)) dir written := by
  rintro owners s before rfl hfaithful howned hsink
  obtain ⟨last, position, directive, hincludes, hrun⟩ := exists_run_include (levels + 1)
    hconsistent hfiles hverbatim hitems hfaithful howned ⟨_, hsink⟩
  rw [hrun]
  cases hincludes with
  | fails hfails =>
    rw [Level.setting_above] at hfails
    obtain ⟨program, hprogram⟩ := hcompiles
    obtain ⟨_, hfailed⟩ := hfails text hread
    cases hprogram.symm.trans hfailed
  | @enters included owners' caches _ _ hfaithful' hreads hmade howned' hleads =>
    rw [Level.setting_above] at hreads
    rw [hparent, Option.getD_some] at hleads
    subst hleads
    obtain ⟨s', hentered, hwritten⟩ := hwrites included
      (Except.ok.inj (hreads.symm.trans hread)) hmade owners'
      ({ s with store := { s.store with caches } }.pushDir parent) before rfl hfaithful' howned'
      hsink
    have hrun : ((Level.above setting (levels + 1)).enter included .whole parent).run.run
        { s with store := { s.store with caches } } = (.ok (), s'.popDir) := by
      change (RenderM.withDir parent ((Level.above setting levels).runPart included
        .whole)).run.run _ = _
      rw [RenderM.withDir, run_between, hentered]
    rw [hrun]
    exact ⟨s'.popDir, rfl, hwritten⟩

end Writing

end TextTemplate
