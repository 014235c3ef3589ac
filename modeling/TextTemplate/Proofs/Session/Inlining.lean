import TextTemplate.Proofs.Script.Includes
import TextTemplate.Proofs.Session.Texts
import TextTemplate.Proofs.Simulation.Directories

/-!
# Includes that are inlined

A file that is included is rendered one level deeper, in its directory. A render where its text
stands in the place of the include does the same, in the directory of the include. The two
directories agree, but they may be written in two ways, so that a path below one of them can be too
long for the system where that below the other one is not.

## Main definitions

* `Inlining`: a file that is inlined.
* `TemplateError.IsTooLong`: the error of an include whose path is too long.
* `Comparison.inlining`: comparing a render with includes to one where they are inlined.

## Main results

* `Inlining.simulates_above`: the levels of the two renders.
-/

namespace TextTemplate

/-- The failure of an include whose path, or a name in it, is too long. -/
def TemplateError.IsTooLong (e : TemplateError) : Prop :=
  ∃ path position directive,
    e = .render (.includeUnreadable path FileError.nameTooLong.message) position directive

private theorem TemplateError.IsTooLong.annotate {e : TemplateError} (h : e.IsTooLong)
    (position : Position) (directive : String) : (e.annotate position directive).IsTooLong := by
  obtain ⟨path, _ | _, _, rfl⟩ := h
  · exact ⟨path, _, _, rfl⟩
  · exact ⟨path, _, _, rfl⟩

/-- A file that is inlined: a directory, the name of a file in it, and a template of its text. -/
structure Inlining where
  dir : Path
  name : String
  contents : Template

namespace Inlining

variable (i : Inlining)

/-- The path of the file. -/
def path : Path :=
  i.dir.join ⟨i.name⟩

/-- The directory is written as it is found in the path of the file. -/
def IsTidy : Prop :=
  i.path.parent? = some i.dir

/-- Directories that agree, and that are the same if the directory of the file is tidy. -/
def Paths (p q : Path) : Prop :=
  p.agrees q = true ∧ (i.IsTidy → p = q)

/-- The script of the file stands in the place of an include of the file, in its directory. -/
structure Inlines (dir : Path) (a b : Template) (target : Slot) (script : Script) : Prop where
  dir_eq : dir = i.dir
  compiler : a.compiler = i.contents.compiler
  target (level : Level) : target.eval level.environment a.source = pure (.string i.name)
  alike : Script.Alike .any i.contents.source b.source (fun _ _ => False) i.contents.script script

variable {i}

theorem Paths.refl (p : Path) : i.Paths p p :=
  ⟨Path.agrees_iff.2 rfl, fun _ => rfl⟩

theorem Paths.trans {p q r : Path} (h : i.Paths p q) (h' : i.Paths q r) : i.Paths p r :=
  ⟨Path.agrees_iff.2 ((Path.agrees_iff.1 h.1).trans (Path.agrees_iff.1 h'.1)),
    fun htidy => (h.2 htidy).trans (h'.2 htidy)⟩

private theorem Paths.parent? {p q : Path} (h : i.Paths p q) :
    Option.Rel i.Paths p.parent? q.parent? := by
  have hagrees := Path.agrees_parent? h.1
  have heq (htidy : i.IsTidy) : p.parent? = q.parent? := congrArg Path.parent? (h.2 htidy)
  generalize p.parent? = parent at hagrees heq
  generalize q.parent? = parent' at hagrees heq
  cases hagrees with
  | none => exact .none
  | some hparents => exact .some ⟨hparents, fun htidy => Option.some.inj (heq htidy)⟩

end Inlining

/-- Renders of scripts with includes that are inlined on the right. The comparison is given up where
the left one fails, or the right one because of a path that is too long. -/
def Comparison.inlining {trees : FileTree → Prop} (hconsistent : Consistent trees) (i : Inlining) :
    Comparison where
  trees
  consistent := hconsistent
  compilers := Eq
  precedes := .of_eq
  escapes _ := True
  escapes_annotate _ _ _ := trivial
  escapes_compile _ _ _ _ _ _ _ _ := .inr trivial
  entries := ScriptsAlike .any i.Inlines
  paths := i.Paths
  texts _ := True
  sinks := Sink.IsText
  excuses e := ¬i.IsTidy ∧ e.IsTooLong
  alike _ _ := True
  entries_whole _ hsource hcompilers _ :=
    .of_source hsource hcompilers rfl (fun _ => trivial) .whole
  paths_refl p := Inlining.Paths.refl p
  paths_join h target :=
    ⟨Path.agrees_join h.1 target, fun htidy => congrArg (·.join target) (h.2 htidy)⟩
  paths_parent? h := Inlining.Paths.parent? h
  texts_read _ _ := trivial
  sinks_collector := Sink.isText_collector
  sinks_append h text := h.append text
  excuses_annotate h position name := ⟨h.1, h.2.annotate position name⟩
  alike_refl _ := trivial
  alike_paths _ _ _ := trivial
  reads {dir dir'} h target files _ := by
    by_cases htidy : i.IsTidy
    · rw [h.2 htidy]
      exact .inl rfl
    · obtain hsame | ⟨-, hlong⟩ | ⟨-, hlong⟩ := files.read_join_of_agrees h.1 target
      · exact .inl hsame
      · exact .inr ⟨.nameTooLong, nofun, .inl ⟨hlong, trivial⟩⟩
      · exact .inr ⟨.nameTooLong, nofun, .inr ⟨hlong, htidy, _, none, none, rfl⟩⟩

private theorem Comparison.isTextual_inlining {trees : FileTree → Prop}
    (hconsistent : Consistent trees) (i : Inlining) :
    (inlining hconsistent i).IsTextual .any i.Inlines :=
  .of_alike (fun _ _ => trivial) (fun _ => id) fun _ _ => Iff.rfl

/-! ### Levels -/

namespace Inlining

variable {trees : FileTree → Prop} {hconsistent : Consistent trees} {i : Inlining} {w : World}
  {left right : Level} {setting setting' : Setting}

/-- Where the left render enters the file, the right one runs what is inlined. -/
def Enters (hconsistent : Consistent trees) (i : Inlining) (w : World)
    (left right : Level) : Prop :=
  ∀ {v : View}, w ≤ v.world → v.dir = i.dir → ∀ {included b : Template} {script : Script},
    (Comparison.inlining hconsistent i).Hosts v.world included b →
    included.source = i.contents.source → included.compiler = i.contents.compiler →
    Script.Alike .any i.contents.source b.source (fun _ _ => False) i.contents.script script →
    script.PlacedIn b → ∀ {dir : Path}, i.Paths dir i.dir →
      Simulates (Comparison.inlining hconsistent i) (Comparison.inlining hconsistent i).rendering v
        Same (left.enter included .whole dir) (script.run right b)

/-- Where the file is read, its include does what the levels do that enter it. -/
theorem Enters.inlines (h : i.Enters hconsistent w left right) (hname : Path.IsFileName i.name)
    (hknown : trees left.setting.files)
    (hread : left.setting.files.read i.path = .ok i.contents.source) :
    left.Inlines (Comparison.inlining hconsistent i) w right i.Inlines where
  simulates {v} hv {a b} hab {target script} hinlines hplaced place d := by
    intro v₁ hv₁ s t hst
    have hdir : s.currentDir = i.dir :=
      hst.currentDir_eq.trans ((View.dir_eq hv₁).trans hinlines.dir_eq)
    obtain ⟨parent, hparent, hagrees⟩ := hname.exists_parent? i.dir
    rw [← path] at hparent
    have hpaths : i.Paths parent i.dir :=
      ⟨hagrees, fun htidy => Option.some.inj (hparent.symm.trans htidy)⟩
    have hstores := hst.stores
    have hrun := Level.includes_includeFile hconsistent (hinlines.target left) hknown
      hstores.left (hab.mono hv₁.1).left place
    rw [hdir, ← path] at hrun
    rw [Level.located, run_adapt]
    generalize (left.includeFile a place target none).run.run s = included at hrun
    cases hrun with
    | fails => exact .inl (.escapes trivial)
    | @enters included owners caches _ hgrows hfaithful hreads hmade howned hleads =>
      rw [hparent, Option.getD_some] at hleads
      subst hleads
      have hworld : v₁.world ≤ ⟨owners, v₁.world.right⟩ := ⟨hgrows, List.prefix_refl _⟩
      have hview : v₁ ≤ ⟨⟨owners, v₁.world.right⟩, v₁.left, v₁.right⟩ := ⟨hworld, rfl, rfl⟩
      have hhosts := (hab.mono hv₁.1).mono hworld
      have hentered := h (hv.trans (hv₁.1.trans hworld))
        ((View.dir_eq (hv₁.trans hview)).trans hinlines.dir_eq)
        ⟨hmade.trans hab.compilers, howned, hhosts.right⟩
        (Except.ok.inj (hreads.symm.trans hread)) (hmade.trans hinlines.compiler) hinlines.alike
        hplaced hpaths
      have hstores' : (Comparison.inlining hconsistent i).Stores ⟨owners, v₁.world.right⟩
          { s.store with caches } t.store := hstores.mono hworld hfaithful hstores.right
      have hgiven := hentered _ le_rfl { s with store := { s.store with caches } } t
        { hst with stores := hstores' }
      generalize (left.enter included .whole parent).run.run
        { s with store := { s.store with caches } } = entered at hgiven
      obtain ⟨_ | _, s₂⟩ := entered
      · exact .inl (.escapes trivial)
      · obtain hgiven | ⟨v₂, hv₂, hstates, hresults⟩ := hgiven
        · generalize (script.run right b).run.run t = last at hgiven
          obtain ⟨_, _⟩ := last
          cases hgiven with
          | excused he => exact .inl (.excused he)
        · exact .inr ⟨v₂, hview.trans hv₂, hstates, hresults⟩

/-- The failure of the left render is the end of the comparison. -/
theorem simulates_fail {v : View} {α β : Type} {post : World → α → β → Prop} (fault : RenderFault)
    (step : RenderM β) : Simulates (Comparison.inlining hconsistent i)
      (Comparison.inlining hconsistent i).rendering v post (RenderM.fail fault) step :=
  fun _ _ _ _ _ => .inl (.escapes trivial)

private theorem enters_zero : i.Enters hconsistent w (.above setting 0) right :=
  fun {_} _ _ {_ _ _} _ _ _ _ _ {_} _ => simulates_fail _ _

/-- Templates of the same source and by the same compiler have the same script. -/
theorem script_eq {a b : Template} (hsource : a.source = b.source)
    (hcompiler : a.compiler = b.compiler) : a.script = b.script := by
  rw [Template.script, Template.script, Template.tree, Template.tree, hsource, hcompiler]

private theorem enters_succ {levels levels' : Nat}
    (h : (Level.above setting levels).Simulates (Comparison.inlining hconsistent i) w
      (.above setting' levels'))
    (hinlines : (Level.above setting levels).Inlines (Comparison.inlining hconsistent i) w
      (.above setting' levels') i.Inlines) :
    i.Enters hconsistent w (.above setting (levels + 1)) (.above setting' levels') := by
  intro v hv hdir included b script hhosts hsource hcompiler halike hplaced dir hpaths
  have htextual := Comparison.isTextual_inlining hconsistent i
  have hlevel := Level.related_above SameOnText.congruence setting levels
  rw [← script_eq hsource hcompiler, ← hsource] at halike
  refine Simulates.withDir_left (fun v₁ hv₁ s t hst => ?_) ?_
  · have hcurrent : s.currentDir = i.dir := hst.currentDir_eq.trans ((View.dir_eq hv₁).trans hdir)
    exact hpaths.trans (hcurrent ▸ hst.paths)
  · exact .of_sameOnText_left htextual (Level.sameOnText_runPart hlevel rfl)
      (halike.simulates_run htextual
        ⟨h.mono hv, hinlines.mono hv, hhosts, rfl, fun _ _ => False.elim⟩
        included.placed_script hplaced)

/-- The levels of the left render correspond to as many levels of the right one, and to more. -/
theorem simulates_above (hname : Path.IsFileName i.name)
    (h : setting.Simulates (Comparison.inlining hconsistent i) w setting')
    (hread : setting.files.read i.path = .ok i.contents.source) {levels levels' : Nat}
    (hlevels : levels ≤ levels') :
    (Level.above setting levels).Simulates (Comparison.inlining hconsistent i) w
        (.above setting' levels') ∧
      (Level.above setting levels).Inlines (Comparison.inlining hconsistent i) w
        (.above setting' levels') i.Inlines := by
  have htextual := Comparison.isTextual_inlining hconsistent i
  have hinlines {levels levels' : Nat}
      (henters : i.Enters hconsistent w (.above setting levels) (.above setting' levels')) :=
    henters.inlines hname (by rw [Level.setting_above]; exact h.known)
      (by rw [Level.setting_above]; exact hread)
  induction levels generalizing levels' with
  | zero =>
    exact ⟨h.of_enter fun {_} _ {_ _} _ => simulates_fail _ _, hinlines enters_zero⟩
  | succ levels ih =>
    obtain _ | levels' := levels'
    · exact absurd hlevels (Nat.not_succ_le_zero _)
    have hbelow := ih (Nat.le_of_succ_le_succ hlevels)
    have hbeside := ih (Nat.le_of_succ_le hlevels)
    refine ⟨h.of_enter fun {v} hv {e e'} hentries => ?_,
      hinlines (enters_succ hbeside.1 hbeside.2)⟩
    have hleft := Level.related_above SameOnText.congruence setting levels
    have hright := Level.related_above SameOnText.congruence setting' levels'
    exact ((hbelow.1.mono hv).runEntry htextual (hbelow.2.mono hv) hleft hright
      hentries).withDir hentries.dirs

end Inlining

/-! ### Renders -/

/-- A source in which a file is included by its name, and a text of the file that can stand in the
place of the include. -/
structure Inclusion (compiler : Compiler) (before name text after : String) : Prop where
  isFileName : Path.IsFileName name
  isVerbatim : IsVerbatim name
  compiles : ∃ program,
    Program.compile compiler (before ++ includeOf name ++ after) = .ok program
  /-- The include is a directive of the source. -/
  isDirective : .directive (directiveAt before.toList '@' "include".toList (inQuotes name).toList) ∈
    (Outline.ofSource (before ++ includeOf name ++ after)).pieces
  textCompiles : ∃ program, Program.compile compiler text = .ok program
  /-- The text makes no head and no escape with what stands before it. -/
  sealedBefore : Sealed before.toList (text ++ after).toList
  /-- Nor does it with what stands behind it. -/
  sealedAfter : Sealed text.toList after.toList

/-- Templates of a source with an include of a file, and of the same source with a text in its
place, from the same file if from any, and by the same compiler. -/
structure Template.InlinesTo (a b : Template) (before name text after : String) : Prop where
  source : a.source = before ++ includeOf name ++ after
  source' : b.source = before ++ text ++ after
  compilers : b.compiler = a.compiler
  origins : b.origin = a.origin

section Renders

variable {before name after : String} {a b contents : Template}

/-- A template with an include has the script of one with a text in its place, apart from the
include. -/
theorem Inclusion.exists_script (inlines : Slot → Script → Prop)
    (h : Inclusion a.compiler before name contents.source after)
    (hsource : a.source = before ++ includeOf name ++ after)
    (hcompilers : a.compiler = contents.compiler)
    (hinlines : ∀ script : Script,
      Script.Alike .any contents.source (before ++ contents.source ++ after) (fun _ _ => False)
        contents.script script →
      ∀ target : Slot, (∀ level : Level, target.eval level.environment a.source =
        pure (.string name)) → inlines target script) :
    (∃ program, Program.compile a.compiler (before ++ contents.source ++ after) = .ok program) ∧
      ∃ script : Script,
        Script.Alike .any a.source (before ++ contents.source ++ after) inlines a.script script ∧
        ∀ template : Template, template.compiler = a.compiler →
          template.source = before ++ contents.source ++ after → template.script = script := by
  have hinclude := h.isDirective
  rw [← hsource] at hinclude
  refine exists_script_inlined hcompilers ?_ hinclude ?_ ?_ h.sealedAfter ?_
  · rw [hsource, String.toList_append, String.toList_append, toList_includeOf]
  · rw [String.toList_append, String.toList_append, List.append_assoc]
  · rw [← String.toList_append]
    exact h.sealedBefore
  · intro script halike d hd hbody role hreads
    obtain ⟨target, hrole, heval⟩ := hreads.exists_includeFile hd h.isVerbatim hbody
    exact ⟨target, hrole, hinlines script halike target heval⟩

variable {trees : FileTree → Prop} {templates : List Template} {store : Store}
  {options : RenderOptions} {files : FileTree} {written : String}

/-- Where the include is rendered with success, the text in its place is as well, unless a path is
too long there that is shorter with the include. -/
theorem Session.renderText_inlinesTo (hconsistent : Consistent trees)
    (hsession : Session trees templates store)
    (h : Inclusion a.compiler before name contents.source after)
    (hinlines : a.InlinesTo b before name contents.source after)
    (hcompilers : a.compiler = contents.compiler) (ha : a ∈ templates) (hb : b ∈ templates)
    (hknown : options.KnownIn templates) (hfiles : trees files) {dir : Path}
    (hdir : options.baseDir.getD a.defaultDirectory = dir)
    (hread : files.read (dir.join ⟨name⟩) = .ok contents.source)
    (hwritten : (a.renderText options files store).result = .ok written) :
    ((b.renderText options files store).result = .ok written ∧
        (b.renderText options files store).resolver = (a.renderText options files store).resolver) ∨
      ((dir.join ⟨name⟩).parent? ≠ some dir ∧
        ∃ e, (b.renderText options files store).result = .error e ∧ e.IsTooLong) := by
  let i : Inlining := ⟨dir, name, contents⟩
  have htextual := Comparison.isTextual_inlining hconsistent i
  obtain ⟨owners, hsound, howned⟩ := hsession.exists_sound hconsistent
  -- The script of the one is that of the other with the include inlined.
  obtain ⟨-, script, halike, hscript⟩ := h.exists_script (i.Inlines dir a b)
    hinlines.source hcompilers fun script halike target htarget =>
      ⟨rfl, hcompilers, htarget, hinlines.source' ▸ halike⟩
  obtain rfl := hscript b hinlines.compilers hinlines.source'
  rw [← hinlines.source'] at halike
  -- They are run at levels that correspond.
  have hsetting := hknown.simulates_scripts (c := Comparison.inlining hconsistent i) (fun _ => rfl)
    howned (fun _ _ => trivial) hfiles
  obtain ⟨hlevels, hincludes⟩ := Inlining.simulates_above h.isFileName hsetting hread
    (le_refl options.maxDepth)
  have hrun : Simulates (Comparison.inlining hconsistent i)
      (Comparison.inlining hconsistent i).rendering (options.view options a b ⟨owners, owners⟩) Same
      ((options.level files).runPart a .whole) ((options.level files).runPart b .whole) := by
    have hlevel := Level.related_above SameOnText.congruence (options.setting files)
      options.maxDepth
    refine .of_sameOnText_left htextual (Level.sameOnText_runPart hlevel rfl)
      (.of_sameOnText_right htextual (Level.sameOnText_runPart hlevel rfl)
        (halike.simulates_run htextual ⟨hlevels, hincludes, ?_, rfl, ?_⟩ a.placed_script
          b.placed_script))
    · exact ⟨hinlines.compilers.symm, howned a ha, howned b hb⟩
    · intro target script hinlined
      rwa [View.dir, RenderOptions.view, List.head?_cons, Option.getD_some, hdir]
  have hpaths : i.Paths (options.baseDir.getD a.defaultDirectory)
      (options.baseDir.getD b.defaultDirectory) := by
    rw [Template.defaultDirectory, Template.defaultDirectory, hinlines.origins]
    exact .refl _
  have hinitial : (Comparison.inlining hconsistent i).States
      (options.view options a b ⟨owners, owners⟩)
      (options.initial a store .collector) (options.initial b store .collector) :=
    Comparison.states_initial rfl hpaths (hsound.stores_scripts htextual (fun _ => rfl)
      fun _ _ => ⟨_, rfl, fun _ => trivial⟩)
      Sink.isText_collector
  obtain ⟨s, hleft, hsink⟩ := Template.renderText_eq_ok_iff.1 hwritten
  rw [Template.renderText_of_run hleft]
  have hends := hrun _ le_rfl _ _ hinitial
  rw [hleft] at hends
  generalize hright : ((options.level files).runPart b .whole).run.run
    (options.initial b store .collector) = last at hends
  obtain ⟨result, t⟩ := last
  rw [Template.renderText_of_run hright]
  obtain hgiven | ⟨v, -, hstates, hresults⟩ := hends
  · cases hgiven with
    | excused he => exact .inr ⟨he.1, _, rfl, he.2⟩
  · cases hresults with
    | ok =>
      refine .inl ⟨?_, hstates.resolver.symm⟩
      rw [← hstates.sink, hsink]
      rfl

end Renders

/-- Let a file be included by its name: by a source that compiles, where the text of the file
compiles as well and makes no new head and no escape with what stands around it. Then the source
with the text in the place of the include compiles. After any session, and with any options, if
the source is rendered with success where the file is in the current directory, then so is the one
with the text in its place, and they write the same and leave the same variables in the resolver;
or else the directory is not the parent of the path of the file, as it is written, and a path is
too long. -/
theorem included_as_inlined {compiler : Compiler} {before name text after : String}
    (h : Inclusion compiler before name text after) :
    (∃ program, Program.compile compiler (before ++ text ++ after) = .ok program) ∧
    ∀ (trees : FileTree → Prop) (templates : List Template) (store : Store) (a b : Template)
      (options : RenderOptions) (files : FileTree) (dir : Path) (written : String),
      Consistent trees → Session trees templates store → a.InlinesTo b before name text after →
      a.compiler = compiler → a ∈ templates → b ∈ templates → options.KnownIn templates →
      trees files → options.baseDir.getD a.defaultDirectory = dir →
      files.read (dir.join ⟨name⟩) = .ok text →
      (a.renderText options files store).result = .ok written →
      ((b.renderText options files store).result = .ok written ∧
        (b.renderText options files store).resolver =
          (a.renderText options files store).resolver) ∨
      ((dir.join ⟨name⟩).parent? ≠ some dir ∧
        ∃ e, (b.renderText options files store).result = .error e ∧ e.IsTooLong) := by
  obtain ⟨program, hprogram⟩ := h.textCompiles
  obtain ⟨contents, store₀, hload, -⟩ := Store.exists_compile hprogram .empty none
  obtain ⟨rfl, hcontents, -⟩ := Store.of_compile_eq_ok hload
  refine ⟨?_, ?_⟩
  · obtain ⟨program', hprogram'⟩ := h.compiles
    obtain ⟨a, store₁, hload', -⟩ := Store.exists_compile hprogram' store₀ none
    obtain ⟨ha, rfl, -⟩ := Store.of_compile_eq_ok hload'
    exact (h.exists_script (fun _ _ => True) ha hcontents.symm
      fun _ _ _ _ => trivial).1
  · rintro trees templates store a b options files dir written hconsistent hsession hinlines rfl ha
      hb hknown hfiles hdir hread hwritten
    exact hsession.renderText_inlinesTo hconsistent h hinlines hcontents.symm ha hb hknown hfiles
      hdir hread hwritten

/-- A file that is included in a loop, from a directory outside the working directory, reads the
variable of the loop, and so does its text. -/
theorem included_as_inlined_loop :
    ∃ (a b : Template) (store : Store),
      let files : FileTree :=
        ⟨["work"], [(["srv"], .directory 7), (["srv", "f"], .file (.text "@{i}") 1)]⟩
      let options : RenderOptions := { baseDir := some ⟨"/srv"⟩ }
      Session (· = files) [b, a] store ∧
      a.source = "@foreach{i : [1, 2]}(@include\x7b'f'\x7d)@end{}" ∧
      b.source = "@foreach{i : [1, 2]}(@{i})@end{}" ∧
      (a.renderText options files store).result = .ok "(1)(2)" ∧
      (b.renderText options files store).result = .ok "(1)(2)" := by
  let compiler : Compiler := ⟨.compiled, []⟩
  let before := "@foreach{i : [1, 2]}("
  let after := ")@end{}"
  let files : FileTree :=
    ⟨["work"], [(["srv"], .directory 7), (["srv", "f"], .file (.text "@{i}") 1)]⟩
  let options : RenderOptions := { baseDir := some ⟨"/srv"⟩ }
  have h : Inclusion compiler before "f" "@{i}" after :=
    { isFileName := ⟨by decide, by decide, by decide, by decide⟩
      isVerbatim := by decide +kernel
      compiles := Attempt.exists_eq_ok (by decide +kernel)
      isDirective := by decide +kernel
      textCompiles := Attempt.exists_eq_ok (by decide +kernel)
      sealedBefore := by
        apply sealed_of_not_endsInHead
        apply not_endsInHead_of_getLast? (c := '(') <;> decide +kernel
      sealedAfter := by
        apply sealed_of_not_endsInHead
        apply not_endsInHead_of_getLast? (c := '}') <;> decide +kernel }
  obtain ⟨_, hload, hrun⟩ := Attempt.exists_eq_ok_and
    (x := do
      let a ← Store.empty.compile compiler (before ++ includeOf "f" ++ after) none
      let b ← a.2.compile compiler (before ++ "@{i}" ++ after) none
      return (a.1, b))
    (p := fun made => (made.1.renderText options files made.2.2).result == .ok "(1)(2)")
    (by decide +kernel)
  obtain ⟨⟨a, store₁⟩, hloadA, hload⟩ := Attempt.bind_eq_ok_iff.1 hload
  obtain ⟨⟨b, store⟩, hloadB, ⟨⟩⟩ := Attempt.bind_eq_ok_iff.1 hload
  obtain ⟨hsourceA, hcompilerA, horiginA, -, rfl⟩ := Store.of_compile_eq_ok hloadA
  obtain ⟨hsourceB, hcompilerB, horiginB, -, -⟩ := Store.of_compile_eq_ok hloadB
  have hsession : Session (· = files) [b, a] store := .load (.load .start hloadA) hloadB
  have hinlines : a.InlinesTo b before "f" "@{i}" after :=
    ⟨hsourceA, hsourceB, hcompilerB.trans hcompilerA.symm, horiginB.trans horiginA.symm⟩
  refine ⟨a, b, store, hsession, hsourceA, hsourceB, eq_of_beq hrun, ?_⟩
  obtain ⟨hwritten, -⟩ | ⟨hparent, -⟩ := (included_as_inlined h).2 _ [b, a] store a b options files
    ⟨"/srv"⟩ "(1)(2)" (consistent_eq _) hsession hinlines hcompilerA (by simp) (by simp)
    (RenderOptions.knownIn_of_registry_eq_none rfl _) rfl rfl (by decide +kernel) (eq_of_beq hrun)
  · exact hwritten
  · exact absurd (by decide +kernel) hparent

/-! ### A path that is too long -/

private theorem Template.WritesIn.result_eq_ok {trees : FileTree → Prop} {a : Template}
    {options : RenderOptions} {files : FileTree} {store : Store} {owners : List Compiler}
    {text : String} (h : a.WritesIn trees (options.level files)
      (options.baseDir.getD a.defaultDirectory) text)
    (hfaithful : store.Faithful trees owners) (howned : a.OwnedIn owners) :
    (a.renderText options files store).result = .ok text := by
  obtain ⟨s, hrun, hsink⟩ := h owners (options.initial a store .collector) "" rfl hfaithful howned
    rfl
  exact renderText_eq_ok_iff.2 ⟨s, hrun, by rw [hsink, String.empty_append]⟩

/-- In a directory that is written with many slashes, a file that includes another file by a longer
name can be included; but the path of the other file is too long if the text of the first one
stands in the place of the include. -/
theorem included_not_inlined :
    let other := "gggggggggggggggggggg"
    let text := includeOf other
    let files : FileTree :=
      ⟨["work"], [(["work", "f"], .file (.text text) 1), (["work", other], .file (.text "x") 1)]⟩
    let dir := Path.slashed 4080
    ∃ (a b : Template) (store : Store), Inclusion a.compiler "" "f" text "" ∧
      Session (· = files) [b, a] store ∧ a.InlinesTo b "" "f" text "" ∧
      files.read (dir.join ⟨"f"⟩) = .ok text ∧
      (a.renderText { baseDir := dir } files store).result = .ok "x" ∧
      ∃ e, (b.renderText { baseDir := dir } files store).result = .error e := by
  intro other text files dir
  let compiler : Compiler := ⟨.compiled, []⟩
  let options : RenderOptions := { baseDir := dir }
  have hnameF : Path.IsFileName "f" := ⟨by decide, by decide, by decide, by decide⟩
  have hnameG : Path.IsFileName other := ⟨by decide, by decide, by decide, by decide⟩
  have hverbatimF : IsVerbatim "f" := by decide +kernel
  have hverbatimG : IsVerbatim other := by decide +kernel
  have htext : ∃ program, Program.compile compiler text = .ok program :=
    Attempt.exists_eq_ok (by decide +kernel)
  have h : Inclusion compiler "" "f" text "" :=
    { isFileName := hnameF
      isVerbatim := hverbatimF
      compiles := Attempt.exists_eq_ok (by decide +kernel)
      isDirective := by decide +kernel
      textCompiles := htext
      sealedBefore := by
        rintro before rest hcs hrest
        exact absurd (List.append_eq_nil_iff.1 hcs.symm).2 hrest
      sealedAfter := by
        apply sealed_of_not_endsInHead
        apply not_endsInHead_of_getLast? (c := '}') <;> decide +kernel }
  obtain ⟨program, hprogram⟩ := h.compiles
  obtain ⟨program', hprogram'⟩ := htext
  obtain ⟨a, store, hloadA, -⟩ := Store.exists_compile hprogram .empty none
  obtain ⟨b, store', hloadB, -⟩ := Store.exists_compile hprogram' store none
  obtain ⟨hsourceA, hcompilerA, horiginA, -, -⟩ := Store.of_compile_eq_ok hloadA
  obtain ⟨hsourceB, hcompilerB, horiginB, -, -⟩ := Store.of_compile_eq_ok hloadB
  have hsession : Session (· = files) [b, a] store' := .load (.load .start hloadA) hloadB
  obtain ⟨owners, hsound, howned⟩ := hsession.exists_sound (consistent_eq files)
  have hread : files.read (dir.join ⟨"f"⟩) = .ok text := by
    obtain hsame | ⟨hlong, -⟩ | ⟨hlong, -⟩ := files.read_join_of_agrees (Path.agrees_slashed 4079)
      ⟨"f"⟩
    · exact hsame.trans (by decide +kernel)
    · rw [Path.utf8ByteSize_join_slashed 4079 hnameF] at hlong
      exact absurd hlong (by decide +kernel)
    · exact absurd hlong (by decide +kernel)
  refine ⟨a, b, store', hcompilerA ▸ h, hsession, ⟨hsourceA, ?_, ?_, ?_⟩, hread, ?_, ?_⟩
  · exact hsourceB
  · exact hcompilerB.trans hcompilerA.symm
  · exact horiginB.trans horiginA.symm
  · -- The file is entered in the directory that is its parent, where the other path is short.
    refine Template.WritesIn.result_eq_ok ?_ hsound.faithful (howned a (by simp))
    change a.WritesIn (· = files) (.above (options.setting files) (62 + 1 + 1)) dir "x"
    refine .of_include (consistent_eq files) rfl hverbatimF ?_ hread
      (hcompilerA ▸ ⟨program', hprogram'⟩) (Path.parent?_join_slashed 4079 hnameF)
      fun included hincluded hmade => ?_
    · rw [hsourceA]
      decide +kernel
    have hnear : files.read (Path.join ⟨"."⟩ ⟨other⟩) = .ok "x" := by decide +kernel
    have hparent : (Path.join ⟨"."⟩ ⟨other⟩).parent? = some ⟨"."⟩ := by decide +kernel
    refine .of_include (consistent_eq files) rfl hverbatimG ?_ hnear ?_ hparent
      fun last hlast _ => ?_
    · rw [hincluded]
      decide +kernel
    · rw [hmade, hcompilerA]
      exact Attempt.exists_eq_ok (by decide +kernel)
    · have hchars : (Outline.ofSource last.source).items last.source = ['x'].map .char := by
        rw [hlast]
        decide +kernel
      exact .of_chars hchars
  · -- The path of the other file is too long there.
    have hlong : FileTree.maxPathBytes < (dir.join ⟨other⟩).text.utf8ByteSize := by
      rw [Path.utf8ByteSize_join_slashed 4079 hnameG]
      decide +kernel
    obtain ⟨e, hunread⟩ := files.exists_read_eq_error hlong
    have hitems : (Outline.ofSource b.source).items b.source =
        [.directive "include".toList (inQuotes other).toList] := by
      rw [hsourceB]
      decide +kernel
    have hfails : ∃ e, (((options.level files).runPart b .whole).run.run
        (options.initial b store' .collector)).1 = .error e :=
      Template.exists_error_of_include (consistent_eq files) rfl hverbatimG hitems hsound.faithful
        (howned b (by simp)) Sink.isText_collector hunread
    generalize hrun : ((options.level files).runPart b .whole).run.run
      (options.initial b store' .collector) = last at hfails
    obtain ⟨result, s⟩ := last
    obtain ⟨e, rfl⟩ := hfails
    exact ⟨e, by rw [Template.renderText_of_run hrun]; rfl⟩

end TextTemplate
