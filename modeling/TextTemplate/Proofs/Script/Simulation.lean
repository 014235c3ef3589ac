import TextTemplate.Proofs.Script.Run
import TextTemplate.Proofs.Simulation.Level

/-!
# Renders of scripts that are alike

Renders that collect what they write in one text are compared by the scripts that they run. Scripts
that are alike are run alike, as long as every include that is inlined does what is inlined for it.
Their errors are alike under places that correspond.

## Main definitions

* `Placement`: which offsets of two templates correspond.
* `ScriptsAlike`, `Comparison.IsTextual`: comparisons of what scripts write.
* `Level.Inlines`: levels where includes do what can be inlined for them.

## Main results

* `Script.Alike.simulates_run`: scripts that are alike are run alike.
* `Level.Simulates.runEntry`: so are the entries that have such scripts.
-/

namespace TextTemplate

/-! ### What is compared -/

/-- The places in the script are those of the template. -/
def Script.PlacedIn (template : Template) (script : Script) : Prop :=
  script.Placed fun place => template.scriptAt? (.bodyAt place)

/-- So are those in the branches. -/
def Alternatives.PlacedIn (template : Template) (others : Alternatives) : Prop :=
  others.Placed fun place => template.scriptAt? (.bodyAt place)

/-- Which scripts can be inlined for an include, by its target, where it stands in the left one of
two templates and the script in the right one; in a directory of the left render. -/
abbrev Inlinable := Path → Template → Template → Slot → Script → Prop

/-- Which offsets correspond in the sources of two templates. -/
abbrev Placement := Template → Template → Places → Prop

/-- All of them, as far as it matters. -/
def Placement.any : Placement := fun _ _ places => places = .any

/-- What is run are scripts that are alike, apart from includes that can be inlined, with their
directives at places that correspond; or there is nothing to run. -/
inductive ScriptsAlike (placement : Placement) (inlinable : Inlinable) (e e' : Entry) : Prop
  | mk {places : Places} {script script' : Script} {inlines : Slot → Script → Prop}
      (situated : placement e.template e'.template places)
      (left : e.template.scriptAt? e.part = some script)
      (right : e'.template.scriptAt? e'.part = some script')
      (placed : script.PlacedIn e.template) (placed' : script'.PlacedIn e'.template)
      (inlined : ∀ target contents, inlines target contents →
        inlinable e.dir e.template e'.template target contents)
      (alike : Script.Alike places e.template.source e'.template.source inlines script script')
  | absent (left : e.template.scriptAt? e.part = none)
      (right : e'.template.scriptAt? e'.part = none)

/-- Comparisons of the texts that scripts write. Errors stay alike under places that correspond, and
so do the errors of texts there that are no expressions. -/
structure Comparison.IsTextual (c : Comparison) (placement : Placement) (inlinable : Inlinable) :
    Prop where
  sinks {sink : Sink} (h : c.sinks sink) : sink.IsText
  entries {e e' : Entry} : c.entries e e' ↔ ScriptsAlike placement inlinable e e'
  locates {a b : Template} {places : Places} (h : placement a b places) {offset offset' : Nat}
    (hplace : places offset offset') (name : String) : c.Locates a offset name b offset' name
  malformed {a b : Template} {places : Places} (h : placement a b places) {base base' : Nat}
    (hplace : places base base') (offset : Nat) (reason : String) :
    c.alike (RenderFault.expression (.malformed (offset + base) reason)).toError
      (RenderFault.expression (.malformed (offset + base') reason)).toError

/-- The directory of the left render. -/
def View.dir (v : View) : Path :=
  v.left.head?.getD ⟨"."⟩

theorem View.dir_eq {v v' : View} (h : v ≤ v') : v'.dir = v.dir := by
  rw [dir, dir, h.2.1]

theorem Comparison.States.currentDir_eq {c : Comparison} {v : View} {s t : RenderState}
    (h : c.States v s t) : s.currentDir = v.dir := by
  rw [RenderState.currentDir, View.dir, h.left]

/-- On the left an include does what a script does on the right, if it can be inlined. -/
structure Level.Inlines (c : Comparison) (w : World) (left right : Level) (inlinable : Inlinable) :
    Prop where
  simulates {v : View} (hv : w ≤ v.world) {a b : Template} (hab : c.Hosts v.world a b)
    {target : Slot} {contents : Script} (h : inlinable v.dir a b target contents)
    (hplaced : contents.PlacedIn b) (place : Nat) (d : Directive) :
    TextTemplate.Simulates c c.rendering v Same
      (located a d.span.start d.name (left.includeFile a place target none))
      (contents.run right b)

variable {c : Comparison} {w : World} {v : View} {left right : Level} {a b : Template}
  {placement : Placement} {inlinable : Inlinable} {places : Places}
  {inlines : Slot → Script → Prop}

/-- Where all errors are alike, their places do not matter. -/
theorem Comparison.IsTextual.of_alike (halike : ∀ e e', c.alike e e')
    (hsinks : ∀ sink, c.sinks sink → sink.IsText)
    (hentries : ∀ e e', c.entries e e' ↔ ScriptsAlike placement inlinable e e') :
    c.IsTextual placement inlinable where
  sinks := hsinks _
  entries := hentries _ _
  locates := fun _ _ _ _ _ _ _ _ => halike _ _
  malformed := fun _ _ _ _ _ _ => halike _ _

/-! ### Expressions -/

/-- Expressions that are copied are evaluated alike. -/
theorem Comparison.IsTextual.reads (ht : c.IsTextual placement inlinable)
    (h : left.Simulates c w right) (hab : c.Hosts w a b) (hplaces : placement a b places) :
    Level.Reads c w left right a b (Slot.Copied places a.source b.source) where
  hosts := hab
  evaluate {v} hv slot slot' hslot := by
    have henvironment := (h.mono hv).environment
    rw [Level.evaluate, Level.evaluate]
    cases hslot with
    | parsed span span' e =>
      exact Level.Simulates.ofEval (Expr.simulates_eval e henvironment).reading
    | @raw span span' htext hstarts =>
      rw [RenderM.ofEval, RenderM.ofEval, Slot.eval, Slot.eval, adapt_adapt, adapt_adapt, htext]
      refine (simulates_evaluateText henvironment _).adapt
        (fun _ he => (he.shift span.start).toTemplateError)
        (fun _ he => (he.shift span'.start).toTemplateError) fun e e' he => ?_
      cases he with
      | same hunnested =>
        cases e with
        | malformed offset reason => exact ht.malformed hplaces hstarts offset reason
        | nested error => exact absurd rfl (hunnested error)
        | _ => exact c.alike_refl (RenderFault.isUnplaced _)
      | nested herror => exact herror

/-! ### Scripts -/

/-- Levels at which the scripts of two templates are run, at places that correspond, where some
includes can be inlined. -/
structure Level.Runs (c : Comparison) (v : View) (left right : Level) (a b : Template)
    (placement : Placement) (inlinable : Inlinable) (places : Places)
    (inlines : Slot → Script → Prop) : Prop where
  level : left.Simulates c v.world right
  inlining : left.Inlines c v.world right inlinable
  hosts : c.Hosts v.world a b
  situated : placement a b places
  inlined (target : Slot) (contents : Script) (h : inlines target contents) :
    inlinable v.dir a b target contents

theorem Level.Inlines.mono {w w' : World} (h : left.Inlines c w right inlinable) (hw : w ≤ w') :
    left.Inlines c w' right inlinable where
  simulates hv := h.simulates (hw.trans hv)

/-- Where nothing can be inlined, there is nothing to show. -/
theorem Level.Inlines.none : left.Inlines c w right fun _ _ _ _ _ => False where
  simulates {_} _ {_ _} _ {_ _} h := h.elim

theorem Level.Runs.mono {v v' : View}
    (h : left.Runs c v right a b placement inlinable places inlines) (hv : v ≤ v') :
    left.Runs c v' right a b placement inlinable places inlines where
  level := h.level.mono hv.1
  inlining := h.inlining.mono hv.1
  hosts := h.hosts.mono hv.1
  situated := h.situated
  inlined := View.dir_eq hv ▸ h.inlined

mutual

/-- Scripts that are alike are run alike. -/
theorem Script.Alike.simulates_run (ht : c.IsTextual placement inlinable)
    {script script' : Script} :
    ∀ {v : View}, left.Runs c v right a b placement inlinable places inlines → script.PlacedIn a →
      script'.PlacedIn b → Script.Alike places a.source b.source inlines script script' →
      Simulates c c.rendering v Same (script.run left a) (script'.run right b)
  | _, _, _, _, .done => .pure_same ()
  | _, h, hplaced, hplaced', .char _ hrest =>
    (Simulates.emit _).bind_same fun _ hv _ =>
      hrest.simulates_run ht (h.mono hv) hplaced hplaced'
  | _, h, hplaced, hplaced', .action hcopied haction hrest => by
    rw [Script.run, Script.run, hcopied.name]
    exact (Level.Simulates.located (ht.locates h.situated hcopied.starts _) (h.level.runAction
      (ht.reads h.level h.hosts h.situated) _ _ hcopied.body haction)).bind_same fun _ hv _ =>
        hrest.simulates_run ht (h.mono hv) hplaced hplaced'
  | _, h, hplaced, hplaced', .block hcopied hopener hinside hothers hrest => by
    obtain ⟨hplace, hplacedBody, hplacedOthers, hplacedRest⟩ := hplaced
    obtain ⟨hplace', hplacedBody', hplacedOthers', hplacedRest'⟩ := hplaced'
    have hreads := ht.reads h.level h.hosts h.situated
    have hplaces := ht.locates h.situated hcopied.starts
    have hrun {v' : View} (hv : _ ≤ v') :=
      hinside.simulates_run ht (h.mono hv) hplacedBody hplacedBody'
    have hafter (v' : View) (hv : _ ≤ v') (_ : Unit) :=
      hrest.simulates_run ht (h.mono hv) hplacedRest hplacedRest'
    cases hopener with
    | conditional hcondition =>
      rw [Script.run, Script.run, ← hcopied.name]
      refine (Level.Simulates.located (hplaces _) ?_).bind_same hafter
      refine (Level.Simulates.isTaken hreads (hplaces _) hcondition).bind_same
        fun v' hv taken => ?_
      cases taken with
      | true => exact hrun hv
      | false => exact hothers.simulates_run ht (h.mono hv) hplacedOthers hplacedOthers'
    | loop hbindings hseparator =>
      rw [Script.run, Script.run, ← hcopied.name]
      exact (Level.Simulates.located (hplaces _) (Level.Simulates.runLoop hreads hbindings
        hseparator (hrun le_rfl))).bind_same hafter
    | declare hname =>
      rw [Script.run, Script.run, ← hcopied.name]
      refine (Level.Simulates.located (hplaces _)
        (Level.Simulates.runDeclare hreads hname fun v' hv s t hst => ?_)).bind_same hafter
      refine ⟨h.hosts.mono hv.1, hst.paths, ht.entries.2 (.mk h.situated hplace hplace' hplacedBody
        hplacedBody' (fun target contents hcontents => ?_) hinside)⟩
      rw [hst.currentDir_eq, View.dir_eq hv]
      exact h.inlined target contents hcontents
    | custom custom =>
      rw [Script.run, Script.run, ← hcopied.name, hcopied.body, hothers.closer_slice_eq]
      exact (Level.Simulates.located (hplaces _) (h.level.runCustom custom _ _
        (hrun le_rfl))).bind_same hafter
  | _, h, hplaced, hplaced', .inlined hcontents hrest => by
    obtain ⟨hplacedContents, hplacedRest⟩ := Script.placed_append.1 hplaced'
    rw [Script.run, Script.run_append]
    exact (h.inlining.simulates le_rfl h.hosts (h.inlined _ _ hcontents) hplacedContents _
      _).bind_same fun _ hv _ => hrest.simulates_run ht (h.mono hv) hplaced hplacedRest

/-- So are the rests of two blocks that are alike. -/
theorem Alternatives.Alike.simulates_run (ht : c.IsTextual placement inlinable)
    {others others' : Alternatives} :
    ∀ {v : View}, left.Runs c v right a b placement inlinable places inlines → others.PlacedIn a →
      others'.PlacedIn b → Alternatives.Alike places a.source b.source inlines others others' →
      Simulates c c.rendering v Same (others.run left a) (others'.run right b)
  | _, _, _, _, .closed _ => .pure_same ()
  | _, h, hplaced, hplaced', .branch hcopied hcondition hinside hmore => by
    obtain ⟨hplacedBody, hplacedMore⟩ := hplaced
    obtain ⟨hplacedBody', hplacedMore'⟩ := hplaced'
    rw [Alternatives.run, Alternatives.run, hcopied.name]
    refine (Level.Simulates.isTaken (ht.reads h.level h.hosts h.situated)
      (ht.locates h.situated hcopied.starts _) hcondition).bind_same fun v' hv taken => ?_
    cases taken with
    | true => exact hinside.simulates_run ht (h.mono hv) hplacedBody hplacedBody'
    | false => exact hmore.simulates_run ht (h.mono hv) hplacedMore hplacedMore'

end

/-! ### Entries -/

/-- Steps that do the same where one text is collected are compared in the same way. -/
theorem Simulates.of_sameOnText_left (ht : c.IsTextual placement inlinable)
    {step step' walk : RenderM Unit} (hwalk : SameOnText walk step)
    (h : Simulates c c.rendering v Same step step') :
    Simulates c c.rendering v Same walk step' := by
  intro v₁ hv₁ s t hst
  rw [(hwalk s (ht.sinks hst.sinks)).1]
  exact h v₁ hv₁ s t hst

theorem Simulates.of_sameOnText_right (ht : c.IsTextual placement inlinable)
    {step step' walk : RenderM Unit} (hwalk : SameOnText walk step')
    (h : Simulates c c.rendering v Same step step') :
    Simulates c c.rendering v Same step walk := by
  intro v₁ hv₁ s t hst
  rw [(hwalk t (hst.sink ▸ ht.sinks hst.sinks)).1]
  exact h v₁ hv₁ s t hst

/-- Entries whose scripts are alike are run alike. -/
theorem Level.Simulates.runEntry (ht : c.IsTextual placement inlinable)
    (h : left.Simulates c v.world right) (hinlines : left.Inlines c v.world right inlinable)
    (hleft : Level.Related SameOnText left left) (hright : Level.Related SameOnText right right)
    {e e' : Entry} (hentries : c.Entries v.world e e') :
    TextTemplate.Simulates c c.rendering (v.push e.dir e'.dir) Same
      (left.runPart e.template e.part) (right.runPart e'.template e'.part) := by
  obtain ⟨hsituated, hscript, hscript', hplaced, hplaced', hinlined, halike⟩ |
    ⟨habsent, habsent'⟩ := ht.entries.1 hentries.entries
  · exact .of_sameOnText_left ht (sameOnText_runPart hleft hscript)
      (.of_sameOnText_right ht (sameOnText_runPart hright hscript')
        (halike.simulates_run ht ⟨h, hinlines, hentries.hosts, hsituated, hinlined⟩ hplaced
          hplaced'))
  · rw [runPart_of_scriptAt?_eq_none habsent, runPart_of_scriptAt?_eq_none habsent']
    exact .pure_same ()

/-- The same parts of templates of the same source are alike. -/
theorem ScriptsAlike.of_source {dir dir' : Path} (hsource : a.source = b.source)
    (hcompiler : a.compiler = b.compiler) (hplaces : placement a b places)
    (hrefl : ∀ offset, places offset offset) (part : Part) :
    ScriptsAlike placement inlinable ⟨a, part, dir⟩ ⟨b, part, dir'⟩ := by
  have htree : a.tree = b.tree := by rw [Template.tree, Template.tree, hsource, hcompiler]
  have hscript : a.script = b.script := by rw [Template.script, Template.script, htree, hsource]
  have hparts : a.scriptAt? part = b.scriptAt? part := by
    cases part with
    | whole => exact congrArg some hscript
    | bodyAt place => rw [Template.scriptAt?, Template.scriptAt?, htree, hsource]
  cases hfound : a.scriptAt? part with
  | none => exact .absent hfound (hparts ▸ hfound)
  | some script =>
    have hfound' : b.scriptAt? part = some script := hparts ▸ hfound
    have halike : Script.Alike places a.source b.source (fun _ _ => False) script script := by
      rw [hsource]
      exact .refl hrefl _
    exact .mk hplaces hfound hfound' (Template.placed_of_scriptAt? hfound)
      (Template.placed_of_scriptAt? hfound') (fun _ _ h => h.elim) halike

end TextTemplate
