import TextTemplate.Proofs.Simulation.Eval
import TextTemplate.Proofs.Simulation.State

/-!
# The steps of renders that agree

Every step of a directive is simulated, for templates by compilers that correspond, as long as the
evaluation of its expressions is, and what lies one level deeper.

## Main definitions

* `Level.Simulates`: levels that correspond.
* `Level.Reads`: expressions that are evaluated alike.
* `Comparison.Locates`: places under which errors stay alike.

## Main results

* `Level.Simulates.environment`: the environments of expressions correspond.
* `Level.Simulates.runAction`, `Level.Simulates.runLoop`, `Level.Simulates.runCustom`: the steps
  of directives.
-/

namespace TextTemplate

/-- Levels that know the same context and files, have corresponding templates registered, and step
into corresponding entries. -/
structure Level.Simulates (c : Comparison) (w : World) (left right : Level) : Prop where
  context : left.setting.context = right.setting.context
  files : left.setting.files = right.setting.files
  known : c.trees left.setting.files
  registered (name : String) {v : View} (hv : w ≤ v.world) : TextTemplate.Simulates c c.rendering v
    (fun w' a b => c.Templates w' a b ∧ a.origin = b.origin)
    (left.registered name) (right.registered name)
  enter {v : View} (hv : w ≤ v.world) {e e' : Entry} (h : c.Entries v.world e e') :
    TextTemplate.Simulates c c.rendering v Same (left.enter e.template e.part e.dir)
      (right.enter e'.template e'.part e'.dir)

/-- Templates by compilers that correspond, in which expressions that are alike are evaluated
alike. -/
structure Level.Reads (c : Comparison) (w : World) (left right : Level) (a b : Template)
    (alike : Slot → Slot → Prop) : Prop where
  hosts : c.Hosts w a b
  evaluate {v : View} (hv : w ≤ v.world) {slot slot' : Slot} (h : alike slot slot') :
    TextTemplate.Simulates c c.rendering v Same (left.evaluate a slot) (right.evaluate b slot')

/-- Errors that are alike stay so under these places and names. -/
def Comparison.Locates (c : Comparison) (a : Template) (offset : Nat) (name : String)
    (b : Template) (offset' : Nat) (name' : String) : Prop :=
  ∀ e e', c.alike e e' → c.alike (e.annotate (Position.locate a.source offset) name)
    (e'.annotate (Position.locate b.source offset') name')

theorem Level.Reads.mono {c : Comparison} {w w' : World} {left right : Level} {a b : Template}
    {alike : Slot → Slot → Prop} (h : Reads c w left right a b alike) (hw : w ≤ w') :
    Reads c w' left right a b alike where
  hosts := h.hosts.mono hw
  evaluate hv := h.evaluate (hw.trans hv)

namespace Level.Simulates

variable {c : Comparison} {w w' : World} {v v' : View} {left right : Level} {a b : Template}

theorem mono (h : left.Simulates c w right) (hw : w ≤ w') : left.Simulates c w' right where
  context := h.context
  files := h.files
  known := h.known
  registered name := fun hv => h.registered name (hw.trans hv)
  enter hv := h.enter (hw.trans hv)

/-! ### Expressions -/

private theorem callBlock (h : left.Simulates c v.world right) (id : Nat) :
    TextTemplate.Simulates c c.rendering v Same (left.callBlock id) (right.callBlock id) := by
  refine .get_bind fun v' hv s t hst => ?_
  have hblocks := hst.block? id
  generalize s.store.block? id = block at hblocks
  generalize t.store.block? id = block' at hblocks
  cases hblocks with
  | none => exact .throw (c.alike_refl nofun)
  | @some block block' hblock =>
    dsimp only
    rw [← hblock.scopes]
    exact (h.enter hv.1 hblock.entries).withScopes _

private theorem call (h : left.Simulates c v.world right) (callee : Value) (args : List Value) :
    TextTemplate.Simulates c c.evaluating v Same (ExceptT.mk (left.call callee args))
      (ExceptT.mk (right.call callee args)) := by
  cases callee with
  | block id name =>
    cases args with
    | nil =>
      rw [mk_call_block, mk_call_block]
      have hcall : TextTemplate.Simulates c c.evaluating v Same
          (ExceptT.adapt EvalError.nested (RenderM.captured (left.callBlock id)))
          (ExceptT.adapt EvalError.nested (RenderM.captured (right.callBlock id))) :=
        (h.callBlock id).captured.adapt (fun e he => ⟨e, rfl, he⟩) (fun e he => ⟨e, rfl, he⟩)
          fun _ _ he => .nested he
      exact hcall.bind_same fun _ _ text => .pure_same (Value.string text)
    | cons arg args => exact .throw (EvalError.Alike.same ⟨nofun, nofun⟩)
  | _ => exact .throw (EvalError.Alike.same ⟨nofun, nofun⟩)

theorem environment (h : left.Simulates c v.world right) :
    left.environment.Simulates c v right.environment where
  lookup name := fun v₁ _ _ _ hst => .inr ⟨v₁, le_refl _, hst, .ok (hst.lookup h.context name)⟩
  assign name value := fun v₁ _ _ _ hst =>
    .inr ⟨v₁, le_refl _, hst.assign name value, .ok rfl⟩
  call := h.call

theorem ofEval {α : Type} {step step' : ExceptT EvalError (StateM RenderState) α}
    (h : TextTemplate.Simulates c c.reading v Same step step') :
    TextTemplate.Simulates c c.rendering v Same (RenderM.ofEval step) (RenderM.ofEval step') := by
  refine h.adapt (fun _ he => he.toTemplateError) (fun _ he => he.toTemplateError)
    fun e e' he => ?_
  cases he with
  | same hunnested =>
    rw [hunnested.toTemplateError]
    exact c.alike_refl nofun
  | nested herror => exact herror

/-- A step under the place and name of a directive. -/
theorem located {α β : Type} {post : World → α → β → Prop} {step : RenderM α} {step' : RenderM β}
    {offset offset' : Nat} {name name' : String} (hplaces : c.Locates a offset name b offset' name')
    (h : TextTemplate.Simulates c c.rendering v post step step') :
    TextTemplate.Simulates c c.rendering v post (Level.located a offset name step)
      (Level.located b offset' name' step') :=
  h.adapt (fun _ he => c.escapes_annotate he _ _) (fun _ he => c.excuses_annotate he _ _) hplaces

/-! ### Includes -/

/-- Corresponding templates fetch corresponding templates, or fail alike, unless the comparison is
given up because only one of the renders can read the file, or only the right compiler takes it. -/
theorem results_of_fetches {owners owners' : List Compiler} {compiler compiler' : Compiler}
    {files : FileTree} {path path' : Path} {result result' : Except TemplateError Template}
    (hfiles : c.trees files) (hcompilers : c.compilers compiler compiler')
    (hpaths : c.paths path path') (hreads : ReadAlike c.escapes c.excuses files path path')
    (h : Fetches owners compiler files path result)
    (h' : Fetches owners' compiler' files path' result') :
    GivenUp c.rendering result result' ∨
      Results c.rendering (c.Templates ⟨owners, owners'⟩) result result' := by
  obtain hsame | ⟨e, hfound, ⟨hread, hescapes⟩ | ⟨hread, hexcuses⟩⟩ := hreads
  · cases h with
    | notFound hread =>
      rw [hsame] at hread
      cases h' with
      | notFound =>
        exact .inr (.error (c.alike_paths hpaths
          (fun p => (RenderFault.includeNotFound p).toError) fun _ => nofun))
      | unreadable hread' hfound => cases hread.symm.trans hread'; exact absurd rfl hfound
      | malformed hread' | included hread' => cases hread.symm.trans hread'
    | unreadable hread hfound =>
      rw [hsame] at hread
      cases h' with
      | notFound hread' => cases hread.symm.trans hread'; exact absurd rfl hfound
      | unreadable hread' =>
        cases hread.symm.trans hread'
        exact .inr (.error (c.alike_paths hpaths
          (fun p => (RenderFault.includeUnreadable p _).toError) fun _ => nofun))
      | malformed hread' | included hread' => cases hread.symm.trans hread'
    | @malformed source e hread hfails =>
      obtain hfails' | hescapes := c.escapes_compile hcompilers hfiles hread hfails
      · rw [hsame] at hread
        cases h' with
        | notFound hread' | unreadable hread' => cases hread.symm.trans hread'
        | malformed hread' hfails'' =>
          cases hread.symm.trans hread'
          cases hfails'.symm.trans hfails''
          exact .inr (.error (c.alike_paths hpaths
            (fun p => .compile { e with path := some p }) fun _ => nofun))
        | @included b hread' hcompiler _ =>
          cases hread.symm.trans hread'
          subst hcompiler
          cases hfails'.symm.trans b.compiled
      · exact .inl (.escapes hescapes)
    | @included a hread hcompiler howned =>
      subst hcompiler
      rw [hsame] at hread
      cases h' with
      | notFound hread' | unreadable hread' => cases hread.symm.trans hread'
      | malformed hread' hfails =>
        cases hread.symm.trans hread'
        obtain ⟨_, hcompile, -⟩ :=
          Program.exists_compile_of_precedes (c.precedes hcompilers) a.compiled
        cases hfails.symm.trans hcompile
      | included hread' hcompiler' howned' =>
        refine .inr (.ok ⟨⟨?_, howned, howned'⟩, Except.ok.inj (hread.symm.trans hread'),
          c.texts_read hfiles (hsame.trans hread)⟩)
        rw [hcompiler']
        exact hcompilers
  · exact .inl (h.eq_unreadable hread hfound ▸ .escapes hescapes)
  · exact .inl (h'.eq_unreadable hread hfound ▸ .excused hexcuses)

private theorem fetchFile (h : left.Simulates c v.world right) (hab : c.Hosts v.world a b)
    (place place' : Nat) {path path' : Path} (hpaths : c.paths path path')
    (hreads : ReadAlike c.escapes c.excuses left.setting.files path path') :
    TextTemplate.Simulates c c.rendering v c.Templates (left.fetchFile a place path)
      (right.fetchFile b place' path') := by
  intro v₁ hv₁ s t hst
  have hstores := hst.stores
  have habs := hab.mono hv₁.1
  have hknown : c.trees right.setting.files := h.files ▸ h.known
  obtain ⟨owners, caches, hgrows, hstate, hfaithful, hresult⟩ :=
    leadsTo_fetchFile c.consistent h.known hstores.left habs.left place
  obtain ⟨owners', caches', hgrows', hstate', hfaithful', hresult'⟩ :=
    leadsTo_fetchFile c.consistent hknown hstores.right habs.right place'
  rw [← h.files] at hresult'
  obtain hgiven | hresults := results_of_fetches h.known hab.compilers hpaths hreads
    hresult hresult'
  · exact .inl hgiven
  · have hw₂ : v₁.world ≤ ⟨owners, owners'⟩ := ⟨hgrows, hgrows'⟩
    refine .inr ⟨⟨⟨owners, owners'⟩, v₁.left, v₁.right⟩, ⟨hw₂, rfl, rfl⟩, ?_, hresults⟩
    rw [hstate, hstate']
    exact { hst with stores := hstores.mono hw₂ hfaithful hfaithful' }

/-- Templates of the same source are entered as a whole. -/
theorem entries_whole {dir dir' : Path} (hab : c.Templates w a b) (hdirs : c.paths dir dir') :
    c.Entries w ⟨a, .whole, dir⟩ ⟨b, .whole, dir'⟩ :=
  ⟨hab.toHosts, hdirs, c.entries_whole hab.known hab.source hab.compilers hdirs⟩

/-- Directories that correspond, where a path may have none. -/
theorem paths_getD {path path' : Option Path} {dir dir' : Path}
    (hpaths : Option.Rel c.paths path path') (hdirs : c.paths dir dir') :
    c.paths (path.getD dir) (path'.getD dir') := by
  cases hpaths with
  | none => exact hdirs
  | some hpath => exact hpath

section Slots

variable {alike : Slot → Slot → Prop}

section Expressions

variable {slot slot' : Slot} {pre pre' : Option Slot}

private theorem evaluateText (hab : Reads c v.world left right a b alike)
    (hslot : alike slot slot') :
    TextTemplate.Simulates c c.rendering v Same (left.evaluateText a slot)
      (right.evaluateText b slot') :=
  (hab.evaluate le_rfl hslot).bind_same fun _ _ value => .pure_same value.display

private theorem evaluatePre (hab : Reads c v.world left right a b alike)
    (hpre : Option.Rel alike pre pre') :
    TextTemplate.Simulates c c.rendering v Same (left.evaluatePre a pre)
      (right.evaluatePre b pre') := by
  cases hpre with
  | none => exact .pure_same ()
  | some hslot => exact (hab.evaluate le_rfl hslot).discard

end Expressions

section Includes

variable {target target' : Slot} {pre pre' : Option Slot}

private theorem includeFile (h : left.Simulates c v.world right)
    (hab : Reads c v.world left right a b alike) (place place' : Nat)
    (htarget : alike target target') (hpre : Option.Rel alike pre pre') :
    TextTemplate.Simulates c c.rendering v Same (left.includeFile a place target pre)
      (right.includeFile b place' target' pre') := by
  refine (evaluateText hab htarget).bind_same fun v₁ hv₁ text => ?_
  refine .get_bind fun v₂ hv₂ s t hst => ?_
  have hpaths := c.paths_join hst.paths ⟨text⟩
  have hreads := c.reads hst.paths ⟨text⟩ h.known
  have hv : v ≤ v₂ := hv₁.trans hv₂
  refine (evaluatePre (hab.mono hv.1) hpre).bind_same fun v₃ hv₃ _ => ?_
  have hv' : v ≤ v₃ := hv.trans hv₃
  refine ((h.mono hv'.1).fetchFile (hab.hosts.mono hv'.1) place place' hpaths hreads).bind
    fun v₄ hv₄ _ _ hincluded => ?_
  refine .get_bind fun v₅ hv₅ s t hst => ?_
  exact h.enter (hv'.trans (hv₄.trans hv₅)).1
    (entries_whole (hincluded.mono hv₅.1) (paths_getD (c.paths_parent? hpaths) hst.paths))

private theorem includeNamed (h : left.Simulates c v.world right)
    (hab : Reads c v.world left right a b alike) (htarget : alike target target')
    (hpre : Option.Rel alike pre pre') :
    TextTemplate.Simulates c c.rendering v Same (left.includeNamed a target pre)
      (right.includeNamed b target' pre') := by
  refine (evaluateText hab htarget).bind_same fun v₁ hv₁ name => ?_
  refine (evaluatePre (hab.mono hv₁.1) hpre).bind_same fun v₂ hv₂ _ => ?_
  refine .get_bind fun v₃ hv₃ s t hst => ?_
  rw [← hst.declared]
  have hv : v ≤ v₃ := hv₁.trans (hv₂.trans hv₃)
  cases s.declared[name]? with
  | some id => exact (h.mono hv.1).callBlock id
  | none =>
    refine (h.registered name hv.1).bind fun v₄ hv₄ _ _ hincluded => ?_
    refine .get_bind fun v₅ hv₅ s t hst => ?_
    rw [← hincluded.2]
    have horigin (path : Option Path) : Option.Rel c.paths path path := by
      cases path with
      | none => exact .none
      | some path => exact .some (c.paths_refl path)
    exact h.enter (hv.trans (hv₄.trans hv₅)).1
      (entries_whole (hincluded.1.mono hv₅.1) (paths_getD (horigin _) hst.paths))

end Includes

/-! ### Loops -/

section Loops

variable {body body' : RenderM Unit} {separator separator' : Option Slot}

private theorem loopSources (hab : Reads c v.world left right a b alike)
    {bindings bindings' : List LoopBinding}
    (hbindings : List.Forall₂ (LoopBinding.Alike alike) bindings bindings') :
    TextTemplate.Simulates c c.rendering v Same (left.loopSources a bindings)
      (right.loopSources b bindings') := by
  induction hbindings generalizing v with
  | nil => exact .pure_same []
  | @cons binding binding' bindings bindings' hbinding _ ih =>
    refine (hab.evaluate le_rfl hbinding.2).bind_same fun v₁ hv₁ value => ?_
    cases LoopSource.ofValue value with
    | error fault => exact .fail fault
    | ok source =>
      refine (ih (hab.mono hv₁.1)).bind_same fun v₂ hv₂ sources => ?_
      rw [hbinding.1]
      exact .pure_same _

private theorem runRounds (hab : Reads c v.world left right a b alike)
    (hseparator : Option.Rel alike separator separator')
    (hbody : TextTemplate.Simulates c c.rendering v Same body body')
    (sources : List (String × LoopSource)) (round rounds : Nat) :
    TextTemplate.Simulates c c.rendering v Same
      (left.runRounds a sources separator body round rounds)
      (right.runRounds b sources separator' body' round rounds) := by
  induction rounds generalizing v round with
  | zero => exact .pure_same ()
  | succ rounds ih =>
    rw [Level.runRounds, Level.runRounds]
    refine (hbody.withScope _).bind_same fun v₁ hv₁ _ => ?_
    have hrest {v₂ : View} (hv₂ : v₁ ≤ v₂) :=
      ih (hab.mono (hv₁.trans hv₂).1) (hbody.mono (hv₁.trans hv₂)) (round + 1)
    by_cases hlast : rounds = 0
    · rw [if_neg (by simp [hlast]), if_neg (by simp [hlast])]
      exact hrest (le_refl _)
    · rw [if_pos hlast, if_pos hlast]
      cases hseparator with
      | none => exact hrest (le_refl _)
      | some hslot =>
        refine (evaluateText (hab.mono hv₁.1) hslot).bind_same fun v₂ hv₂ text => ?_
        exact (Simulates.emit text).bind_same fun v₃ hv₃ _ => hrest (hv₂.trans hv₃)

theorem runLoop (hab : Reads c v.world left right a b alike)
    {bindings bindings' : List LoopBinding}
    (hbindings : List.Forall₂ (LoopBinding.Alike alike) bindings bindings')
    (hseparator : Option.Rel alike separator separator')
    (hbody : TextTemplate.Simulates c c.rendering v Same body body') :
    TextTemplate.Simulates c c.rendering v Same (left.runLoop a bindings separator body)
      (right.runLoop b bindings' separator' body') :=
  (loopSources hab hbindings).bind_same fun _ hv sources =>
    runRounds (hab.mono hv.1) hseparator (hbody.mono hv) sources 0 _

end Loops

end Slots

/-! ### Directives -/

theorem writeText (hab : a.source = b.source) (spans : List Span) :
    TextTemplate.Simulates c c.rendering v Same (Level.writeText a spans)
      (Level.writeText b spans) := by
  induction spans generalizing v with
  | nil => exact .pure_same ()
  | cons span spans ih =>
    rw [Level.writeText, Level.writeText, hab]
    exact (Simulates.emit _).bind_same fun _ _ _ => ih

private theorem runRepeated {body body' : RenderM Unit}
    (hbody : TextTemplate.Simulates c c.rendering v Same body body') (between : String)
    (round rounds : Nat) :
    TextTemplate.Simulates c c.rendering v Same (Level.runRepeated between body round rounds)
      (Level.runRepeated between body' round rounds) := by
  induction rounds generalizing v round with
  | zero => exact .pure_same ()
  | succ rounds ih =>
    rw [Level.runRepeated, Level.runRepeated]
    have hround {v₁ : View} (hv₁ : v ≤ v₁) := ((hbody.mono hv₁).withScope
      [("index", .int (Int64.ofInt round))]).bind_same fun v₂ hv₂ _ =>
        ih (hbody.mono (hv₁.trans hv₂)) (round + 1)
    by_cases hfirst : round = 0
    · rw [if_neg (by simp [hfirst]), if_neg (by simp [hfirst])]
      exact hround (le_refl _)
    · rw [if_pos hfirst, if_pos hfirst]
      exact (Simulates.emit between).bind_same fun _ hv₁ _ => hround hv₁

theorem runCustom (h : left.Simulates c v.world right) (custom : Custom) (contents : String)
    (ending : Option String) {body body' : RenderM Unit}
    (hbody : TextTemplate.Simulates c c.rendering v Same body body') :
    TextTemplate.Simulates c c.rendering v Same (left.runCustom custom contents ending body)
      (right.runCustom custom contents ending body') := by
  have hevaluate := ofEval (simulates_evaluateText h.environment contents)
  cases custom with
  | repeated count => exact runRepeated hbody _ 0 _
  | wrap =>
    refine (Simulates.emit "[").bind_same fun v₁ hv₁ _ => ?_
    refine (Simulates.emit contents).bind_same fun v₂ hv₂ _ => ?_
    refine (Simulates.emit "|").bind_same fun v₃ hv₃ _ => ?_
    exact (hbody.mono (hv₁.trans (hv₂.trans hv₃))).bind_same fun _ _ _ => .emit _
  | guarded =>
    refine hevaluate.bind_same fun v₁ hv₁ value => ?_
    cases value.isTruthy with
    | true => exact hbody.mono hv₁
    | false => exact .pure_same ()
  | shout => exact hevaluate.bind_same fun _ _ value => .emit _
  | peek =>
    refine .get_bind fun v₁ _ s t hst => ?_
    rw [← hst.lookup h.context]
    cases s.lookup left.setting (trim contents) with
    | none => exact .emit "?"
    | some value => exact .emit _
  | term => exact .emit _
  | fail => exact (Simulates.emit "<fail>").bind_same fun _ _ _ => .fail _

section Slots

variable {alike : Slot → Slot → Prop}

theorem runAction (h : left.Simulates c v.world right)
    (hab : Reads c v.world left right a b alike) (place place' : Nat) {span span' : Span}
    (hspan : span.slice a.source = span'.slice b.source) {action action' : Action}
    (haction : Action.Alike alike action action') :
    TextTemplate.Simulates c c.rendering v Same (left.runAction a place span action)
      (right.runAction b place' span' action') := by
  cases haction with
  | expression hslot | eval hslot =>
    exact (evaluateText hab hslot).bind_same fun _ _ text => .emit text
  | code hslot => exact (hab.evaluate le_rfl hslot).discard
  | includeFile htarget hpre => exact h.includeFile hab place place' htarget hpre
  | includeNamed htarget hpre => exact h.includeNamed hab htarget hpre
  | comment => exact .pure_same ()
  | custom directive =>
    rw [Level.runAction, Level.runAction, hspan]
    exact h.runCustom directive _ none (.pure_same ())

theorem runDeclare (hab : Reads c v.world left right a b alike) {name name' : Slot}
    (hname : alike name name') {place place' : Nat}
    (hentries : ∀ v', v ≤ v' → ∀ s t, c.States v' s t →
      c.Entries v'.world ⟨a, .bodyAt place, s.currentDir⟩ ⟨b, .bodyAt place', t.currentDir⟩) :
    TextTemplate.Simulates c c.rendering v Same (left.runDeclare a name place)
      (right.runDeclare b name' place') :=
  (evaluateText hab hname).bind_same fun _ hv text =>
    .modify fun v' hv' s t hst => hst.declare (hentries v' (hv.trans hv') s t hst) text

theorem isTaken (hab : Reads c v.world left right a b alike) {offset offset' : Nat}
    {name name' : String} (hplaces : c.Locates a offset name b offset' name')
    {condition condition' : Option Slot} (hcondition : Option.Rel alike condition condition') :
    TextTemplate.Simulates c c.rendering v Same (left.isTaken a offset name condition)
      (right.isTaken b offset' name' condition') := by
  cases hcondition with
  | none => exact .pure_same true
  | some hslot =>
    refine located hplaces ?_
    exact (hab.evaluate le_rfl hslot).bind_same fun _ _ value => .pure_same value.isTruthy

end Slots

end Level.Simulates

end TextTemplate
