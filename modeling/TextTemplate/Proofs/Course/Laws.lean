import TextTemplate.Proofs.Course.Records
import TextTemplate.Proofs.Simulation.Caches

/-!
# Laws of what a render does

A law says of each event of a record what it has to do with the events before it. It is proved by an
invariant of the events so far and the store, and a second one of the directory that includes are
joined to: each kind of event upholds the invariants, and so does entering a template or a block. A
whole record then obeys the law.

## Main definitions

* `Lawful`: each event of a record obeys a law.
* `Fetch.Comes`: what comes of a fetch.
* `Upholds`: the events uphold a law and its invariants.

## Main results

* `Records.lawful`: what is recorded obeys the law.
-/

namespace TextTemplate

/-! ### Laws -/

/-- After some events, each of those that follow obeys the law. -/
def Lawful (law : List Event → Event → Prop) : List Event → List Event → Prop
  | _, [] => True
  | before, event :: log => law before event ∧ Lawful law (before ++ [event]) log

section Lawful

variable {law : List Event → Event → Prop} {before log log' after : List Event} {event : Event}

theorem lawful_append :
    Lawful law before (log ++ log') ↔ Lawful law before log ∧ Lawful law (before ++ log) log' := by
  induction log generalizing before with
  | nil => simp [Lawful]
  | cons event log ih => simp [Lawful, ih, and_assoc]

private theorem lawful_singleton : Lawful law before [event] ↔ law before event := by
  simp [Lawful]

theorem Lawful.at (h : Lawful law before (log ++ event :: after)) : law (before ++ log) event :=
  (lawful_append.1 h).2.1

end Lawful

/-! ### Includes -/

/-- What comes of a fetch. In compiled mode, what is remembered for the path and its time of change
is taken. Otherwise the file is read, which is counted if it succeeds, and compiled; and in compiled
mode the template is remembered. -/
inductive Fetch.Comes (f : Fetch) : Prop
  | kept {included : Template} (mode : f.entrance.template.compiler.mode = .compiled)
      (cached : f.before.cached? f.entrance.template f.place f.path (f.files.modified? f.path) =
        some included)
      (result : f.result = .ok included) (after : f.after = f.before)
  | unreadable {e : FileError} {error : TemplateError}
      (missed : f.entrance.template.compiler.mode = .compiled →
        f.before.cached? f.entrance.template f.place f.path (f.files.modified? f.path) = none)
      (reads : f.files.read f.path = .error e) (result : f.result = .error error)
      (after : f.after = f.before)
  | malformed {source : String} {error : CompileError}
      (missed : f.entrance.template.compiler.mode = .compiled →
        f.before.cached? f.entrance.template f.place f.path (f.files.modified? f.path) = none)
      (reads : f.files.read f.path = .ok source)
      (fails : (f.before.countCompilation f.entrance.template).compile
        f.entrance.template.compiler source (some f.path) = .error error)
      (result : f.result = .error (.compile error))
      (after : f.after = f.before.countCompilation f.entrance.template)
  | compiles {source : String} {included : Template} {store : Store}
      (missed : f.entrance.template.compiler.mode = .compiled →
        f.before.cached? f.entrance.template f.place f.path (f.files.modified? f.path) = none)
      (reads : f.files.read f.path = .ok source)
      (compiles : (f.before.countCompilation f.entrance.template).compile
        f.entrance.template.compiler source (some f.path) = .ok (included, store))
      (result : f.result = .ok included)
      (after : f.after = match f.entrance.template.compiler.mode with
        | .interpreted => store
        | .compiled => store.remember f.entrance.template f.place
            ⟨f.path, f.files.modified? f.path, included⟩)

section Fetching

variable {level : Level} {template : Template} {place : Nat} {path : Path} {s : RenderState}

private theorem Level.run_compileFile_of_error (template : Template) (s : RenderState)
    {e : FileError} (h : level.setting.files.read path = .error e) :
    ∃ error, (level.compileFile template path).run.run s = (.error error, s) := by
  rw [compileFile]
  simp only [h]
  cases e <;> exact ⟨_, rfl⟩

/-- Where nothing is remembered that serves, the file is compiled. -/
theorem Level.run_fetchFile_of_missed (hmissed : template.compiler.mode = .compiled →
    s.store.cached? template place path (level.setting.files.modified? path) = none) :
    (level.fetchFile template place path).run.run s =
      match (level.compileFile template path).run.run s with
      | (.error e, s') => (.error e, s')
      | (.ok included, s') => (.ok included, { s' with
          store := match template.compiler.mode with
            | .interpreted => s'.store
            | .compiled => s'.store.remember template place
                ⟨path, level.setting.files.modified? path, included⟩ }) := by
  cases hmode : template.compiler.mode with
  | interpreted =>
    rw [fetchFile]
    simp only [hmode]
    rcases (level.compileFile template path).run.run s with ⟨_ | _, _⟩ <;> rfl
  | compiled =>
    refine (run_fetchFile_of_compiled hmode place).trans ?_
    rcases (level.compileFile template path).run.run s with ⟨_ | _, _⟩ <;>
      simp only [hmissed hmode]

section Comes

variable {entrance : Entrance} (text : String) {s' : RenderState}
  {result : Except TemplateError Template}

/-- What comes of an include for which nothing is remembered that serves. -/
theorem Level.comes_of_missed (hmissed : entrance.template.compiler.mode = .compiled →
      s.store.cached? entrance.template place path (level.setting.files.modified? path) = none)
    (h : (level.fetchFile entrance.template place path).run.run s = (result, s')) :
    s' = { s with store := s'.store } ∧ Fetch.Comes
      ⟨entrance, place, text, path, level.setting.files, s.store, result, s'.store⟩ := by
  rw [run_fetchFile_of_missed hmissed] at h
  cases hread : level.setting.files.read path with
  | error e =>
    obtain ⟨error, hfails⟩ := run_compileFile_of_error entrance.template s hread
    rw [hfails] at h
    obtain ⟨rfl, rfl⟩ := Prod.mk.inj h
    exact ⟨rfl, .unreadable hmissed hread rfl rfl⟩
  | ok source =>
    rw [run_compileFile_of_read hread] at h
    cases hmade : (s.store.countCompilation entrance.template).compile
        entrance.template.compiler source (some path) with
    | error e =>
      rw [hmade] at h
      obtain ⟨rfl, rfl⟩ := Prod.mk.inj h
      exact ⟨rfl, .malformed hmissed hread hmade rfl rfl⟩
    | ok made =>
      rw [hmade] at h
      obtain ⟨rfl, rfl⟩ := Prod.mk.inj h
      exact ⟨rfl, .compiles hmissed hread hmade rfl rfl⟩

/-- This is what comes of every include that is run; it changes nothing but the store. -/
theorem Level.comes_of_run
    (h : (level.fetchFile entrance.template place path).run.run s = (result, s')) :
    s' = { s with store := s'.store } ∧ Fetch.Comes
      ⟨entrance, place, text, path, level.setting.files, s.store, result, s'.store⟩ := by
  cases hmode : entrance.template.compiler.mode with
  | interpreted =>
    exact comes_of_missed text (fun hcompiled => by cases hmode.symm.trans hcompiled) h
  | compiled =>
    cases hcached : s.store.cached? entrance.template place path
        (level.setting.files.modified? path) with
    | none => exact comes_of_missed text (fun _ => hcached) h
    | some included =>
      rw [run_fetchFile_of_compiled hmode, hcached] at h
      obtain ⟨rfl, rfl⟩ := Prod.mk.inj h
      exact ⟨rfl, .kept hmode hcached rfl rfl⟩

end Comes

end Fetching

/-! ### Invariants -/

/-- The events uphold a law, with an invariant of what has been done and the store, and one of what
has been done and the directory within a template or block that was entered so. -/
structure Upholds (law : List Event → Event → Prop) (kept : List Event → Store → Prop)
    (stands : List Event → Entrance → Path → Prop) : Prop where
  later {before : List Event} {site : Entrance} {dir : Path} (event : Event)
    (h : stands before site dir) : stands (before ++ [event]) site dir
  assign {before : List Event} {store : Store} (site : Entrance) (name : String) (value : Value)
    (s : RenderState) (h : kept before store) :
    law before (.assign site name value s) ∧ kept (before ++ [.assign site name value s]) store
  declare {before : List Event} {store : Store} {site : Entrance} {block : DeclaredBlock}
    (h : kept before store) (hdir : stands before site block.dir) :
    law before (.declare site store.blocks.size block) ∧
      kept (before ++ [.declare site store.blocks.size block]) (store.addBlock block).2
  fetch {before : List Event} {f : Fetch} {dir : Path} (comes : f.Comes)
    (joined : f.path = dir.join ⟨f.text⟩) (h : kept before f.before)
    (hdir : stands before f.entrance dir) :
    law before (.fetch f) ∧ kept (before ++ [.fetch f]) f.after ∧
      ∀ included, f.result = .ok included →
        stands (before ++ [.fetch f]) (.file f.path included f.entrance)
          (f.path.parent?.getD dir)
  named {before : List Event} {site : Entrance} {dir : Path} (included : Template)
    (hdir : stands before site dir) :
    stands before (.named included site) ((included.origin.bind Path.parent?).getD dir)
  block {before : List Event} {store : Store} {id : Nat} {block : DeclaredBlock} (site : Entrance)
    (h : kept before store) (found : store.block? id = some block) :
    stands before (.block id block site) block.dir

private theorem RenderState.store_assign (s : RenderState) (name : String) (value : Value) :
    (s.assign name value).store = s.store := by
  unfold assign
  split
  · rfl
  · split <;> rfl

private theorem store_run_emit (text : String) (s : RenderState) :
    ((RenderM.emit text).run.run s).2.store = s.store := by
  rw [run_emit]
  split_ifs <;> rfl

private theorem Level.store_run_callBlock {level : Level} {id : Nat} {block : DeclaredBlock}
    {s : RenderState} (h : s.store.block? id = some block) :
    ((level.callBlock id).run.run s).2.store =
      ((level.enter block.template (.bodyAt block.place) block.dir).run.run
        { s with scopes := [] :: block.scopes }).2.store := by
  rw [callBlock, run_get_bind, h]
  rfl

section Upholds

variable {law : List Event → Event → Prop} {kept : List Event → Store → Prop}
  {stands : List Event → Entrance → Path → Prop}

private theorem Upholds.laters (hL : Upholds law kept stands) {before : List Event}
    {site : Entrance} {dir : Path} (h : stands before site dir) (log : List Event) :
    stands (before ++ log) site dir := by
  induction log generalizing before with
  | nil => rwa [List.append_nil]
  | cons event log ih =>
    rw [List.append_cons]
    exact ih (hL.later event h)

/-- What is recorded inside a template or block obeys the law if it does so on the level below. -/
theorem Level.lawful_enter {setting : Setting} {levels : Nat} {template : Template} {part : Part}
    {dir : Path} {s : RenderState} {before log : List Event} (hlast : levels = 0 → log = [])
    (hinside : ∀ below, levels = below + 1 → Lawful law before log ∧ kept (before ++ log)
      (((above setting below).runPart template part).run.run (s.pushDir dir)).2.store)
    (hkept : kept before s.store) :
    Lawful law before log ∧ kept (before ++ log)
      (((above setting levels).enter template part dir).run.run s).2.store := by
  cases levels with
  | zero =>
    rw [hlast rfl, List.append_nil]
    exact ⟨trivial, hkept⟩
  | succ below => exact hinside below rfl

/-- What is recorded of a step obeys the law, and keeps the invariant. -/
theorem Records.lawful (hL : Upholds law kept stands) {setting : Setting} {ε α : Type}
    {levels : Nat} {entrance : Entrance} {step : ExceptT ε (StateM RenderState) α} {s : RenderState}
    {log before : List Event} (h : Records setting levels entrance step s log)
    (hkept : kept before s.store) (hdir : stands before entrance s.currentDir) :
    Lawful law before log ∧ kept (before ++ log) (step.run.run s).2.store := by
  induction h generalizing before with
  | result => exact ⟨trivial, by rwa [List.append_nil]⟩
  | emit _ _ text s =>
    rw [List.append_nil, store_run_emit]
    exact ⟨trivial, hkept⟩
  | stop _ hfails ih =>
    rw [run_bind, hfails]
    have hstep := ih hkept hdir
    rwa [hfails] at hstep
  | @next _ _ _ _ entrance _ _ _ s' _ log _ hstep hruns _ ih ihrest =>
    rw [run_bind, hruns]
    obtain ⟨hlaw, hkept'⟩ := ih hkept hdir
    have hdirs := (hstep.steady RenderState.steady_balanced).dirs
    rw [hruns] at hkept' hdirs
    have hdir' : stands (before ++ log) entrance s'.currentDir := by
      rw [RenderState.currentDir, hdirs]
      exact hL.laters hdir log
    obtain ⟨hrest, hlast⟩ := ihrest hkept' hdir'
    rw [← List.append_assoc]
    exact ⟨lawful_append.2 ⟨hlaw, hrest⟩, hlast⟩
  | adapt _ _ ih | get_bind _ ih | withScope _ ih => exact ih hkept hdir
  | captured _ ih =>
    rw [snd_run_captured]
    exact ih hkept hdir
  | assign _ entrance name value s =>
    obtain ⟨hlaw, hkept'⟩ := hL.assign entrance name value s hkept
    exact ⟨lawful_singleton.2 hlaw, (s.store_assign name value).symm ▸ hkept'⟩
  | declare _ entrance name template place s =>
    let block : DeclaredBlock := ⟨name, template, place, s.scopes, s.currentDir⟩
    have hblock : stands _ entrance block.dir := hdir
    obtain ⟨hlaw, hkept'⟩ := hL.declare hkept hblock
    exact ⟨lawful_singleton.2 hlaw, hkept'⟩
  | @unfetched _ _ _ text _ _ _ _ hpath hfails =>
    obtain ⟨-, hcomes⟩ := Level.comes_of_run text hfails
    rw [Level.setting_above] at hcomes
    obtain ⟨hlaw, hkept', -⟩ := hL.fetch hcomes hpath hkept hdir
    rw [Level.enterFile, run_bind, hfails]
    exact ⟨lawful_singleton.2 hlaw, hkept'⟩
  | @file _ _ _ text _ s s' _ _ hpath hfetches hlast _ ih =>
    obtain ⟨hstate, hcomes⟩ := Level.comes_of_run text hfetches
    rw [Level.setting_above] at hcomes
    obtain ⟨hlaw, hkept', hfile⟩ := hL.fetch hcomes hpath hkept hdir
    have hcurrent : s'.currentDir = s.currentDir := by rw [hstate]; rfl
    rw [Level.enterFile, run_bind, hfetches, List.append_cons]
    obtain ⟨hrest, hafter⟩ := Level.lawful_enter hlast
      (fun below hbelow => ih below hbelow hkept' (hcurrent ▸ hfile _ rfl)) hkept'
    exact ⟨⟨hlaw, hrest⟩, hafter⟩
  | named hlast _ ih =>
    exact Level.lawful_enter hlast
      (fun below hbelow => ih below hbelow hkept (hL.named _ hdir)) hkept
  | @block _ entrance _ _ _ _ hblock hlast _ ih =>
    rw [Level.store_run_callBlock hblock]
    exact Level.lawful_enter hlast
      (fun below hbelow => ih below hbelow hkept (hL.block entrance hkept hblock)) hkept

end Upholds

end TextTemplate
