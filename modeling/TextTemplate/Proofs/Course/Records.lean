import TextTemplate.Proofs.Course.Passes

/-!
# Records of what a render does

What a step of a render does is written down in the order in which it is done: the variables it
assigns to, the blocks it declares, and the files that its include nodes lead to. Each entry of the
record says how the template or block was entered that is being run, so that a statement about an
include can be made from where its node was loaded.

A record belongs to a step and a state. Where a step can be put together in more than one way it can
have more than one record, and what is proved about records is proved about each of them.

## Main definitions

* `Entrance`: how the template or block that is being run was entered.
* `Event`, `Fetch`: the entries of a record.
* `Records`: the step, begun in the state, does this.

## Main results

* `Records.steady`: what a step does stays in every relation that all operations keep.
* `Level.exists_records_runPart`: rendering a part of a template has a record.
-/

namespace TextTemplate

/-! ### Entrances -/

/-- How the template or block that is being run was entered, from the site of the include or the
call: it is the template of the render, given a directory or not, or a template included from a
path, or one found under its name, or a declared block. -/
inductive Entrance where
  | top (template : Template) (baseDir : Option Path)
  | file (path : Path) (included : Template) (site : Entrance)
  | named (included : Template) (site : Entrance)
  | block (id : Nat) (block : DeclaredBlock) (site : Entrance)

/-- The template whose nodes are being run. -/
def Entrance.template : Entrance → Template
  | top template _ => template
  | file _ included _ => included
  | named included _ => included
  | block _ declared _ => declared.template

/-! ### Events -/

/-- What an include node leads to, when its expressions have been evaluated: the text of the target,
the path it stands for, the files, what comes of reading and compiling, and the store before and
after. -/
structure Fetch where
  entrance : Entrance
  place : Nat
  text : String
  path : Path
  files : FileTree
  before : Store
  result : Except TemplateError Template
  after : Store

/-- What is noted of a render. An assignment is noted with the state that it changes. -/
inductive Event where
  | assign (entrance : Entrance) (name : String) (value : Value) (state : RenderState)
  | declare (entrance : Entrance) (id : Nat) (block : DeclaredBlock)
  | fetch (fetch : Fetch)

/-- How the template or block was entered where the event took place. -/
def Event.entrance : Event → Entrance
  | assign entrance _ _ _ => entrance
  | declare entrance _ _ => entrance
  | fetch fetched => fetched.entrance

namespace Level

variable (level : Level)

/-- The end of an include: fetches the template that a path leads to, and enters it. -/
def enterFile (template : Template) (place : Nat) (path : Path) : RenderM Unit := do
  let included ← level.fetchFile template place path
  let dir := path.parent?.getD (← get).currentDir
  level.enter included .whole dir

/-- The end of an include by name: enters the template that is registered under the name. -/
def enterNamed (included : Template) : RenderM Unit := do
  let dir := (included.origin.bind Path.parent?).getD (← get).currentDir
  level.enter included .whole dir

private theorem includeFile_eq (template : Template) (place : Nat) (target : Slot)
    (pre : Option Slot) :
    level.includeFile template place target pre =
      level.evaluateText template target >>= fun text => get >>= fun s =>
        level.evaluatePre template pre >>= fun _ =>
          level.enterFile template place (s.currentDir.join ⟨text⟩) :=
  rfl

private theorem includeNamed_eq (template : Template) (target : Slot) (pre : Option Slot) :
    level.includeNamed template target pre =
      level.evaluateText template target >>= fun name =>
        level.evaluatePre template pre >>= fun _ => get >>= fun s =>
          match s.declared[name]? with
          | some id => level.callBlock id
          | none => level.registered name >>= level.enterNamed :=
  rfl

end Level

/-! ### Records -/

/-- The step, begun in the state with so many more levels below it, within the template or block
that was entered so, does this. An include is noted before what the included template does. Where no
level is left, nothing is done inside a template or block. -/
inductive Records (setting : Setting) : {ε α : Type} → (levels : Nat) → Entrance →
    ExceptT ε (StateM RenderState) α → RenderState → List Event → Prop
  | result {ε α : Type} (levels : Nat) (entrance : Entrance) (result : Except ε α)
      (s : RenderState) : Records setting levels entrance (ExceptT.mk (pure result)) s []
  | stop {ε α α' : Type} {levels : Nat} {entrance : Entrance}
      {step : ExceptT ε (StateM RenderState) α} {next : α → ExceptT ε (StateM RenderState) α'}
      {s s' : RenderState} {e : ε} {log : List Event}
      (records : Records setting levels entrance step s log)
      (fails : step.run.run s = (.error e, s')) :
      Records setting levels entrance (step >>= next) s log
  | next {ε α α' : Type} {levels : Nat} {entrance : Entrance}
      {step : ExceptT ε (StateM RenderState) α} {next : α → ExceptT ε (StateM RenderState) α'}
      {s s' : RenderState} {a : α} {log log' : List Event}
      (records : Records setting levels entrance step s log)
      (runs : step.run.run s = (.ok a, s'))
      (rest : Records setting levels entrance (next a) s' log') :
      Records setting levels entrance (step >>= next) s (log ++ log')
  | adapt {ε ε' α : Type} {levels : Nat} {entrance : Entrance} (f : ε → ε')
      {step : ExceptT ε (StateM RenderState) α} {s : RenderState} {log : List Event}
      (records : Records setting levels entrance step s log) :
      Records setting levels entrance (ExceptT.adapt f step) s log
  | get_bind {ε α : Type} {levels : Nat} {entrance : Entrance}
      {next : RenderState → ExceptT ε (StateM RenderState) α} {s : RenderState} {log : List Event}
      (records : Records setting levels entrance (next s) s log) :
      Records setting levels entrance (get >>= next) s log
  | assign {ε : Type} (levels : Nat) (entrance : Entrance) (name : String) (value : Value)
      (s : RenderState) :
      Records setting levels entrance
        (modify (·.assign name value) : ExceptT ε (StateM RenderState) Unit) s
        [.assign entrance name value s]
  | declare {ε : Type} (levels : Nat) (entrance : Entrance) (name : String) (template : Template)
      (place : Nat) (s : RenderState) :
      Records setting levels entrance
        (modify (·.declare name template place) : ExceptT ε (StateM RenderState) Unit) s
        [.declare entrance s.store.blocks.size ⟨name, template, place, s.scopes, s.currentDir⟩]
  | emit (levels : Nat) (entrance : Entrance) (text : String) (s : RenderState) :
      Records setting levels entrance (RenderM.emit text) s []
  | withScope {α : Type} {levels : Nat} {entrance : Entrance} {scope : Scope} {step : RenderM α}
      {s : RenderState} {log : List Event}
      (records : Records setting levels entrance step (s.pushScope scope) log) :
      Records setting levels entrance (RenderM.withScope scope step) s log
  | captured {levels : Nat} {entrance : Entrance} {step : RenderM Unit} {s : RenderState}
      {log : List Event}
      (records : Records setting levels entrance step { s with sink := .collector } log) :
      Records setting levels entrance (RenderM.captured step) s log
  | unfetched {levels : Nat} {entrance : Entrance} {place : Nat} {text : String} {path : Path}
      {s s' : RenderState} {e : TemplateError} (joined : path = s.currentDir.join ⟨text⟩)
      (fails : ((Level.above setting levels).fetchFile entrance.template place path).run.run s =
        (.error e, s')) :
      Records setting levels entrance
        ((Level.above setting levels).enterFile entrance.template place path) s
        [.fetch ⟨entrance, place, text, path, setting.files, s.store, .error e, s'.store⟩]
  | file {levels : Nat} {entrance : Entrance} {place : Nat} {text : String} {path : Path}
      {s s' : RenderState} {included : Template} {log : List Event}
      (joined : path = s.currentDir.join ⟨text⟩)
      (fetches : ((Level.above setting levels).fetchFile entrance.template place path).run.run s =
        (.ok included, s'))
      (last : levels = 0 → log = [])
      (inside : ∀ below, levels = below + 1 →
        Records setting below (.file path included entrance)
          ((Level.above setting below).runPart included .whole)
          (s'.pushDir (path.parent?.getD s'.currentDir)) log) :
      Records setting levels entrance
        ((Level.above setting levels).enterFile entrance.template place path) s
        (.fetch ⟨entrance, place, text, path, setting.files, s.store, .ok included, s'.store⟩
          :: log)
  | named {levels : Nat} {entrance : Entrance} {included : Template} {s : RenderState}
      {log : List Event} (last : levels = 0 → log = [])
      (inside : ∀ below, levels = below + 1 →
        Records setting below (.named included entrance)
          ((Level.above setting below).runPart included .whole)
          (s.pushDir ((included.origin.bind Path.parent?).getD s.currentDir)) log) :
      Records setting levels entrance ((Level.above setting levels).enterNamed included) s log
  | block {levels : Nat} {entrance : Entrance} {id : Nat} {block : DeclaredBlock} {s : RenderState}
      {log : List Event} (found : s.store.block? id = some block) (last : levels = 0 → log = [])
      (inside : ∀ below, levels = below + 1 →
        Records setting below (.block id block entrance)
          ((Level.above setting below).runPart block.template (.bodyAt block.place))
          ({ s with scopes := [] :: block.scopes }.pushDir block.dir) log) :
      Records setting levels entrance ((Level.above setting levels).callBlock id) s log

/-- Something is done inside a template or block only if a level is left. -/
theorem exists_below_of_mem {levels : Nat} {log : List Event} (hlast : levels = 0 → log = [])
    {event : Event} (h : event ∈ log) : ∃ below, levels = below + 1 := by
  cases levels with
  | zero => rw [hlast rfl] at h; cases h
  | succ below => exact ⟨below, rfl⟩

/-! ### What a step leaves -/

section Steady

variable {setting : Setting} {ε α : Type} {levels : Nat} {entrance : Entrance}
  {step : ExceptT ε (StateM RenderState) α} {s : RenderState} {log : List Event}

private theorem Level.composed_fetchFile (template : Template) (place : Nat) (path : Path) :
    Composed ((Level.above setting levels).fetchFile template place path) :=
  Level.related_fetchFile Composed.congruence (Level.isComposed_above setting levels) template
    place path

private theorem Level.composed_enterFile (template : Template) (place : Nat) (path : Path) :
    Composed ((Level.above setting levels).enterFile template place path) :=
  (composed_fetchFile template place path).bind fun _ =>
    .get_bind (fun _ _ => rfl) fun _ => (Level.isComposed_above setting levels).enter _ _ _

private theorem Level.composed_enterNamed (included : Template) :
    Composed ((Level.above setting levels).enterNamed included) :=
  .get_bind (fun _ _ => rfl) fun _ => (Level.isComposed_above setting levels).enter _ _ _

theorem Level.steady_fetchFile {R : RenderState → RenderState → Prop} (hR : Steady R)
    {template : Template} {place : Nat} {path : Path} {s s' : RenderState}
    {result : Except TemplateError Template}
    (h : ((Level.above setting levels).fetchFile template place path).run.run s = (result, s')) :
    R s s' := by
  have hcomposed : Composed ((Level.above setting levels).fetchFile template place path) :=
    composed_fetchFile template place path
  have hsteady := hcomposed.steady hR s
  rwa [h] at hsteady

/-- A step with a record leaves its state in every relation in which the operations of a render
do. -/
theorem Records.steady {R : RenderState → RenderState → Prop} (hR : Steady R)
    (h : Records setting levels entrance step s log) : R s (step.run.run s).2 := by
  induction h with
  | result => exact hR.refl _
  | stop _ hfails ih =>
    rw [run_bind, hfails]
    rwa [hfails] at ih
  | next _ hruns _ ih ihrest =>
    rw [run_bind, hruns]
    rw [hruns] at ih
    exact hR.trans ih ihrest
  | adapt _ _ ih | get_bind _ ih => exact ih
  | assign _ _ name value s => exact hR.assign s name value
  | declare _ _ name template place s => exact hR.declare s name template place
  | emit _ _ text s => exact hR.emit text s
  | withScope _ ih => exact hR.withScope ih
  | captured _ ih => exact hR.captured ih
  | unfetched => exact (Level.composed_enterFile _ _ _).steady hR _
  | file => exact (Level.composed_enterFile _ _ _).steady hR _
  | named => exact (Level.composed_enterNamed _).steady hR _
  | block => exact (Level.composed_callBlock (Level.isComposed_above _ _) _).steady hR _

end Steady

/-! ### Every step has a record -/

/-- The record of a sequence begins with the record of its first step, whatever that comes to. -/
theorem Records.exists_bind {setting : Setting} {ε α α' : Type} {levels : Nat} {entrance : Entrance}
    {step : ExceptT ε (StateM RenderState) α} {next : α → ExceptT ε (StateM RenderState) α'}
    {s : RenderState} {log : List Event} (h : Records setting levels entrance step s log)
    (hnext : ∀ a s', ∃ log', Records setting levels entrance (next a) s' log') :
    ∃ log', Records setting levels entrance (step >>= next) s (log ++ log') := by
  cases hrun : step.run.run s with
  | mk result s' =>
    cases result with
    | error e => exact ⟨[], by rw [List.append_nil]; exact h.stop hrun⟩
    | ok a =>
      obtain ⟨log', hlog'⟩ := hnext a s'
      exact ⟨log', h.next hrun hlog'⟩

/-- The step is put together from the operations of a render, and has a record from every state. -/
structure Recorded (setting : Setting) (levels : Nat) (entrance : Entrance) {α : Type}
    (step : RenderM α) : Prop where
  composed : Composed step
  exists_records (s : RenderState) : ∃ log, Records setting levels entrance step s log

section Recorded

variable {setting : Setting} {levels : Nat} {entrance : Entrance}

theorem Recorded.bind {α α' : Type} {step : RenderM α} {next : α → RenderM α'}
    (h : Recorded setting levels entrance step)
    (hnext : ∀ a, Recorded setting levels entrance (next a)) :
    Recorded setting levels entrance (step >>= next) where
  composed := h.composed.bind fun a => (hnext a).composed
  exists_records s := by
    obtain ⟨log, hlog⟩ := h.exists_records s
    obtain ⟨log', hlog'⟩ := hlog.exists_bind fun a => (hnext a).exists_records
    exact ⟨log ++ log', hlog'⟩

private theorem Recorded.get_bind {α : Type} {next : RenderState → RenderM α}
    (hsink : ∀ s sink, next { s with sink } = next s)
    (h : ∀ s, Recorded setting levels entrance (next s)) :
    Recorded setting levels entrance (get >>= next) where
  composed := .get_bind hsink fun s => (h s).composed
  exists_records s :=
    let ⟨log, hlog⟩ := (h s).exists_records s
    ⟨log, .get_bind hlog⟩

/-- Having a record is respected by the operations that stay within a template. -/
theorem Recorded.operations :
    InnerOperations fun {_} (_ step : RenderM _) => Recorded setting levels entrance step where
  result {_ result} _ := ⟨.result result, fun s => ⟨[], .result levels entrance result s⟩⟩
  bind := .bind
  get_bind _ := .get_bind
  assign name value := ⟨.assign name value, fun s => ⟨_, .assign levels entrance name value s⟩⟩
  declare name template place :=
    ⟨.declare name template place, fun s => ⟨_, .declare levels entrance name template place s⟩⟩
  emit text := ⟨.emit text, fun s => ⟨[], .emit levels entrance text s⟩⟩
  withScope scope _ _ h :=
    ⟨h.composed.withScope scope, fun s =>
      let ⟨log, hlog⟩ := h.exists_records (s.pushScope scope)
      ⟨log, .withScope hlog⟩⟩
  captured h :=
    ⟨h.composed.captured, fun s =>
      let ⟨log, hlog⟩ := h.exists_records { s with sink := .collector }
      ⟨log, .captured hlog⟩⟩

private theorem Recorded.congruence :
    InnerCongruence fun {_} (_ step : RenderM _) => Recorded setting levels entrance step :=
  Recorded.operations.congruence fun position directive _ _ h =>
    ⟨h.composed.adapt _, fun s =>
      let ⟨log, hlog⟩ := h.exists_records s
      ⟨log, hlog.adapt (TemplateError.annotate position directive)⟩⟩

/-- Parts of templates have records on the level below, if there is one. -/
def Level.RecordsBelow (setting : Setting) (levels : Nat) : Prop :=
  ∀ below, levels = below + 1 → ∀ entrance part,
    Recorded setting below entrance ((Level.above setting below).runPart entrance.template part)

namespace Level

variable (hbelow : RecordsBelow setting levels)

include hbelow

/-- What is done inside a template or block that is entered. -/
theorem RecordsBelow.exists_inside (inner : Entrance) (part : Part) (s : RenderState) :
    ∃ log, (levels = 0 → log = []) ∧ ∀ below, levels = below + 1 →
      Records setting below inner
        ((Level.above setting below).runPart inner.template part) s log := by
  cases levels with
  | zero => exact ⟨[], fun _ => rfl, nofun⟩
  | succ below =>
    obtain ⟨log, hlog⟩ := (hbelow below rfl inner part).exists_records s
    refine ⟨log, nofun, ?_⟩
    rintro _ ⟨⟩
    exact hlog

private theorem recorded_callBlock (id : Nat) :
    Recorded setting levels entrance ((above setting levels).callBlock id) where
  composed := composed_callBlock (isComposed_above setting levels) id
  exists_records s := by
    cases hblock : s.store.block? id with
    | some block =>
      obtain ⟨log, hlast, hinside⟩ := hbelow.exists_inside (.block id block entrance)
        (.bodyAt block.place) ({ s with scopes := [] :: block.scopes }.pushDir block.dir)
      exact ⟨log, .block hblock hlast hinside⟩
    | none =>
      refine ⟨[], .get_bind ?_⟩
      rw [hblock]
      exact .result levels entrance _ s

/-- The end of an include has a record that begins with what it leads to. -/
theorem recorded_enterFile (place : Nat) (text : String) {s : RenderState} {path : Path}
    (hpath : path = s.currentDir.join ⟨text⟩) :
    ∃ result after log, Records setting levels entrance
      ((above setting levels).enterFile entrance.template place path) s
      (.fetch ⟨entrance, place, text, path, setting.files, s.store, result, after⟩ :: log) := by
  cases hrun : ((above setting levels).fetchFile entrance.template place path).run.run s with
  | mk result s' =>
    cases result with
    | error e => exact ⟨_, _, [], .unfetched hpath hrun⟩
    | ok included =>
      obtain ⟨log, hlast, hinside⟩ := hbelow.exists_inside (.file path included entrance) .whole
        (s'.pushDir (path.parent?.getD s'.currentDir))
      exact ⟨_, _, log, .file hpath hrun hlast hinside⟩

private theorem recorded_enterNamed (included : Template) :
    Recorded setting levels entrance ((above setting levels).enterNamed included) where
  composed := composed_enterNamed included
  exists_records s := by
    obtain ⟨log, hlast, hinside⟩ := hbelow.exists_inside (.named included entrance) .whole
      (s.pushDir ((included.origin.bind Path.parent?).getD s.currentDir))
    exact ⟨log, .named hlast hinside⟩

/-- Calls of blocks have records. -/
theorem RecordsBelow.calls :
    CallsRelated (fun {_} (_ step : RenderM _) => Recorded setting levels entrance step)
      (above setting levels) (above setting levels) :=
  ⟨rfl, recorded_callBlock hbelow⟩

private theorem recorded_includeFile (place : Nat) (target : Slot) (pre : Option Slot) :
    Recorded setting levels entrance
      ((above setting levels).includeFile entrance.template place target pre) where
  composed := related_includeFile Composed.congruence (isComposed_above setting levels) _ place
    target pre
  exists_records s := by
    have hoperations : InnerOperations fun {_} (_ step : RenderM _) =>
      Recorded setting levels entrance step := Recorded.operations
    have htarget := hbelow.calls.evaluateText hoperations entrance.template target
    have hpre := hbelow.calls.evaluatePre hoperations entrance.template pre
    rw [includeFile_eq]
    obtain ⟨log, hlog⟩ := htarget.exists_records s
    cases hrun : ((above setting levels).evaluateText entrance.template target).run.run s with
    | mk result t =>
      cases result with
      | error e => exact ⟨log, hlog.stop hrun⟩
      | ok text =>
        obtain ⟨log', hlog'⟩ := hpre.exists_records t
        cases hrun' : ((above setting levels).evaluatePre entrance.template pre).run.run t with
        | mk result' u =>
          cases result' with
          | error e => exact ⟨log ++ log', hlog.next hrun (.get_bind (hlog'.stop hrun'))⟩
          | ok _ =>
            -- The expressions that are evaluated first leave the directory as it was.
            have hdirs := (hpre.composed.steady RenderState.steady_balanced t).dirs
            rw [hrun'] at hdirs
            have hpath : t.currentDir.join ⟨text⟩ = u.currentDir.join ⟨text⟩ := by
              rw [RenderState.currentDir, RenderState.currentDir, hdirs]
            obtain ⟨_, _, log'', hlog''⟩ := recorded_enterFile hbelow place text hpath
            exact ⟨_, hlog.next hrun (.get_bind (hlog'.next hrun' hlog''))⟩

private theorem recorded_includeNamed (target : Slot) (pre : Option Slot) :
    Recorded setting levels entrance
      ((above setting levels).includeNamed entrance.template target pre) := by
  have hoperations : InnerOperations fun {_} (_ step : RenderM _) =>
    Recorded setting levels entrance step := Recorded.operations
  rw [includeNamed_eq]
  refine .bind (hbelow.calls.evaluateText hoperations _ target) fun name => ?_
  refine .bind (hbelow.calls.evaluatePre hoperations _ pre) fun _ => ?_
  refine .get_bind (fun _ _ => rfl) fun s => ?_
  cases s.declared[name]? with
  | some id => exact recorded_callBlock hbelow id
  | none =>
    exact .bind (related_registered hoperations rfl name) fun included =>
      recorded_enterNamed hbelow included

/-- The includes of the template that was entered have records. -/
theorem RecordsBelow.inner :
    InnerRelated (fun {_} (_ step : RenderM _) => Recorded setting levels entrance step)
      (above setting levels) (above setting levels) entrance.template where
  toCallsRelated := hbelow.calls
  includeFile := recorded_includeFile hbelow
  includeNamed := recorded_includeNamed hbelow

omit hbelow

/-- Parts of templates have records on every level. -/
theorem recordsBelow (setting : Setting) (levels : Nat) : RecordsBelow setting levels := by
  induction levels with
  | zero => exact nofun
  | succ levels ih =>
    rintro _ ⟨⟩ entrance part
    exact (RecordsBelow.inner ih).runPart Recorded.congruence part

/-- Running a part of the template that was entered has a record, from every state. -/
theorem exists_records_runPart (setting : Setting) (levels : Nat) (entrance : Entrance)
    (part : Part) (s : RenderState) :
    ∃ log, Records setting levels entrance
      ((above setting levels).runPart entrance.template part) s log :=
  ((recordsBelow setting levels).inner.runPart Recorded.congruence part).exists_records s

/-- Running a chain of nodes of the template that was entered has a record, from every state. -/
theorem exists_records_chain (setting : Setting) (levels : Nat) (entrance : Entrance)
    (left : Nat) (place : Option Nat) (s : RenderState) :
    ∃ log, Records setting levels entrance
      ((above setting levels).chain entrance.template left place) s log :=
  ((recordsBelow setting levels).inner.chain Recorded.congruence left place).exists_records s

/-- Evaluating an expression of a template has a record, from every state. -/
theorem exists_records_evaluate (setting : Setting) (levels : Nat) (entrance : Entrance)
    (template : Template) (slot : Slot) (s : RenderState) :
    ∃ log, Records setting levels entrance
      ((above setting levels).evaluate template slot) s log :=
  ((recordsBelow setting levels).calls.evaluate Recorded.operations template slot).exists_records s

end Level

end Recorded

/-! ### Templates of one include -/

/-- The step after which nothing is noted has the record of what is done before. -/
theorem Records.bind_nil {setting : Setting} {ε α α' : Type} {levels : Nat} {entrance : Entrance}
    {step : ExceptT ε (StateM RenderState) α} {next : α → ExceptT ε (StateM RenderState) α'}
    {s : RenderState} {log : List Event} (h : Records setting levels entrance step s log)
    (hnext : ∀ a s', step.run.run s = (.ok a, s') →
      Records setting levels entrance (next a) s' []) :
    Records setting levels entrance (step >>= next) s log := by
  cases hrun : step.run.run s with
  | mk result s' =>
    cases result with
    | error e => exact h.stop hrun
    | ok a =>
      have hlog := h.next hrun (hnext a s' hrun)
      rwa [List.append_nil] at hlog

/-- The file that an include node names, if it does so by a literal and evaluates nothing before. -/
def NodeKind.included? : NodeKind → Option String
  | .action (.includeFile (.parsed _ (.literal (.string name))) none) => some name
  | _ => none

private theorem NodeKind.exists_of_included? {kind : NodeKind} {name : String}
    (h : kind.included? = some name) :
    ∃ span, kind = .action (.includeFile (.parsed span (.literal (.string name))) none) := by
  rw [included?.eq_def] at h
  split at h
  · cases h
    exact ⟨_, rfl⟩
  · cases h

/-- Nothing follows from this place on. -/
def Program.endsAt (program : Program) (place : Nat) : Bool :=
  (program.node? place).any fun node => node.kind matches .finish

/-- The file that a program names which is an include and nothing else. -/
def Program.included? (program : Program) : Option String :=
  (program.node? 0).bind fun node =>
    if node.next = some 1 ∧ program.endsAt 1 then node.kind.included? else none

namespace Level

variable {setting : Setting} {levels : Nat} {entrance : Entrance}

private theorem records_chain_of_endsAt {left place : Nat}
    (h : entrance.template.program.endsAt place = true) (s : RenderState) :
    Records setting levels entrance
      ((above setting levels).chain entrance.template (left + 1) (some place)) s [] := by
  obtain ⟨node, hnode, hkind⟩ := (Option.any_eq_true _ _).1 h
  have hfinish : node.kind = .finish := by
    cases hkind' : node.kind <;> simp [hkind'] at hkind ⊢
  have hlast : Records setting levels entrance
      ((above setting levels).chain entrance.template left none) s [] := by
    cases left <;> exact .result levels entrance (.ok ()) s
  rw [chain]
  simp only [hnode, runNode, hfinish]
  exact .next (.adapt _ (.result levels entrance (.ok none) s)) rfl hlast

/-- A template without text or directives does nothing. -/
theorem records_runPart_of_endsAt (entrance : Entrance)
    (h : entrance.template.program.endsAt 0 = true) (s : RenderState) :
    Records setting levels entrance
      ((above setting levels).runPart entrance.template .whole) s [] := by
  obtain ⟨node, hnode, -⟩ := (Option.any_eq_true _ _).1 h
  obtain ⟨hsize, -⟩ := Array.getElem?_eq_some_iff.1 hnode
  obtain ⟨left, hleft⟩ := Nat.exists_eq_add_of_lt hsize
  rw [Nat.zero_add] at hleft
  rw [runPart, hleft]
  exact records_chain_of_endsAt h s

/-- What an include node does that names its file by a literal. -/
theorem records_runNode_of_included {runBody : Option Nat → RenderM Unit} {left place : Nat}
    {node : Node} {name : String} {path : Path} {s : RenderState} {log : List Event}
    (hincluded : node.kind.included? = some name) (hpath : path = s.currentDir.join ⟨name⟩)
    (h : Records setting levels entrance
      ((above setting levels).enterFile entrance.template place path) s log) :
    Records setting levels entrance
      ((above setting levels).runNode entrance.template runBody left place node) s log := by
  subst hpath
  obtain ⟨span, hkind⟩ := NodeKind.exists_of_included? hincluded
  have htarget : Records setting levels entrance ((above setting levels).evaluateText
      entrance.template (.parsed span (.literal (.string name)))) s [] :=
    .next (.adapt _ (.result levels entrance (.ok (Value.string name)) s)) rfl
      (.result levels entrance (.ok name) s)
  have hpre : Records setting levels entrance
      ((above setting levels).evaluatePre entrance.template none) s [] :=
    .result levels entrance (.ok ()) s
  have hinclude : Records setting levels entrance
      ((above setting levels).runAction entrance.template place node.body
        (.includeFile (.parsed span (.literal (.string name))) none)) s log := by
    rw [runAction, includeFile_eq]
    exact htarget.next rfl (.get_bind (hpre.next rfl h))
  rw [runNode, hkind]
  exact hinclude.bind_nil fun _ s' _ => .result levels entrance (.ok node.next) s'

private theorem next_of_run_runNode {level : Level} {template : Template}
    {runBody : Option Nat → RenderM Unit} {left place : Nat} {node : Node} {name : String}
    (hincluded : node.kind.included? = some name) {s : RenderState} {next : Option Nat}
    (h : ((level.runNode template runBody left place node).run.run s).1 = .ok next) :
    next = node.next := by
  obtain ⟨span, hkind⟩ := NodeKind.exists_of_included? hincluded
  rw [runNode, hkind] at h
  obtain ⟨_, _, -, hlast⟩ := exists_of_run_bind (Prod.ext h rfl)
  exact (Except.ok.inj (Prod.mk.inj hlast).1).symm

/-- A template that is an include and nothing else does what the include does. -/
theorem records_runPart_of_included (entrance : Entrance) {name : String} {path : Path}
    {s : RenderState} {log : List Event}
    (hincluded : entrance.template.program.included? = some name)
    (hpath : path = s.currentDir.join ⟨name⟩)
    (h : Records setting levels entrance
      ((above setting levels).enterFile entrance.template 0 path) s log) :
    Records setting levels entrance
      ((above setting levels).runPart entrance.template .whole) s log := by
  obtain ⟨node, hnode, hincluded⟩ := Option.bind_eq_some_iff.1 hincluded
  split_ifs at hincluded with hends
  obtain ⟨hnext, hends⟩ := hends
  obtain ⟨last, hlast, -⟩ := (Option.any_eq_true _ _).1 hends
  obtain ⟨hsize, -⟩ := Array.getElem?_eq_some_iff.1 hlast
  obtain ⟨left, hleft⟩ := Nat.exists_eq_add_of_lt hsize
  have hcount : entrance.template.program.nodes.size = left + 1 + 1 := by omega
  rw [runPart, hcount]
  change Records setting levels entrance
    ((above setting levels).chain entrance.template (left + 1 + 1) (some 0)) s log
  rw [chain]
  simp only [hnode]
  refine Records.bind_nil (.adapt _ (records_runNode_of_included hincluded hpath h))
    fun next s' hrun => ?_
  rw [located, run_adapt] at hrun
  rw [next_of_run_runNode hincluded (Attempt.mapError_eq_ok_iff.1 (Prod.mk.inj hrun).1), hnext]
  exact records_chain_of_endsAt hends s'

end Level

end TextTemplate
