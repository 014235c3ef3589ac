import TextTemplate.Render.Renderer

/-!
# A render without bounds

Nothing in the steps below says that a render ever ends. A chain of nodes goes on as long as there
is a next node, the branches of a block as long as there is another one, and a loop as long as one
of its sources has an item left; includes and block calls run further chains, whatever template or
file they lead to. Only the includes and calls that are active are counted, and one that would be
too many fails.

What such a render does is the limit of what it does with ever more tasks within one another: a
render that ends has the same result from some number of tasks on, and one that does not end has
none, however many there may be.

## Main definitions

* `Machine` — a state with the number of active includes and calls.
* `Step` — a step that may not end.
* `Task` — what is run again and again; `Task.step` says what it does, given what the tasks do that
  it runs, and `Task.run` what it does with so many tasks within one another.
* `Template.renderWithin`, `Template.evaluateWithin` — what a template does with so many of them.
-/

namespace TextTemplate

/-- The state of a render with the includes and block calls that are active, and the most that have
been active at a time. -/
structure Machine where
  state : RenderState
  active : Nat
  peak : Nat

/-- What goes on from a machine until it has a result, if it ever has one. -/
abbrev Ongoing := StateT Machine Option

/-- A step of a render that may not end. -/
abbrev Step := ExceptT TemplateError Ongoing

namespace Step

variable {ε α σ : Type}

/-- Does what a step of a render does that runs no other part of a template. -/
def plain (step : ExceptT ε (StateM RenderState) α) : ExceptT ε Ongoing α :=
  ExceptT.mk do
    let machine ← get
    let (result, state) := step.run.run machine.state
    set { machine with state }
    return result

/-- Changes the machine before a step, and changes it again after the step, whether it failed or
not. -/
def between (enter : Machine → σ × Machine) (leave : σ → Machine → Machine) (step : Step α) :
    Step α :=
  ExceptT.mk do
    let (kept, inside) := enter (← get)
    set inside
    let result ← step.run
    modify (leave kept)
    return result

/-- Changes the state before a step and after it. -/
def within (enter : RenderState → σ × RenderState) (leave : σ → RenderState → RenderState) :
    Step α → Step α :=
  between
    (fun before => ((enter before.state).1, { before with state := (enter before.state).2 }))
    (fun kept after => { after with state := leave kept after.state })

/-- A step in a new scope with these variables. -/
def withScope (scope : Scope) : Step α → Step α :=
  within (fun before => ((), before.pushScope scope)) (fun _ after => after.popScope)

/-- A step whose includes are joined to this directory. -/
def withDir (dir : Path) : Step α → Step α :=
  within (fun before => ((), before.pushDir dir)) (fun _ after => after.popDir)

/-- A step in other scopes, after which the scopes are what they were. -/
def withScopes (scopes : List Scope) : Step α → Step α :=
  within (fun before => (before.scopes, { before with scopes }))
    (fun scopes after => { after with scopes })

/-- What a step writes, instead of writing it. -/
def captured (step : Step Unit) : Step String :=
  within (fun before => (before.sink, { before with sink := .collector }))
    (fun sink after => { after with sink })
    (do
      step
      return (← get).state.sink.collected)

/-- Counts an include or a call for as long as it is active. -/
def counted : Step α → Step α :=
  between
    (fun before => ((), { before with
      active := before.active + 1
      peak := max before.peak (before.active + 1) }))
    (fun _ after => { after with active := after.active - 1 })

/-- Gives a failure of the step the place and name of a directive or text. -/
def located (template : Template) (offset : Nat) (name : String) (step : Step α) : Step α :=
  ExceptT.adapt (fun e => e.annotate (Position.locate template.source offset) name) step

end Step

/-- Whether one of the sources of a loop has an item left in a round. -/
def LoopSource.goesOn (sources : List (String × LoopSource)) (round : Nat) : Bool :=
  sources.any fun (_, source) => round < source.size

/-- A source has an item left in the rounds of the loop, and in no others. -/
theorem LoopSource.goesOn_iff {sources : List (String × LoopSource)} {round : Nat} :
    goesOn sources round = true ↔ round < rounds sources := by
  have hmost (most : Nat) :
      round < sources.foldl (fun most (_, source) => max most source.size) most ↔
        round < most ∨ goesOn sources round = true := by
    induction sources generalizing most with
    | nil => simp [goesOn]
    | cons source sources ih =>
      have hmax : round < max most source.2.size ↔ round < most ∨ round < source.2.size := by omega
      rw [List.foldl_cons, ih, hmax, or_assoc]
      simp only [goesOn, List.any_cons, Bool.or_eq_true, decide_eq_true_eq]
  rw [rounds, hmost]
  simp only [Nat.not_lt_zero, false_or]

/-- What is run again and again. -/
inductive Task where
  /-- The chain of nodes that starts at a place. -/
  | chain (template : Template) (place : Option Nat)
  /-- The branches of a block, from that at a place on. -/
  | branches (template : Template) (place : Option Nat)
  /-- The rounds of a loop, from a given one on. -/
  | rounds (template : Template) (sources : List (String × LoopSource)) (separator : Option Slot)
      (nested : Option Nat) (round : Nat)
  /-- A body that is repeated a number of times, from a given round on. -/
  | repeated (template : Template) (nested : Option Nat) (between : String) (count round : Nat)

namespace Task

section Steps

variable (setting : Setting) (run : Task → Step Unit)

/-- Runs a part of a template as an include or a block call, unless as many are active as may be. -/
def enter (template : Template) (part : Part) (dir : Path) : Step Unit := do
  if (← get).active < setting.limit then
    Step.counted (Step.withDir dir (run (.chain template (template.program.start? part))))
  else
    throw (RenderFault.recursionLimit setting.limit).toError

/-- Renders a declared block in the scopes in which it was declared. -/
def callBlock (id : Nat) : Step Unit := do
  match (← get).state.store.block? id with
  | none => throw (EvalError.notCallable "block").toTemplateError
  | some block =>
    Step.withScopes ([] :: block.scopes)
      (enter setting run block.template (.bodyAt block.place) block.dir)

/-- Calls a value: a block without arguments gives the text that it renders to. -/
def call (callee : Value) (args : List Value) : ExceptT EvalError Ongoing Value := do
  match callee with
  | .block id name =>
    if args.isEmpty then
      return .string (← ExceptT.adapt EvalError.nested (Step.captured (callBlock setting run id)))
    else
      throw (.arity name 0 args.length)
  | value => throw (.notCallable value.typeName)

/-- The environment of the expressions of a render. -/
def environment : Environment Ongoing where
  lookup name := return (← get).state.lookup setting name
  assign name value := modify fun machine =>
    { machine with state := machine.state.assign name value }
  call callee args := (call setting run callee args).run

/-- The value of an expression of a template. -/
def evaluate (template : Template) (slot : Slot) : Step Value :=
  ExceptT.adapt EvalError.toTemplateError (slot.eval (environment setting run) template.source)

/-- The text of the value of an expression. -/
def evaluateText (template : Template) (slot : Slot) : Step String :=
  return (← evaluate setting run template slot).display

/-- The value of an expression that is given as a text. -/
def evaluateContents (contents : String) : Step Value :=
  ExceptT.adapt EvalError.toTemplateError
    (TextTemplate.evaluateText (environment setting run) contents)

/-- Evaluates an expression, if there is one, for what it does. -/
def evaluatePre (template : Template) (pre : Option Slot) : Step Unit := do
  match pre with
  | none => return
  | some slot =>
    let _ ← evaluate setting run template slot

/-- Renders the file that an expression names, as seen from the current directory. -/
def includeFile (template : Template) (place : Nat) (target : Slot) (pre : Option Slot) :
    Step Unit := do
  let text ← evaluateText setting run template target
  let path := (← get).state.currentDir.join ⟨text⟩
  evaluatePre setting run template pre
  let included ← Step.plain ((Level.mk setting none).fetchFile template place path)
  let dir := path.parent?.getD (← get).state.currentDir
  enter setting run included .whole dir

/-- Renders the block declared under a name in this render, or else the template registered under
it. -/
def includeNamed (template : Template) (target : Slot) (pre : Option Slot) : Step Unit := do
  let name ← evaluateText setting run template target
  evaluatePre setting run template pre
  match (← get).state.declared[name]? with
  | some id => callBlock setting run id
  | none =>
    let included ← Step.plain ((Level.mk setting none).registered name)
    let dir := (included.origin.bind Path.parent?).getD (← get).state.currentDir
    enter setting run included .whole dir

/-- The sources of a loop, evaluated in order. -/
def loopSources (template : Template) : List LoopBinding → Step (List (String × LoopSource))
  | [] => return []
  | binding :: bindings => do
    let value ← evaluate setting run template binding.source
    match LoopSource.ofValue value with
    | .error fault => throw fault.toError
    | .ok source => return (binding.name, source) :: (← loopSources template bindings)

/-- A custom directive. -/
def custom (template : Template) (nested : Option Nat) (contents : String)
    (ending : Option String) : Custom → Step Unit
  | .repeated count => run (.repeated template nested (ending.getD "") count.toInt.toNat 0)
  | .wrap => do
    Step.plain (RenderM.emit "[")
    Step.plain (RenderM.emit contents)
    Step.plain (RenderM.emit "|")
    run (.chain template nested)
    Step.plain (RenderM.emit ("|" ++ ending.getD "" ++ "]"))
  | .guarded => do
    if (← evaluateContents setting run contents).isTruthy then
      run (.chain template nested)
  | .shout => do
    let value ← evaluateContents setting run contents
    Step.plain (RenderM.emit (Level.capitals value.display))
  | .peek => do
    match (← get).state.lookup setting (trim contents) with
    | none => Step.plain (RenderM.emit "?")
    | some value => Step.plain (RenderM.emit (value.typeName ++ ":" ++ value.display))
  | .term => Step.plain (RenderM.emit (if ending.isNone then "none" else "some"))
  | .fail => do
    Step.plain (RenderM.emit "<fail>")
    throw (RenderFault.custom CustomKind.fail.name contents).toError

/-- A directive that stands alone, with its place among the nodes and the span of its body. -/
def action (template : Template) (place : Nat) (body : Span) : Action → Step Unit
  | .expression value | .eval value => do
    Step.plain (RenderM.emit (← evaluateText setting run template value))
  | .code value => do
    let _ ← evaluate setting run template value
  | .includeFile target pre => includeFile setting run template place target pre
  | .includeNamed target pre => includeNamed setting run template target pre
  | .comment => return
  | .custom directive =>
    custom setting run template none (body.slice template.source) none directive

/-- The block whose node stands at a place. -/
def block (template : Template) (place : Nat) (body : Span) (nested terminus : Option Nat) :
    Opener → Step Unit
  | .conditional _ => run (.branches template (some place))
  | .loop bindings separator => do
    let sources ← loopSources setting run template bindings
    run (.rounds template sources separator nested 0)
  | .declare name => do
    let name ← evaluateText setting run template name
    modify fun machine => { machine with state := machine.state.declare name template place }
  | .custom directive =>
    custom setting run template nested (body.slice template.source)
      (Level.endingOf template terminus) directive

/-- The node at a place. The result is the node that follows. -/
def node (template : Template) (place : Nat) (node : Node) : Step (Option Nat) := do
  match node.kind with
  | .text spans =>
    Step.plain (Level.writeText template spans)
    return node.next
  | .action a =>
    action setting run template place node.body a
    return node.next
  | .block opener nested _ terminus =>
    block setting run template place node.body nested terminus opener
    return (terminus.bind template.program.node?).bind Node.next
  | .terminal | .finish => return none

/-- Whether the branch that a directive opens is taken. -/
def isTaken (template : Template) (offset : Nat) (name : String) (condition : Option Slot) :
    Step Bool :=
  match condition with
  | none => return true
  | some slot =>
    Step.located template offset name do
      return (← evaluate setting run template slot).isTruthy

/-- What a task does, given what the tasks do that it runs. -/
def step : Task → Step Unit
  | .chain _ none => return
  | .chain template (some place) => do
    match template.program.node? place with
    | none => return
    | some node =>
      let next ← Step.located template node.span.start node.name
        (Task.node setting run template place node)
      run (.chain template next)
  | .branches _ none => return
  | .branches template (some place) => do
    match template.program.node? place with
    | some node =>
      match node.kind with
      | .block (.conditional condition) nested alternative _ => do
        if ← isTaken setting run template node.span.start node.name condition then
          run (.chain template nested)
        else
          run (.branches template alternative)
      | _ => return
    | none => return
  | .rounds template sources separator nested round => do
    if LoopSource.goesOn sources round then
      Step.withScope (LoopSource.scope sources round) (run (.chain template nested))
      if LoopSource.goesOn sources (round + 1) then
        match separator with
        | none => pure ()
        | some slot => Step.plain (RenderM.emit (← evaluateText setting run template slot))
      run (.rounds template sources separator nested (round + 1))
  | .repeated template nested between count round => do
    if round < count then
      if round ≠ 0 then
        Step.plain (RenderM.emit between)
      Step.withScope [("index", .int (Int64.ofInt round))] (run (.chain template nested))
      run (.repeated template nested between count (round + 1))

end Steps

/-- What a task does if no more than so many tasks run within one another. If it takes more, it has
no result. -/
def run (setting : Setting) : Nat → Task → Step Unit
  | 0, _ => ExceptT.mk fun _ => none
  | calls + 1, task => step setting (run setting calls) task

end Task

namespace Template

variable (template : Template) (options : RenderOptions) (files : FileTree) (store : Store)

/-- Renders a template into a sink with no more than so many tasks within one another. If it takes
more, there is no result. -/
def renderWithin (sink : Sink) (calls : Nat) : Option (Except TemplateError Unit × Machine) :=
  let task := Task.chain template (template.program.start? .whole)
  (Task.run (options.setting files) calls task).run.run
    ⟨options.initial template store sink, 0, 0⟩

/-- Evaluates a template with no more than so many tasks within one another. -/
def evaluateWithin : Nat → Option (Except TemplateError Value × Machine) :=
  match template.program.pureExpression? with
  | some (node, value) => fun calls =>
    let setting := options.setting files
    let step := Task.evaluate setting (Task.run setting calls) template value
    (Step.located template node.span.start node.name step).run.run
      ⟨options.initial template store .collector, 0, 0⟩
  | none => fun calls =>
    (template.renderWithin options files store .collector calls).map fun (result, machine) =>
      (result.map fun _ => .string machine.state.sink.collected, machine)

end Template

end TextTemplate
