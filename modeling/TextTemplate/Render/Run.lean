import TextTemplate.Render.Loop

/-!
# Running a template

A template is run node by node along its links, until a terminal node or the end. A failure is
given the place and name of the node that was being run, unless a node inside it has given its own.

Includes and calls of declared blocks run another chain of nodes one level deeper, and only so many
levels are allowed. A step is therefore written over what runs the next level, which is absent on
the last one (`Level`), and `Level.above` is defined by recursion on the levels that are left.
Within a level, links lead forward, so that no more nodes can follow than the template has;
`Level.chain` counts them down.

## Main definitions

* `Level` — what a step needs to know: the setting and the next level.
* `Level.enter`, `Level.callBlock`, `Level.includeFile`, `Level.includeNamed` — steps into the next
  level.
* `Level.runAction`, `Level.runLoop`, `Level.runCustom`, `Level.runNode` — the steps of the nodes.
* `Level.chain`, `Level.runPart` — a chain of nodes.
* `Level.above` — the levels of a render.
-/

namespace TextTemplate

/-- A runner of the parts of templates. -/
abbrev Runner := Template → Part → RenderM Unit

/-- What a step needs to know: the setting of the render, and what runs templates and blocks one
level deeper, if another level is allowed. -/
structure Level where
  setting : Setting
  deeper : Option Runner

namespace Level

variable (level : Level)

open RenderM

/-- Runs a part of a template one level deeper, with includes joined to the given directory. -/
def enter (template : Template) (part : Part) (dir : Path) : RenderM Unit :=
  match level.deeper with
  | none => fail (.recursionLimit level.setting.limit)
  | some runner => withDir dir (runner template part)

/-- Renders a declared block in the scopes in which it was declared. -/
def callBlock (id : Nat) : RenderM Unit := do
  match (← get).store.block? id with
  | none => throw (EvalError.notCallable "block").toTemplateError
  | some block =>
    withScopes ([] :: block.scopes)
      (level.enter block.template (.bodyAt block.place) block.dir)

/-- Calls a value: a block without arguments gives the text that it renders to. -/
def call (callee : Value) (args : List Value) : StateM RenderState (Except EvalError Value) := do
  match callee with
  | .block id name =>
    if args.isEmpty then
      return match ← (captured (level.callBlock id)).run with
        | .ok text => .ok (.string text)
        | .error e => .error (.nested e)
    else
      return .error (.arity name 0 args.length)
  | value => return .error (.notCallable value.typeName)

/-- The environment of the expressions of a render. -/
def environment : Environment (StateM RenderState) where
  lookup name := return (← get).lookup level.setting name
  assign name value := modify fun state => state.assign name value
  call := level.call

/-- The value of an expression of a template. -/
def evaluate (template : Template) (slot : Slot) : RenderM Value :=
  ofEval (slot.eval level.environment template.source)

/-- The text of the value of an expression. -/
def evaluateText (template : Template) (slot : Slot) : RenderM String :=
  return (← level.evaluate template slot).display

/-- Evaluates an expression, if there is one, for what it does. -/
def evaluatePre (template : Template) (pre : Option Slot) : RenderM Unit := do
  match pre with
  | none => return
  | some slot => discard (level.evaluate template slot)

/-- Gives a failure of the step the place and name of the directive or text at an offset of the
source. -/
def located {α : Type} (template : Template) (offset : Nat) (name : String) (step : RenderM α) :
    RenderM α :=
  ExceptT.adapt (fun e => e.annotate (Position.locate template.source offset) name) step

/-! ### Includes -/

/-- Reads and compiles the file that an include leads to, and counts it for the template. -/
def compileFile (template : Template) (path : Path) : RenderM Template := do
  match level.setting.files.read path with
  | .error .notFound => fail (.includeNotFound path)
  | .error e => fail (.includeUnreadable path e.message)
  | .ok source =>
    modify fun state => { state with store := state.store.countCompilation template }
    let state ← get
    match state.store.compile template.compiler source (some path) with
    | .error e => throw (.compile e)
    | .ok (included, store) =>
      set { state with store }
      return included

/-- The template that an include node leads to. In compiled mode it is remembered for as long as
the file does not change. -/
def fetchFile (template : Template) (place : Nat) (path : Path) : RenderM Template := do
  match template.compiler.mode with
  | .interpreted => level.compileFile template path
  | .compiled =>
    let modified := level.setting.files.modified? path
    match (← get).store.cached? template place path modified with
    | some included => return included
    | none =>
      let included ← level.compileFile template path
      modify fun state =>
        { state with store := state.store.remember template place ⟨path, modified, included⟩ }
      return included

/-- Renders the file that an expression names, as seen from the current directory. -/
def includeFile (template : Template) (place : Nat) (target : Slot) (pre : Option Slot) :
    RenderM Unit := do
  let text ← level.evaluateText template target
  let path := (← get).currentDir.join ⟨text⟩
  level.evaluatePre template pre
  let included ← level.fetchFile template place path
  let dir := path.parent?.getD (← get).currentDir
  level.enter included .whole dir

/-- The template registered under a name. -/
def registered (name : String) : RenderM Template :=
  match level.setting.registry with
  | none => fail (.missingRegistry name)
  | some registry =>
    match registry.find? name with
    | none => fail (.templateNotFound name)
    | some included => return included

/-- Renders the block declared under a name in this render, or else the template registered under
it. -/
def includeNamed (template : Template) (target : Slot) (pre : Option Slot) : RenderM Unit := do
  let name ← level.evaluateText template target
  level.evaluatePre template pre
  match (← get).declared[name]? with
  | some id => level.callBlock id
  | none =>
    let included ← level.registered name
    let dir := (included.origin.bind Path.parent?).getD (← get).currentDir
    level.enter included .whole dir

/-! ### Nodes -/

/-- Writes the spans of a text one by one. -/
def writeText (template : Template) : List Span → RenderM Unit
  | [] => return
  | span :: spans => do
    emit (span.slice template.source)
    writeText template spans

/-- The sources of a loop, evaluated in order. -/
def loopSources (template : Template) :
    List LoopBinding → RenderM (List (String × LoopSource))
  | [] => return []
  | binding :: bindings => do
    let value ← level.evaluate template binding.source
    match LoopSource.ofValue value with
    | .error fault => fail fault
    | .ok source => return (binding.name, source) :: (← loopSources template bindings)

/-- The rounds of a loop from a given one on, with the separator between them. -/
def runRounds (template : Template) (sources : List (String × LoopSource))
    (separator : Option Slot) (body : RenderM Unit) : Nat → Nat → RenderM Unit
  | _, 0 => return
  | round, left + 1 => do
    withScope (LoopSource.scope sources round) body
    if left ≠ 0 then
      match separator with
      | none => pure ()
      | some slot => emit (← level.evaluateText template slot)
    runRounds template sources separator body (round + 1) left

/-- A loop. -/
def runLoop (template : Template) (bindings : List LoopBinding) (separator : Option Slot)
    (body : RenderM Unit) : RenderM Unit := do
  let sources ← level.loopSources template bindings
  level.runRounds template sources separator body 0 (LoopSource.rounds sources)

/-- Renders a body a number of times, with the number of the round in scope and a text between the
rounds. -/
def runRepeated (between : String) (body : RenderM Unit) : Nat → Nat → RenderM Unit
  | _, 0 => return
  | round, left + 1 => do
    if round ≠ 0 then
      emit between
    withScope [("index", .int (Int64.ofInt round))] body
    runRepeated between body (round + 1) left

/-- The letters of a text as ASCII capitals. -/
def capitals (s : String) : String :=
  s.map Char.toUpper

/-- A custom directive. `contents` is the body of the directive, `ending` the body of the `@end` of
its block, if it opens one. -/
def runCustom (custom : Custom) (contents : String) (ending : Option String)
    (body : RenderM Unit) : RenderM Unit := do
  match custom with
  | .repeated count => runRepeated (ending.getD "") body 0 count.toInt.toNat
  | .wrap =>
    emit "["
    emit contents
    emit "|"
    body
    emit ("|" ++ ending.getD "" ++ "]")
  | .guarded =>
    let value ← ofEval (TextTemplate.evaluateText level.environment contents)
    if value.isTruthy then
      body
  | .shout =>
    let value ← ofEval (TextTemplate.evaluateText level.environment contents)
    emit (capitals value.display)
  | .peek =>
    match (← get).lookup level.setting (trim contents) with
    | none => emit "?"
    | some value => emit (value.typeName ++ ":" ++ value.display)
  | .term => emit (if ending.isNone then "none" else "some")
  | .fail =>
    emit "<fail>"
    RenderM.fail (.custom CustomKind.fail.name contents)

/-- A directive that stands alone, with its place among the nodes and the span of its body. -/
def runAction (template : Template) (place : Nat) (body : Span) : Action → RenderM Unit
  | .expression value | .eval value => do
    emit (← level.evaluateText template value)
  | .code value => discard (level.evaluate template value)
  | .includeFile target pre => level.includeFile template place target pre
  | .includeNamed target pre => level.includeNamed template target pre
  | .comment => return
  | .custom custom =>
    level.runCustom custom (body.slice template.source) none (pure ())

/-- Declares the block whose node stands at a place under the name that an expression gives. -/
def runDeclare (template : Template) (name : Slot) (place : Nat) : RenderM Unit := do
  let name ← level.evaluateText template name
  modify fun state => state.declare name template place

/-- Whether the branch that a directive opens is taken. Its condition is evaluated under the place
and name of the directive; a branch without a condition is taken. -/
def isTaken (template : Template) (offset : Nat) (name : String) (condition : Option Slot) :
    RenderM Bool :=
  match condition with
  | none => return true
  | some slot =>
    located template offset name do
      return (← level.evaluate template slot).isTruthy

/-- Runs the body of the first branch whose condition is true, from the branch at a place on. -/
def runBranches (template : Template) (runBody : Option Nat → RenderM Unit) :
    Nat → Option Nat → RenderM Unit
  | _, none => return
  | 0, some _ => return
  | left + 1, some place => do
    match template.program.node? place with
    | some node =>
      match node.kind with
      | .block (.conditional condition) nested alternative _ => do
        if ← level.isTaken template node.span.start node.name condition then
          runBody nested
        else
          runBranches template runBody left alternative
      | _ => return
    | none => return

/-- The body of the directive that ends a block. -/
def endingOf (template : Template) (terminus : Option Nat) : Option String :=
  (terminus.bind template.program.node?).map fun node => node.body.slice template.source

/-- Runs the node at a place; `runBody` runs the chain at the start of its body, and at most `left`
more nodes can be reached. The result is the node that follows. -/
def runNode (template : Template) (runBody : Option Nat → RenderM Unit) (left place : Nat)
    (node : Node) : RenderM (Option Nat) := do
  match node.kind with
  | .text spans =>
    writeText template spans
    return node.next
  | .action action =>
    level.runAction template place node.body action
    return node.next
  | .block opener nested _ terminus =>
    match opener with
    | .conditional _ => level.runBranches template runBody (left + 1) (some place)
    | .loop bindings separator => level.runLoop template bindings separator (runBody nested)
    | .declare name => level.runDeclare template name place
    | .custom custom =>
      level.runCustom custom (node.body.slice template.source) (endingOf template terminus)
        (runBody nested)
    return (terminus.bind template.program.node?).bind Node.next
  | .terminal | .finish => return none

/-- Runs the chain of nodes that starts at a place, of which at most so many can be reached. -/
def chain (template : Template) : Nat → Option Nat → RenderM Unit
  | _, none => return
  | 0, some _ => return
  | left + 1, some place => do
    match template.program.node? place with
    | none => return
    | some node =>
      let next ←
        located template node.span.start node.name
          (level.runNode template (chain template left) left place node)
      chain template left next

/-- Runs a part of a template. -/
def runPart : Runner := fun template part =>
  level.chain template template.program.nodes.size (template.program.start? part)

/-- The level below which so many more levels are allowed. -/
def above (setting : Setting) : Nat → Level
  | 0 => ⟨setting, none⟩
  | levels + 1 =>
    ⟨setting, some fun template part => (above setting levels).runPart template part⟩

end Level

end TextTemplate
