import TextTemplate.Proofs.Ending.Ends
import TextTemplate.Proofs.Structure.WellLinked

/-!
# The steps of a level end

On a level below which so many more levels are allowed, every step of a render is what a step
without bounds ends with. Three things come to an end there: the expression, which is evaluated part
by part; the chain of nodes, whose links lead forward, so that a chain that has come to a place has
no more nodes ahead of it than stand behind that place; and the rounds of a loop, which grow towards
the size of its longest source. Includes and block calls lead to the next level, where fewer are
left.

## Main definitions

* `Level.EndsBelow` — what the next level runs ends.

## Main results

* `Level.ends_evaluate`, `Level.ends_runAction`, `Level.ends_runNode` — the steps of expressions, of
  directives and of nodes.
* `Level.ends_chain` — a chain of nodes.
-/

namespace TextTemplate

/-- A level of the setting with so many more levels below it, where what the next level runs ends.
There is no next level where no more includes and calls are allowed. -/
inductive Level.EndsBelow (setting : Setting) : Nat → Level → Prop
  | last : EndsBelow setting 0 ⟨setting, none⟩
  | deeper {levels : Nat} {runner : Runner}
      (h : ∀ template part, Ends setting.limit levels
        (fun n => Task.run setting n (.chain template (template.program.start? part)))
        (runner template part)) :
      EndsBelow setting (levels + 1) ⟨setting, some runner⟩

namespace Level

variable {setting : Setting} {levels : Nat} {level : Level}

private theorem EndsBelow.setting_eq (h : level.EndsBelow setting levels) :
    level.setting = setting := by
  cases h <;> rfl

/-! ### Includes and calls -/

/-- A level is left where, and only where, not as many includes and calls are active as may be. -/
theorem ends_enter (h : level.EndsBelow setting levels) (template : Template) (part : Part)
    (dir : Path) :
    Ends setting.limit levels
      (fun n => Task.enter setting (Task.run setting n) template part dir)
      (level.enter template part dir) := by
  refine .of_get fun machine hactive => ?_
  cases h with
  | last =>
    have hfull : ¬machine.active < setting.limit := by omega
    simp only [hfull, ↓reduceIte]
    exact .throw _
  | deeper h =>
    have hroom : machine.active < setting.limit := by omega
    simp only [hroom, ↓reduceIte]
    exact ((h template part).withDir dir).counted

theorem ends_callBlock (h : level.EndsBelow setting levels) (id : Nat) :
    Ends setting.limit levels (fun n => Task.callBlock setting (Task.run setting n) id)
      (level.callBlock id) := by
  refine .get_bind fun machine => ?_
  cases machine.state.store.block? id with
  | none => exact .throw _
  | some block => exact (ends_enter h _ _ _).withScopes _

theorem ends_call (h : level.EndsBelow setting levels) (callee : Value) (args : List Value) :
    Ends setting.limit levels (fun n => Task.call setting (Task.run setting n) callee args)
      (ExceptT.mk (level.call callee args)) := by
  cases callee with
  | block id name =>
    cases args with
    | nil =>
      rw [mk_call_block]
      exact ((ends_callBlock h id).captured.adapt _).map _
    | cons arg args => exact .throw _
  | _ => exact .throw _

/-! ### Expressions -/

theorem ends_environment (h : level.EndsBelow setting levels) :
    Environment.Corresponds (Ends setting.limit levels)
      (fun n => Task.environment setting (Task.run setting n)) level.environment where
  result _ := .result _
  bind := .bind
  lookup name := by
    rw [environment, h.setting_eq]
    exact .immediate fun _ => rfl
  assign name value := .immediate fun _ => rfl
  call := ends_call h

theorem ends_evaluate (h : level.EndsBelow setting levels) (template : Template) (slot : Slot) :
    Ends setting.limit levels
      (fun n => Task.evaluate setting (Task.run setting n) template slot)
      (level.evaluate template slot) := by
  refine .adapt ?_ _
  cases slot with
  | parsed span e => exact Expr.corresponds_eval (ends_environment h) e
  | raw span => exact .adapt (corresponds_evaluateText (ends_environment h) (.result _)) _

private theorem ends_evaluateText (h : level.EndsBelow setting levels) (template : Template)
    (slot : Slot) :
    Ends setting.limit levels
      (fun n => Task.evaluateText setting (Task.run setting n) template slot)
      (level.evaluateText template slot) :=
  (ends_evaluate h template slot).map Value.display

theorem ends_evaluateContents (h : level.EndsBelow setting levels) (contents : String) :
    Ends setting.limit levels
      (fun n => Task.evaluateContents setting (Task.run setting n) contents)
      (RenderM.ofEval (TextTemplate.evaluateText level.environment contents)) :=
  .adapt (corresponds_evaluateText (ends_environment h) (.result _)) _

private theorem ends_evaluatePre (h : level.EndsBelow setting levels) (template : Template)
    (pre : Option Slot) :
    Ends setting.limit levels
      (fun n => Task.evaluatePre setting (Task.run setting n) template pre)
      (level.evaluatePre template pre) := by
  cases pre with
  | none => exact .pure ()
  | some slot => exact (ends_evaluate h template slot).discard

/-! ### Directives -/

theorem ends_includeFile (h : level.EndsBelow setting levels) (template : Template) (place : Nat)
    (target : Slot) (pre : Option Slot) :
    Ends setting.limit levels
      (fun n => Task.includeFile setting (Task.run setting n) template place target pre)
      (level.includeFile template place target pre) := by
  refine (ends_evaluateText h template target).bind fun text => .get_bind fun machine => ?_
  refine (ends_evaluatePre h template pre).bind fun _ => ?_
  have hfetch : level.fetchFile template place (machine.state.currentDir.join ⟨text⟩) =
      (Level.mk setting none).fetchFile template place (machine.state.currentDir.join ⟨text⟩) := by
    cases h <;> rfl
  rw [hfetch]
  refine (Ends.plain _).bind fun included => .get_bind fun machine => ?_
  exact ends_enter h included .whole _

theorem ends_includeNamed (h : level.EndsBelow setting levels) (template : Template)
    (target : Slot) (pre : Option Slot) :
    Ends setting.limit levels
      (fun n => Task.includeNamed setting (Task.run setting n) template target pre)
      (level.includeNamed template target pre) := by
  refine (ends_evaluateText h template target).bind fun name => ?_
  refine (ends_evaluatePre h template pre).bind fun _ => .get_bind fun machine => ?_
  cases machine.state.declared[name]? with
  | some id => exact ends_callBlock h id
  | none =>
    have hregistered : level.registered name = (Level.mk setting none).registered name := by
      cases h <;> rfl
    rw [hregistered]
    refine (Ends.plain _).bind fun included => .get_bind fun machine => ?_
    exact ends_enter h included .whole _

/-! ### Loops -/

private theorem ends_loopSources (h : level.EndsBelow setting levels) (template : Template)
    (bindings : List LoopBinding) :
    Ends setting.limit levels
      (fun n => Task.loopSources setting (Task.run setting n) template bindings)
      (level.loopSources template bindings) := by
  induction bindings with
  | nil => exact .pure []
  | cons binding bindings ih =>
    refine (ends_evaluate h template binding.source).bind fun value => ?_
    cases LoopSource.ofValue value with
    | error fault => exact .throw _
    | ok source => exact ih.map _

section Bodies

variable {template : Template} {nested : Option Nat} {body : RenderM Unit}

/-- The rounds of a loop end when no source has an item left. -/
theorem ends_runRounds (h : level.EndsBelow setting levels)
    (hbody : Ends setting.limit levels (fun n => Task.run setting n (.chain template nested)) body)
    (sources : List (String × LoopSource)) (separator : Option Slot) {round left : Nat}
    (hleft : round + left = LoopSource.rounds sources) :
    Ends setting.limit levels
      (fun n => Task.run setting n (.rounds template sources separator nested round))
      (level.runRounds template sources separator body round left) := by
  induction left generalizing round with
  | zero =>
    have hlast : ¬LoopSource.goesOn sources round = true := by
      rw [LoopSource.goesOn_iff]
      omega
    refine .of_step ?_
    simp only [Task.step, hlast]
    exact .pure ()
  | succ left ih =>
    have hgoes : LoopSource.goesOn sources round = true := LoopSource.goesOn_iff.2 (by omega)
    have hrest := @ih (round + 1) (by omega)
    refine .of_step ?_
    simp only [Task.step, hgoes, ↓reduceIte]
    rw [runRounds]
    refine (hbody.withScope _).bind fun _ => ?_
    by_cases hlast : left = 0
    · have hends : ¬LoopSource.goesOn sources (round + 1) = true := by
        rw [LoopSource.goesOn_iff]
        omega
      rw [if_neg (not_not_intro hlast)]
      simp only [hends]
      exact hrest
    · have hgoes : LoopSource.goesOn sources (round + 1) = true :=
        LoopSource.goesOn_iff.2 (by omega)
      rw [if_pos hlast]
      simp only [hgoes, ↓reduceIte]
      cases separator with
      | none => exact hrest
      | some slot =>
        refine (ends_evaluateText h template slot).bind fun text => ?_
        exact (Ends.plain _).bind fun _ => hrest

/-- The rounds of a body end when it has been repeated as often as it should be. -/
theorem ends_runRepeated
    (hbody : Ends setting.limit levels (fun n => Task.run setting n (.chain template nested)) body)
    (between : String) {count round left : Nat} (hleft : round + left = count) :
    Ends setting.limit levels
      (fun n => Task.run setting n (.repeated template nested between count round))
      (runRepeated between body round left) := by
  induction left generalizing round with
  | zero =>
    have hlast : ¬round < count := by omega
    refine .of_step ?_
    simp only [Task.step, hlast, ↓reduceIte]
    exact .pure ()
  | succ left ih =>
    have hmore : round < count := by omega
    have hround := (hbody.withScope [("index", .int (Int64.ofInt round))]).bind
      fun _ => @ih (round + 1) (by omega)
    refine .of_step ?_
    simp only [Task.step, hmore, ↓reduceIte]
    rw [runRepeated]
    by_cases hfirst : round = 0
    · rw [if_neg (not_not_intro hfirst)]
      simp only [hfirst, ne_eq, not_true_eq_false, ↓reduceIte]
      rw [hfirst] at hround
      exact hround
    · rw [if_pos hfirst]
      simp only [hfirst, ne_eq, not_false_eq_true, ↓reduceIte]
      exact (Ends.plain _).bind fun _ => hround

private theorem ends_runCustom (h : level.EndsBelow setting levels) (custom : Custom)
    (contents : String) (ending : Option String)
    (hbody : Ends setting.limit levels
      (fun n => Task.run setting n (.chain template nested)) body) :
    Ends setting.limit levels
      (fun n => Task.custom setting (Task.run setting n) template nested contents ending custom)
      (level.runCustom custom contents ending body) := by
  cases custom with
  | repeated count => exact ends_runRepeated hbody _ (Nat.zero_add _)
  | wrap =>
    refine (Ends.plain _).bind fun _ => (Ends.plain _).bind fun _ => (Ends.plain _).bind fun _ => ?_
    exact hbody.bind fun _ => .plain _
  | guarded =>
    refine (ends_evaluateContents h contents).bind fun value => ?_
    cases value.isTruthy with
    | true => exact hbody
    | false => exact .pure ()
  | shout => exact (ends_evaluateContents h contents).bind fun value => .plain _
  | peek =>
    refine .get_bind fun machine => ?_
    rw [h.setting_eq]
    cases machine.state.lookup setting (trim contents) with
    | none => exact .plain _
    | some value => exact .plain _
  | term => exact .plain _
  | fail => exact (Ends.plain _).bind fun _ => .throw _

end Bodies

/-! ### Nodes -/

private theorem ends_chain_none (template : Template) :
    Ends setting.limit levels (fun n => Task.run setting n (.chain template none)) (pure ()) :=
  .of_step (.pure ())

theorem ends_runAction (h : level.EndsBelow setting levels) (template : Template) (place : Nat)
    (body : Span) (action : Action) :
    Ends setting.limit levels
      (fun n => Task.action setting (Task.run setting n) template place body action)
      (level.runAction template place body action) := by
  cases action with
  | expression value | eval value =>
    exact (ends_evaluateText h template value).bind fun text => .plain _
  | code value => exact (ends_evaluate h template value).discard
  | includeFile target pre => exact ends_includeFile h template place target pre
  | includeNamed target pre => exact ends_includeNamed h template target pre
  | comment => exact .pure ()
  | custom custom => exact ends_runCustom h custom _ none (ends_chain_none template)

private theorem ends_runDeclare (h : level.EndsBelow setting levels) (template : Template)
    (name : Slot) (place : Nat) :
    Ends setting.limit levels
      (fun n => do
        let name ← Task.evaluateText setting (Task.run setting n) template name
        modify fun machine =>
          { machine with state := machine.state.declare name template place })
      (level.runDeclare template name place) :=
  (ends_evaluateText h template name).bind fun name => .modify (·.declare name template place)

private theorem ends_isTaken (h : level.EndsBelow setting levels) (template : Template)
    (offset : Nat) (name : String) (condition : Option Slot) :
    Ends setting.limit levels
      (fun n => Task.isTaken setting (Task.run setting n) template offset name condition)
      (level.isTaken template offset name condition) := by
  cases condition with
  | none => exact .pure true
  | some slot => exact ((ends_evaluate h template slot).map Value.isTruthy).located _ _ _

section Chains

variable {template : Template} {runBody : Option Nat → RenderM Unit} {place : Nat}

/-- The branches of a block end where no branch is left. Each of them stands at the first one or
behind it, and so do their bodies. -/
theorem ends_runBranches (h : level.EndsBelow setting levels)
    (hbody : ∀ nested : Option Nat, (∀ first ∈ nested, place < first) →
      Ends setting.limit levels (fun n => Task.run setting n (.chain template nested))
        (runBody nested))
    {left : Nat} {branch : Option Nat}
    (hbranch : ∀ p ∈ branch, place ≤ p ∧ template.program.nodes.size ≤ left + p) :
    Ends setting.limit levels (fun n => Task.run setting n (.branches template branch))
      (level.runBranches template runBody left branch) := by
  induction left generalizing branch with
  | zero =>
    refine .of_step ?_
    cases branch with
    | none => exact .pure ()
    | some p =>
      have hnode : template.program.node? p = none :=
        Array.getElem?_eq_none (by simpa using (hbranch p rfl).2)
      simp only [Task.step, hnode]
      exact .pure ()
  | succ left ih =>
    refine .of_step ?_
    cases branch with
    | none => exact .pure ()
    | some p =>
      obtain ⟨hplace, hsize⟩ := hbranch p rfl
      simp only [Task.step]
      rw [runBranches]
      cases hnode : template.program.node? p with
      | none => exact .pure ()
      | some node =>
        have hforward {link : Nat} (hlink : link ∈ node.links) : p < link :=
          (Template.lt_of_mem_links hnode hlink).1
        cases hkind : node.kind with
        | block opener nested alternative terminus =>
          simp only [hkind]
          cases opener with
          | conditional condition =>
            refine (ends_isTaken h template _ _ condition).bind fun taken => ?_
            cases taken with
            | true =>
              refine hbody nested fun first hfirst => Nat.lt_of_le_of_lt hplace (hforward ?_)
              simp_all [Node.links, NodeKind.nested?]
            | false =>
              refine ih fun next hnext => ?_
              have hnext : p < next :=
                hforward (by simp_all [Node.links, NodeKind.alternative?])
              omega
          | loop | declare | custom => exact .pure ()
        | text | action | terminal | finish =>
          simp only [hkind]
          exact .pure ()

/-- The node that is run next is what follows the node. -/
theorem eq_following?_of_runNode {left : Nat} {node : Node} {next : Option Nat} {s : RenderState}
    (hnode : template.program.node? place = some node)
    (h : ((level.runNode template runBody left place node).run.run s).1 = .ok next) :
    next = template.program.following? place := by
  have hresult {step : RenderM Unit} {following : Option Nat}
      (h : ((step >>= fun _ => pure following).run.run s).1 = .ok next) : next = following := by
    rw [run_bind] at h
    generalize step.run.run s = reached at h
    obtain ⟨_ | _, _⟩ := reached
    · cases h
    · exact (Except.ok.inj h).symm
  rw [Program.following?, hnode, Option.bind_some]
  rw [runNode] at h
  cases hkind : node.kind with
  | text | action =>
    rw [hkind] at h
    exact hresult h
  | block opener nested alternative terminus =>
    rw [hkind] at h
    cases opener with
    | conditional | loop | declare | custom => exact hresult h
  | terminal | finish =>
    rw [hkind] at h
    exact (Except.ok.inj h).symm

theorem ends_runNode (h : level.EndsBelow setting levels)
    (hbody : ∀ nested : Option Nat, (∀ first ∈ nested, place < first) →
      Ends setting.limit levels (fun n => Task.run setting n (.chain template nested))
        (runBody nested))
    {left : Nat} {node : Node} (hnode : template.program.node? place = some node)
    (hsize : template.program.nodes.size ≤ left + 1 + place) :
    Ends setting.limit levels
      (fun n => Task.node setting (Task.run setting n) template place node)
      (level.runNode template runBody left place node) := by
  have hnested (nested : Option Nat) (hnested : node.kind.nested? = nested) :
      Ends setting.limit levels (fun n => Task.run setting n (.chain template nested))
        (runBody nested) :=
    hbody nested fun first hfirst =>
      (Template.lt_of_mem_links hnode (by simp_all [Node.links])).1
  simp only [Task.node]
  rw [runNode]
  cases hkind : node.kind with
  | text spans => exact (Ends.plain _).map _
  | action action => exact (ends_runAction h template place _ action).map _
  | block opener nested alternative terminus =>
    rw [hkind] at hnested
    cases opener with
    | conditional condition =>
      have hplace : ∀ p ∈ some place, place ≤ p ∧ template.program.nodes.size ≤ left + 1 + p := by
        rintro _ ⟨⟩
        exact ⟨Nat.le_refl place, hsize⟩
      exact (ends_runBranches h hbody hplace).map _
    | loop bindings separator =>
      have hloop := (ends_loopSources h template bindings).bind fun sources =>
        ends_runRounds h (hnested nested rfl) sources separator (Nat.zero_add _)
      exact hloop.map _
    | declare name => exact (ends_runDeclare h template name place).map _
    | custom custom => exact (ends_runCustom h custom _ _ (hnested nested rfl)).map _
  | terminal | finish => exact .pure none

end Chains

/-- A chain ends where no node is left: as links lead forward, no more can come than stand behind
the place. -/
theorem ends_chain (h : level.EndsBelow setting levels) (template : Template) {left : Nat}
    {place : Option Nat} (hplace : ∀ p ∈ place, template.program.nodes.size ≤ left + p) :
    Ends setting.limit levels (fun n => Task.run setting n (.chain template place))
      (level.chain template left place) := by
  induction left generalizing place with
  | zero =>
    refine .of_step ?_
    cases place with
    | none => exact .pure ()
    | some p =>
      have hnode : template.program.node? p = none :=
        Array.getElem?_eq_none (by simpa using hplace p rfl)
      simp only [Task.step, hnode]
      exact .pure ()
  | succ left ih =>
    refine .of_step ?_
    cases place with
    | none => exact .pure ()
    | some p =>
      simp only [Task.step]
      rw [chain]
      cases hnode : template.program.node? p with
      | none => exact .pure ()
      | some node =>
        have hsize := hplace p rfl
        have hbody (nested : Option Nat) (hnested : ∀ first ∈ nested, p < first) :=
          @ih nested fun first hfirst => by
            have := hnested first hfirst
            omega
        refine ((ends_runNode h hbody hnode hsize).located _ _ _).bind_of ?_
        rintro next ⟨s, hs⟩
        obtain rfl := eq_following?_of_runNode hnode (Attempt.mapError_eq_ok_iff.1 hs)
        refine ih fun q hq => ?_
        have := Template.lt_of_following? hq
        omega

/-- Running a part of a template ends. -/
theorem ends_runPart (h : level.EndsBelow setting levels) (template : Template) (part : Part) :
    Ends setting.limit levels
      (fun n => Task.run setting n (.chain template (template.program.start? part)))
      (level.runPart template part) :=
  ends_chain h template fun p _ => by omega

/-- The levels of a render: on each of them, what the next one runs ends. -/
theorem endsBelow_above (setting : Setting) (levels : Nat) :
    (above setting levels).EndsBelow setting levels := by
  induction levels with
  | zero => exact .last
  | succ levels ih => exact .deeper fun template part => ends_runPart ih template part

end Level

end TextTemplate
