import Mathlib.Data.List.Forall2
import TextTemplate.Proofs.Course.Passes
import TextTemplate.Proofs.Structure.WellLinked

/-!
# Loops in lock-step

A loop takes the items of its sources before its first round and steps through all of them at once,
as long as any of them has an item left. What it does is written down here as a schedule: the rounds
of the body, in order, and between any two of them the separator. A round has a scope of its own,
which is gone when the separator is evaluated.

## Main definitions

* `Value.items?`: the items that a value gives a loop.
* `Track`: a variable of a loop with its items.
* `LoopStep.schedule`: the rounds of a loop and what comes between them.
* `LoopStep.Runs`, `LoopStep.RunAll`: what a step of a loop does, and what a schedule does.
* `Level.Opens`: the sources of a loop, evaluated in order.

## Main results

* `Track.find?_scope`: what is bound in the scope of a round.
* `Level.runAll_runRounds`: the rounds of a loop follow the schedule.
* `lockstep_iteration`: what a loop of a template does.
-/

namespace TextTemplate

/-! ### Bindings -/

namespace Bindings

variable {α : Type}

theorem find?_insert (name other : String) (a : α) (bindings : Bindings α) :
    find? other (insert name a bindings) =
      if other = name then some a else find? other bindings := by
  split_ifs with h
  · rw [h, find?_insert_self]
  · exact find?_insert_of_ne h a bindings

/-- Of two pairs with one name the later counts. -/
theorem find?_ofPairs (name : String) (pairs : List (String × α)) :
    find? name (ofPairs pairs) = (pairs.reverse.find? fun pair => pair.1 = name).map Prod.snd := by
  induction pairs using List.reverseRecOn with
  | nil => rfl
  | append_singleton pairs pair ih =>
    have hlast : ofPairs (pairs ++ [pair]) = insert pair.1 pair.2 (ofPairs pairs) := by
      rw [ofPairs, List.foldl_append]
      rfl
    rw [hlast, find?_insert, ih, List.reverse_append]
    by_cases h : pair.1 = name
    · simp [h]
    · simp [h, Ne.symm h]

end Bindings

/-! ### Items -/

/-- The items that a value gives a loop: those of a list, or the numbers below a count. -/
def Value.items? : Value → Option (List Value)
  | .list values => some values
  | .int n => some ((List.range n.toInt.toNat).map fun k : Nat => .int (Int64.ofInt k))
  | _ => none

/-- A variable of a loop with the items that it runs over. -/
structure Track where
  name : String
  items : List Value

namespace Track

/-- The item of a round, or the empty string when the items have run out. -/
def item (round : Nat) (track : Track) : Value :=
  track.items[round]?.getD (.string "")

/-- What a name is bound to in a round. Of two tracks with one variable the later counts. -/
def bound? (tracks : List Track) (round : Nat) (name : String) : Option Value :=
  (tracks.reverse.find? fun track => track.name = name).map (item round)

/-- The track of a source of a loop. -/
structure IsOf (source : String × LoopSource) (track : Track) : Prop where
  name : source.1 = track.name
  size : source.2.size = track.items.length
  item (round : Nat) : source.2.item round = track.item round

/-- A list or a number stands for a source that runs over its items. -/
theorem exists_isOf {value : Value} {items : List Value} (h : value.items? = some items)
    (name : String) :
    ∃ source, LoopSource.ofValue value = .ok source ∧ IsOf (name, source) ⟨name, items⟩ := by
  cases value with
  | list values =>
    cases h
    refine ⟨_, rfl, rfl, List.size_toArray, fun round => ?_⟩
    rw [LoopSource.item, item, List.getElem?_toArray]
  | int n =>
    cases h
    refine ⟨_, rfl, rfl, ?_, fun round => ?_⟩
    · rw [List.length_map, List.length_range]
      rfl
    · rw [LoopSource.item, item, List.getElem?_map]
      split_ifs with hround
      · rw [List.getElem?_range hround]
        rfl
      · rw [List.getElem?_eq_none (by simpa using hround)]
        rfl
  | _ => cases h

/-- No other value is the source of a loop. -/
theorem ofValue_of_items?_eq_none {value : Value} (h : value.items? = none) :
    LoopSource.ofValue value = .error (.unsupportedIterable value.typeName) := by
  cases value with
  | list | int => cases h
  | _ => rfl

variable {sources : List (String × LoopSource)} {tracks : List Track}

/-- What is bound in the scope of a round. -/
theorem find?_scope (h : List.Forall₂ IsOf sources tracks) (round : Nat) (name : String) :
    Bindings.find? name (LoopSource.scope sources round) = bound? tracks round name := by
  have hpairs : (sources.map fun source => (source.1, source.2.item round)) =
      tracks.map fun track => (track.name, track.item round) := by
    induction h with
    | nil => rfl
    | cons hfirst _ ih => rw [List.map_cons, List.map_cons, hfirst.name, hfirst.item, ih]
  change Bindings.find? name (Bindings.ofPairs
    (sources.map fun source => (source.1, source.2.item round))) = _
  rw [hpairs, Bindings.find?_ofPairs, bound?, ← List.map_reverse, List.find?_map, Option.map_map]
  rfl

/-- There are as many rounds as the longest track has items. -/
structure IsRounds (tracks : List Track) (rounds : Nat) : Prop where
  length_le : ∀ track ∈ tracks, track.items.length ≤ rounds
  attained : rounds = 0 ∨ ∃ track ∈ tracks, track.items.length = rounds

private theorem isRounds (h : List.Forall₂ IsOf sources tracks) :
    IsRounds tracks (LoopSource.rounds sources) := by
  have hrounds (most : Nat) :
      let last := sources.foldl (fun most source => max most source.2.size) most
      most ≤ last ∧ (∀ track ∈ tracks, track.items.length ≤ last) ∧
        (last = most ∨ ∃ track ∈ tracks, track.items.length = last) := by
    induction h generalizing most with
    | nil => exact ⟨Nat.le_refl _, List.forall_mem_nil _, .inl rfl⟩
    | @cons source track sources tracks hfirst _ ih =>
      obtain ⟨hmost, hall, hlast⟩ := ih (max most source.2.size)
      rw [hfirst.size] at hmost hall hlast
      simp only [List.foldl_cons, List.forall_mem_cons, List.exists_mem_cons_iff, hfirst.size]
      refine ⟨by omega, ⟨by omega, hall⟩, ?_⟩
      rcases hlast with hlast | hlast
      · rw [hlast]
        omega
      · exact .inr (.inr hlast)
  exact ⟨(hrounds 0).2.1, (hrounds 0).2.2⟩

end Track

/-! ### Names in scope -/

/-- The same names are known, scope by scope. -/
def SameNames : List Scope → List Scope → Prop :=
  List.Forall₂ fun scope scope' => ∀ name, scope.contains name = scope'.contains name

namespace SameNames

theorem refl (scopes : List Scope) : SameNames scopes scopes :=
  List.forall₂_same.2 fun _ _ _ => rfl

theorem trans {scopes scopes' scopes'' : List Scope} (h : SameNames scopes scopes')
    (h' : SameNames scopes' scopes'') : SameNames scopes scopes'' := by
  induction h generalizing scopes'' with
  | nil => exact h'
  | cons hscope _ ih =>
    cases h' with
    | cons hscope' hrest => exact .cons (fun name => (hscope name).trans (hscope' name)) (ih hrest)

private theorem tail {scopes scopes' : List Scope} (h : SameNames scopes scopes') :
    SameNames scopes.tail scopes'.tail := by
  cases h with
  | nil => exact .nil
  | cons _ hrest => exact hrest

end SameNames

/-- A name is rebound in a scope that knows it. -/
theorem sameNames_of_rebind? {name : String} {value : Value} {scopes scopes' : List Scope}
    (h : rebind? name value scopes = some scopes') : SameNames scopes scopes' := by
  induction scopes generalizing scopes' with
  | nil => cases h
  | cons scope outer ih =>
    rw [rebind?] at h
    split_ifs at h with hname
    · cases h
      refine .cons (fun other => ?_) (SameNames.refl outer)
      rw [Bindings.contains, Bindings.contains, Bindings.find?_insert]
      split_ifs with hother
      · rw [hother]
        exact hname
      · rfl
    · obtain ⟨outer', houter, rfl⟩ := Option.map_eq_some_iff.1 h
      exact .cons (fun _ => rfl) (ih houter)

/-- Every step leaves the names that are known outside the innermost scope. -/
theorem RenderState.steady_names : Steady fun s t => SameNames s.scopes.tail t.scopes.tail where
  refl s := .refl s.scopes.tail
  trans := .trans
  caches s _ := .refl s.scopes.tail
  assign s name value := by
    unfold assign
    split
    · rename_i scopes hscopes
      exact (sameNames_of_rebind? hscopes).tail
    · split
      · exact .refl s.scopes.tail
      · cases s.scopes <;> exact .refl _
  declare s name template place := by
    change SameNames s.scopes.tail (bindInnermost _ _ s.scopes).tail
    cases s.scopes <;> exact .refl _
  sink s _ := .refl s.scopes.tail
  withScope {s t scope} h := by
    have hscopes : SameNames s.scopes t.scopes.tail := h
    change SameNames s.scopes.tail (t.scopes.drop 1).tail
    rw [List.drop_one]
    exact hscopes.tail
  withDir h := h
  withScopes {s _ _} _ := .refl s.scopes.tail

/-- Within a scope that is opened and closed, no name becomes known outside it. -/
theorem Composed.sameNames {α : Type} {step : RenderM α} (h : Composed step) (s : RenderState)
    (scope : Scope) :
    SameNames s.scopes ((step.run.run (s.pushScope scope)).2.scopes.drop 1) := by
  rw [List.drop_one]
  exact h.steady RenderState.steady_names (s.pushScope scope)

/-! ### Schedules -/

/-- A step of a loop: a round of the body, or the separator between two rounds. -/
inductive LoopStep where
  | round (n : Nat)
  | separator (slot : Slot)

namespace LoopStep

/-- The rounds of a loop from one on, so many of them, with the separator between any two. -/
def scheduleFrom (separator : Option Slot) (first rounds : Nat) : List LoopStep :=
  let body := (List.range' first rounds).map round
  match separator with
  | none => body
  | some slot => body.intersperse (.separator slot)

/-- The rounds of a loop, with the separator between any two of them. -/
def schedule (separator : Option Slot) (rounds : Nat) : List LoopStep :=
  scheduleFrom separator 0 rounds

variable (level : Level) (template : Template) (tracks : List Track) (body : RenderM Unit)

/-- What a step of a loop does, from one state to another. A round runs the body in a new scope,
with the items of that round in it, and leaves it afterwards, with no other names known outside it
than before. The separator is evaluated without that scope, and its text is written. -/
inductive Runs : LoopStep → RenderState → Except TemplateError Unit → RenderState → Prop
  | round {n : Nat} {scope : Scope} {s t : RenderState} {result : Except TemplateError Unit}
      (bound : ∀ name, scope.find? name = Track.bound? tracks n name)
      (runs : body.run.run { s with scopes := scope :: s.scopes } = (result, t))
      (names : SameNames s.scopes (t.scopes.drop 1)) :
      Runs (.round n) s result { t with scopes := t.scopes.drop 1 }
  | separator {slot : Slot} {s t : RenderState} {result : Except TemplateError Unit}
      (runs : (level.evaluateText template slot >>= RenderM.emit).run.run s = (result, t)) :
      Runs (.separator slot) s result t

/-- What the steps of a loop do, one after the other, up to the first that fails. -/
inductive RunAll : List LoopStep → RenderState → Except TemplateError Unit → RenderState → Prop
  | done (s : RenderState) : RunAll [] s (.ok ()) s
  | fails {step : LoopStep} {steps : List LoopStep} {s t : RenderState} {e : TemplateError}
      (runs : Runs level template tracks body step s (.error e) t) :
      RunAll (step :: steps) s (.error e) t
  | next {step : LoopStep} {steps : List LoopStep} {s t u : RenderState}
      {result : Except TemplateError Unit}
      (runs : Runs level template tracks body step s (.ok ()) t) (rest : RunAll steps t result u) :
      RunAll (step :: steps) s result u

section Schedule

variable (slot : Slot) (first rounds : Nat)

private theorem scheduleFrom_one (separator : Option Slot) :
    scheduleFrom separator first 1 = [round first] := by
  cases separator <;> rfl

private theorem scheduleFrom_some_succ : scheduleFrom (some slot) first (rounds + 2) =
    round first :: .separator slot :: scheduleFrom (some slot) (first + 1) (rounds + 1) :=
  rfl

end Schedule

/-- A step of a render does what these steps of a loop do. -/
def Follows (steps : List LoopStep) (render : RenderM Unit) : Prop :=
  ∀ s, RunAll level template tracks body steps s (render.run.run s).1 (render.run.run s).2

variable {level : Level} {template : Template} {tracks : List Track} {body : RenderM Unit}

theorem Follows.cons {step : LoopStep} {steps : List LoopStep} {first rest : RenderM Unit}
    (hfirst : ∀ s, Runs level template tracks body step s (first.run.run s).1 (first.run.run s).2)
    (hrest : Follows level template tracks body steps rest) :
    Follows level template tracks body (step :: steps) (first >>= fun _ => rest) := by
  intro s
  have hstep := hfirst s
  rw [run_bind]
  generalize first.run.run s = after at hstep
  obtain ⟨_ | _, t⟩ := after
  · exact .fails hstep
  · exact .next hstep (hrest t)

/-- A round of a loop. -/
theorem runs_round {sources : List (String × LoopSource)}
    (h : List.Forall₂ Track.IsOf sources tracks) (hbody : Composed body) (n : Nat)
    (s : RenderState) :
    let round := RenderM.withScope (LoopSource.scope sources n) body
    Runs level template tracks body (.round n) s (round.run.run s).1 (round.run.run s).2 :=
  .round (Track.find?_scope h n) rfl (hbody.sameNames s _)

/-- The rounds of a loop from one on follow the schedule. -/
theorem follows_runRounds {sources : List (String × LoopSource)}
    (h : List.Forall₂ Track.IsOf sources tracks) (hbody : Composed body) (separator : Option Slot)
    (first rounds : Nat) :
    Follows level template tracks body (scheduleFrom separator first rounds)
      (level.runRounds template sources separator body first rounds) := by
  induction rounds generalizing first with
  | zero =>
    intro s
    cases separator <;> exact .done s
  | succ rounds ih =>
    rw [Level.runRounds]
    cases rounds with
    | zero =>
      rw [scheduleFrom_one]
      exact .cons (runs_round h hbody first) .done
    | succ rounds =>
      rw [if_pos (Nat.succ_ne_zero rounds)]
      cases separator with
      | none => exact .cons (runs_round h hbody first) (ih (first + 1))
      | some slot =>
        rw [scheduleFrom_some_succ]
        refine .cons (runs_round h hbody first) ?_
        change Follows level template tracks body _
          (level.evaluateText template slot >>= fun text => RenderM.emit text >>= fun _ => _)
        rw [← bind_assoc]
        exact .cons (fun _ => .separator rfl) (ih (first + 1))

end LoopStep

namespace Level

variable {level : Level} {template : Template}

/-- The sources of a loop, evaluated in order, give these tracks. -/
inductive Opens (level : Level) (template : Template) :
    List LoopBinding → RenderState → List Track → RenderState → Prop
  | done (s : RenderState) : Opens level template [] s [] s
  | next {binding : LoopBinding} {bindings : List LoopBinding} {s t u : RenderState} {value : Value}
      {items : List Value} {tracks : List Track}
      (evaluates : (level.evaluate template binding.source).run.run s = (.ok value, t))
      (iterable : value.items? = some items) (rest : Opens level template bindings t tracks u) :
      Opens level template (binding :: bindings) s (⟨binding.name, items⟩ :: tracks) u

/-- Sources that are evaluated in order are followed by those that come after them. -/
theorem Opens.run_loopSources {before : List LoopBinding} {s t : RenderState} {tracks : List Track}
    (h : Opens level template before s tracks t) (after : List LoopBinding) :
    ∃ sources, List.Forall₂ Track.IsOf sources tracks ∧
      (level.loopSources template (before ++ after)).run.run s =
        (((level.loopSources template after).run.run t).1.map (sources ++ ·),
          ((level.loopSources template after).run.run t).2) := by
  induction h with
  | done s =>
    refine ⟨[], .nil, ?_⟩
    rw [List.nil_append]
    rcases (level.loopSources template after).run.run s with ⟨_ | _, _⟩ <;> rfl
  | @next binding bindings s t u value items tracks hevaluates hitems _ ih =>
    obtain ⟨sources, hsources, hrun⟩ := ih
    obtain ⟨source, hsource, hof⟩ := Track.exists_isOf hitems binding.name
    refine ⟨(binding.name, source) :: sources, .cons hof hsources, ?_⟩
    rw [List.cons_append, loopSources, run_bind, hevaluates, andThen, hsource]
    dsimp only
    rw [run_bind, hrun]
    rcases (level.loopSources template after).run.run u with ⟨_ | _, _⟩ <;> rfl

variable {bindings before after : List LoopBinding} {binding : LoopBinding} {s t u : RenderState}
  {tracks : List Track} {separator : Option Slot} {body : RenderM Unit}

/-- A loop whose sources are lists and counts runs its rounds. -/
theorem Opens.runAll_runLoop (h : Opens level template bindings s tracks t)
    (hbody : Composed body) (separator : Option Slot) :
    ∃ rounds result u, Track.IsRounds tracks rounds ∧
      LoopStep.RunAll level template tracks body (LoopStep.schedule separator rounds) t result u ∧
      (level.runLoop template bindings separator body).run.run s = (result, u) := by
  obtain ⟨sources, hsources, hrun⟩ := h.run_loopSources []
  have hopen : (level.loopSources template bindings).run.run s = (.ok sources, t) := by
    rw [← List.append_nil bindings, hrun, loopSources]
    exact congrArg (fun sources => (Except.ok sources, t)) (List.append_nil sources)
  refine ⟨_, _, _, Track.isRounds hsources,
    LoopStep.follows_runRounds hsources hbody separator 0 _ t, ?_⟩
  rw [runLoop, run_bind, hopen]
  rfl

/-- A loop ends where one of its sources fails. -/
theorem Opens.runLoop_of_error {e : TemplateError} (h : Opens level template before s tracks t)
    (hsource : (level.loopSources template (binding :: after)).run.run t = (.error e, u)) :
    (level.runLoop template (before ++ binding :: after) separator body).run.run s =
      (.error e, u) := by
  obtain ⟨sources, -, hrun⟩ := h.run_loopSources (binding :: after)
  rw [runLoop, run_bind, hrun, hsource]
  rfl

/-- A source that is neither a list nor a count is refused when it has been evaluated. -/
theorem run_loopSources_of_items? {value : Value}
    (hvalue : (level.evaluate template binding.source).run.run t = (.ok value, u))
    (hitems : value.items? = none) :
    (level.loopSources template (binding :: after)).run.run t =
      (.error (RenderFault.unsupportedIterable value.typeName).toError, u) := by
  rw [loopSources, run_bind, hvalue, andThen, Track.ofValue_of_items?_eq_none hitems]
  rfl

private theorem run_loopSources_of_error {e : TemplateError}
    (hsource : (level.evaluate template binding.source).run.run t = (.error e, u)) :
    (level.loopSources template (binding :: after)).run.run t = (.error e, u) := by
  rw [loopSources, run_bind, hsource]
  rfl

/-- The node of a loop runs the loop, and then what stands behind the end of the loop follows. -/
theorem run_runNode_loop {runBody : Option Nat → RenderM Unit} {left place : Nat} {node : Node}
    {result : Except TemplateError Unit}
    (hopener : node.kind.opener? = some (.loop bindings separator))
    (hrun : (level.runLoop template bindings separator (runBody node.kind.nested?)).run.run s =
      (result, t)) :
    (level.runNode template runBody left place node).run.run s =
      (result.map fun _ => (node.kind.terminus?.bind template.program.node?).bind Node.next,
        t) := by
  rw [runNode]
  cases hkind : node.kind with
  | block opener nested alternative terminus =>
    rw [hkind] at hopener hrun
    cases hopener
    dsimp only
    have hloop : (level.runLoop template bindings separator (runBody nested)).run.run s =
      (result, t) := hrun
    rw [run_bind, hloop]
    cases result <;> rfl
  | _ =>
    rw [hkind] at hopener
    cases hopener

end Level

/-! ### Separators -/

/-- The directive that ends a loop says what the separator is: its body, unless that is blank. -/
structure Template.Separates (template : Template) (separator : Option Slot) (last : Node) :
    Prop where
  name : last.name = "end"
  blank : separator = none ↔ last.body.onlyBlanks template.source = true
  spells : ∀ slot, separator = some slot →
    Spells template.compiler.mode template.source last.body slot

/-- A loop is linked to the directive that ends it. -/
theorem Template.exists_separates {template : Template} {place : Nat} {node : Node}
    {bindings : List LoopBinding} {separator : Option Slot}
    (hnode : template.program.node? place = some node)
    (hopener : node.kind.opener? = some (.loop bindings separator)) :
    ∃ last, node.kind.terminus?.bind template.program.node? = some last ∧
      template.Separates separator last := by
  obtain ⟨d, inside, branches, hbranch, rfl⟩ := template.exists_branchAt hnode hopener
  refine ⟨_, Branches.node?_closer_of_holds hbranch.holdsBranches, ?_⟩
  obtain ⟨begins, phrases, hderives⟩ := hbranch.derives
  have hname := hderives.name_closer
  cases hderives.closer_ends with
  | bare hblank => exact ⟨hname, ⟨fun _ => hblank, fun _ => rfl⟩, by rintro _ ⟨⟩⟩
  | separated hblank hspells =>
    refine ⟨hname, ⟨by rintro ⟨⟩, fun hb => ?_⟩, by rintro _ ⟨⟩; exact hspells⟩
    cases hblank.symm.trans hb

/-! ### The loops of a template -/

/-- What a loop of a template does. Its separator is what the directive that ends it says. Where its
sources are evaluated, in order and before anything else, to lists and counts, it follows the
schedule with as many rounds as the longest of them has items. At the first source that is neither,
and at the first that fails, it ends. -/
theorem lockstep_iteration {template : Template} {place : Nat} {node : Node}
    {bindings : List LoopBinding} {separator : Option Slot} (setting : Setting) (levels left : Nat)
    (hnode : template.program.node? place = some node)
    (hopener : node.kind.opener? = some (.loop bindings separator)) :
    let level := Level.above setting levels
    let body := level.chain template left node.kind.nested?
    let last? := node.kind.terminus?.bind template.program.node?
    let loop := level.runNode template (level.chain template left) left place node
    (∃ last, last? = some last ∧ template.Separates separator last) ∧
    (∀ s t tracks, Level.Opens level template bindings s tracks t →
      ∃ rounds result u, Track.IsRounds tracks rounds ∧
        LoopStep.RunAll level template tracks body (LoopStep.schedule separator rounds) t result u ∧
        loop.run.run s = (result.map fun _ => last?.bind Node.next, u)) ∧
    ∀ s t u before binding after tracks, bindings = before ++ binding :: after →
      Level.Opens level template before s tracks t →
        (∀ value, (level.evaluate template binding.source).run.run t = (.ok value, u) →
          value.items? = none →
            loop.run.run s =
              (.error (RenderFault.unsupportedIterable value.typeName).toError, u)) ∧
        ∀ e, (level.evaluate template binding.source).run.run t = (.error e, u) →
          loop.run.run s = (.error e, u) := by
  intro level body last? loop
  have hbody : Composed body :=
    Level.related_chain Composed.congruence (Level.isComposed_above setting levels) left _
  refine ⟨template.exists_separates hnode hopener, fun s t tracks hopens => ?_,
    fun s t u before binding after tracks hbindings hopens => ?_⟩
  · obtain ⟨rounds, result, u, hrounds, hruns, hloop⟩ := hopens.runAll_runLoop hbody separator
    exact ⟨rounds, result, u, hrounds, hruns, Level.run_runNode_loop hopener hloop⟩
  · subst hbindings
    exact ⟨fun value hvalue hitems => Level.run_runNode_loop hopener
        (hopens.runLoop_of_error (Level.run_loopSources_of_items? hvalue hitems)),
      fun e hsource => Level.run_runNode_loop hopener
        (hopens.runLoop_of_error (Level.run_loopSources_of_error hsource))⟩

namespace Level

/-- The tracks of the sources of a loop, and the state when they have been evaluated, if they all
evaluate to lists and counts. -/
def open? (level : Level) (template : Template) :
    List LoopBinding → RenderState → Option (List Track × RenderState)
  | [], s => some ([], s)
  | binding :: bindings, s =>
    let evaluated := (level.evaluate template binding.source).run.run s
    evaluated.1.toOption.bind fun value =>
      value.items?.bind fun items =>
        (open? level template bindings evaluated.2).map fun opened =>
          (⟨binding.name, items⟩ :: opened.1, opened.2)

private theorem opens_of_open? {level : Level} {template : Template} {bindings : List LoopBinding}
    {s t : RenderState} {tracks : List Track}
    (h : level.open? template bindings s = some (tracks, t)) :
    Opens level template bindings s tracks t := by
  induction bindings generalizing s tracks with
  | nil =>
    cases h
    exact .done _
  | cons binding bindings ih =>
    rw [open?] at h
    obtain ⟨value, hvalue, h⟩ := Option.bind_eq_some_iff.1 h
    obtain ⟨items, hitems, h⟩ := Option.bind_eq_some_iff.1 h
    obtain ⟨⟨more, _⟩, hopen, h⟩ := Option.map_eq_some_iff.1 h
    cases h
    refine .next (Prod.ext ?_ rfl) hitems (ih hopen)
    generalize ((level.evaluate template binding.source).run.run s).1 = result at hvalue
    cases result with
    | error e => cases hvalue
    | ok value => exact congrArg Except.ok (Option.some.inj hvalue)

end Level

/-- The bindings and the separator of a loop. -/
def Opener.loop? : Opener → Option (List LoopBinding × Option Slot)
  | .loop bindings separator => some (bindings, separator)
  | _ => none

theorem Opener.eq_of_loop? {opener : Opener} {bindings : List LoopBinding}
    {separator : Option Slot} (h : opener.loop? = some (bindings, separator)) :
    opener = .loop bindings separator := by
  cases opener with
  | loop => cases h; rfl
  | _ => cases h

/-- A loop over a list of two items and a count of one: there are two rounds, with the separator
between them. -/
theorem lockstep_iteration_two_rounds :
    ∃ (template : Template) (store : Store) (node : Node) (bindings : List LoopBinding)
      (slot : Slot) (s t u : RenderState) (tracks : List Track)
      (result : Except TemplateError Unit),
      Store.empty.compile ⟨.compiled, []⟩ "@foreach{a : [1, 2], b : 1}@{a}@end\x7b','\x7d" none =
        .ok (template, store) ∧
      template.program.node? 0 = some node ∧
      node.kind.opener? = some (.loop bindings (some slot)) ∧
      Level.Opens (.above ⟨.null, none, .empty, 1⟩ 1) template bindings s tracks t ∧
      LoopStep.RunAll (.above ⟨.null, none, .empty, 1⟩ 1) template tracks
        ((Level.above ⟨.null, none, .empty, 1⟩ 1).chain template 9 node.kind.nested?)
        [.round 0, .separator slot, .round 1] t result u := by
  let level : Level := .above ⟨.null, none, .empty, 1⟩ 1
  let start (loaded : Template × Store) : RenderState :=
    RenderOptions.initial {} loaded.1 loaded.2 .collector
  obtain ⟨⟨template, store⟩, hcompile, hloop⟩ := Attempt.exists_eq_ok_and
    (x := Store.empty.compile ⟨.compiled, []⟩ "@foreach{a : [1, 2], b : 1}@{a}@end\x7b','\x7d" none)
    (p := fun loaded => decide (
      ((loaded.1.program.node? 0).bind fun node =>
        (node.kind.opener?.bind Opener.loop?).bind fun parts =>
          parts.2.bind fun _ =>
            (level.open? loaded.1 parts.1 (start loaded)).map fun opened =>
              opened.1.map fun track => track.items.length) = some [2, 1])) (by decide +kernel)
  obtain ⟨node, hnode, hloop⟩ := Option.bind_eq_some_iff.1 (of_decide_eq_true hloop)
  obtain ⟨⟨bindings, separator⟩, hopener, hloop⟩ := Option.bind_eq_some_iff.1 hloop
  obtain ⟨slot, hslot, hloop⟩ := Option.bind_eq_some_iff.1 hloop
  obtain ⟨⟨tracks, t⟩, hopen, hlengths⟩ := Option.map_eq_some_iff.1 hloop
  obtain ⟨opener, hopener, hloop⟩ := Option.bind_eq_some_iff.1 hopener
  obtain rfl := Opener.eq_of_loop? hloop
  obtain rfl : separator = some slot := hslot
  have hopens := Level.opens_of_open? hopen
  obtain ⟨-, hruns, -⟩ := lockstep_iteration ⟨.null, none, .empty, 1⟩ 1 9 hnode hopener
  obtain ⟨rounds, result, u, hrounds, hall, -⟩ := hruns _ _ _ hopens
  obtain rfl : rounds = 2 := by
    obtain ⟨a, _, rfl, ha, hrest⟩ := List.map_eq_cons_iff.1 hlengths
    obtain ⟨b, _, rfl, hb, hrest⟩ := List.map_eq_cons_iff.1 hrest
    obtain rfl := List.map_eq_nil_iff.1 hrest
    have hleast := hrounds.length_le a List.mem_cons_self
    obtain hzero | ⟨track, htrack, hlength⟩ := hrounds.attained
    · omega
    · simp only [List.mem_cons, List.not_mem_nil, or_false] at htrack
      rcases htrack with rfl | rfl <;> omega
  exact ⟨template, store, node, bindings, slot, _, t, u, tracks, result, hcompile, hnode, hopener,
    hopens, hall⟩

end TextTemplate
