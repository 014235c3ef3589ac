import TextTemplate.Proofs.Course.Records
import TextTemplate.Proofs.Course.Rounds

/-!
# Variables of a loop

An assignment goes to the innermost scope that knows the name, so a scope shadows those outside it:
while it is there, nothing that is done changes what the outer scopes bind its names to. The
variables of a loop are known in the scope of each round, whatever the body does, and so they leave
no trace behind when the round is over.

What a loop evaluates outside its rounds can assign to its variables: the expressions of its sources
and of its separator.

## Main definitions

* `SameBinding`: scopes that bind a name to the same values.
* `KeepsShadowed`: scopes that changed only where no inner scope knows the name.
* `Template.loopTargets`: the variables that a loop assigns to outside its rounds.

## Main results

* `RenderState.steady_shadowed`: every step keeps what is shadowed.
* `Level.keepsBinding_runLoop`: a loop leaves its variables as they were.
* `Records.exists_scopes`: the scopes in which a step assigns.
* `loop_variables_confined`: all of this for the nodes of a template.
-/

namespace TextTemplate

/-! ### Scopes -/

/-- The name is known in one of the scopes. -/
def Knows (scopes : List Scope) (name : String) : Prop :=
  ∃ scope ∈ scopes, scope.contains name = true

/-- Scope by scope, the name is bound to the same value, or not bound. -/
def SameBinding (name : String) : List Scope → List Scope → Prop :=
  List.Forall₂ fun scope scope' => scope'.find? name = scope.find? name

namespace SameBinding

variable {name other : String} {value : Value} {scopes scopes' scopes'' : List Scope}

theorem refl (name : String) (scopes : List Scope) : SameBinding name scopes scopes :=
  List.forall₂_same.2 fun _ _ => rfl

theorem trans (h : SameBinding name scopes scopes') (h' : SameBinding name scopes' scopes'') :
    SameBinding name scopes scopes'' := by
  induction h generalizing scopes'' with
  | nil => exact h'
  | cons hscope _ ih =>
    cases h' with
    | cons hscope' hrest => exact .cons (hscope'.trans hscope) (ih hrest)

private theorem rebind? (hne : other ≠ name) (h : rebind? name value scopes = some scopes') :
    SameBinding other scopes scopes' := by
  induction scopes generalizing scopes' with
  | nil => cases h
  | cons scope outer ih =>
    rw [TextTemplate.rebind?] at h
    split_ifs at h
    · cases h
      exact .cons (Bindings.find?_insert_of_ne hne value scope) (refl other outer)
    · obtain ⟨outer', houter, rfl⟩ := Option.map_eq_some_iff.1 h
      exact .cons rfl (ih houter)

private theorem bindInnermost (hne : other ≠ name) (value : Value) (scopes : List Scope) :
    SameBinding other scopes (bindInnermost name value scopes) := by
  cases scopes with
  | nil => exact .nil
  | cons scope outer =>
    exact .cons (Bindings.find?_insert_of_ne hne value scope) (refl other outer)

private theorem map_find? (h : SameBinding name scopes scopes') :
    scopes'.map (Bindings.find? name) = scopes.map (Bindings.find? name) := by
  induction h with
  | nil => rfl
  | cons hscope _ ih => rw [List.map_cons, List.map_cons, hscope, ih]

private theorem drop (h : SameBinding name scopes scopes') (n : Nat) :
    SameBinding name (scopes.drop n) (scopes'.drop n) :=
  List.forall₂_drop n h

/-- An assignment leaves what the scopes bind other names to. -/
theorem assign (hne : other ≠ name) (value : Value) (s : RenderState) :
    SameBinding other s.scopes (s.assign name value).scopes := by
  unfold RenderState.assign
  split
  · rename_i scopes hscopes
    exact .rebind? hne hscopes
  · split
    · exact .refl other s.scopes
    · exact .bindInnermost hne value s.scopes

end SameBinding

/-! ### Shadowing -/

/-- No scope forgets a name, and names that an inner scope knows keep their values further out. -/
structure KeepsShadowed (before after : List Scope) : Prop where
  names : List.Forall₂ (fun scope scope' : Scope =>
    ∀ name, scope.contains name = true → scope'.contains name = true) before after
  shadowed {inner outer : List Scope} (split : before = inner ++ outer) {name : String}
    (known : Knows inner name) : SameBinding name outer (after.drop inner.length)

/-- Where a name is known, it is rebound there and no further out. -/
theorem exists_rebind?_append {name : String} {inner : List Scope} (h : Knows inner name)
    (value : Value) (outer : List Scope) :
    ∃ inner', rebind? name value (inner ++ outer) = some (inner' ++ outer) ∧
      inner'.length = inner.length := by
  induction inner with
  | nil => obtain ⟨_, hmem, -⟩ := h; cases hmem
  | cons scope inner ih =>
    rw [List.cons_append, rebind?]
    by_cases hknown : scope.contains name = true
    · exact ⟨scope.insert name value :: inner, if_pos hknown, rfl⟩
    · have hinner : Knows inner name := by
        obtain ⟨found, hmem, hfound⟩ := h
        obtain rfl | hmem := List.mem_cons.1 hmem
        · exact absurd hfound hknown
        · exact ⟨found, hmem, hfound⟩
      obtain ⟨inner', hrebind, hlength⟩ := ih hinner
      refine ⟨scope :: inner', ?_, congrArg Nat.succ hlength⟩
      rw [if_neg hknown, hrebind]
      rfl

namespace KeepsShadowed

variable {name : String} {value : Value} {scopes scopes' scopes'' : List Scope}

theorem refl (scopes : List Scope) : KeepsShadowed scopes scopes where
  names := List.forall₂_same.2 fun _ _ _ => id
  shadowed {inner outer} hsplit {name} _ := by
    rw [hsplit, List.drop_left]
    exact .refl name outer

private theorem length_eq (h : KeepsShadowed scopes scopes') : scopes'.length = scopes.length :=
  h.names.length_eq.symm

/-- What inner scopes know, they know afterwards. -/
theorem knows {inner outer : List Scope} (h : KeepsShadowed scopes scopes')
    (hsplit : scopes = inner ++ outer) (hknown : Knows inner name) :
    Knows (scopes'.take inner.length) name := by
  obtain ⟨scope, hmem, hscope⟩ := hknown
  obtain ⟨place, hplace, rfl⟩ := List.mem_iff_getElem.1 hmem
  have hbefore : scopes[place]? = some inner[place] := by
    rw [hsplit, List.getElem?_append_left hplace, List.getElem?_eq_getElem hplace]
  obtain ⟨hlt, hget⟩ := List.getElem?_eq_some_iff.1 hbefore
  have hlt' : place < scopes'.length := h.length_eq ▸ hlt
  have hnames := h.names.get hlt hlt'
  have hscope' : scopes'[place].contains name = true := by
    rw [← hget] at hscope
    exact hnames name hscope
  refine ⟨scopes'[place], List.mem_iff_getElem.2 ⟨place, ?_, ?_⟩, hscope'⟩
  · rw [List.length_take]
    omega
  · exact List.getElem_take

theorem trans (h : KeepsShadowed scopes scopes') (h' : KeepsShadowed scopes' scopes'') :
    KeepsShadowed scopes scopes'' where
  names := by
    have hnames := h.names
    have hnames' := h'.names
    clear h h'
    induction hnames generalizing scopes'' with
    | nil => exact hnames'
    | cons hscope _ ih =>
      cases hnames' with
      | cons hscope' hrest => exact .cons (fun name => hscope' name ∘ hscope name) (ih hrest)
  shadowed {inner outer} hsplit {name} hknown := by
    have hlength : (scopes'.take inner.length).length = inner.length := by
      rw [List.length_take, h.length_eq, hsplit, List.length_append]
      omega
    have hlater := h'.shadowed (List.take_append_drop inner.length scopes').symm
      (h.knows hsplit hknown)
    rw [hlength] at hlater
    exact (h.shadowed hsplit hknown).trans hlater

/-- Binding a name in the innermost scope. -/
theorem bindInnermost (name : String) (value : Value) (scopes : List Scope) :
    KeepsShadowed scopes (bindInnermost name value scopes) := by
  cases scopes with
  | nil => exact .refl []
  | cons scope outer =>
    refine ⟨.cons (fun other h => ?_) (List.forall₂_same.2 fun _ _ _ => id), ?_⟩
    · rw [Bindings.contains, Bindings.find?_insert]
      split_ifs
      · rfl
      · exact h
    · intro inner outer' hsplit other hknown
      cases inner with
      | nil => obtain ⟨_, hmem, -⟩ := hknown; cases hmem
      | cons _ inner =>
        rw [List.cons_append] at hsplit
        obtain ⟨rfl, rfl⟩ := List.cons_eq_cons.1 hsplit
        rw [TextTemplate.bindInnermost, List.length_cons, List.drop_succ_cons, List.drop_left]
        exact .refl other outer'

/-- Rebinding a name where it is known. -/
theorem rebind? (h : rebind? name value scopes = some scopes') : KeepsShadowed scopes scopes' where
  names := (sameNames_of_rebind? h).imp fun _ _ hscope name => (hscope name).symm.trans
  shadowed {inner outer} hsplit {other} hknown := by
    subst hsplit
    by_cases hother : other = name
    · subst hother
      obtain ⟨inner', hrebind, hlength⟩ := exists_rebind?_append hknown value outer
      obtain rfl := Option.some.inj (h.symm.trans hrebind)
      rw [← hlength, List.drop_left]
      exact .refl other outer
    · have hdrop := (SameBinding.rebind? hother h).drop inner.length
      rwa [List.drop_left] at hdrop

private theorem tail (h : KeepsShadowed scopes scopes') :
    KeepsShadowed scopes.tail scopes'.tail := by
  have hnames := h.names
  cases hnames with
  | nil => exact h
  | @cons scope scope' outer outer' _ hrest =>
    refine ⟨hrest, fun {inner far} hsplit {name} hknown => ?_⟩
    obtain ⟨found, hmem, hfound⟩ := hknown
    have hsplit' : scope :: outer = (scope :: inner) ++ far := congrArg (scope :: ·) hsplit
    exact h.shadowed hsplit' ⟨found, List.mem_cons_of_mem _ hmem, hfound⟩

/-- A name that the innermost scope knows is kept outside. -/
theorem outside {scope : Scope} (h : KeepsShadowed (scope :: scopes) scopes')
    (hname : scope.contains name = true) : SameBinding name scopes (scopes'.drop 1) :=
  h.shadowed List.singleton_append.symm ⟨scope, List.mem_singleton_self scope, hname⟩

end KeepsShadowed

/-- Every step keeps what is shadowed. -/
theorem RenderState.steady_shadowed : Steady fun s t => KeepsShadowed s.scopes t.scopes where
  refl s := .refl s.scopes
  trans := .trans
  caches s _ := .refl s.scopes
  assign s name value := by
    unfold assign
    split
    · rename_i scopes hscopes
      exact .rebind? hscopes
    · split
      · exact .refl s.scopes
      · exact .bindInnermost name value s.scopes
  declare s name template place := .bindInnermost name _ s.scopes
  sink s _ := .refl s.scopes
  withScope {s t scope} h := by
    have htail := KeepsShadowed.tail h
    change KeepsShadowed s.scopes (t.scopes.drop 1)
    rw [List.drop_one]
    exact htail
  withDir h := h
  withScopes {s _ _} _ := .refl s.scopes

/-- A step in a scope of its own leaves what the scopes bind the names of that scope to. -/
theorem Composed.sameBinding {α : Type} {step : RenderM α} (h : Composed step) {scope : Scope}
    {name : String} (hname : scope.contains name = true) (s : RenderState) :
    SameBinding name s.scopes ((RenderM.withScope scope step).run.run s).2.scopes :=
  (h.steady RenderState.steady_shadowed (s.pushScope scope)).outside hname

/-! ### Steps that leave a variable as it was -/

/-- From every state, the step leaves what the scopes bind the name to, whether it fails or not. -/
def KeepsBinding (name : String) {ε α : Type} (step : ExceptT ε (StateM RenderState) α) : Prop :=
  ∀ s, SameBinding name s.scopes (step.run.run s).2.scopes

namespace KeepsBinding

variable {name : String} {ε ε' α α' : Type} {step : ExceptT ε (StateM RenderState) α}

private theorem result (name : String) (result : Except ε α) :
    KeepsBinding name (ExceptT.mk (pure result) : ExceptT ε (StateM RenderState) α) :=
  fun s => .refl name s.scopes

theorem bind {next : α → ExceptT ε (StateM RenderState) α'} (h : KeepsBinding name step)
    (hnext : ∀ a, KeepsBinding name (next a)) : KeepsBinding name (step >>= next) := by
  intro s
  have hstep := h s
  rw [run_bind]
  generalize step.run.run s = after at hstep
  obtain ⟨_ | a, t⟩ := after
  · exact hstep
  · exact hstep.trans (hnext a t)

private theorem adapt (f : ε → ε') (h : KeepsBinding name step) :
    KeepsBinding name (ExceptT.adapt f step) :=
  h

private theorem get_bind {next : RenderState → ExceptT ε (StateM RenderState) α}
    (h : ∀ s, KeepsBinding name (next s)) : KeepsBinding name (get >>= next) :=
  fun s => h s s

private theorem withScopes {α : Type} (name : String) (scopes : List Scope) (step : RenderM α) :
    KeepsBinding name (RenderM.withScopes scopes step) :=
  fun s => .refl name s.scopes

private theorem captured {step : RenderM Unit} (h : KeepsBinding name step) :
    KeepsBinding name (RenderM.captured step) := by
  intro s
  rw [snd_run_captured]
  exact h { s with sink := .collector }

private theorem emit (name text : String) : KeepsBinding name (RenderM.emit text) := by
  intro s
  rw [run_emit]
  split_ifs <;> exact .refl name s.scopes

end KeepsBinding

/-! ### Expressions -/

/-- The variables that the expression of a directive assigns to. -/
def Slot.targets (source : String) : Slot → List String
  | .parsed _ e => e.targets
  | .raw span =>
    match Expr.parse (span.slice source) with
    | .ok e => e.targets
    | .error _ => []

/-- The variables that a loop of the template assigns to outside its rounds: in the expressions of
its sources and of its separator. -/
def Template.loopTargets (template : Template) (bindings : List LoopBinding)
    (separator : Option Slot) : List String :=
  bindings.flatMap (fun binding => binding.source.targets template.source) ++
    separator.toList.flatMap (Slot.targets template.source)

namespace Level

variable (level : Level)

private theorem keepsBinding_callBlock (name : String) (id : Nat) :
    KeepsBinding name (level.callBlock id) := by
  refine .get_bind fun s => ?_
  cases s.store.block? id with
  | none => exact .result name _
  | some block => exact .withScopes name _ _

private theorem keepsBinding_call (name : String) (callee : Value) (args : List Value) :
    KeepsBinding name (ExceptT.mk (level.call callee args)) := by
  cases callee with
  | block id _ =>
    cases args with
    | nil =>
      rw [mk_call_block]
      exact .bind (.adapt _ (.captured (level.keepsBinding_callBlock name id)))
        fun text => .result name (.ok (Value.string text))
    | cons arg args => exact .result name _
  | _ => exact .result name _

/-- An expression leaves the variables as they were that it does not assign to. -/
theorem keepsBinding_eval {name : String} {e : Expr} (h : name ∉ e.targets) :
    KeepsBinding name (e.eval level.environment) := by
  have hreads : Environment.ReadsAlike
      (fun (_ : Empty → ExceptT EvalError (StateM RenderState) _) step => KeepsBinding name step)
      (fun _ => level.environment) level.environment :=
    { result := fun _ => .result name _
      bind := fun hstep hnext => hstep.bind hnext
      lookup := fun _ => .get_bind fun _ => .result name (.ok _)
      call := level.keepsBinding_call name }
  refine Expr.corresponds_eval_of hreads e fun other hother value s => ?_
  have hne : name ≠ other := by
    rintro rfl
    exact h hother
  exact .assign hne value s

private theorem keepsBinding_evaluate {template : Template} {slot : Slot} {name : String}
    (h : name ∉ slot.targets template.source) :
    KeepsBinding name (level.evaluate template slot) := by
  cases slot with
  | parsed span e => exact .adapt _ (level.keepsBinding_eval h)
  | raw span =>
    refine .adapt _ (.adapt _ ?_)
    rw [TextTemplate.evaluateText]
    rw [Slot.targets] at h
    cases hparse : Expr.parse (span.slice template.source) with
    | error e => exact .result name (.error e)
    | ok e =>
      rw [hparse] at h
      exact level.keepsBinding_eval h

private theorem keepsBinding_evaluateText {template : Template} {slot : Slot} {name : String}
    (h : name ∉ slot.targets template.source) :
    KeepsBinding name (level.evaluateText template slot) :=
  .bind (level.keepsBinding_evaluate h) fun value => .result name (.ok value.display)

/-! ### Loops -/

private theorem keepsBinding_loopSources {template : Template} {bindings : List LoopBinding}
    {name : String} (h : ∀ binding ∈ bindings, name ∉ binding.source.targets template.source) :
    KeepsBinding name (level.loopSources template bindings) := by
  induction bindings with
  | nil => exact .result name (.ok [])
  | cons binding bindings ih =>
    refine .bind (level.keepsBinding_evaluate (h binding List.mem_cons_self)) fun value => ?_
    cases LoopSource.ofValue value with
    | error fault => exact .result name (.error fault.toError)
    | ok source =>
      exact .bind (ih fun other hother => h other (List.mem_cons_of_mem _ hother))
        fun sources => .result name (.ok ((binding.name, source) :: sources))

/-- The sources of a loop stand for its variables. -/
theorem names_of_run_loopSources {template : Template} {bindings : List LoopBinding}
    {sources : List (String × LoopSource)} {s t : RenderState}
    (h : (level.loopSources template bindings).run.run s = (.ok sources, t)) :
    sources.map Prod.fst = bindings.map LoopBinding.name := by
  induction bindings generalizing sources s t with
  | nil =>
    obtain ⟨⟨⟩, -⟩ := Prod.mk.inj h
    rfl
  | cons binding bindings ih =>
    obtain ⟨value, u, -, hrest⟩ := exists_of_run_bind h
    cases hvalue : LoopSource.ofValue value with
    | error fault => rw [hvalue] at hrest; cases hrest
    | ok source =>
      rw [hvalue] at hrest
      obtain ⟨rest, v, hrun, hlast⟩ := exists_of_run_bind hrest
      cases hlast
      rw [List.map_cons, List.map_cons, ih hrun]

/-- The scope of a round knows the variables of the loop. -/
theorem contains_scope {sources : List (String × LoopSource)} {name : String}
    (h : name ∈ sources.map Prod.fst) (round : Nat) :
    Bindings.contains (LoopSource.scope sources round) name = true := by
  obtain ⟨source, hsource, rfl⟩ := List.mem_map.1 h
  change (Bindings.find? source.1 (Bindings.ofPairs _)).isSome = true
  rw [Bindings.find?_ofPairs, Option.isSome_map, List.find?_isSome]
  refine ⟨(source.1, source.2.item round), ?_, by simp⟩
  rw [List.mem_reverse, List.mem_map]
  exact ⟨source, hsource, rfl⟩

variable {body : RenderM Unit} (hbody : Composed body)

include hbody

private theorem keepsBinding_runRounds {template : Template} {sources : List (String × LoopSource)}
    {separator : Option Slot} {name : String} (hname : name ∈ sources.map Prod.fst)
    (hseparator : ∀ slot ∈ separator, name ∉ slot.targets template.source) (round rounds : Nat) :
    KeepsBinding name (level.runRounds template sources separator body round rounds) := by
  induction rounds generalizing round with
  | zero => exact .result name (.ok ())
  | succ rounds ih =>
    rw [runRounds]
    refine .bind (hbody.sameBinding (contains_scope hname round)) fun _ => ?_
    by_cases hlast : rounds = 0
    · rw [if_neg (by simp [hlast])]
      exact ih (round + 1)
    · rw [if_pos hlast]
      cases separator with
      | none => exact ih (round + 1)
      | some slot =>
        refine .bind (level.keepsBinding_evaluateText (hseparator slot rfl)) fun text => ?_
        exact .bind (.emit name text) fun _ => ih (round + 1)

/-- A loop leaves its variables as they were, unless it assigns to them outside its rounds. -/
theorem keepsBinding_runLoop {template : Template} {bindings : List LoopBinding}
    {separator : Option Slot} {name : String} (hname : name ∈ bindings.map LoopBinding.name)
    (htargets : name ∉ template.loopTargets bindings separator) :
    KeepsBinding name (level.runLoop template bindings separator body) := by
  obtain ⟨hsources, hseparator⟩ : (∀ binding ∈ bindings,
      name ∉ binding.source.targets template.source) ∧
      ∀ slot ∈ separator, name ∉ slot.targets template.source := by
    simpa [Template.loopTargets] using htargets
  intro s
  have hopen := level.keepsBinding_loopSources hsources s
  rw [runLoop, run_bind]
  cases hrun : (level.loopSources template bindings).run.run s with
  | mk result t =>
    rw [hrun] at hopen
    cases result with
    | error e => exact hopen
    | ok sources =>
      have hsource : name ∈ sources.map Prod.fst := by
        rw [level.names_of_run_loopSources hrun]
        exact hname
      exact hopen.trans
        (level.keepsBinding_runRounds hbody hsource hseparator 0 (LoopSource.rounds sources) t)

omit hbody in
/-- Rendering a body a number of times leaves the variable that holds the number of the round. -/
theorem keepsBinding_runRepeated (hbody : Composed body) (between : String) (round rounds : Nat) :
    KeepsBinding "index" (runRepeated between body round rounds) := by
  induction rounds generalizing round with
  | zero => exact .result "index" (.ok ())
  | succ rounds ih =>
    have hscope : KeepsBinding "index"
        (RenderM.withScope [("index", .int (Int64.ofInt round))] body) := hbody.sameBinding rfl
    have hround := hscope.bind fun _ => ih (round + 1)
    rw [runRepeated]
    by_cases hfirst : round = 0
    · rw [if_neg (by simp [hfirst])]
      exact hround
    · rw [if_pos hfirst]
      exact .bind (.emit "index" between) fun _ => hround

end Level

/-! ### Assignments -/

/-- How many blocks are being called. -/
def Entrance.calls : Entrance → Nat
  | top _ _ => 0
  | file _ _ site => site.calls
  | named _ site => site.calls
  | block _ _ site => site.calls + 1

section Assignments

variable {setting : Setting} {ε α : Type} {levels : Nat} {entrance : Entrance}
  {step : ExceptT ε (StateM RenderState) α} {s : RenderState} {log : List Event}

/-- Within a step no fewer blocks are being called than where it began. -/
theorem Records.calls_le (h : Records setting levels entrance step s log) :
    ∀ event ∈ log, entrance.calls ≤ event.entrance.calls := by
  induction h with
  | result | emit => simp
  | stop _ _ ih | adapt _ _ ih | get_bind _ ih | withScope _ ih | captured _ ih => exact ih
  | next _ _ _ ih ihrest =>
    intro event hevent
    obtain hevent | hevent := List.mem_append.1 hevent
    · exact ih event hevent
    · exact ihrest event hevent
  | assign | declare | unfetched =>
    intro event hevent
    obtain rfl := List.mem_singleton.1 hevent
    exact Nat.le_refl (Entrance.calls _)
  | file _ _ hlast _ ih =>
    intro event hevent
    obtain rfl | hevent := List.mem_cons.1 hevent
    · exact Nat.le_refl (Entrance.calls _)
    · obtain ⟨below, rfl⟩ := exists_below_of_mem hlast hevent
      exact ih below rfl event hevent
  | named hlast _ ih =>
    intro event hevent
    obtain ⟨below, rfl⟩ := exists_below_of_mem hlast hevent
    exact ih below rfl event hevent
  | block _ hlast _ ih =>
    intro event hevent
    obtain ⟨below, rfl⟩ := exists_below_of_mem hlast hevent
    exact Nat.le_of_succ_le (ih below rfl event hevent)

/-- Where a step assigns outside the blocks that it calls, the scopes in which it began are still
there, below those that it has opened since, and what was shadowed in them has been kept. -/
theorem Records.exists_scopes (h : Records setting levels entrance step s log) {site : Entrance}
    {name : String} {value : Value} {state : RenderState}
    (hevent : .assign site name value state ∈ log) (hcalls : site.calls = entrance.calls) :
    ∃ inner outer, state.scopes = inner ++ outer ∧ KeepsShadowed s.scopes outer := by
  induction h with
  | result | emit | declare | unfetched => simp at hevent
  | stop _ _ ih | adapt _ _ ih | get_bind _ ih | captured _ ih => exact ih hevent hcalls
  | next hstep hruns _ ih ihrest =>
    obtain hevent | hevent := List.mem_append.1 hevent
    · exact ih hevent hcalls
    · obtain ⟨inner, outer, hscopes, houter⟩ := ihrest hevent hcalls
      have hkept := hstep.steady RenderState.steady_shadowed
      rw [hruns] at hkept
      exact ⟨inner, outer, hscopes, hkept.trans houter⟩
  | assign =>
    cases List.mem_singleton.1 hevent
    exact ⟨[], _, rfl, .refl _⟩
  | withScope _ ih =>
    obtain ⟨inner, outer, hscopes, houter⟩ := ih hevent hcalls
    obtain ⟨first, rest, rfl⟩ : ∃ first rest, outer = first :: rest :=
      List.exists_cons_of_length_pos (houter.length_eq ▸ Nat.succ_pos _)
    exact ⟨inner ++ [first], rest, by rw [hscopes, List.append_assoc]; rfl, houter.tail⟩
  | file _ hfetches hlast _ ih =>
    obtain hevent | hevent := List.mem_cons.1 hevent
    · cases hevent
    · obtain ⟨below, rfl⟩ := exists_below_of_mem hlast hevent
      obtain ⟨inner, outer, hscopes, houter⟩ := ih below rfl hevent hcalls
      have hkept := Level.steady_fetchFile RenderState.steady_shadowed hfetches
      exact ⟨inner, outer, hscopes, hkept.trans houter⟩
  | named hlast _ ih =>
    obtain ⟨below, rfl⟩ := exists_below_of_mem hlast hevent
    exact ih below rfl hevent hcalls
  | block _ hlast hinside _ =>
    obtain ⟨below, rfl⟩ := exists_below_of_mem hlast hevent
    -- A block is being called here that was not being called where the step began.
    have hle := (hinside below rfl).calls_le _ hevent
    change _ + 1 ≤ site.calls at hle
    omega

/-- What an assignment does whose name an inner scope knows: nothing outside that scope. -/
theorem RenderState.assign_of_knows {inner outer : List Scope} {name : String}
    (hscopes : s.scopes = inner ++ outer) (hknown : Knows inner name) (value : Value) :
    (s.assign name value).resolver = s.resolver ∧
      (s.assign name value).scopes.drop inner.length = outer := by
  obtain ⟨inner', hrebind, hlength⟩ := exists_rebind?_append hknown value outer
  rw [assign, hscopes, hrebind]
  exact ⟨rfl, by rw [← hlength, List.drop_left]⟩

end Assignments

/-! ### Nodes of a template -/

/-- The variables of a loop, and those with which a custom directive renders its body, do not leak.
Whatever the body does and whether it fails or not, every scope that there was before binds them
afterwards to what it bound them to. So does the whole loop, for a variable to which its sources and
its separator do not assign: these are evaluated outside the rounds. Where the body assigns, itself
or in a template that it includes, the scopes that there were before still bind the variables to the
same values; and an assignment to one of the variables changes none of these scopes and does not
reach the resolver. -/
theorem loop_variables_confined (setting : Setting) (levels left place : Nat) (entrance : Entrance)
    (node : Node) :
    let level := Level.above setting levels
    let template := entrance.template
    let body := level.chain template left node.kind.nested?
    let run := level.runNode template (level.chain template left) left place node
    (∀ (scope : Scope) (s : RenderState) name, scope.contains name = true →
      SameBinding name s.scopes ((RenderM.withScope scope body).run.run s).2.scopes) ∧
    (∀ tracks n s result t, LoopStep.Runs level template tracks body (.round n) s result t →
      ∀ track ∈ tracks, SameBinding track.name s.scopes t.scopes) ∧
    (∀ bindings separator, node.kind.opener? = some (.loop bindings separator) →
      ∀ name ∈ bindings.map LoopBinding.name,
        name ∉ template.loopTargets bindings separator → KeepsBinding name run) ∧
    (∀ count, node.kind.opener? = some (.custom (.repeated count)) → KeepsBinding "index" run) ∧
    ∀ (scope : Scope) (s : RenderState),
      (∃ log, Records setting levels entrance body (s.pushScope scope) log) ∧
      ∀ log, Records setting levels entrance body (s.pushScope scope) log →
        ∀ site name value state, .assign site name value state ∈ log →
          site.calls = entrance.calls →
            ∃ inner outer, state.scopes = inner ++ outer ∧ outer.length = s.scopes.length ∧
              (∀ other, scope.contains other = true → Knows inner other ∧
                SameBinding other s.scopes outer ∧
                SameBinding other outer ((state.assign name value).scopes.drop inner.length)) ∧
              (scope.contains name = true →
                (state.assign name value).scopes.drop inner.length = outer ∧
                (state.assign name value).resolver = state.resolver) := by
  intro level template body run
  have hbody : Composed body :=
    Level.related_chain Composed.congruence (Level.isComposed_above setting levels) left _
  refine ⟨fun scope s name hname => hbody.sameBinding hname s, ?_, ?_, ?_, fun scope s => ⟨?_, ?_⟩⟩
  · rintro tracks n s result t hround track htrack
    cases hround with
    | @round _ scope _ t _ hbound hruns _ =>
      have hname : scope.contains track.name = true := by
        rw [Bindings.contains, hbound, Track.bound?, Option.isSome_map, List.find?_isSome]
        exact ⟨track, List.mem_reverse.2 htrack, by simp⟩
      have hkept := hbody.sameBinding hname s
      have hlast : (body.run.run (s.pushScope scope)).2 = t := congrArg Prod.snd hruns
      change SameBinding _ _ ((body.run.run (s.pushScope scope)).2.scopes.drop 1) at hkept
      rwa [hlast] at hkept
  · intro bindings separator hopener name hname htargets s
    rw [Level.run_runNode_loop hopener rfl]
    exact level.keepsBinding_runLoop hbody hname htargets s
  · intro count hopener
    change KeepsBinding "index" (level.runNode template (level.chain template left) left place node)
    rw [Level.runNode]
    cases hkind : node.kind with
    | block opener nested alternative terminus =>
      have hnested : node.kind.nested? = nested := by rw [hkind]; rfl
      rw [hkind] at hopener
      cases hopener
      refine .bind ?_ fun _ => .result "index" (.ok _)
      exact Level.keepsBinding_runRepeated (hnested ▸ hbody) _ 0 _
    | _ => rw [hkind] at hopener; cases hopener
  · exact Level.exists_records_chain setting levels entrance left node.kind.nested?
      (s.pushScope scope)
  · intro log hlog site name value state hevent hcalls
    obtain ⟨inner, kept, hscopes, hkept⟩ := hlog.exists_scopes hevent hcalls
    obtain ⟨round, outer, rfl⟩ : ∃ round outer, kept = round :: outer :=
      List.exists_cons_of_length_pos (hkept.length_eq ▸ Nat.succ_pos _)
    have hsplit : state.scopes = (inner ++ [round]) ++ outer := by
      rw [hscopes, List.append_assoc]
      rfl
    have hknown {other : String} (hother : scope.contains other = true) :
        Knows (inner ++ [round]) other := by
      obtain ⟨_, hmem, hround⟩ := hkept.knows List.singleton_append.symm
        ⟨scope, List.mem_singleton_self scope, hother⟩
      exact ⟨_, List.mem_append_right inner hmem, hround⟩
    have hassigned (h : scope.contains name = true) :=
      RenderState.assign_of_knows hsplit (hknown h) value
    refine ⟨inner ++ [round], outer, hsplit, Nat.succ.inj hkept.length_eq, fun other hother =>
      ⟨hknown hother, ?_, ?_⟩, fun h => (hassigned h).symm⟩
    · exact hkept.outside hother
    · by_cases hname : other = name
      · subst hname
        rw [(hassigned hother).2]
        exact .refl other outer
      · have hdrop := (SameBinding.assign hname value state).drop (inner ++ [round]).length
        rw [hsplit, List.drop_left] at hdrop
        exact hdrop

/-- The separator assigns to the variable of the loop, and it does so where the loop stands: the
variable is bound there to another value after the loop. -/
theorem loop_variable_assigned_by_separator :
    ∃ (template : Template) (store : Store) (first node : Node) (bindings : List LoopBinding)
      (separator : Option Slot),
      let level := Level.above ⟨.null, none, .empty, 1⟩ 1
      let run (place : Nat) (node : Node) (s : RenderState) :=
        ((level.runNode template (level.chain template 9) 9 place node).run.run s).2
      let s := run 0 first (RenderOptions.initial {} template store .collector)
      Store.empty.compile ⟨.compiled, []⟩ "@code{i = 1}@foreach{i : 2}x@end{i = 7}@{i}" none =
        .ok (template, store) ∧
      template.program.node? 0 = some first ∧ first.next = some 1 ∧
      template.program.node? 1 = some node ∧
      node.kind.opener? = some (.loop bindings separator) ∧ "i" ∈ bindings.map LoopBinding.name ∧
      (template.renderText {} .empty store).result = .ok "x7x7" ∧
      ¬ SameBinding "i" s.scopes (run 1 node s).scopes := by
  let level := Level.above ⟨.null, none, .empty, 1⟩ 1
  let run (template : Template) (place : Nat) (node : Node) (s : RenderState) :=
    ((level.runNode template (level.chain template 9) 9 place node).run.run s).2
  let shown (s : RenderState) : List (Option String) :=
    s.scopes.map fun scope => (scope.find? "i").map Value.display
  obtain ⟨⟨template, store⟩, hcompile, hrun⟩ := Attempt.exists_eq_ok_and
    (x := Store.empty.compile ⟨.compiled, []⟩ "@code{i = 1}@foreach{i : 2}x@end{i = 7}@{i}" none)
    (p := fun loaded => decide (
      (((loaded.1.program.node? 0).bind fun first => (loaded.1.program.node? 1).bind fun node =>
        (node.kind.opener?.bind Opener.loop?).map fun parts =>
          let s := run loaded.1 0 first (RenderOptions.initial {} loaded.1 loaded.2 .collector)
          (first.next, parts.1.map LoopBinding.name, shown s, shown (run loaded.1 1 node s))) =
        some (some 1, ["i"], [some "1"], [some "7"])) ∧
      (loaded.1.renderText {} .empty loaded.2).result = .ok "x7x7")) (by decide +kernel)
  obtain ⟨hnodes, htext⟩ := of_decide_eq_true hrun
  obtain ⟨first, hfirst, hnodes⟩ := Option.bind_eq_some_iff.1 hnodes
  obtain ⟨node, hnode, hnodes⟩ := Option.bind_eq_some_iff.1 hnodes
  obtain ⟨⟨bindings, separator⟩, hopener, hshown⟩ := Option.map_eq_some_iff.1 hnodes
  obtain ⟨opener, hopener, hparts⟩ := Option.bind_eq_some_iff.1 hopener
  obtain rfl := Opener.eq_of_loop? hparts
  simp only [Prod.mk.injEq] at hshown
  obtain ⟨hnext, hbindings, hbefore, hafter⟩ := hshown
  refine ⟨template, store, first, node, bindings, separator, hcompile, hfirst, hnext, hnode,
    hopener, ?_, htext, fun hsame => ?_⟩
  · rw [hbindings]
    exact List.mem_singleton_self "i"
  · have hshows : shown (run template 1 node (run template 0 first
        (RenderOptions.initial {} template store .collector))) =
        shown (run template 0 first (RenderOptions.initial {} template store .collector)) := by
      have hmap := congrArg (List.map (Option.map Value.display)) hsame.map_find?
      rwa [List.map_map, List.map_map] at hmap
    rw [hafter, hbefore] at hshows
    exact absurd hshows (by decide)

/-- The literal that the node of a piece of code assigns, with the variable, if it does nothing
else. -/
def NodeKind.assigned? : NodeKind → Option (String × Literal)
  | .action (.code (.parsed _ (.assign name none (.literal l)))) => some (name, l)
  | _ => none

private theorem NodeKind.exists_of_assigned? {kind : NodeKind} {name : String} {l : Literal}
    (h : kind.assigned? = some (name, l)) :
    ∃ span, kind = .action (.code (.parsed span (.assign name none (.literal l)))) := by
  rw [assigned?.eq_def] at h
  split at h
  · cases h
    exact ⟨_, rfl⟩
  · cases h

/-- What the node of a piece of code does that assigns a literal. -/
theorem Level.records_assigned {setting : Setting} {levels : Nat} {entrance : Entrance}
    {runBody : Option Nat → RenderM Unit} {left place : Nat} {node : Node} {name : String}
    {l : Literal} (h : node.kind.assigned? = some (name, l)) (s : RenderState) :
    Records setting levels entrance
      ((Level.above setting levels).runNode entrance.template runBody left place node) s
      [.assign entrance name l.value s] := by
  obtain ⟨span, hkind⟩ := NodeKind.exists_of_assigned? h
  rw [runNode, hkind]
  have heval : Records setting levels entrance
      ((Expr.assign name none (.literal l)).eval (Level.above setting levels).environment) s
      [.assign entrance name l.value s] :=
    .next (.result levels entrance (.ok l.value) s) rfl
      (.next (.result levels entrance (.ok l.value) s) rfl
        (.next (.assign levels entrance name l.value s) rfl
          (.result levels entrance (.ok l.value) _)))
  have hcode : Records setting levels entrance
      ((Level.above setting levels).runAction entrance.template place node.body
        (.code (.parsed span (.assign name none (.literal l))))) s
      [.assign entrance name l.value s] := by
    rw [runAction, discard_eq_bind]
    exact .next (.adapt _ heval) rfl (.result levels entrance (.ok ()) _)
  exact .next hcode rfl (.result levels entrance (.ok node.next) _)

private theorem Level.run_runNode_assigned {level : Level} {template : Template}
    {runBody : Option Nat → RenderM Unit} {left place : Nat} {node : Node} {name : String}
    {l : Literal} (h : node.kind.assigned? = some (name, l)) (s : RenderState) :
    (level.runNode template runBody left place node).run.run s =
      (.ok node.next, s.assign name l.value) := by
  obtain ⟨span, hkind⟩ := NodeKind.exists_of_assigned? h
  rw [runNode, hkind]
  rfl

/-- In a loop the body assigns to the variable of the loop, which no scope outside keeps. -/
theorem loop_variables_confined_assigned :
    ∃ (template : Template) (store : Store) (node : Node) (bindings : List LoopBinding)
      (separator : Option Slot) (log : List Event) (value : Value) (state : RenderState),
      Store.empty.compile ⟨.compiled, []⟩ "@foreach{i : 1}@code{i = 5}@end{}" none =
        .ok (template, store) ∧
      template.program.node? 0 = some node ∧
      node.kind.opener? = some (.loop bindings separator) ∧
      "i" ∈ bindings.map LoopBinding.name ∧ "i" ∉ template.loopTargets bindings separator ∧
      KeepsBinding "i" ((Level.above ⟨.null, none, .empty, 1⟩ 1).runNode template
        ((Level.above ⟨.null, none, .empty, 1⟩ 1).chain template 9) 9 0 node) ∧
      Records ⟨.null, none, .empty, 1⟩ 1 (.top template none)
        ((Level.above ⟨.null, none, .empty, 1⟩ 1).chain template 9 node.kind.nested?)
        ((RenderOptions.initial {} template store .collector).pushScope [("i", .int 0)]) log ∧
      .assign (.top template none) "i" value state ∈ log ∧
      (state.assign "i" value).resolver = state.resolver := by
  obtain ⟨⟨template, store⟩, hcompile, hloop⟩ := Attempt.exists_eq_ok_and
    (x := Store.empty.compile ⟨.compiled, []⟩ "@foreach{i : 1}@code{i = 5}@end{}" none)
    (p := fun loaded => decide (
      ((loaded.1.program.node? 0).bind fun node =>
        (node.kind.opener?.bind Opener.loop?).bind fun parts =>
          ((node.kind.nested?.bind loaded.1.program.node?).bind fun inner =>
            inner.kind.assigned?).map fun assigned =>
              (parts.1.map LoopBinding.name, loaded.1.loopTargets parts.1 parts.2, assigned.1)) =
        some (["i"], [], "i"))) (by decide +kernel)
  obtain ⟨node, hnode, hloop⟩ := Option.bind_eq_some_iff.1 (of_decide_eq_true hloop)
  obtain ⟨⟨bindings, separator⟩, hopener, hloop⟩ := Option.bind_eq_some_iff.1 hloop
  obtain ⟨⟨name, l⟩, hinner, hnames⟩ := Option.map_eq_some_iff.1 hloop
  obtain ⟨inner, hplace, hassigned⟩ := Option.bind_eq_some_iff.1 hinner
  obtain ⟨place, hnested, hplace⟩ := Option.bind_eq_some_iff.1 hplace
  obtain ⟨opener, hopener, hparts⟩ := Option.bind_eq_some_iff.1 hopener
  obtain rfl := Opener.eq_of_loop? hparts
  obtain ⟨hbindings, htargets, hname⟩ : bindings.map LoopBinding.name = ["i"] ∧
      template.loopTargets bindings separator = [] ∧ name = "i" := by
    simpa using hnames
  subst hname
  have hmem : "i" ∈ bindings.map LoopBinding.name := by
    rw [hbindings]
    exact List.mem_singleton_self "i"
  have hfree : "i" ∉ template.loopTargets bindings separator := by
    rw [htargets]
    exact List.not_mem_nil
  obtain ⟨-, -, hkeeps, -, hassigns⟩ := loop_variables_confined ⟨.null, none, .empty, 1⟩ 1 9 0
    (.top template none) node
  let start := RenderOptions.initial {} template store .collector
  obtain ⟨log, hlog⟩ := Level.exists_records_chain ⟨.null, none, .empty, 1⟩ 1 (.top template none)
    8 inner.next ((start.pushScope [("i", .int 0)]).assign "i" l.value)
  have hbody : Records ⟨.null, none, .empty, 1⟩ 1 (.top template none)
      ((Level.above ⟨.null, none, .empty, 1⟩ 1).chain template 9 node.kind.nested?)
      (start.pushScope [("i", .int 0)])
      ([.assign (.top template none) "i" l.value (start.pushScope [("i", .int 0)])] ++ log) := by
    rw [hnested, Level.chain]
    simp only [hplace]
    refine .next (.adapt _ (Level.records_assigned hassigned _)) ?_ hlog
    rw [Level.located, run_adapt, Level.run_runNode_assigned hassigned]
    rfl
  obtain ⟨-, hassigns⟩ := hassigns [("i", .int 0)] start
  obtain ⟨_, _, -, -, -, hlast⟩ := hassigns _ hbody _ "i" l.value _
    (List.mem_append_left _ (List.mem_singleton_self _)) rfl
  exact ⟨template, store, node, bindings, separator, _, l.value, _, hcompile, hnode, hopener,
    hmem, hfree, hkeeps bindings separator hopener "i" hmem hfree, hbody,
    List.mem_append_left _ (List.mem_singleton_self _), (hlast rfl).2⟩

end TextTemplate
