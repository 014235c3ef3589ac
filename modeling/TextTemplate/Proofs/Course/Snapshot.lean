import TextTemplate.Proofs.Course.Declared
import TextTemplate.Proofs.Course.Stacks

/-!
# Blocks are closed

A declared block keeps the scopes and the directory of the moment in which it is declared, and runs
in them whenever it is rendered, however much later that is. Blocks that are kept are never changed;
new ones are only put behind them. And where a block is rendered, the scopes and the directories of
that place are set aside and brought back.

## Main definitions

* `RenderState.SetsAside`: states that differ in nothing of the caller of a block.
* `RenderState.Later`: a state later on in the same render or in one that comes after it.
* `RenderState.RunsAsDeclared`: a block is run in what was known where it was declared.

## Main results

* `RenderState.Later.blocks_prefix`: the blocks that there are stay as they are.
* `Level.setsAside_callBlock`: rendering a block, whether it fails or not.
* `closed_snapshot`: a block changes nothing of its caller, and it runs in the scopes and the
  directory of its declaration.
-/

namespace TextTemplate

/-! ### Blocks that are kept -/

/-- Every step keeps the blocks that there are. -/
theorem RenderState.steady_blocks :
    Steady fun s t => s.store.blocks.toList <+: t.store.blocks.toList where
  refl _ := List.prefix_rfl
  trans := List.IsPrefix.trans
  caches _ _ := List.prefix_rfl
  assign s name value := by
    unfold assign
    split
    · exact List.prefix_rfl
    · split <;> exact List.prefix_rfl
  declare s name template place := by
    change _ <+: (s.store.blocks.push _).toList
    rw [Array.toList_push]
    exact List.prefix_append _ _
  sink _ _ := List.prefix_rfl
  withScope h := h
  withDir h := h
  withScopes h := h

private theorem Passes.blocks_prefix {ε α : Type} {step : ExceptT ε (StateM RenderState) α}
    {s t : RenderState} (h : Passes step s t) :
    s.store.blocks.toList <+: t.store.blocks.toList :=
  h.keeps (P := fun t => s.store.blocks.toList <+: t.store.blocks.toList)
    (fun {_ _ _ t} hstep ht => ht.trans (hstep.steady RenderState.steady_blocks t))
    (fun _ _ => id) (fun _ _ => id) (fun _ _ => id) (fun _ => id) List.prefix_rfl

/-- The second state comes later than the first, in the same render or in one that comes after it.
In between, steps are run and other steps are begun, and what they are part of is left; and other
renders start, of any template and with any options, where blocks are kept and caches may not be. -/
inductive RenderState.Later (before : RenderState) : RenderState → Prop
  | here : Later before before
  | passes {ε α : Type} {step : ExceptT ε (StateM RenderState) α} {s t : RenderState} :
      Later before s → Passes step s t → Later before t
  | leaves {s : RenderState} (scopes : List Scope) (dirs : List Path) (sink : Sink) :
      Later before s → Later before { s with scopes, dirs, sink }
  | renders {s : RenderState} (template : Template) (options : RenderOptions)
      (caches : Array IncludeCache) (sink : Sink) :
      Later before s →
        Later before (options.initial template { s.store with caches } sink)

/-- The blocks that there are stay as they are. -/
theorem RenderState.Later.blocks_prefix {before s : RenderState} (h : before.Later s) :
    before.store.blocks.toList <+: s.store.blocks.toList := by
  induction h with
  | here => exact List.prefix_rfl
  | passes _ hstep ih => exact ih.trans hstep.blocks_prefix
  | leaves _ _ _ _ ih | renders _ _ _ _ _ ih => exact ih

private theorem Store.block?_of_prefix {store store' : Store}
    (h : store.blocks.toList <+: store'.blocks.toList) {id : Nat} {block : DeclaredBlock}
    (hblock : store.block? id = some block) : store'.block? id = some block := by
  obtain ⟨more, hmore⟩ := h
  rw [block?, ← Array.getElem?_toList] at hblock ⊢
  rw [← hmore, List.getElem?_append_left (List.getElem?_eq_some_iff.1 hblock).1, hblock]

/-- Later on, a block is still what it was when it was declared. -/
theorem RenderState.Later.block?_declare {s t : RenderState} {name : String} {template : Template}
    {place : Nat} (h : (s.declare name template place).Later t) :
    t.store.block? s.store.blocks.size =
      some ⟨name, template, place, s.scopes, s.currentDir⟩ := by
  refine Store.block?_of_prefix h.blocks_prefix ?_
  exact (Store.block?_addBlock s.store _ _).trans (if_pos rfl)

/-! ### The caller of a block -/

/-- Nothing of the caller of a block is changed: there are the same scopes and directories, and the
blocks that there were. The states may differ in the resolver, in the table of declared blocks, in
the include caches, in the blocks that are new, and in the sink. -/
structure RenderState.SetsAside (s t : RenderState) : Prop where
  scopes : t.scopes = s.scopes
  dirs : t.dirs = s.dirs
  blocks : s.store.blocks.toList <+: t.store.blocks.toList

namespace Level

variable (setting : Setting) (levels : Nat)

/-- Rendering a block changes nothing of its caller, whether it fails or not. -/
theorem setsAside_callBlock (id : Nat) (s : RenderState) :
    s.SetsAside (((above setting levels).callBlock id).run.run s).2 where
  scopes := by
    rw [callBlock, run_get_bind]
    cases s.store.block? id <;> rfl
  dirs := ((composed_callBlock (isComposed_above setting levels) id).steady
    RenderState.steady_balanced s).dirs
  blocks := (composed_callBlock (isComposed_above setting levels) id).steady
    RenderState.steady_blocks s

/-- A block that is called changes nothing of its caller, and writes nothing. -/
theorem setsAside_call (callee : Value) (args : List Value) (s : RenderState) :
    s.SetsAside (((above setting levels).call callee args).run s).2 ∧
      (((above setting levels).call callee args).run s).2.sink = s.sink := by
  cases callee with
  | block id name =>
    cases args with
    | nil =>
      -- The block does the same whatever the sink, and the caller's sink is brought back.
      obtain ⟨pieces, result, t, hwrites⟩ := related_callBlock congruence_emits
        (related_above congruence_emits setting levels) id s
      have hrun : ((above setting levels).callBlock id).run.run { s with sink := .collector } =
          (result, { t with sink := .text (String.join pieces) }) := by
        refine hwrites.taken ?_
        rw [Sink.collector, Sink.appendAll_text, String.empty_append]
      have hkept := setsAside_callBlock setting levels id { s with sink := .collector }
      rw [hrun] at hkept
      rw [run_call_block _ hwrites]
      exact ⟨⟨hkept.scopes, hkept.dirs, hkept.blocks⟩, rfl⟩
    | cons arg args => exact ⟨⟨rfl, rfl, List.prefix_rfl⟩, rfl⟩
  | _ => exact ⟨⟨rfl, rfl, List.prefix_rfl⟩, rfl⟩

/-- A block is run in the scopes and the directory that it keeps, and then those of its caller are
brought back. -/
theorem run_callBlock_of_run_body {id : Nat} {block : DeclaredBlock} {s t : RenderState}
    {result : Except TemplateError Unit} (hblock : s.store.block? id = some block)
    (hrun : ((above setting levels).runPart block.template (.bodyAt block.place)).run.run
      { s with scopes := [] :: block.scopes, dirs := block.dir :: s.dirs } = (result, t)) :
    ((above setting (levels + 1)).callBlock id).run.run s =
      (result, { t with scopes := s.scopes, dirs := s.dirs }) := by
  have hdirs := ((composed_runPart (isComposed_above setting levels) block.template
    (.bodyAt block.place)).steady RenderState.steady_balanced
      { s with scopes := [] :: block.scopes, dirs := block.dir :: s.dirs }).dirs
  rw [hrun] at hdirs
  have hpop : t.popDir = { t with dirs := s.dirs } := by
    rw [RenderState.popDir, hdirs]
    rfl
  have henter : ((above setting (levels + 1)).enter block.template (.bodyAt block.place)
      block.dir).run.run { s with scopes := [] :: block.scopes } =
        (result, { t with dirs := s.dirs }) := by
    rw [← hpop]
    exact congrArg (fun after : Except TemplateError Unit × RenderState =>
      (after.1, after.2.popDir)) hrun
  rw [callBlock, run_get_bind, hblock]
  exact congrArg (fun after : Except TemplateError Unit × RenderState =>
    (after.1, { after.2 with scopes := s.scopes })) henter

end Level

/-! ### Blocks and their declarations -/

/-- The state at the start of the body of a block that was declared in the first state and is
rendered in the second. -/
def RenderState.atBody (declared s : RenderState) : RenderState :=
  { s with scopes := [] :: declared.scopes, dirs := declared.currentDir :: s.dirs }

/-- The block that was declared in the first state, rendered in the second: it is what is run in the
scopes and the directory of the declaration, at every level of every setting. -/
structure RenderState.RunsAsDeclared (declared : RenderState) (template : Template) (place : Nat)
    (s : RenderState) : Prop where
  /-- What the scopes knew has the same value at the start of the body. -/
  lookup {setting : Setting} {name : String} {value : Value} :
    lookupScopes name declared.scopes = some value →
      (declared.atBody s).lookup setting name = some value
  /-- Blocks among these values are still the same blocks. -/
  block {id : Nat} {block : DeclaredBlock} :
    declared.store.block? id = some block → (declared.atBody s).store.block? id = some block
  /-- On the last level the block is refused. -/
  refused (setting : Setting) :
    ((Level.above setting 0).callBlock declared.store.blocks.size).run.run s =
      (.error (RenderFault.recursionLimit setting.limit).toError, s)
  /-- On every other level the body is run, and the caller is then as it was. -/
  runs {setting : Setting} {levels : Nat} {result : Except TemplateError Unit} {t : RenderState} :
    ((Level.above setting levels).runPart template (.bodyAt place)).run.run (declared.atBody s) =
        (result, t) →
      ((Level.above setting (levels + 1)).callBlock declared.store.blocks.size).run.run s =
        (result, { t with scopes := s.scopes, dirs := s.dirs })
  /-- Wherever the body gets to, includes are joined to the directory of the declaration, except in
  what it includes and calls itself. -/
  currentDir {setting : Setting} {levels : Nat} {t : RenderState} :
    Descends setting levels ((Level.above setting levels).runPart template (.bodyAt place))
        (declared.atBody s) 0 t →
      t.currentDir = declared.currentDir

private theorem lookupScopes_nil_cons (name : String) (scopes : List Scope) :
    RenderState.lookupScopes name ([] :: scopes) = RenderState.lookupScopes name scopes :=
  rfl

/-- A block runs as it was declared, whatever comes in between. -/
theorem RenderState.Later.runsAsDeclared {declared s : RenderState} {name : String}
    {template : Template} {place : Nat} (h : (declared.declare name template place).Later s) :
    declared.RunsAsDeclared template place s where
  lookup hvalue := by
    rw [RenderState.lookup, atBody, lookupScopes_nil_cons, hvalue]
    rfl
  block hblock := by
    refine Store.block?_of_prefix ?_ hblock
    exact (steady_blocks.declare declared name template place).trans h.blocks_prefix
  refused setting := by
    rw [Level.callBlock, run_get_bind, h.block?_declare]
    rfl
  runs := Level.run_callBlock_of_run_body _ _ h.block?_declare
  currentDir hdescends := by
    obtain ⟨inner, hdirs, hinner⟩ := hdescends.exists_dirs
    obtain rfl := List.length_eq_zero_iff.1 hinner
    rw [RenderState.currentDir, hdirs]
    rfl

/-- A declared block is closed. Calling it, or including it by name, changes nothing of the caller,
whether it fails or not; a call does not write either. And whatever happens between its declaration
and the moment when it is rendered, it runs as it was declared. -/
theorem closed_snapshot :
    (∀ (setting : Setting) (levels : Nat) (callee : Value) (args : List Value) (s : RenderState),
      s.SetsAside (((Level.above setting levels).call callee args).run s).2 ∧
        (((Level.above setting levels).call callee args).run s).2.sink = s.sink) ∧
    (∀ (setting : Setting) (levels : Nat) (owner : Template) (target : Slot) (pre : Option Slot)
      (before s : RenderState) (name : String) (id : Nat),
      ((Level.above setting levels).includedName owner target pre).run.run before = (.ok name, s) →
      s.declared[name]? = some id →
      s.SetsAside (((Level.above setting levels).includeNamed owner target pre).run.run before).2) ∧
    ∀ (declared s : RenderState) (name : String) (template : Template) (place : Nat),
      (declared.declare name template place).Later s →
        declared.RunsAsDeclared template place s := by
  refine ⟨Level.setsAside_call, fun setting levels owner target pre before s name id hname
    hdeclared => ?_, fun _ _ _ _ _ hlater => hlater.runsAsDeclared⟩
  rw [Level.run_includeNamed _ hname hdeclared]
  exact Level.setsAside_callBlock setting levels id s

/-- A block is declared where a variable is 1 and kept for a later render, where the variable is 2:
it still writes 1. -/
theorem closed_snapshot_kept_block :
    ∃ (template : Template) (store : Store) (declared s : RenderState),
      Store.empty.compile ⟨.compiled, []⟩ "@declare\x7b'f'\x7d@{x}@end{}" none =
        .ok (template, store) ∧
      (declared.declare "f" template 0).Later s ∧
      RenderState.lookupScopes "x" declared.scopes = some (.int 1) ∧
      s.lookup ⟨.null, none, .empty, 1⟩ "x" = some (.int 2) ∧
      declared.RunsAsDeclared template 0 s ∧
      (((Level.above ⟨.null, none, .empty, 1⟩ 1).callBlock 0).run.run s).2.sink.collected =
        "1" := by
  let declared (loaded : Template × Store) : RenderState :=
    (RenderOptions.initial {} loaded.1 loaded.2 .collector).assign "x" (.int 1)
  let later (loaded : Template × Store) : RenderState :=
    RenderOptions.initial { resolver := .writable [("x", .int 2)] } loaded.1
      (((declared loaded).declare "f" loaded.1 0).assign "x" (.int 3)).store .collector
  obtain ⟨⟨template, store⟩, hcompile, hwritten⟩ := Attempt.exists_eq_ok_and
    (x := Store.empty.compile ⟨.compiled, []⟩ "@declare\x7b'f'\x7d@{x}@end{}" none)
    (p := fun loaded =>
      (((Level.above ⟨.null, none, .empty, 1⟩ 1).callBlock 0).run.run
        (later loaded)).2.sink.collected = "1") (by decide +kernel)
  have hassign : Composed (modify (·.assign "x" (.int 3)) : RenderM Unit) := .assign "x" (.int 3)
  have hlater : ((declared (template, store)).declare "f" template 0).Later
      (later (template, store)) :=
    .renders template _ _ .collector (.passes .here (.finish hassign _))
  exact ⟨template, store, _, _, hcompile, hlater, rfl, rfl, closed_snapshot.2.2 _ _ _ _ _ hlater,
    of_decide_eq_true hwritten⟩

end TextTemplate
