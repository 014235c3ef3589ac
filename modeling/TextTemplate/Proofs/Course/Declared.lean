import TextTemplate.Proofs.Attempt
import TextTemplate.Proofs.Course.Output
import TextTemplate.Proofs.Course.Passes
import TextTemplate.Proofs.Simulation.Walk

/-!
# Two ways to a declared block

A declared block is kept under its name in two places: among the variables, as a value that can be
called, and in the table that includes by name look into. The table is never left with a scope: it
always leads to the block that was declared last under a name. Where the variable does too, a call
gives the text that the include writes.

## Main definitions

* `Store.IsLatest`: the block that was declared last under a name.
* `RenderState.Tracks`: the table of declared blocks leads to the latest ones.

## Main results

* `Template.Reaches.tracks`: it does so in every state of a render.
* `Template.Reaches.includeNamed_writes_call`: an include by name writes what a call gives.
-/

namespace TextTemplate

/-! ### The latest block of a name -/

/-- The block was declared under the name when there were at least so many blocks, and none was
declared under it later. -/
structure Store.IsLatest (store : Store) (since : Nat) (name : String) (id : Nat) : Prop where
  since_le : since ≤ id
  named : (store.block? id).map DeclaredBlock.name = some name
  latest {id' : Nat} : id < id' → (store.block? id').map DeclaredBlock.name ≠ some name

namespace Store

variable {store : Store} {since : Nat} {name name' : String} {id id' : Nat}

private theorem IsLatest.lt_size (h : store.IsLatest since name id) : id < store.blocks.size := by
  obtain ⟨block, hblock, -⟩ := Option.map_eq_some_iff.1 h.named
  exact (Array.getElem?_eq_some_iff.1 hblock).1

private theorem IsLatest.eq (h : store.IsLatest since name id)
    (h' : store.IsLatest since name id') :
    id = id' := by
  rcases Nat.lt_trichotomy id id' with hlt | heq | hgt
  · exact absurd h'.named (h.latest hlt)
  · exact heq
  · exact absurd h.named (h'.latest hgt)

/-- The blocks after one more is declared. -/
theorem block?_addBlock (store : Store) (block : DeclaredBlock) (id : Nat) :
    (store.addBlock block).2.block? id =
      if id = store.blocks.size then some block else store.block? id := by
  rw [block?, addBlock, Array.getElem?_push]
  rfl

/-- Under the name of a block that is declared, this block is the latest. -/
theorem isLatest_addBlock (block : DeclaredBlock) (hsince : since ≤ store.blocks.size) :
    (store.addBlock block).2.IsLatest since block.name store.blocks.size where
  since_le := hsince
  named := by rw [block?_addBlock, if_pos rfl, Option.map_some]
  latest {id'} hlt := by
    have hnone : store.block? id' = none := Array.getElem?_eq_none (Nat.le_of_lt hlt)
    rw [block?_addBlock, if_neg (Nat.ne_of_gt hlt), hnone]
    exact nofun

/-- Under another name, the latest block stays the same. -/
theorem isLatest_addBlock_iff {block : DeclaredBlock} (hname : block.name ≠ name) :
    (store.addBlock block).2.IsLatest since name id ↔ store.IsLatest since name id := by
  have hblock (id : Nat) :
      ((store.addBlock block).2.block? id).map DeclaredBlock.name = some name ↔
        (store.block? id).map DeclaredBlock.name = some name := by
    rw [block?_addBlock]
    split_ifs with hid
    · have hnone : store.block? id = none := Array.getElem?_eq_none (Nat.le_of_eq hid.symm)
      simp [hnone, hname]
    · exact Iff.rfl
  constructor
  · rintro ⟨hsince, hnamed, hlatest⟩
    exact ⟨hsince, (hblock id).1 hnamed, fun hlt => (hblock _).not.1 (hlatest hlt)⟩
  · rintro ⟨hsince, hnamed, hlatest⟩
    exact ⟨hsince, (hblock id).2 hnamed, fun hlt => (hblock _).not.2 (hlatest hlt)⟩

end Store

/-! ### The table of declared blocks -/

/-- The table of declared blocks leads to the blocks that were declared last under their names since
there were so many blocks. -/
structure RenderState.Tracks (since : Nat) (s : RenderState) : Prop where
  since_le : since ≤ s.store.blocks.size
  declared_eq_iff (name : String) (id : Nat) :
    s.declared[name]? = some id ↔ s.store.IsLatest since name id

private theorem getElem?_insert_declared (declared : Std.TreeMap String Nat) (name other : String)
    (id : Nat) :
    (declared.insert name id)[other]? = if name = other then some id else declared[other]? := by
  rw [Std.TreeMap.getElem?_insert]
  simp only [Std.compare_eq_iff_eq]

/-- A declaration makes its block the latest of its name, in the store and in the table. -/
theorem RenderState.Tracks.declare {since : Nat} {s : RenderState} (h : s.Tracks since)
    (name : String) (template : Template) (place : Nat) :
    (s.declare name template place).Tracks since where
  since_le := by
    have hsize : (s.declare name template place).store.blocks.size = s.store.blocks.size + 1 :=
      Array.size_push _
    have hsince := h.since_le
    omega
  declared_eq_iff other id := by
    change (s.declared.insert name s.store.blocks.size)[other]? = some id ↔
      (s.store.addBlock ⟨name, template, place, s.scopes, s.currentDir⟩).2.IsLatest since other id
    rw [getElem?_insert_declared]
    split_ifs with hname
    · subst hname
      have hnew := Store.isLatest_addBlock ⟨name, template, place, s.scopes, s.currentDir⟩
        h.since_le
      constructor
      · rintro ⟨⟩
        exact hnew
      · exact fun hlatest => congrArg some (hnew.eq hlatest)
    · rw [h.declared_eq_iff, Store.isLatest_addBlock_iff hname]

private theorem RenderState.Tracks.of_eq {since : Nat} {s t : RenderState} (h : s.Tracks since)
    (hdeclared : t.declared = s.declared) (hblocks : t.store.blocks = s.store.blocks) :
    t.Tracks since where
  since_le := hblocks ▸ h.since_le
  declared_eq_iff name id := by
    have hblock (id : Nat) : t.store.block? id = s.store.block? id := by
      rw [Store.block?, hblocks, Store.block?]
    rw [hdeclared, h.declared_eq_iff]
    constructor
    · rintro ⟨hsince, hnamed, hlatest⟩
      exact ⟨hsince, hblock id ▸ hnamed, fun {id'} hlt => hblock id' ▸ hlatest hlt⟩
    · rintro ⟨hsince, hnamed, hlatest⟩
      exact ⟨hsince, hblock id ▸ hnamed, fun {id'} hlt => hblock id' ▸ hlatest hlt⟩

private theorem RenderState.Tracks.assign {since : Nat} {s : RenderState} (h : s.Tracks since)
    (name : String) (value : Value) : (s.assign name value).Tracks since := by
  unfold RenderState.assign
  split
  · exact h.of_eq rfl rfl
  · split <;> exact h.of_eq rfl rfl

/-- No step leads the table astray. -/
theorem RenderState.steady_tracks (since : Nat) :
    Steady fun s t => s.Tracks since → t.Tracks since where
  refl _ := id
  trans hst htu hs := htu (hst hs)
  caches _ _ hs := hs.of_eq rfl rfl
  assign _ name value hs := hs.assign name value
  declare _ name template place hs := hs.declare name template place
  sink _ _ hs := hs.of_eq rfl rfl
  withScope h hs := (h (hs.of_eq rfl rfl)).of_eq rfl rfl
  withDir h hs := (h (hs.of_eq rfl rfl)).of_eq rfl rfl
  withScopes h hs := (h (hs.of_eq rfl rfl)).of_eq rfl rfl

private theorem RenderState.tracks_initial (dir : Path) (resolver : Resolver) (store : Store)
    (sink : Sink) : (initial dir resolver store sink).Tracks store.blocks.size where
  since_le := Nat.le_refl _
  declared_eq_iff name id := by
    constructor
    · intro h
      simp [initial] at h
    · intro h
      have hlt : id < store.blocks.size := h.lt_size
      have hle := h.since_le
      omega

/-! ### Calls and includes by name -/

namespace Level

variable (level : Level)

/-- The name that an include by name looks up. -/
def includedName (template : Template) (target : Slot) (pre : Option Slot) : RenderM String := do
  let name ← level.evaluateText template target
  level.evaluatePre template pre
  return name

/-- An include of the name of a declared block renders the block. -/
theorem run_includeNamed {template : Template} {target : Slot} {pre : Option Slot}
    {s s' : RenderState} {name : String} {id : Nat}
    (hname : (level.includedName template target pre).run.run s = (.ok name, s'))
    (hdeclared : s'.declared[name]? = some id) :
    (level.includeNamed template target pre).run.run s = (level.callBlock id).run.run s' := by
  let register (name : String) : RenderM Unit := do
    let included ← level.registered name
    let dir := (included.origin.bind Path.parent?).getD (← get).currentDir
    level.enter included .whole dir
  let next (name : String) : RenderM Unit := do
    (← get).declared[name]?.elim (register name) level.callBlock
  have hsplit : level.includeNamed template target pre =
      level.includedName template target pre >>= next := by
    simp only [includedName, includeNamed, bind_assoc, pure_bind]
    refine bind_congr fun name => bind_congr fun _ => bind_congr fun state => ?_
    cases state.declared[name]? <;> rfl
  have hnext : (next name).run.run s' = (level.callBlock id).run.run s' := by
    change (s'.declared[name]?.elim (register name) level.callBlock).run.run s' = _
    rw [hdeclared]
    rfl
  rw [hsplit, run_bind, hname]
  exact hnext

/-- A call of a variable calls its value. -/
theorem run_eval_call {s : RenderState} {name : String} {value : Value}
    (hvalue : s.lookup level.setting name = some value) :
    (((Expr.ident name).call []).eval level.environment).run.run s =
      (level.call value []).run s := by
  simp only [Expr.eval, Expr.evalAll]
  rw [run_bind, level.run_valueOf hvalue]
  rfl

/-- A call of a block gives what it writes. -/
theorem run_call_block {s t : RenderState} {id : Nat} {name : String} {pieces : List String}
    {result : Except TemplateError Unit}
    (h : Writes (level.callBlock id) s pieces result t) :
    (level.call (.block id name) []).run s =
      ((result.map fun _ => Value.string (String.join pieces)).mapError EvalError.nested,
        { t with sink := s.sink }) := by
  change (ExceptT.mk (level.call (.block id name) [])).run.run s = _
  rw [mk_call_block, run_bind, run_adapt, h.run_captured s.sink]
  cases result <;> rfl

end Level

/-! ### Renders -/

section Renders

variable {template : Template} {options : RenderOptions} {files : FileTree} {store : Store}
  {s : RenderState}

/-- In every state of a render, the table of declared blocks leads to the blocks that were declared
last in it. -/
theorem Template.Reaches.tracks (h : template.Reaches options files store s) :
    s.Tracks store.blocks.size :=
  h.keeps (P := fun s => s.Tracks store.blocks.size) (fun _ => RenderState.tracks_initial ..)
    fun hpasses => hpasses.keeps (fun hstep hs => hstep.steady (RenderState.steady_tracks _) _ hs)
      (fun _ _ hs => hs.of_eq rfl rfl) (fun _ _ hs => hs.of_eq rfl rfl)
      (fun _ _ hs => hs.of_eq rfl rfl) fun _ hs => hs.of_eq rfl rfl

/-- In every state of a render where a variable leads to the block that was declared last under its
name, calling it gives the text of the pieces that an include of the name writes, with the same
result and the same state after it; where the sink refuses a piece, the include ends there. -/
theorem Template.Reaches.includeNamed_writes_call (h : template.Reaches options files store s)
    {name name' : String} {id : Nat}
    (hvalue : s.lookup (options.setting files) name = some (.block id name'))
    (hlatest : s.store.IsLatest store.blocks.size name id) (levels : Nat) :
    ∃ (pieces : List String) (result : Except TemplateError Unit) (t : RenderState),
      (((Expr.ident name).call []).eval
          (Level.above (options.setting files) levels).environment).run.run s =
        ((result.map fun _ => Value.string (String.join pieces)).mapError EvalError.nested,
          { t with sink := s.sink }) ∧
      ∀ (owner : Template) (target : Slot) (pre : Option Slot) (before : RenderState),
        ((Level.above (options.setting files) levels).includedName owner target pre).run.run
            before = (.ok name, s) →
        (∀ sink, s.sink.appendAll pieces = (sink, none) →
          ((Level.above (options.setting files) levels).includeNamed owner target pre).run.run
              before = (result, { t with sink })) ∧
        ∀ sink reason, s.sink.appendAll pieces = (sink, some reason) →
          ∃ e t',
            ((Level.above (options.setting files) levels).includeNamed owner target pre).run.run
                before = (.error e, t') ∧ t'.sink = sink := by
  have hdeclared : s.declared[name]? = some id := (h.tracks.declared_eq_iff name id).2 hlatest
  obtain ⟨pieces, result, t, hwrites⟩ :=
    Level.related_callBlock congruence_emits
      (Level.related_above congruence_emits (options.setting files) levels) id s
  refine ⟨pieces, result, t, ?_, fun owner target pre before hname => ?_⟩
  · have hvalue' : s.lookup (Level.above (options.setting files) levels).setting name =
        some (.block id name') := by
      rw [Level.setting_above]
      exact hvalue
    rw [Level.run_eval_call _ hvalue', Level.run_call_block _ hwrites]
  · rw [Level.run_includeNamed _ hname hdeclared]
    refine ⟨fun _ => hwrites.taken, fun _ _ hsink => ?_⟩
    obtain ⟨e, t', hrun, ht', -⟩ := hwrites.refused hsink
    exact ⟨e, t', hrun, ht'⟩

end Renders

/-- The number and the name of a block. -/
def Value.block? : Value → Option (Nat × String)
  | .block id name => some (id, name)
  | _ => none

private theorem Value.eq_block_of_block?_eq_some {value? : Option Value} {id : Nat} {name : String}
    (h : value?.bind Value.block? = some (id, name)) : value? = some (.block id name) := by
  obtain ⟨value, rfl, hvalue⟩ := Option.bind_eq_some_iff.1 h
  cases value with
  | block =>
    cases hvalue
    rfl
  | _ => cases hvalue

/-- An expression that is a text. -/
def Slot.ofText (text : String) : Slot :=
  .parsed ⟨0, 0⟩ (.literal (.string text))

/-- Where a block is declared and not declared again, a call of it gives what an include of its
name writes. -/
theorem includeNamed_writes_call_once :
    ∃ (template : Template) (store : Store) (s : RenderState),
      Store.empty.compile ⟨.compiled, []⟩ "@declare\x7b'f'\x7dA@end{}" none =
        .ok (template, store) ∧
      template.Reaches {} .empty store s ∧
      ∃ (pieces : List String) (result : Except TemplateError Unit) (t : RenderState),
        (((Expr.ident "f").call []).eval
            (Level.above (RenderOptions.setting {} .empty) 1).environment).run.run s =
          ((result.map fun _ => Value.string (String.join pieces)).mapError EvalError.nested,
            { t with sink := s.sink }) ∧
        ∀ sink, s.sink.appendAll pieces = (sink, none) →
          ((Level.above (RenderOptions.setting {} .empty) 1).includeNamed template (.ofText "f")
            none).run.run s = (result, { t with sink }) := by
  let last (loaded : Template × Store) : RenderState :=
    loaded.1.lastState {} .empty loaded.2 .collector
  obtain ⟨⟨template, store⟩, hcompile, hlast⟩ := Attempt.exists_eq_ok_and
    (x := Store.empty.compile ⟨.compiled, []⟩ "@declare\x7b'f'\x7dA@end{}" none)
    (p := fun loaded =>
      ((last loaded).lookup (RenderOptions.setting {} .empty) "f").bind Value.block? =
        some (0, "f") ∧ (last loaded).declared["f"]? = some 0) (by decide +kernel)
  obtain ⟨hblock, hdeclared⟩ := of_decide_eq_true hlast
  have hreaches := template.reaches_lastState {} .empty store .collector
  obtain ⟨pieces, result, t, hcall, hinclude⟩ := hreaches.includeNamed_writes_call
    (Value.eq_block_of_block?_eq_some hblock)
    ((hreaches.tracks.declared_eq_iff "f" 0).1 hdeclared) 1
  exact ⟨template, store, _, hcompile, hreaches, pieces, result, t, hcall,
    (hinclude template (.ofText "f") none _ rfl).1⟩

/-- A block is declared again in a loop that is then left: a call goes to the first block, which
the variable leads to again, and an include by name to the second. -/
theorem exists_call_ne_includeNamed :
    ∃ (template : Template) (store : Store) (s : RenderState),
      Store.empty.compile ⟨.compiled, []⟩
        "@declare\x7b'f'\x7dA@end{}@foreach{i : 1}@declare\x7b'f'\x7dB@end{}@end{}" none =
          .ok (template, store) ∧
      template.Reaches {} .empty store s ∧
      s.lookup (RenderOptions.setting {} .empty) "f" = some (.block 0 "f") ∧
      store.blocks.size ≤ 0 ∧ (s.store.block? 0).map DeclaredBlock.name = some "f" ∧
      ((((Expr.ident "f").call []).eval
          (Level.above (RenderOptions.setting {} .empty) 1).environment).run.run s).1.toOption.map
            Value.display = some "A" ∧
      (((Level.above (RenderOptions.setting {} .empty) 1).includeNamed template (.ofText "f")
          none).run.run { s with sink := .collector }).2.sink.collected = "B" := by
  let last (loaded : Template × Store) : RenderState :=
    loaded.1.lastState {} .empty loaded.2 .collector
  let level := Level.above (RenderOptions.setting {} .empty) 1
  obtain ⟨⟨template, store⟩, hcompile, hlast⟩ := Attempt.exists_eq_ok_and
    (x := Store.empty.compile ⟨.compiled, []⟩
      "@declare\x7b'f'\x7dA@end{}@foreach{i : 1}@declare\x7b'f'\x7dB@end{}@end{}" none)
    (p := fun loaded =>
      ((last loaded).lookup (RenderOptions.setting {} .empty) "f").bind Value.block? =
        some (0, "f") ∧
      loaded.2.blocks.size ≤ 0 ∧
      ((last loaded).store.block? 0).map DeclaredBlock.name = some "f" ∧
      ((((Expr.ident "f").call []).eval level.environment).run.run
        (last loaded)).1.toOption.map Value.display = some "A" ∧
      ((level.includeNamed loaded.1 (.ofText "f") none).run.run
        { last loaded with sink := .collector }).2.sink.collected = "B") (by decide +kernel)
  obtain ⟨hblock, hrest⟩ := of_decide_eq_true hlast
  exact ⟨template, store, _, hcompile, template.reaches_lastState {} .empty store .collector,
    Value.eq_block_of_block?_eq_some hblock, hrest⟩

end TextTemplate
