import Mathlib.Order.Basic
import TextTemplate.Proofs.Likeness.Modes
import TextTemplate.Proofs.Simulation.Caches

/-!
# Renders that agree

Two renders are compared step by step. Their states are the same but for their stores and for the
directories in which they stand: the include caches may differ, as long as what they hold is what
the files hold, and declared blocks may be parts of different templates. The comparison may be given
up where one of the renders fails in certain ways.

## Main definitions

* `Pairing`, `Comparison`: what is compared, and where that is given up.
* `World`: the compilers of the templates on both sides.
* `View`: a world, and the directories in which the renders stand.
* `Comparison.States`: the states that correspond.
* `Simulates`: steps that lead from corresponding states to corresponding states and results.

## Main results

* `Simulates.bind`, `Simulates.between`, `Simulates.adapt`: steps made of such steps.
-/

namespace TextTemplate

/-! ### What is compared -/

/-- What is run one level deeper: a part of a template, in a directory. -/
structure Entry where
  template : Template
  part : Part
  dir : Path

/-- What is run when a declared block is called. -/
def DeclaredBlock.entry (block : DeclaredBlock) : Entry :=
  ⟨block.template, .bodyAt block.place, block.dir⟩

/-- How templates are compiled on both sides: under some file trees, and by compilers that
correspond. The left render may escape with an error, as it may where only the left compiler refuses
a file. -/
structure Pairing where
  trees : FileTree → Prop
  consistent : Consistent trees
  compilers : Compiler → Compiler → Prop
  precedes {left right : Compiler} (h : compilers left right) : left.Precedes right
  escapes : TemplateError → Prop
  escapes_annotate {e : TemplateError} (h : escapes e) (position : Position) (name : String) :
    escapes (e.annotate position name)
  escapes_compile {left right : Compiler} (h : compilers left right) {files : FileTree}
    {path : Path} {source : String} {e : CompileError} (hfiles : trees files)
    (hread : files.read path = .ok source)
    (hleft : Program.compile left source = .error e) :
    Program.compile right source = .error e ∨ escapes (.compile { e with path := some path })

/-- The two paths are read alike, unless one of them cannot be read, with an error with which the
comparison is given up. -/
def ReadAlike (escapes excuses : TemplateError → Prop) (files : FileTree) (path path' : Path) :
    Prop :=
  files.read path = files.read path' ∨ ∃ e : FileError, e ≠ .notFound ∧
    (files.read path = .error e ∧
        escapes (RenderFault.includeUnreadable path e.message).toError ∨
      files.read path' = .error e ∧
        excuses (RenderFault.includeUnreadable path' e.message).toError)

/-- The error is not one of a render that has been given a place. -/
def TemplateError.IsUnplaced (e : TemplateError) : Prop :=
  ∀ fault position directive, e ≠ .render fault (some position) directive

theorem RenderFault.isUnplaced (fault : RenderFault) : fault.toError.IsUnplaced := by
  intro fault position directive h
  cases h

/-- What is compared: renders of entries that correspond, in directories that correspond, and with
sinks of some kind; of templates with certain texts, where they are read from files or known by
name. Both may fail, with errors that are alike; and the comparison is given up where the left one
escapes, or the right one is excused. -/
structure Comparison extends Pairing where
  entries : Entry → Entry → Prop
  paths : Path → Path → Prop
  texts : String → Prop
  sinks : Sink → Prop
  excuses : TemplateError → Prop
  alike : TemplateError → TemplateError → Prop
  entries_whole {left right : Template} {dir dir' : Path} (htext : texts left.source)
    (hsource : left.source = right.source)
    (hcompilers : compilers left.compiler right.compiler) (hpaths : paths dir dir') :
    entries ⟨left, .whole, dir⟩ ⟨right, .whole, dir'⟩
  paths_refl (path : Path) : paths path path
  paths_join {path path' : Path} (h : paths path path') (target : Path) :
    paths (path.join target) (path'.join target)
  paths_parent? {path path' : Path} (h : paths path path') :
    Option.Rel paths path.parent? path'.parent?
  texts_read {files : FileTree} {path : Path} {source : String} (hfiles : trees files)
    (hread : files.read path = .ok source) : texts source
  sinks_collector : sinks .collector
  sinks_append {sink : Sink} (h : sinks sink) (text : String) : sinks (sink.append text).1
  excuses_annotate {e : TemplateError} (h : excuses e) (position : Position) (name : String) :
    excuses (e.annotate position name)
  alike_refl {e : TemplateError} (h : e.IsUnplaced) : alike e e
  alike_paths {path path' : Path} (h : paths path path') (f : Path → TemplateError)
    (hf : ∀ path, (f path).IsUnplaced) : alike (f path) (f path')
  reads {dir dir' : Path} (h : paths dir dir') (target : Path) {files : FileTree}
    (hfiles : trees files) : ReadAlike escapes excuses files (dir.join target) (dir'.join target)

/-- The compilers of the templates that the include caches belong to, on both sides. -/
structure World where
  left : List Compiler
  right : List Compiler

/-- Templates are compiled, and none is forgotten. -/
instance : Preorder World where
  le w w' := w.left <+: w'.left ∧ w.right <+: w'.right
  le_refl w := ⟨List.prefix_refl _, List.prefix_refl _⟩
  le_trans _ _ _ h h' := ⟨h.1.trans h'.1, h.2.trans h'.2⟩

/-- A world, and the directories in which the renders stand on both sides. -/
structure View where
  world : World
  left : List Path
  right : List Path

namespace View

/-- Worlds grow, while the renders go on where they stand. -/
instance : Preorder View where
  le v v' := v.world ≤ v'.world ∧ v'.left = v.left ∧ v'.right = v.right
  le_refl v := ⟨le_rfl, rfl, rfl⟩
  le_trans _ _ _ h h' := ⟨h.1.trans h'.1, h'.2.1.trans h.2.1, h'.2.2.trans h.2.2⟩

/-- The renders have entered these directories. -/
def push (v : View) (dir dir' : Path) : View :=
  ⟨v.world, dir :: v.left, dir' :: v.right⟩

end View

namespace Comparison

variable (c : Comparison) (w : World)

/-! ### What corresponds -/

/-- Templates by compilers that correspond. -/
structure Hosts (left right : Template) : Prop where
  compilers : c.compilers left.compiler right.compiler
  left : left.OwnedIn w.left
  right : right.OwnedIn w.right

/-- Such templates of the same source, with one of the texts that are known. -/
structure Templates (a b : Template) : Prop extends c.Hosts w a b where
  source : a.source = b.source
  known : c.texts a.source

/-- Entries that correspond, in such templates. -/
structure Entries (left right : Entry) : Prop where
  hosts : c.Hosts w left.template right.template
  dirs : c.paths left.dir right.dir
  entries : c.entries left right

/-- Blocks under the same name with such entries, in the same scopes. -/
structure Blocks (left right : DeclaredBlock) : Prop where
  entries : c.Entries w left.entry right.entry
  name : left.name = right.name
  scopes : left.scopes = right.scopes

/-- Stores with such blocks and with faithful caches. -/
structure Stores (left right : Store) : Prop where
  blocks : List.Forall₂ (c.Blocks w) left.blocks.toList right.blocks.toList
  left : left.Faithful c.trees w.left
  right : right.Faithful c.trees w.right

/-- States that are the same but for where the renders stand and for their stores, which
correspond. -/
structure States (v : View) (s t : RenderState) : Prop where
  scopes : s.scopes = t.scopes
  declared : s.declared = t.declared
  resolver : s.resolver = t.resolver
  sink : s.sink = t.sink
  sinks : c.sinks s.sink
  left : s.dirs = v.left
  right : t.dirs = v.right
  paths : c.paths s.currentDir t.currentDir
  stores : c.Stores v.world s.store t.store

end Comparison

/-! ### Steps -/

/-- Errors where a comparison is given up, on the left and on the right, and errors with which both
sides may fail. -/
structure Failures (ε : Type) where
  escapes : ε → Prop
  excuses : ε → Prop
  alike : ε → ε → Prop

/-- The comparison of two results is given up. -/
inductive GivenUp {ε α β : Type} (failures : Failures ε) : Except ε α → Except ε β → Prop
  | escapes {e : ε} {right : Except ε β} (h : failures.escapes e) :
      GivenUp failures (.error e) right
  | excused {e : ε} {left : Except ε α} (h : failures.excuses e) :
      GivenUp failures left (.error e)

/-- The results of two steps: both are reached and correspond, or both steps fail alike. -/
inductive Results {ε α β : Type} (failures : Failures ε) (post : α → β → Prop) :
    Except ε α → Except ε β → Prop
  | ok {a : α} {b : β} (h : post a b) : Results failures post (.ok a) (.ok b)
  | error {e e' : ε} (h : failures.alike e e') : Results failures post (.error e) (.error e')

section Results

variable {ε ε' α β α' β' : Type} {failures : Failures ε} {failures' : Failures ε'}
  {post : α → β → Prop} {left : Except ε α} {right : Except ε β}

private theorem GivenUp.mapError {f g : ε → ε'} (h : GivenUp failures left right)
    (hescapes : ∀ e, failures.escapes e → failures'.escapes (f e))
    (hexcuses : ∀ e, failures.excuses e → failures'.excuses (g e)) :
    GivenUp failures' (left.mapError f) (right.mapError g) := by
  cases h with
  | escapes he => exact .escapes (hescapes _ he)
  | excused he => exact .excused (hexcuses _ he)

/-- A comparison that is given up is not taken up again. -/
theorem GivenUp.andThen {next : α → ExceptT ε (StateM RenderState) α'}
    {next' : β → ExceptT ε (StateM RenderState) β'} {first : Except ε α × RenderState}
    {second : Except ε β × RenderState} (h : GivenUp failures first.1 second.1) :
    GivenUp failures (TextTemplate.andThen next first).1
      (TextTemplate.andThen next' second).1 := by
  obtain ⟨result, s⟩ := first
  obtain ⟨result', t⟩ := second
  cases h with
  | escapes he => exact .escapes he
  | excused he => exact .excused he

private theorem Results.mapError {f g : ε → ε'} (h : Results failures post left right)
    (halike : ∀ e e', failures.alike e e' → failures'.alike (f e) (g e')) :
    Results failures' post (left.mapError f) (right.mapError g) := by
  cases h with
  | ok h => exact .ok h
  | error he => exact .error (halike _ _ he)

theorem Results.map_const {value : α'} {value' : β'} (h : Results failures post left right)
    {post' : α' → β' → Prop} (hvalue : post' value value') :
    Results failures post' (left.map fun _ => value) (right.map fun _ => value') := by
  cases h with
  | ok => exact .ok hvalue
  | error halike => exact .error halike

end Results

/-- From states that correspond in this view or a later one, the steps lead to states and results
that correspond in a later view, unless the comparison is given up. -/
def Simulates {ε α β : Type} (c : Comparison) (failures : Failures ε) (v : View)
    (post : World → α → β → Prop) (left : ExceptT ε (StateM RenderState) α)
    (right : ExceptT ε (StateM RenderState) β) : Prop :=
  ∀ v₁, v ≤ v₁ → ∀ s t, c.States v₁ s t →
    GivenUp failures (left.run.run s).1 (right.run.run t).1 ∨
      ∃ v₂, v₁ ≤ v₂ ∧ c.States v₂ (left.run.run s).2 (right.run.run t).2 ∧
        Results failures (post v₂.world) (left.run.run s).1 (right.run.run t).1

/-- The results are the same. -/
def Same {α : Type} (_ : World) (a b : α) : Prop := a = b

namespace Simulates

variable {c : Comparison} {ε ε' α β α' β' : Type} {failures : Failures ε} {v v' : View}
  {post : World → α → β → Prop} {post' : World → α' → β' → Prop}
  {left : ExceptT ε (StateM RenderState) α} {right : ExceptT ε (StateM RenderState) β}

theorem mono (h : Simulates c failures v post left right) (hv : v ≤ v') :
    Simulates c failures v' post left right :=
  fun v₁ hv₁ => h v₁ (hv.trans hv₁)

theorem pure {a : α} {b : β} (h : ∀ w, v.world ≤ w → post w a b) :
    Simulates c failures v post (pure a) (pure b) :=
  fun v₁ hv₁ _ _ hst => .inr ⟨v₁, le_refl _, hst, .ok (h v₁.world hv₁.1)⟩

theorem throw {e e' : ε} (h : failures.alike e e') :
    Simulates c failures v post (throw e) (throw e') :=
  fun v₁ _ _ _ hst => .inr ⟨v₁, le_refl _, hst, .error h⟩

/-- A step after a step: the second ones have to correspond for corresponding results of the first
ones. -/
theorem bind {next : α → ExceptT ε (StateM RenderState) α'}
    {next' : β → ExceptT ε (StateM RenderState) β'} (h : Simulates c failures v post left right)
    (hnext : ∀ v', v ≤ v' → ∀ a b, post v'.world a b →
      Simulates c failures v' post' (next a) (next' b)) :
    Simulates c failures v post' (left >>= next) (right >>= next') := by
  intro v₁ hv₁ s t hst
  rw [run_bind, run_bind]
  obtain hgiven | ⟨v₂, hv₂, hstates, hresults⟩ := h v₁ hv₁ s t hst
  · exact .inl hgiven.andThen
  · generalize left.run.run s = first at hstates hresults
    generalize right.run.run t = second at hstates hresults
    obtain ⟨result, s₂⟩ := first
    obtain ⟨result', t₂⟩ := second
    cases hresults with
    | error he => exact .inr ⟨v₂, hv₂, hstates, .error he⟩
    | @ok a b hab =>
      have hafter := hnext v₂ (hv₁.trans hv₂) a b hab
      obtain hgiven | ⟨v₃, hv₃, hdone⟩ := hafter v₂ (le_refl _) s₂ t₂ hstates
      · exact .inl hgiven
      · exact .inr ⟨v₃, hv₂.trans hv₃, hdone⟩

theorem bind_same {left right : ExceptT ε (StateM RenderState) α}
    {next : α → ExceptT ε (StateM RenderState) α'} {next' : α → ExceptT ε (StateM RenderState) β'}
    (h : Simulates c failures v Same left right)
    (hnext : ∀ v', v ≤ v' → ∀ a, Simulates c failures v' post' (next a) (next' a)) :
    Simulates c failures v post' (left >>= next) (right >>= next') :=
  h.bind fun v' hv a _ hab => hab ▸ hnext v' hv a

theorem pure_same (a : α) :
    Simulates c failures v Same (Pure.pure a : ExceptT ε (StateM RenderState) α) (Pure.pure a) :=
  .pure fun _ _ => rfl

theorem of_result {result : Except ε α} (h : ∀ e, result = .error e → failures.alike e e) :
    Simulates c failures v Same (ExceptT.mk (Pure.pure result) : ExceptT ε (StateM RenderState) α)
      (ExceptT.mk (Pure.pure result)) := by
  cases result with
  | ok a => exact pure_same a
  | error e => exact throw (h e rfl)

theorem discard {left right : ExceptT ε (StateM RenderState) α}
    (h : Simulates c failures v Same left right) :
    Simulates c failures v Same (Functor.discard left) (Functor.discard right) := by
  rw [discard_eq_bind, discard_eq_bind]
  exact h.bind_same fun _ _ _ => pure_same _

/-- Steps that correspond do so with other words for their errors. -/
theorem adapt {failures' : Failures ε'} {f g : ε → ε'}
    (h : Simulates c failures v post left right)
    (hescapes : ∀ e, failures.escapes e → failures'.escapes (f e))
    (hexcuses : ∀ e, failures.excuses e → failures'.excuses (g e))
    (halike : ∀ e e', failures.alike e e' → failures'.alike (f e) (g e')) :
    Simulates c failures' v post (ExceptT.adapt f left) (ExceptT.adapt g right) := by
  intro v₁ hv₁ s t hst
  rw [run_adapt, run_adapt]
  obtain hgiven | ⟨v₂, hv₂, hstates, hresults⟩ := h v₁ hv₁ s t hst
  · exact .inl (hgiven.mapError hescapes hexcuses)
  · exact .inr ⟨v₂, hv₂, hstates, hresults.mapError halike⟩

/-- Steps that correspond do so where more errors are alike, or lead to giving up. -/
theorem weaken {failures' : Failures ε} (h : Simulates c failures v post left right)
    (hescapes : ∀ e, failures.escapes e → failures'.escapes e)
    (hexcuses : ∀ e, failures.excuses e → failures'.excuses e)
    (halike : ∀ e e', failures.alike e e' → failures'.alike e e') :
    Simulates c failures' v post left right := by
  rw [← adapt_id left, ← adapt_id right]
  exact h.adapt hescapes hexcuses halike

/-! ### The state -/

theorem get_bind {next : RenderState → ExceptT ε (StateM RenderState) α}
    {next' : RenderState → ExceptT ε (StateM RenderState) β}
    (h : ∀ v', v ≤ v' → ∀ s t, c.States v' s t →
      Simulates c failures v' post (next s) (next' t)) :
    Simulates c failures v post (get >>= next) (get >>= next') :=
  fun v₁ hv₁ s t hst => h v₁ hv₁ s t hst v₁ (le_refl _) s t hst

theorem modify {f g : RenderState → RenderState}
    (h : ∀ v', v ≤ v' → ∀ s t, c.States v' s t → c.States v' (f s) (g t)) :
    Simulates c failures v Same (modify f : ExceptT ε (StateM RenderState) PUnit) (modify g) :=
  fun v₁ hv₁ s t hst => .inr ⟨v₁, le_refl _, h v₁ hv₁ s t hst, .ok rfl⟩

end Simulates

end TextTemplate
