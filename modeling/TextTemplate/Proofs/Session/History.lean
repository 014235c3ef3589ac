import TextTemplate.Proofs.Session.Outcome

/-!
# Sessions

A session compiles templates and renders them in any order, with any options, while files come and
go. The invariant of a session is that every include cache holds what the files hold, and that the
templates of declared blocks have caches of their own. A step keeps it because a render
corresponds to itself.

## Main definitions

* `Session`: the stores that a session can reach, with the templates compiled so far.
* `Store.Sound`: the invariant.

## Main results

* `Session.exists_sound`: the invariant holds in every session.
-/

namespace TextTemplate

/-! ### Histories -/

/-- Every template registered by name is one of these. -/
def RenderOptions.KnownIn (options : RenderOptions) (templates : List Template) : Prop :=
  ∀ template, IsRegistered options.registry template → template ∈ templates

theorem RenderOptions.knownIn_of_registry_eq_none {options : RenderOptions}
    (h : options.registry = none) (templates : List Template) : options.KnownIn templates := by
  rintro _ ⟨registered, name, hregistry, -⟩
  rw [h] at hregistry
  cases hregistry

/-- The stores reached by compiling templates and by rendering and evaluating them, each time
under one of the given file trees. Copies of a template share its cache, and count as the same
template. -/
inductive Session (trees : FileTree → Prop) : List Template → Store → Prop
  | start : Session trees [] .empty
  | load {templates : List Template} {store store' : Store} {compiler : Compiler} {source : String}
      {origin : Option Path} {template : Template} (before : Session trees templates store)
      (loaded : store.compile compiler source origin = .ok (template, store')) :
      Session trees (template :: templates) store'
  | render {templates : List Template} {store : Store} {template : Template}
      {options : RenderOptions} {files : FileTree} (before : Session trees templates store)
      (known : template ∈ templates) (registered : options.KnownIn templates)
      (present : trees files) (sink : Sink) :
      Session trees templates (template.renderInto options files store sink).store
  | evaluate {templates : List Template} {store : Store} {template : Template}
      {options : RenderOptions} {files : FileTree} (before : Session trees templates store)
      (known : template ∈ templates) (registered : options.KnownIn templates)
      (present : trees files) :
      Session trees templates (template.evaluate options files store).store

/-! ### The invariant -/

/-- The caches hold what the files hold, and those of the templates of declared blocks are among
them. -/
structure Store.Sound (trees : FileTree → Prop) (owners : List Compiler) (store : Store) :
    Prop where
  faithful : store.Faithful trees owners
  blocks : ∀ block ∈ store.blocks.toList, block.template.OwnedIn owners

namespace Store.Sound

variable {trees : FileTree → Prop} {owners : List Compiler} {store store' : Store}

private theorem empty : Store.empty.Sound trees [] where
  faithful := ⟨rfl, by simp [Store.empty]⟩
  blocks := by simp [Store.empty]

theorem compile (h : store.Sound trees owners) {compiler : Compiler} {source : String}
    {origin : Option Path} {template : Template}
    (hcompile : store.compile compiler source origin = .ok (template, store')) :
    store'.Sound trees (owners ++ [compiler]) ∧ template.OwnedIn (owners ++ [compiler]) := by
  obtain ⟨hfaithful, howned⟩ := h.faithful.compile hcompile
  obtain ⟨-, -, -, -, rfl⟩ := Store.of_compile_eq_ok hcompile
  exact ⟨⟨hfaithful, fun block hblock => (h.blocks block hblock).mono (List.prefix_append _ _)⟩,
    howned⟩

/-- What serves under some file trees serves under each of them. -/
theorem under {files : FileTree} (h : store.Sound trees owners)
    (hfiles : trees files) : store.Sound (· = files) owners where
  faithful :=
    { size := h.faithful.size
      serves := fun hcache hentry howner =>
        have hserves := h.faithful.serves hcache hentry howner
        { compiler := hserves.compiler
          owned := hserves.owned
          holds := fun heq => hserves.holds (heq ▸ hfiles) } }
  blocks := h.blocks

/-- Stores with the same blocks correspond, if compilers correspond to themselves. -/
theorem stores {c : Comparison} [hc : c.IsExact] {owners' : List Compiler}
    (hrefl : ∀ compiler, c.compilers compiler compiler) (h : store.Sound c.trees owners)
    (h' : store'.Sound c.trees owners') (hblocks : store.blocks = store'.blocks) :
    c.Stores ⟨owners, owners'⟩ store store' where
  blocks := by
    have hright := h'.blocks
    rw [← hblocks, List.forall₂_same]
    rw [← hblocks] at hright
    exact fun block hblock =>
      ⟨⟨⟨hrefl _, h.blocks block hblock, hright block hblock⟩, c.paths_refl _,
        hc.entries.2 ⟨rfl, rfl⟩⟩, rfl, rfl⟩
  left := h.faithful
  right := h'.faithful

/-- Stores that correspond are sound. -/
theorem of_stores {c : Comparison} {w : World} (h : c.Stores w store store') :
    store.Sound c.trees w.left where
  faithful := h.left
  blocks block hblock := by
    obtain ⟨place, hplace, rfl⟩ := List.mem_iff_getElem.1 hblock
    have hblocks := h.blocks.get hplace (h.blocks.length_eq ▸ hplace)
    exact hblocks.entries.hosts.left

end Store.Sound

/-! ### Renders compared with themselves -/

section Same

variable {trees : FileTree → Prop} (hconsistent : Consistent trees) {owners : List Compiler}
  {template : Template} {options : RenderOptions} {templates : List Template}

/-- Renders with the same templates under the same files; the comparison is never given up. -/
def Comparison.same : Comparison :=
  .exact
    { trees
      consistent := hconsistent
      compilers := Eq
      precedes := .of_eq
      escapes := fun _ => False
      escapes_annotate := fun h _ _ => h
      escapes_compile := fun h _ _ _ _ _ _ hfails => .inl (h ▸ hfails) }

instance : (Comparison.same hconsistent).IsExact :=
  Comparison.isExact_exact _

theorem Template.OwnedIn.same (h : template.OwnedIn owners) :
    (Comparison.same hconsistent).Templates ⟨owners, owners⟩ template template :=
  ⟨⟨rfl, h, h⟩, rfl, trivial⟩

theorem RenderOptions.KnownIn.simulates (h : options.KnownIn templates)
    (howned : ∀ template ∈ templates, template.OwnedIn owners) :
    options.Simulates (Comparison.same hconsistent) ⟨owners, owners⟩ options := by
  refine ⟨rfl, rfl, .refl fun template htemplate => ⟨?_, rfl⟩, rfl, rfl⟩
  exact (howned template (h template htemplate)).same hconsistent

/-- Outcomes that correspond agree. -/
theorem Comparison.Outcomes.same {α : Type} {w : World} {left right : Outcome α}
    (h : (Comparison.same hconsistent).Outcomes w left right) :
    ∃ w', w ≤ w' ∧ (Comparison.same hconsistent).Stores w' left.store right.store ∧
      left.Agrees Eq right :=
  h.resolve_left fun ⟨_, _, hescapes⟩ => hescapes

theorem Comparison.Outcomes.agrees {α : Type} {w : World} {left right : Outcome α}
    (h : (Comparison.same hconsistent).Outcomes w left right) : left.Agrees Eq right := by
  obtain ⟨-, -, -, hagrees⟩ := h.same hconsistent
  exact hagrees

/-- A render that corresponds to itself leaves a sound store behind. -/
theorem Comparison.Outcomes.exists_sound {α : Type} {outcome : Outcome α}
    (h : (Comparison.same hconsistent).Outcomes ⟨owners, owners⟩ outcome outcome) :
    ∃ owners', owners <+: owners' ∧ outcome.store.Sound trees owners' := by
  obtain ⟨w', hw, hstores, -⟩ := h.same hconsistent
  exact ⟨w'.left, hw.1, .of_stores hstores⟩

end Same

/-- In every session the caches hold what the files hold, and every template has a cache. -/
theorem Session.exists_sound {trees : FileTree → Prop} (hconsistent : Consistent trees)
    {templates : List Template} {store : Store} (h : Session trees templates store) :
    ∃ owners, store.Sound trees owners ∧ ∀ template ∈ templates, template.OwnedIn owners := by
  induction h with
  | start => exact ⟨[], .empty, by simp⟩
  | load _ hloaded ih =>
    obtain ⟨owners, hsound, howned⟩ := ih
    obtain ⟨hsound', howned'⟩ := hsound.compile hloaded
    refine ⟨_, hsound', fun template htemplate => ?_⟩
    obtain rfl | htemplate := List.mem_cons.1 htemplate
    · exact howned'
    · exact (howned template htemplate).mono (List.prefix_append _ _)
  | render _ hknown hregistered hpresent sink ih =>
    obtain ⟨owners, hsound, howned⟩ := ih
    have hrender := Template.simulates_renderInto (hregistered.simulates hconsistent howned)
      ((howned _ hknown).same hconsistent) rfl hpresent (hsound.stores (fun _ => rfl) hsound rfl)
      sink
    obtain ⟨owners', hgrows, hsound'⟩ := hrender.exists_sound hconsistent
    exact ⟨owners', hsound', fun template htemplate => (howned template htemplate).mono hgrows⟩
  | evaluate _ hknown hregistered hpresent ih =>
    obtain ⟨owners, hsound, howned⟩ := ih
    have hevaluate := Template.simulates_evaluate (hregistered.simulates hconsistent howned)
      ((howned _ hknown).same hconsistent) hpresent (hsound.stores (fun _ => rfl) hsound rfl)
    obtain ⟨owners', hgrows, hsound'⟩ := hevaluate.exists_sound hconsistent
    exact ⟨owners', hsound', fun template htemplate => (howned template htemplate).mono hgrows⟩

end TextTemplate
