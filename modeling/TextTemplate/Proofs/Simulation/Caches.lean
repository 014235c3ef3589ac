import TextTemplate.Proofs.Attempt
import TextTemplate.Proofs.Simulation.Paths
import TextTemplate.Proofs.Steps

/-!
# Include caches

What an include leads to does not depend on the caches, as long as they hold what the files hold.
An entry may be older than the render, and its path may be written in another way; it serves as
long as every path that agrees with it, and has its time of change, has its text.

A cache belongs to the templates that share its number. Which compiler made them is not in the
store; it is kept in a list beside it, which grows as templates are compiled.

## Main definitions

* `Consistent`: file trees in which the time of change tells what a file holds.
* `Store.Faithful`: caches that hold what the files hold.
* `Fetches`: what an include leads to.

## Main results

* `Level.leadsTo_fetchFile`: what an include leads to does not depend on the caches.
-/

namespace TextTemplate

open Attempt

/-! ### Faithful caches -/

/-- File trees in which a path with the same time of change holds the same text. -/
def Consistent (trees : FileTree → Prop) : Prop :=
  ∀ files files', trees files → trees files' → ∀ path time, files.modified? path = some time →
    files'.modified? path = some time → files.read path = files'.read path

theorem consistent_eq (files : FileTree) : Consistent (· = files) := by
  rintro _ _ rfl rfl path time - -
  rfl

/-- It is enough that the time of change tells the entries of the trees apart. -/
theorem consistent_of_times {trees : FileTree → Prop}
    (h : ∀ files files', trees files → trees files' → ∀ entry ∈ files.known,
      ∀ entry' ∈ files'.known, entry.modified = entry'.modified → entry.read = entry'.read) :
    Consistent trees := by
  intro files files' hfiles hfiles' path time htime htime'
  obtain ⟨here, hwalk, rfl⟩ := FileTree.modified?_eq_some_iff.1 htime
  obtain ⟨there, hwalk', hsame⟩ := FileTree.modified?_eq_some_iff.1 htime'
  rw [FileTree.read_of_walk hwalk, FileTree.read_of_walk hwalk']
  exact h _ _ hfiles hfiles' _ (FileTree.mem_known_of_walk hwalk) _
    (FileTree.mem_known_of_walk hwalk') hsame.symm

/-- The compiler of the template is the one noted for its cache. -/
def Template.OwnedIn (template : Template) (owners : List Compiler) : Prop :=
  owners[template.cache]? = some template.compiler

theorem Template.OwnedIn.mono {template : Template} {owners owners' : List Compiler}
    (h : template.OwnedIn owners) (hgrows : owners <+: owners') : template.OwnedIn owners' := by
  obtain ⟨more, rfl⟩ := hgrows
  have hlt : template.cache < owners.length := (List.getElem?_eq_some_iff.1 h).1
  rw [OwnedIn, List.getElem?_append_left hlt]
  exact h

/-- A remembered template, for an include of a template by this compiler: it was made by the same
compiler, and wherever a path agrees with the remembered one, and the time of change is the
remembered one, the file holds the source of the template. -/
structure CachedInclude.Serves (trees : FileTree → Prop) (owners : List Compiler)
    (compiler : Compiler) (entry : CachedInclude) : Prop where
  compiler : entry.template.compiler = compiler
  owned : entry.template.OwnedIn owners
  holds {files : FileTree} {path : Path} (hfiles : trees files)
    (hpath : entry.path.agrees path = true) (htime : files.modified? path = entry.modified) :
    files.read path = .ok entry.template.source

/-- Every cache has an owner, and holds what the files hold. -/
structure Store.Faithful (trees : FileTree → Prop) (owners : List Compiler) (store : Store) :
    Prop where
  size : store.caches.size = owners.length
  serves {place node : Nat} {cache : IncludeCache} {entry : CachedInclude} {compiler : Compiler}
    (hcache : store.caches[place]? = some cache) (hentry : (node, entry) ∈ cache.entries)
    (howner : owners[place]? = some compiler) : entry.Serves trees owners compiler

namespace CachedInclude

variable {trees : FileTree → Prop} {owners owners' : List Compiler} {compiler : Compiler}
  {entry : CachedInclude}

theorem Serves.mono (h : entry.Serves trees owners compiler) (hgrows : owners <+: owners') :
    entry.Serves trees owners' compiler where
  compiler := h.compiler
  owned := h.owned.mono hgrows
  holds := h.holds

/-- A file that has been compiled serves from then on. -/
theorem serves_of_read (hconsistent : Consistent trees) {files : FileTree} (hfiles : trees files)
    {path : Path} {template : Template} (hread : files.read path = .ok template.source)
    (hcompiler : template.compiler = compiler) (howned : template.OwnedIn owners) :
    Serves trees owners compiler ⟨path, files.modified? path, template⟩ where
  compiler := hcompiler
  owned := howned
  holds {files' path'} hfiles' hpath htime := by
    obtain ⟨names, time, hwalk⟩ := FileTree.exists_walk_of_read hread
    have hmodified := FileTree.modified?_of_walk hwalk
    obtain ⟨there, hthere, htime'⟩ := FileTree.modified?_eq_some_iff.1 (htime.trans hmodified)
    -- In the tree of the include, the path that was remembered leads to the same place.
    have hsame : files'.walk path = .ok there := by
      rw [FileTree.walk_eq_reach hwalk, FileTree.reach_congr hpath, FileTree.reach_of_walk hthere]
    have hpast := hconsistent _ _ hfiles' hfiles path _ (FileTree.modified?_of_walk hsame)
      (hmodified.trans (congrArg some htime'.symm))
    rw [FileTree.read_of_walk hthere, ← FileTree.read_of_walk hsame, hpast, hread]

end CachedInclude

/-! ### Compiling -/

section Compile

variable {store store' : Store} {compiler : Compiler} {source : String} {origin : Option Path}
  {template : Template}

/-- A new template has its own cache, which is empty. -/
theorem Store.of_compile_eq_ok
    (h : store.compile compiler source origin = .ok (template, store')) :
    template.source = source ∧ template.compiler = compiler ∧ template.origin = origin ∧
      template.cache = store.caches.size ∧
      store' = { store with caches := store.caches.push ⟨[], 0⟩ } := by
  obtain ⟨made, hmade, heq⟩ := map_eq_ok_iff.1 h
  obtain ⟨rfl, rfl⟩ := Prod.mk.inj heq
  rw [Template.compile] at hmade
  split at hmade
  · rename_i program hprogram
    cases hmade
    exact ⟨Program.source_of_compile hprogram, rfl, rfl, rfl, rfl⟩
  · cases hmade

/-- The error of a new template is that of its source, with the file. -/
theorem Store.of_compile_eq_error {e : CompileError}
    (h : store.compile compiler source origin = .error e) :
    ∃ e', Program.compile compiler source = .error e' ∧ e = { e' with path := origin } := by
  have hmade := map_eq_error_iff.1 h
  rw [Template.compile] at hmade
  split at hmade
  · cases hmade
  · rename_i e' he'
    exact ⟨e', he', (Except.error.inj hmade).symm⟩

/-- A source that compiles gives a template. -/
theorem Store.exists_compile {program : Program} (h : Program.compile compiler source = .ok program)
    (store : Store) (origin : Option Path) :
    ∃ template store', store.compile compiler source origin = .ok (template, store') ∧
      template.program = program := by
  cases hcompile : store.compile compiler source origin with
  | ok made =>
    refine ⟨made.1, made.2, rfl, ?_⟩
    obtain ⟨rfl, rfl, -⟩ := Store.of_compile_eq_ok hcompile
    exact Except.ok.inj (made.1.compiled.symm.trans h)
  | error e =>
    obtain ⟨e', he', -⟩ := Store.of_compile_eq_error hcompile
    cases h.symm.trans he'

end Compile

namespace Store.Faithful

variable {trees : FileTree → Prop} {owners : List Compiler} {store store' : Store}
  {template : Template}

/-- Changing the cache of a template keeps what serves the template. -/
theorem modifyCache (h : store.Faithful trees owners) (howned : template.OwnedIn owners)
    {f : IncludeCache → IncludeCache}
    (hf : ∀ cache node entry, (node, entry) ∈ (f cache).entries →
      (node, entry) ∈ cache.entries ∨ entry.Serves trees owners template.compiler) :
    (store.modifyCache template f).Faithful trees owners where
  size := by rw [Store.modifyCache, Array.size_modify, h.size]
  serves {place node cache entry compiler} hcache hentry howner := by
    rw [Store.modifyCache, Array.getElem?_modify] at hcache
    split_ifs at hcache with hplace
    · obtain ⟨old, hold, rfl⟩ := Option.map_eq_some_iff.1 hcache
      subst hplace
      obtain rfl : template.compiler = compiler := Option.some.inj (howned.symm.trans howner)
      obtain hentry | hserves := hf old node entry hentry
      · exact h.serves hold hentry howner
      · exact hserves
    · exact h.serves hcache hentry howner

private theorem countCompilation (h : store.Faithful trees owners)
    (howned : template.OwnedIn owners) : (store.countCompilation template).Faithful trees owners :=
  h.modifyCache howned fun _ _ _ => .inl

private theorem remember (h : store.Faithful trees owners) (howned : template.OwnedIn owners)
    {node : Nat} {entry : CachedInclude} (hserves : entry.Serves trees owners template.compiler) :
    (store.remember template node entry).Faithful trees owners := by
  refine h.modifyCache howned fun cache node' entry' hentry => ?_
  obtain heq | hold := List.mem_cons.1 hentry
  · obtain ⟨-, rfl⟩ := Prod.mk.inj heq
    exact .inr hserves
  · exact .inl (List.mem_of_mem_filter hold)

/-- A new template comes with a cache of its own. -/
theorem compile (h : store.Faithful trees owners) {compiler : Compiler} {source : String}
    {origin : Option Path}
    (hcompile : store.compile compiler source origin = .ok (template, store')) :
    store'.Faithful trees (owners ++ [compiler]) ∧ template.OwnedIn (owners ++ [compiler]) := by
  obtain ⟨-, rfl, -, hcache, rfl⟩ := Store.of_compile_eq_ok hcompile
  refine ⟨⟨by simp [h.size], ?_⟩, by simp [Template.OwnedIn, hcache, h.size]⟩
  intro place node cache entry compiler hplace hentry howner
  rw [Array.getElem?_push] at hplace
  split_ifs at hplace with hlast
  · cases hplace
    cases hentry
  · have hlt : place < owners.length := by
      rw [← h.size]
      exact (Array.getElem?_eq_some_iff.1 hplace).1
    rw [List.getElem?_append_left hlt] at howner
    exact (h.serves hplace hentry howner).mono (List.prefix_append _ _)

/-- What is found in a cache serves. -/
theorem of_cached? (h : store.Faithful trees owners) (howned : template.OwnedIn owners)
    {files : FileTree} (hfiles : trees files) {place : Nat} {path : Path} {included : Template}
    (hcached : store.cached? template place path (files.modified? path) = some included) :
    included.compiler = template.compiler ∧ included.OwnedIn owners ∧
      files.read path = .ok included.source := by
  rw [Store.cached?] at hcached
  simp only [Option.bind_eq_bind, Option.bind_eq_some_iff] at hcached
  obtain ⟨cache, hcache, entry, hentry, hserves⟩ := hcached
  split_ifs at hserves with hagrees
  obtain ⟨hpath, htime⟩ :
      entry.path.agrees path = true ∧ entry.modified = files.modified? path := by
    simpa using hagrees
  cases hserves
  obtain ⟨before, after, hentries, -⟩ := List.lookup_eq_some_iff.1 hentry
  have hmem : (place, entry) ∈ cache.entries := by simp [hentries]
  have hserves := h.serves hcache hmem howned
  exact ⟨hserves.compiler, hserves.owned, hserves.holds hfiles hpath htime.symm⟩

end Store.Faithful

/-! ### What an include leads to -/

/-- What an include of a template by this compiler leads to: the file read and compiled, or why it
cannot be. -/
inductive Fetches (owners : List Compiler) (compiler : Compiler) (files : FileTree) (path : Path) :
    Except TemplateError Template → Prop
  | notFound (missing : files.read path = .error .notFound) :
      Fetches owners compiler files path (.error (RenderFault.includeNotFound path).toError)
  | unreadable {e : FileError} (fails : files.read path = .error e) (found : e ≠ .notFound) :
      Fetches owners compiler files path
        (.error (RenderFault.includeUnreadable path e.message).toError)
  | malformed {source : String} {e : CompileError} (reads : files.read path = .ok source)
      (fails : Program.compile compiler source = .error e) :
      Fetches owners compiler files path (.error (.compile { e with path := some path }))
  | included {template : Template} (reads : files.read path = .ok template.source)
      (made : template.compiler = compiler) (owned : template.OwnedIn owners) :
      Fetches owners compiler files path (.ok template)

/-- A file that cannot be read is the failure of the include. -/
theorem Fetches.eq_unreadable {owners : List Compiler} {compiler : Compiler} {files : FileTree}
    {path : Path} {result : Except TemplateError Template}
    (h : Fetches owners compiler files path result) {e : FileError}
    (hread : files.read path = .error e) (hfound : e ≠ .notFound) :
    result = .error (RenderFault.includeUnreadable path e.message).toError := by
  cases h with
  | notFound hmissing => cases hmissing.symm.trans hread; exact absurd rfl hfound
  | unreadable hfails => cases hfails.symm.trans hread; rfl
  | malformed hreads | included hreads => cases hreads.symm.trans hread

/-- A step that leads to what an include leads to, and changes nothing but the caches, which stay
faithful. -/
def LeadsTo (trees : FileTree → Prop) (owners : List Compiler)
    (result : List Compiler → Except TemplateError Template → Prop) (s : RenderState)
    (step : RenderM Template) : Prop :=
  ∃ owners' caches, owners <+: owners' ∧
    (step.run.run s).2 = { s with store := { s.store with caches } } ∧
    Store.Faithful trees owners' { s.store with caches } ∧
    result owners' (step.run.run s).1

section Fetching

variable {trees : FileTree → Prop} {owners : List Compiler} {level : Level} {template : Template}
  {path : Path} {s : RenderState}

/-- What a file that can be read is compiled to. -/
theorem Level.run_compileFile_of_read {source : String}
    (hread : level.setting.files.read path = .ok source) :
    (level.compileFile template path).run.run s =
      match (s.store.countCompilation template).compile template.compiler source (some path) with
      | .error e => (.error (.compile e), { s with store := s.store.countCompilation template })
      | .ok (included, store) => (.ok included, { s with store }) := by
  rw [Level.compileFile]
  simp only [hread]
  change (match (s.store.countCompilation template).compile template.compiler source
      (some path) with
    | .error e => throw (.compile e)
    | .ok (included, store) => _ : RenderM Template).run.run _ = _
  split <;> rfl

private theorem Level.leadsTo_compileFile (hstore : s.store.Faithful trees owners)
    (howned : template.OwnedIn owners) :
    LeadsTo trees owners (Fetches · template.compiler level.setting.files path) s
      (level.compileFile template path) := by
  cases hread : level.setting.files.read path with
  | error e =>
    rw [Level.compileFile]
    by_cases hfound : e = .notFound
    · subst hfound
      simp only [hread]
      exact ⟨owners, _, List.prefix_refl _, rfl, hstore, .notFound hread⟩
    · simp only [hread]
      exact ⟨owners, _, List.prefix_refl _, rfl, hstore, .unreadable hread hfound⟩
  | ok source =>
    have hcount := hstore.countCompilation howned
    rw [LeadsTo, run_compileFile_of_read hread]
    cases hcompile : (s.store.countCompilation template).compile template.compiler source
        (some path) with
    | error e =>
      obtain ⟨e', he', rfl⟩ := Store.of_compile_eq_error hcompile
      exact ⟨owners, _, List.prefix_refl _, rfl, hcount, .malformed hread he'⟩
    | ok made =>
      obtain ⟨included, store⟩ := made
      obtain ⟨hfaithful, howned'⟩ := hcount.compile hcompile
      obtain ⟨rfl, hcompiler, -, -, rfl⟩ := Store.of_compile_eq_ok hcompile
      exact ⟨_, _, List.prefix_append _ _, rfl, hfaithful, .included hread hcompiler howned'⟩

/-- An include of a template in compiled mode takes what its cache holds, or else compiles the
file and remembers it. -/
theorem Level.run_fetchFile_of_compiled (hmode : template.compiler.mode = .compiled) (place : Nat) :
    (level.fetchFile template place path).run.run s =
      match s.store.cached? template place path (level.setting.files.modified? path) with
      | some included => (.ok included, s)
      | none =>
        match (level.compileFile template path).run.run s with
        | (.error e, s') => (.error e, s')
        | (.ok included, s') =>
          (.ok included, { s' with
            store := s'.store.remember template place
              ⟨path, level.setting.files.modified? path, included⟩ }) := by
  rw [Level.fetchFile]
  simp only [hmode]
  change (match s.store.cached? template place path (level.setting.files.modified? path) with
    | some included => pure included
    | none => _ : RenderM Template).run.run s = _
  split
  · rfl
  · rw [run_bind]
    rcases (level.compileFile template path).run.run s with ⟨_ | _, _⟩ <;> rfl

/-- What an include leads to does not depend on the caches. -/
theorem Level.leadsTo_fetchFile (hconsistent : Consistent trees)
    (hfiles : trees level.setting.files) (hstore : s.store.Faithful trees owners)
    (howned : template.OwnedIn owners) (place : Nat) :
    LeadsTo trees owners (Fetches · template.compiler level.setting.files path) s
      (level.fetchFile template place path) := by
  cases hmode : template.compiler.mode with
  | interpreted =>
    rw [Level.fetchFile]
    simp only [hmode]
    exact leadsTo_compileFile hstore howned
  | compiled =>
    rw [LeadsTo, run_fetchFile_of_compiled hmode]
    cases hcached : s.store.cached? template place path (level.setting.files.modified? path) with
    | some included =>
      obtain ⟨hcompiler, howned', hread⟩ := hstore.of_cached? howned hfiles hcached
      exact ⟨owners, _, List.prefix_refl _, rfl, hstore, .included hread hcompiler howned'⟩
    | none =>
      have hcompile : LeadsTo trees owners _ s (level.compileFile template path) :=
        leadsTo_compileFile hstore howned
      obtain ⟨owners', caches, hgrows, hstate, hfaithful, hresult⟩ := hcompile
      generalize (level.compileFile template path).run.run s = reached at hstate hresult
      obtain ⟨result, s'⟩ := reached
      cases hresult with
      | notFound hread => exact ⟨owners', caches, hgrows, hstate, hfaithful, .notFound hread⟩
      | unreadable hread hfound =>
        exact ⟨owners', caches, hgrows, hstate, hfaithful, .unreadable hread hfound⟩
      | malformed hread hfails =>
        exact ⟨owners', caches, hgrows, hstate, hfaithful, .malformed hread hfails⟩
      | included hread hcompiler howned' =>
        obtain rfl : s' = _ := hstate
        have hserves := CachedInclude.serves_of_read hconsistent hfiles hread hcompiler howned'
        exact ⟨owners', _, hgrows, rfl, hfaithful.remember (howned.mono hgrows) hserves,
          .included hread hcompiler howned'⟩

end Fetching

end TextTemplate
