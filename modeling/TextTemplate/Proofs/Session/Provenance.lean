import TextTemplate.Proofs.Course.Declared
import TextTemplate.Proofs.Session.Chronicle
import TextTemplate.Proofs.Simulation.Directories

/-!
# Where relative includes look

While a render runs, the directory that relative includes are joined to lies on a stack. Yet it can
be told from where the node of the include was loaded: from the path that its template was included
from, or the file that a registered template came from, or the place where the block that it stands
in was declared, in this render or an earlier one. What else has been included or called before
makes no difference.

## Main definitions

* `Stands`: the directory for the nodes of a template or block that was entered so.
* `Store.Accounted`: the blocks in a store are those that were declared, each in its directory.

## Main results

* `Stands.unique`: there is only one such directory.
* `Session.includes_follow_file`: every include of every render is joined to that directory.
-/

namespace TextTemplate

/-! ### The law -/

/-- After these events, the relative includes of a template or block that was entered so are joined
to this directory. For the template of a render it is the directory that the render is given, else
the parent of the template's origin, else the current directory; for a template included from a
path, the parent of the path; for a registered template, the parent of its origin, and without one
the directory of the include. For a block it is the directory where it was declared. -/
inductive Stands (log : List Event) : Entrance → Path → Prop
  | based (template : Template) (dir : Path) : Stands log (.top template (some dir)) dir
  | loaded {template : Template} {dir : Path}
      (origin : template.origin.bind Path.parent? = some dir) :
      Stands log (.top template none) dir
  | here {template : Template} (origin : template.origin.bind Path.parent? = none) :
      Stands log (.top template none) ⟨"."⟩
  | file {path : Path} {included : Template} {site : Entrance} {f : Fetch} {dir : Path}
      (fetched : .fetch f ∈ log) (place : f.entrance = site ∧ f.path = path)
      (result : f.result = .ok included) (parent : path.parent? = some dir) :
      Stands log (.file path included site) dir
  | registered {included : Template} {site : Entrance} {dir : Path}
      (origin : included.origin.bind Path.parent? = some dir) :
      Stands log (.named included site) dir
  | rootless {included : Template} {site : Entrance} {dir : Path}
      (origin : included.origin.bind Path.parent? = none) (outside : Stands log site dir) :
      Stands log (.named included site) dir
  | block {id : Nat} {block : DeclaredBlock} {site declarer : Entrance} {dir : Path}
      (declared : .declare declarer id block ∈ log) (outside : Stands log declarer dir) :
      Stands log (.block id block site) dir

/-- What is done later makes no difference. -/
theorem Stands.later {log log' : List Event} {site : Entrance} {dir : Path}
    (h : Stands log site dir) (hlog : log ⊆ log') : Stands log' site dir := by
  induction h with
  | based template dir => exact .based template dir
  | loaded horigin => exact .loaded horigin
  | here horigin => exact .here horigin
  | file hfetched hplace hresult hparent => exact .file (hlog hfetched) hplace hresult hparent
  | registered horigin => exact .registered horigin
  | rootless horigin _ ih => exact .rootless horigin ih
  | block hdeclared _ ih => exact .block (hlog hdeclared) ih

/-- Each block is declared once. -/
def DeclaredOnce (log : List Event) : Prop :=
  ∀ {declarer declarer' : Entrance} {id : Nat} {block block' : DeclaredBlock},
    .declare declarer id block ∈ log → .declare declarer' id block' ∈ log → declarer = declarer'

/-- There is one directory only. -/
theorem Stands.unique {log : List Event} (honce : DeclaredOnce log) {site : Entrance}
    {dir dir' : Path} (h : Stands log site dir) (h' : Stands log site dir') : dir' = dir := by
  induction h generalizing dir' with
  | based => cases h'; rfl
  | loaded horigin =>
    cases h' with
    | loaded horigin' => exact Option.some.inj (horigin'.symm.trans horigin)
    | here horigin' => cases horigin'.symm.trans horigin
  | here horigin =>
    cases h' with
    | loaded horigin' => cases horigin'.symm.trans horigin
    | here => rfl
  | file _ _ _ hparent =>
    cases h' with
    | file _ _ _ hparent' => exact Option.some.inj (hparent'.symm.trans hparent)
  | registered horigin =>
    cases h' with
    | registered horigin' => exact Option.some.inj (horigin'.symm.trans horigin)
    | rootless horigin' => cases horigin'.symm.trans horigin
  | rootless horigin _ ih =>
    cases h' with
    | registered horigin' => cases horigin'.symm.trans horigin
    | rootless _ houtside => exact ih houtside
  | block hdeclared _ ih =>
    cases h' with
    | block hdeclared' houtside => exact ih (honce hdeclared' hdeclared ▸ houtside)

/-- An include leads to a path that is joined to the directory of the template or block that its
node stands in, and to what comes of that path. -/
def Event.JoinsDirectory (before : List Event) : Event → Prop
  | .fetch f => f.Comes ∧ ∃ dir, Stands before f.entrance dir ∧
      (∀ dir', Stands before f.entrance dir' → dir' = dir) ∧ f.path = dir.join ⟨f.text⟩
  | .assign .. | .declare .. => True

/-! ### Parents -/

/-- Every path that is remembered has a parent. -/
def Store.Rooted (store : Store) : Prop :=
  ∀ (place : Nat) (cache : IncludeCache), store.caches[place]? = some cache →
    ∀ node entry, (node, entry) ∈ cache.entries → ∃ dir, entry.path.parent? = some dir

namespace Store.Rooted

variable {store store' : Store}

private theorem modifyCache (h : store.Rooted) {template : Template}
    {f : IncludeCache → IncludeCache}
    (hf : ∀ cache node entry, (node, entry) ∈ (f cache).entries →
      (node, entry) ∈ cache.entries ∨ ∃ dir, entry.path.parent? = some dir) :
    (store.modifyCache template f).Rooted := by
  intro place cache hcache node entry hentry
  rw [Store.modifyCache, Array.getElem?_modify] at hcache
  split_ifs at hcache
  · obtain ⟨old, hold, rfl⟩ := Option.map_eq_some_iff.1 hcache
    obtain hentry | hparent := hf old node entry hentry
    · exact h place old hold node entry hentry
    · exact hparent
  · exact h place cache hcache node entry hentry

private theorem compile (h : store.Rooted) {compiler : Compiler} {source : String}
    {origin : Option Path} {template : Template}
    (hcompile : store.compile compiler source origin = .ok (template, store')) :
    store'.Rooted := by
  obtain ⟨-, -, -, -, rfl⟩ := Store.of_compile_eq_ok hcompile
  intro place cache hcache node entry hentry
  rw [Array.getElem?_push] at hcache
  split_ifs at hcache
  · cases hcache
    cases hentry
  · exact h place cache hcache node entry hentry

private theorem countCompilation (h : store.Rooted) (template : Template) :
    (store.countCompilation template).Rooted :=
  h.modifyCache fun _ _ _ => .inl

/-- A path that agrees with one that is remembered has a parent as well. -/
theorem of_cached? (h : store.Rooted) {template included : Template} {node : Nat} {path : Path}
    {modified : Option Nat} (hcached : store.cached? template node path modified = some included) :
    ∃ dir, path.parent? = some dir := by
  rw [Store.cached?] at hcached
  simp only [Option.bind_eq_bind, Option.bind_eq_some_iff] at hcached
  obtain ⟨cache, hcache, entry, hentry, hserves⟩ := hcached
  split_ifs at hserves with hsame
  obtain ⟨hagrees, -⟩ : entry.path.agrees path = true ∧ entry.modified = modified := by
    simpa using hsame
  obtain ⟨before, after, hentries, -⟩ := List.lookup_eq_some_iff.1 hentry
  obtain ⟨dir, hdir⟩ := h _ cache hcache node entry (by simp [hentries])
  have hparents := Path.agrees_parent? hagrees
  rw [hdir] at hparents
  generalize path.parent? = parent at hparents
  cases hparents with
  | some => exact ⟨_, rfl⟩

/-- After an include, what is remembered has parents, and if the include led to a template, so does
its path. -/
theorem comes {f : Fetch} (hcomes : f.Comes) (h : f.before.Rooted) :
    f.after.Rooted ∧ ∀ included, f.result = .ok included → ∃ dir, f.path.parent? = some dir := by
  cases hcomes with
  | kept _ hcached _ hafter =>
    rw [hafter]
    exact ⟨h, fun _ _ => h.of_cached? hcached⟩
  | unreadable _ _ hresult hafter =>
    rw [hafter]
    exact ⟨h, fun _ hok => by cases hresult.symm.trans hok⟩
  | malformed _ _ _ hresult hafter =>
    rw [hafter]
    exact ⟨h.countCompilation _, fun _ hok => by cases hresult.symm.trans hok⟩
  | @compiles source included store _ hreads hcompiles _ hafter =>
    have hparent := Path.exists_parent?_of_read hreads
    refine ⟨?_, fun _ _ => hparent⟩
    have hstore := (h.countCompilation _).compile hcompiles
    rw [hafter]
    cases f.entrance.template.compiler.mode with
    | interpreted => exact hstore
    | compiled =>
      refine hstore.modifyCache fun cache node entry hentry => ?_
      obtain heq | hold := List.mem_cons.1 hentry
      · obtain ⟨-, rfl⟩ := Prod.mk.inj heq
        exact .inr hparent
      · exact .inl (List.mem_of_mem_filter hold)

end Store.Rooted

/-! ### The invariant -/

/-- Every block in the store was declared, once, in the directory where it was declared; and every
path that is remembered has a parent. -/
structure Store.Accounted (log : List Event) (store : Store) : Prop where
  declared {id : Nat} {block : DeclaredBlock} (found : store.block? id = some block) :
    ∃ declarer, .declare declarer id block ∈ log ∧ Stands log declarer block.dir
  present {declarer : Entrance} {id : Nat} {block : DeclaredBlock}
    (declared : .declare declarer id block ∈ log) : id < store.blocks.size
  once : DeclaredOnce log
  rooted : store.Rooted

private theorem Store.accounted_empty : Store.empty.Accounted [] where
  declared := nofun
  present := nofun
  once := nofun
  rooted := nofun

/-- An event that is no declaration keeps account of the blocks. -/
theorem Store.Accounted.later {log : List Event} {store store' : Store} (h : store.Accounted log)
    {event : Event} (hevent : ∀ declarer id block, event ≠ .declare declarer id block)
    (hblocks : store'.blocks = store.blocks) (hrooted : store'.Rooted) :
    store'.Accounted (log ++ [event]) := by
  have hmem {declarer : Entrance} {id : Nat} {block : DeclaredBlock}
      (hdeclared : .declare declarer id block ∈ log ++ [event]) :
      .declare declarer id block ∈ log := by
    obtain hdeclared | hdeclared := List.mem_append.1 hdeclared
    · exact hdeclared
    · exact absurd (List.mem_singleton.1 hdeclared).symm (hevent _ _ _)
  have hlog : log ⊆ log ++ [event] := List.subset_append_left _ _
  refine ⟨fun {id block} hfound => ?_, fun hdeclared => ?_,
    fun hdeclared hdeclared' => h.once (hmem hdeclared) (hmem hdeclared'), hrooted⟩
  · rw [block?, hblocks] at hfound
    obtain ⟨declarer, hdeclared, hstands⟩ := h.declared hfound
    exact ⟨declarer, hlog hdeclared, hstands.later hlog⟩
  · rw [hblocks]
    exact h.present (hmem hdeclared)

/-- A declaration keeps account of its block. -/
theorem Store.Accounted.declare {log : List Event} {store : Store} (h : store.Accounted log)
    {site : Entrance} {block : DeclaredBlock} (hdir : Stands log site block.dir) :
    (store.addBlock block).2.Accounted (log ++ [.declare site store.blocks.size block]) := by
  have hmem {declarer : Entrance} {id : Nat} {other : DeclaredBlock}
      (hdeclared : .declare declarer id other ∈ log ++ [.declare site store.blocks.size block]) :
      (id < store.blocks.size ∧ .declare declarer id other ∈ log) ∨
        (id = store.blocks.size ∧ declarer = site) := by
    obtain hdeclared | hdeclared := List.mem_append.1 hdeclared
    · exact .inl ⟨h.present hdeclared, hdeclared⟩
    · cases List.mem_singleton.1 hdeclared
      exact .inr ⟨rfl, rfl⟩
  have hlog : log ⊆ log ++ [.declare site store.blocks.size block] := List.subset_append_left _ _
  have hsize : (store.addBlock block).2.blocks.size = store.blocks.size + 1 := Array.size_push _
  refine ⟨fun {id found} hfound => ?_, fun hdeclared => ?_,
    fun hdeclared hdeclared' => ?_, h.rooted⟩
  · rw [block?_addBlock] at hfound
    split_ifs at hfound with hid
    · cases hfound
      subst hid
      exact ⟨site, List.mem_append_right _ (List.mem_singleton_self _), hdir.later hlog⟩
    · obtain ⟨declarer, hdeclared, hstands⟩ := h.declared hfound
      exact ⟨declarer, hlog hdeclared, hstands.later hlog⟩
  · rw [hsize]
    obtain ⟨hlt, -⟩ | ⟨rfl, -⟩ := hmem hdeclared
    · exact Nat.lt_succ_of_lt hlt
    · exact Nat.lt_succ_self _
  · obtain ⟨hlt, hold⟩ | ⟨hid, rfl⟩ := hmem hdeclared
    · obtain ⟨-, hold'⟩ | ⟨hid', -⟩ := hmem hdeclared'
      · exact h.once hold hold'
      · omega
    · obtain ⟨hlt', -⟩ | ⟨-, rfl⟩ := hmem hdeclared'
      · omega
      · rfl

theorem Fetch.Comes.blocks {f : Fetch} (h : f.Comes) : f.after.blocks = f.before.blocks := by
  cases h with
  | kept _ _ _ hafter | unreadable _ _ _ hafter => rw [hafter]
  | malformed _ _ _ _ hafter =>
    rw [hafter]
    rfl
  | compiles _ _ hcompiles _ hafter =>
    obtain ⟨-, -, -, -, rfl⟩ := Store.of_compile_eq_ok hcompiles
    rw [hafter]
    cases f.entrance.template.compiler.mode <;> rfl

/-- Every event keeps account of the directories. -/
theorem upholds_joinsDirectory :
    Upholds Event.JoinsDirectory (fun log store => store.Accounted log) Stands where
  later event h := h.later (List.subset_append_left _ _)
  assign site name value s h := ⟨trivial, h.later nofun rfl h.rooted⟩
  declare h hdir := ⟨trivial, h.declare hdir⟩
  fetch {before f dir} hcomes hjoined h hdir := by
    obtain ⟨hrooted, hfound⟩ := h.rooted.comes hcomes
    refine ⟨⟨hcomes, dir, hdir, fun _ => hdir.unique h.once, hjoined⟩,
      h.later nofun hcomes.blocks hrooted, fun included hok => ?_⟩
    obtain ⟨parent, hparent⟩ := hfound included hok
    rw [hparent]
    exact .file (List.mem_append_right _ (List.mem_singleton_self _)) ⟨rfl, rfl⟩ hok hparent
  named {before site dir} included hdir := by
    cases horigin : included.origin.bind Path.parent? with
    | some parent => exact .registered horigin
    | none => exact .rootless horigin hdir
  block site h hfound := by
    obtain ⟨declarer, hdeclared, hstands⟩ := h.declared hfound
    exact .block hdeclared hstands

/-- A chronicle from the empty store on keeps account of the directories. -/
theorem Chronicle.accounted {log : List Event} {store : Store} (h : Chronicle .empty log store) :
    Lawful Event.JoinsDirectory [] log ∧ store.Accounted log := by
  refine h.lawful upholds_joinsDirectory (fun hstore hcompile => ?_)
    (fun log template baseDir => ?_) Store.accounted_empty
  · obtain ⟨-, -, -, -, hstore'⟩ := Store.of_compile_eq_ok hcompile
    have hblocks := congrArg Store.blocks hstore'
    refine ⟨fun {id block} hfound => hstore.declared ?_, fun hdeclared => ?_, hstore.once,
      hstore.rooted.compile hcompile⟩
    · rwa [Store.block?, hblocks] at hfound
    · rw [hblocks]
      exact hstore.present hdeclared
  · cases baseDir with
    | some dir => exact .based template dir
    | none =>
      cases horigin : template.origin.bind Path.parent? with
      | some dir => rw [Option.getD_none, Template.defaultDirectory, horigin]; exact .loaded horigin
      | none => rw [Option.getD_none, Template.defaultDirectory, horigin]; exact .here horigin

/-! ### Includes -/

/-- What is done in a session has a chronicle; and in each of them every include is joined to the
directory that follows from where its node was loaded, whatever was done before it: there is one
such directory, the path is joined to it, and the file under that path is what the include leads
to. -/
theorem Session.includes_follow_file {trees : FileTree → Prop} {templates : List Template}
    {store : Store} (hsession : Session trees templates store) :
    (∃ log, Chronicle .empty log store) ∧
      ∀ log, Chronicle .empty log store → ∀ before f after, log = before ++ .fetch f :: after →
        f.Comes ∧ ∃ dir, Stands before f.entrance dir ∧
          (∀ dir', Stands before f.entrance dir' → dir' = dir) ∧ f.path = dir.join ⟨f.text⟩ := by
  refine ⟨hsession.exists_chronicle, fun log hlog before f after hsplit => ?_⟩
  obtain ⟨hlawful, -⟩ := hlog.accounted
  rw [hsplit] at hlawful
  exact hlawful.at

/-- A template from a file with an absolute path includes a file in a directory below, which
includes another one there. -/
theorem Session.includes_follow_file_nested :
    ∃ (files : FileTree) (template included : Template) (first : Store)
      (before after : List Event) (f : Fetch),
      Session (· = files) [template] (template.renderInto {} files first .collector).store ∧
      Chronicle .empty (before ++ .fetch f :: after)
        (template.renderInto {} files first .collector).store ∧
      template.origin = some ⟨"/srv/main"⟩ ∧
      f.entrance = .file ⟨"/srv/sub/a"⟩ included (.top template none) ∧ f.text = "b" ∧
      f.path = ⟨"/srv/sub/b"⟩ := by
  let files : FileTree :=
    (FileTree.empty.write ⟨"/srv/sub/a"⟩ (.text "@include\x7b'b'\x7d") 1).write ⟨"/srv/sub/b"⟩
      (.text "x") 1
  let setting := RenderOptions.setting {} files
  let start (loaded : Template × Store) := RenderOptions.initial {} loaded.1 loaded.2 .collector
  let fetched (loaded : Template × Store) :=
    ((Level.above setting 64).fetchFile loaded.1 0 ⟨"/srv/sub/a"⟩).run.run (start loaded)
  obtain ⟨⟨template, first⟩, hcompile, hrun⟩ := Attempt.exists_eq_ok_and
    (x := Store.empty.compile ⟨.compiled, []⟩ "@include\x7b'sub/a'\x7d"
      (some ⟨"/srv/main"⟩))
    (p := fun loaded => decide (loaded.1.program.included? = some "sub/a" ∧
      loaded.1.defaultDirectory = ⟨"/srv"⟩ ∧
      (fetched loaded).1.toOption.bind (·.program.included?) = some "b")) (by decide +kernel)
  obtain ⟨houter, hdirectory, hinner⟩ := of_decide_eq_true hrun
  obtain ⟨-, -, horigin, -⟩ := Store.of_compile_eq_ok hcompile
  obtain ⟨included, hfetched, hinner⟩ := Option.bind_eq_some_iff.1 hinner
  have hjoin : (start (template, first)).currentDir.join ⟨"sub/a"⟩ = ⟨"/srv/sub/a"⟩ := by
    have hdir : (start (template, first)).currentDir = ⟨"/srv"⟩ := hdirectory
    rw [hdir]
    decide
  have hparent : (⟨"/srv/sub/a"⟩ : Path).parent? = some ⟨"/srv/sub"⟩ := by decide
  obtain ⟨s', hfetch⟩ : ∃ s', fetched (template, first) = (.ok included, s') := by
    cases hfetch : fetched (template, first) with
    | mk result s' =>
      rw [hfetch] at hfetched
      cases result with
      | ok found => exact ⟨s', by rw [Option.some.inj hfetched]⟩
      | error e => cases hfetched
  -- The included template is run in its own directory, and so is its include.
  let site : Entrance := .file ⟨"/srv/sub/a"⟩ included (.top template none)
  have hbeside : Path.join ⟨"/srv/sub"⟩ ⟨"b"⟩ = ⟨"/srv/sub/b"⟩ := by decide
  have hnested : (⟨"/srv/sub/b"⟩ : Path) = (s'.pushDir ⟨"/srv/sub"⟩).currentDir.join ⟨"b"⟩ :=
    hbeside.symm
  obtain ⟨result, after, log, hinside⟩ : ∃ result after log, Records setting 63 site
      ((Level.above setting 63).enterFile included 0 ⟨"/srv/sub/b"⟩) (s'.pushDir ⟨"/srv/sub"⟩)
      (.fetch ⟨site, 0, "b", ⟨"/srv/sub/b"⟩, files, s'.store, result, after⟩ :: log) :=
    Level.recorded_enterFile (Level.recordsBelow setting 63) 0 "b" hnested
  replace hinside := Level.records_runPart_of_included site hinner hnested hinside
  let nested : Fetch := ⟨site, 0, "b", ⟨"/srv/sub/b"⟩, files, s'.store, result, after⟩
  let outside : Fetch :=
    ⟨.top template none, 0, "sub/a", ⟨"/srv/sub/a"⟩, files, first, .ok included, s'.store⟩
  have hfile : Records setting 64 (.top template none)
      ((Level.above setting 64).enterFile template 0 ⟨"/srv/sub/a"⟩) (start (template, first))
      (.fetch outside :: .fetch nested :: log) := by
    refine .file hjoin.symm hfetch nofun fun below hbelow => ?_
    cases hbelow
    rw [hparent]
    exact hinside
  have hrecords := Level.records_runPart_of_included (.top template none) houter hjoin.symm hfile
  have hregistered : RenderOptions.KnownIn {} [template] :=
    RenderOptions.knownIn_of_registry_eq_none rfl [template]
  have hstart : Session (· = files) [template] first := .load .start hcompile
  have hsession : Session (· = files) [template]
      (template.renderInto {} files first .collector).store :=
    hstart.render (List.mem_singleton_self _) hregistered rfl .collector
  have hchronicle : Chronicle .empty ([.fetch outside] ++ .fetch nested :: log)
      (template.renderInto {} files first .collector).store :=
    (Chronicle.start.load hcompile).render hrecords
  obtain ⟨-, hlaw⟩ := hsession.includes_follow_file
  obtain ⟨-, dir, hstands, -, hpath⟩ := hlaw _ hchronicle _ nested _ rfl
  cases hstands with
  | file _ _ _ hdir =>
    cases hparent.symm.trans hdir
    exact ⟨files, template, included, first, _, _, nested, hsession, hchronicle, horigin, rfl, rfl,
      hpath.trans hbeside⟩

end TextTemplate
