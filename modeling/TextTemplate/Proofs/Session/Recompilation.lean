import TextTemplate.Proofs.Session.Chronicle
import TextTemplate.Proofs.Simulation.Directories

/-!
# How often includes are compiled

A template counts how often a file was read and compiled for its include nodes. In compiled mode
that is done only when it has to be: when the path of the include, or the time of change of the
file, differs from what the node last led to a template with. An include that leads to no template
leaves the node with what it had.

Copies of a template share its cache, and a cache belongs to one template and its copies. That a
file includes itself makes no difference: the template compiled for the inner include has a cache of
its own.

## Main definitions

* `Template.MadeBy`: a template and its cache are new.
* `Template.last?`: what an include node last led to a template with.
* `Fetch.FollowsChanges`: an include compiles its file only when it has to.
* `Replays`: a cache holds what its nodes last led to, and counts what was compiled.

## Main results

* `Chronicle.compilations_follow_changes`: every include follows the changes of its file.
-/

namespace TextTemplate

/-! ### Executions of include nodes -/

namespace Fetch

variable (f : Fetch)

/-- The time of change of the file that is included. -/
def modified : Option Nat := f.files.modified? f.path

/-- The file can be read. -/
def IsReadable : Prop := ∃ source, f.files.read f.path = .ok source

/-- The file can be read, and compiles. -/
def HasTarget : Prop :=
  ∃ source program, f.files.read f.path = .ok source ∧
    Program.compile f.entrance.template.compiler source = .ok program

/-- The path, part by part, and the time of change. -/
def LeadsTo (path : Path) (time : Option Nat) : Prop :=
  f.path.agrees path = true ∧ f.modified = time

end Fetch

private theorem Fetch.Comes.exists_result {f : Fetch} (h : f.Comes) (htarget : f.HasTarget) :
    ∃ included, f.result = .ok included := by
  obtain ⟨source, program, hread, hprogram⟩ := htarget
  cases h with
  | kept _ _ hresult _ | compiles _ _ _ hresult _ => exact ⟨_, hresult⟩
  | unreadable _ hreads => cases hreads.symm.trans hread
  | malformed _ hreads hfails =>
    cases hreads.symm.trans hread
    obtain ⟨e, hfails, -⟩ := Store.of_compile_eq_error hfails
    cases hfails.symm.trans hprogram

namespace Template

variable (template : Template) (place : Nat)

/-- The template and its cache are new after what was done since the store was reached: the template
was compiled to reach the store, or what was done last is an include that led to it. -/
inductive MadeBy (first : Store) : List Event → Prop
  | loaded {store : Store} {compiler : Compiler} {source : String} {origin : Option Path}
      (compiles : store.compile compiler source origin = .ok (template, first)) : MadeBy first []
  | included {log : List Event} {f : Fetch} (result : f.result = .ok template)
      (new : f.after.caches[template.cache]? = some ⟨[], 0⟩) : MadeBy first (log ++ [.fetch f])

/-- The event is an execution of an include node of the template or of one of its copies. -/
def Executes : Event → Prop
  | .fetch f => f.entrance.template.cache = template.cache ∧ f.place = place
  | .assign .. | .declare .. => False

/-- The include that the event is, if it is one by the node in compiled mode that led to a
template. -/
def led? : Event → Option Fetch
  | .fetch f =>
    if f.entrance.template.cache = template.cache ∧ f.place = place ∧
        f.entrance.template.compiler.mode = .compiled ∧ f.result.isOk then some f else none
  | .assign .. | .declare .. => none

/-- The last include by the node in compiled mode that led to a template. -/
def last? (log : List Event) : Option Fetch :=
  log.reverse.findSome? (template.led? place)

/-- The event is an include of the template for which a file was read and compiled. -/
def compiledBy : Event → Bool
  | .fetch f => f.entrance.template.cache = template.cache ∧
      f.before.compilations template < f.after.compilations template
  | .assign .. | .declare .. => false

/-- The event is an include by the node for which a file was read and compiled. -/
def compiledAt : Event → Bool
  | .fetch f => template.compiledBy (.fetch f) ∧ f.place = place
  | .assign .. | .declare .. => false

/-- Whenever the node is executed, in compiled mode, it leads to the same path at the same time of
change, and the file compiles. -/
def Steadily (path : Path) (time : Option Nat) (log : List Event) : Prop :=
  ∀ f, .fetch f ∈ log → template.Executes place (.fetch f) →
    f.entrance.template.compiler.mode = .compiled ∧ f.LeadsTo path time ∧ f.HasTarget

end Template

/-- What the include node of a template remembers. -/
def Store.entry? (store : Store) (template : Template) (place : Nat) : Option CachedInclude :=
  store.caches[template.cache]?.bind fun cache => cache.entries.lookup place

/-- An include of the template compiles its file only when it has to, after these events since the
template was made: the count is that of the includes for which it was done; in compiled mode it goes
up by one if the file can be read, and the path or the time of change differs from what the node
last led to a template with, and stays the same otherwise; in interpreted mode it goes up by one if
the file can be read. If the file cannot be read or does not compile, the node remembers what it
did. Where the file can be read and compiles, the include leads to a template. -/
structure Fetch.FollowsChanges (f : Fetch) (template : Template) (log : List Event) : Prop where
  counted : f.before.compilations template = log.countP template.compiledBy
  changed (mode : f.entrance.template.compiler.mode = .compiled) (readable : f.IsReadable)
    (differs : ∀ last ∈ template.last? f.place log, ¬ last.LeadsTo f.path f.modified) :
    f.after.compilations template = f.before.compilations template + 1
  unchanged (mode : f.entrance.template.compiler.mode = .compiled)
    (same : ¬ f.IsReadable ∨ ∃ last ∈ template.last? f.place log, last.LeadsTo f.path f.modified) :
    f.after.compilations template = f.before.compilations template
  interpreted (mode : f.entrance.template.compiler.mode = .interpreted) (readable : f.IsReadable) :
    f.after.compilations template = f.before.compilations template + 1
  unread (mode : f.entrance.template.compiler.mode = .interpreted) (unreadable : ¬ f.IsReadable) :
    f.after.compilations template = f.before.compilations template
  remembers (fails : ¬ f.IsReadable ∨ ∃ e, f.result = .error e) :
    f.after.entry? template f.place = f.before.entry? template f.place
  found (target : f.HasTarget) : ∃ included, f.result = .ok included

/-! ### Caches -/

section Caches

variable {store store' : Store} {template : Template} {k : Nat} {cache : IncludeCache}

private theorem Store.getElem?_modifyCache (f : IncludeCache → IncludeCache) :
    (store.modifyCache template f).caches[k]? =
      if template.cache = k then store.caches[k]?.map f else store.caches[k]? := by
  rw [modifyCache, Array.getElem?_modify]

private theorem Store.getElem?_remember (place : Nat) (hcache : store.caches[k]? = some cache)
    (hown : template.cache = k) (entry : CachedInclude) :
    (store.remember template place entry).caches[k]? = some { cache with
      entries := (place, entry) :: cache.entries.filter fun (other, _) => other != place } := by
  rw [remember, getElem?_modifyCache, if_pos hown, hcache]
  rfl

/-- A new template leaves the other caches as they are. -/
theorem Store.getElem?_caches_of_compile {compiler : Compiler} {source : String}
    {origin : Option Path} (h : store.compile compiler source origin = .ok (template, store'))
    (hcache : store.caches[k]? = some cache) : store'.caches[k]? = some cache := by
  obtain ⟨-, -, -, -, rfl⟩ := Store.of_compile_eq_ok h
  obtain ⟨hlt, -⟩ := Array.getElem?_eq_some_iff.1 hcache
  rw [Array.getElem?_push, if_neg (Nat.ne_of_lt hlt), hcache]

/-- An include leaves the caches of other templates as they are. -/
theorem Fetch.Comes.getElem?_caches {f : Fetch} (h : f.Comes)
    (hother : f.entrance.template.cache ≠ k) (hcache : f.before.caches[k]? = some cache) :
    f.after.caches[k]? = some cache := by
  have hcount : (f.before.countCompilation f.entrance.template).caches[k]? = some cache := by
    rw [Store.countCompilation, Store.getElem?_modifyCache, if_neg hother, hcache]
  cases h with
  | kept _ _ _ hafter | unreadable _ _ _ hafter => rw [hafter, hcache]
  | malformed _ _ _ _ hafter => rw [hafter, hcount]
  | @compiles _ _ made _ _ hcompiles _ hafter =>
    have hmade := Store.getElem?_caches_of_compile hcompiles hcount
    rw [hafter]
    cases f.entrance.template.compiler.mode with
    | interpreted => exact hmade
    | compiled => rw [Store.remember, Store.getElem?_modifyCache, if_neg hother, hmade]

end Caches

/-! ### What a cache holds -/

section Replays

variable {template : Template} {place : Nat} {log : List Event} {event : Event}
  {cache : IncludeCache}

private theorem Template.last?_append :
    template.last? place (log ++ [event]) =
      (template.led? place event).or (template.last? place log) := by
  rw [last?, List.reverse_append, List.reverse_singleton, List.singleton_append,
    List.findSome?_cons]
  cases template.led? place event <;> rfl

private theorem Template.last?_append_of_led?_eq_none (h : template.led? place event = none) :
    template.last? place (log ++ [event]) = template.last? place log := by
  rw [last?_append, h, Option.none_or]

/-- The cache of the template holds what its nodes last led to, and counts for how many of its
includes a file was compiled. -/
structure IncludeCache.Replays (template : Template) (log : List Event) (cache : IncludeCache) :
    Prop where
  counted : cache.compilations = log.countP template.compiledBy
  entries (place : Nat) : Option.Rel (fun entry last => last.LeadsTo entry.path entry.modified)
    (cache.entries.lookup place) (template.last? place log)

private theorem IncludeCache.replays_new : IncludeCache.Replays template [] ⟨[], 0⟩ where
  counted := rfl
  entries _ := .none

namespace IncludeCache.Replays

variable (h : cache.Replays template log)

include h

/-- An event for which nothing was compiled, and which led to no template, makes no difference. -/
theorem later (hcompiled : template.compiledBy event = false)
    (hled : ∀ place, template.led? place event = none) :
    cache.Replays template (log ++ [event]) where
  counted := by simp [h.counted, hcompiled]
  entries place := by
    rw [Template.last?_append_of_led?_eq_none (hled place)]
    exact h.entries place

/-- What is remembered serves an include that leads to where the last one led. -/
theorem exists_last_iff (place : Nat) (path : Path) (time : Option Nat) {store : Store}
    (hcache : store.caches[template.cache]? = some cache) {copy : Template}
    (hcopy : copy.cache = template.cache) :
    (∃ last ∈ template.last? place log, last.LeadsTo path time) ↔
      ∃ included, store.cached? copy place path time = some included := by
  have hentry := h.entries place
  simp only [Store.cached?, hcopy, hcache, Option.bind_eq_bind, Option.bind_some]
  generalize cache.entries.lookup place = entry? at hentry
  generalize template.last? place log = last? at hentry
  cases hentry with
  | none => simp
  | @some entry last hleads =>
    have hsame :
        last.LeadsTo path time ↔ entry.path.agrees path = true ∧ entry.modified = time := by
      rw [Fetch.LeadsTo, ← hleads.2, Path.agrees_iff, Path.agrees_iff, Path.agrees_iff.1 hleads.1]
    simp [hsame]

omit h

end IncludeCache.Replays

/-! ### One include -/

private theorem lookup_filter_of_ne {α : Type} {k place : Nat} (hne : k ≠ place)
    (l : List (Nat × α)) :
    (l.filter fun (other, _) => other != k).lookup place = l.lookup place := by
  induction l with
  | nil => rfl
  | cons entry l ih =>
    obtain ⟨other, a⟩ := entry
    by_cases hother : other = k
    · subst hother
      simp [List.lookup_cons, ih, beq_false_of_ne (Ne.symm hne)]
    · simp [hother, List.lookup_cons, ih]

section Fetch

variable {f : Fetch}

private theorem Store.compilations_eq {store : Store}
    (h : store.caches[template.cache]? = some cache) :
    store.compilations template = cache.compilations := by
  rw [compilations, h]
  rfl

/-- An include that reads no file, since there is none to read or it has been led there before. -/
theorem Fetch.followsChanges_of_idle
    (hfound : f.HasTarget → ∃ included, f.result = .ok included)
    (hcounted : f.before.compilations template = log.countP template.compiledBy)
    (hafter : f.after = f.before)
    (hidle : ¬ f.IsReadable ∨ f.entrance.template.compiler.mode = .compiled ∧
      ∃ last ∈ template.last? f.place log, last.LeadsTo f.path f.modified) :
    f.FollowsChanges template log where
  counted := hcounted
  changed _ hreadable hdiffers := by
    obtain hunreadable | ⟨-, last, hlast, hleads⟩ := hidle
    · exact absurd hreadable hunreadable
    · exact absurd hleads (hdiffers last hlast)
  unchanged _ _ := by rw [hafter]
  interpreted hmode hreadable := by
    obtain hunreadable | ⟨hcompiled, -⟩ := hidle
    · exact absurd hreadable hunreadable
    · cases hmode.symm.trans hcompiled
  unread _ _ := by rw [hafter]
  remembers _ := by rw [hafter]
  found := hfound

/-- An include for which a file is compiled. -/
theorem Fetch.followsChanges_of_compiles
    (hfound : f.HasTarget → ∃ included, f.result = .ok included)
    (hcounted : f.before.compilations template = log.countP template.compiledBy)
    (hreadable : f.IsReadable) (hmissed : f.entrance.template.compiler.mode = .compiled →
      ¬ ∃ last ∈ template.last? f.place log, last.LeadsTo f.path f.modified)
    (hafter : f.after.compilations template = f.before.compilations template + 1)
    (hentry : ∀ e, f.result = .error e →
      f.after.entry? template f.place = f.before.entry? template f.place) :
    f.FollowsChanges template log where
  counted := hcounted
  changed _ _ _ := hafter
  unchanged hmode hsame := by
    obtain hunreadable | hsame := hsame
    · exact absurd hreadable hunreadable
    · exact absurd hsame (hmissed hmode)
  interpreted _ _ := hafter
  unread _ hunreadable := absurd hreadable hunreadable
  remembers hfails := by
    obtain hunreadable | ⟨e, he⟩ := hfails
    · exact absurd hreadable hunreadable
    · exact hentry e he
  found := hfound

private theorem Template.led?_of_own (hown : f.entrance.template.cache = template.cache)
    (hmode : f.entrance.template.compiler.mode = .compiled) {included : Template}
    (hresult : f.result = .ok included) :
    template.led? place (.fetch f) = if f.place = place then some f else none := by
  simp [led?, hown, hmode, hresult, Except.isOk, Except.toBool]

private theorem Template.led?_of_interpreted
    (hmode : f.entrance.template.compiler.mode = .interpreted) :
    template.led? place (.fetch f) = none := by
  simp [led?, hmode]

private theorem Template.led?_of_error {e : TemplateError} (hresult : f.result = .error e) :
    template.led? place (.fetch f) = none := by
  simp [led?, hresult, Except.isOk, Except.toBool]

namespace IncludeCache.Replays

variable (h : cache.Replays template log)

include h

/-- What is remembered stays so for an include that it serves. -/
theorem kept (hown : f.entrance.template.cache = template.cache)
    (hmode : f.entrance.template.compiler.mode = .compiled) {included : Template}
    (hresult : f.result = .ok included) (hafter : f.after = f.before)
    (hserved : ∃ last ∈ template.last? f.place log, last.LeadsTo f.path f.modified) :
    cache.Replays template (log ++ [.fetch f]) where
  counted := by simp [h.counted, Template.compiledBy, hafter]
  entries place := by
    rw [Template.last?_append, Template.led?_of_own hown hmode hresult]
    split_ifs with hplace
    · subst hplace
      obtain ⟨last, hlast, hpath, htime⟩ := hserved
      have hentry := h.entries f.place
      rw [hlast] at hentry
      cases hentry' : cache.entries.lookup f.place with
      | none => rw [hentry'] at hentry; cases hentry
      | some entry =>
        rw [hentry'] at hentry
        obtain ⟨hpath', htime'⟩ : last.LeadsTo entry.path entry.modified := by
          cases hentry
          assumption
        refine .some ⟨?_, htime.symm.trans htime'⟩
        exact Path.agrees_iff.2
          ((Path.agrees_iff.1 hpath).symm.trans (Path.agrees_iff.1 hpath'))
    · exact h.entries place

/-- A compilation is counted, whether anything is remembered or not. -/
theorem counts (hcompiled : template.compiledBy (.fetch f) = true)
    (hled : ∀ place, template.led? place (.fetch f) = none) :
    IncludeCache.Replays template (log ++ [.fetch f])
      { cache with compilations := cache.compilations + 1 } where
  counted := by simp [h.counted, hcompiled]
  entries place := by
    rw [Template.last?_append_of_led?_eq_none (hled place)]
    exact h.entries place

/-- What a node remembers is replaced by what it leads to. -/
theorem remembers {old : IncludeCache} (hcompiled : template.compiledBy (.fetch f) = true)
    (hown : f.entrance.template.cache = template.cache)
    (hmode : f.entrance.template.compiler.mode = .compiled) {included : Template}
    (hresult : f.result = .ok included) (hentries : old.entries = cache.entries)
    (hcount : old.compilations = cache.compilations + 1) :
    IncludeCache.Replays template (log ++ [.fetch f]) { old with
      entries := (f.place, ⟨f.path, f.modified, included⟩) ::
        old.entries.filter fun (other, _) => other != f.place } where
  counted := by simp [hcount, h.counted, hcompiled]
  entries place := by
    rw [Template.last?_append, Template.led?_of_own hown hmode hresult]
    by_cases hplace : f.place = place
    · subst hplace
      rw [if_pos rfl, List.lookup_cons_self]
      exact .some ⟨Path.agrees_iff.2 rfl, rfl⟩
    · rw [if_neg hplace, List.lookup_cons, beq_false_of_ne (Ne.symm hplace), hentries,
        lookup_filter_of_ne hplace]
      exact h.entries place

end IncludeCache.Replays

/-- What an include does to the cache of the template. -/
theorem IncludeCache.Replays.fetch (h : cache.Replays template log)
    (hcache : f.before.caches[template.cache]? = some cache) (hcomes : f.Comes)
    (hown : f.entrance.template.cache = template.cache) :
    f.FollowsChanges template log ∧ ∃ cache', f.after.caches[template.cache]? = some cache' ∧
      cache'.Replays template (log ++ [.fetch f]) := by
  have hfound := hcomes.exists_result
  have hcounted : f.before.compilations template = log.countP template.compiledBy := by
    rw [Store.compilations_eq hcache, h.counted]
  have hserves := h.exists_last_iff f.place f.path f.modified hcache hown
  have hnew (hmissed : f.entrance.template.compiler.mode = .compiled →
        f.before.cached? f.entrance.template f.place f.path (f.files.modified? f.path) = none)
      (hmode : f.entrance.template.compiler.mode = .compiled) :
      ¬ ∃ last ∈ template.last? f.place log, last.LeadsTo f.path f.modified := by
    intro hserved
    obtain ⟨included, hcached⟩ := hserves.1 hserved
    cases (hmissed hmode).symm.trans hcached
  have hcount : (f.before.countCompilation f.entrance.template).caches[template.cache]? =
      some { cache with compilations := cache.compilations + 1 } := by
    rw [Store.countCompilation, Store.getElem?_modifyCache, if_pos hown, hcache]
    rfl
  -- Where a file is compiled, the counter goes up, and it is not one that is remembered.
  have hraised {cache' : IncludeCache} (hafter : f.after.caches[template.cache]? = some cache')
      (hcompilations : cache'.compilations = cache.compilations + 1) :
      f.after.compilations template = f.before.compilations template + 1 ∧
        template.compiledBy (.fetch f) = true := by
    have hraised : f.after.compilations template = f.before.compilations template + 1 := by
      rw [Store.compilations_eq hafter, Store.compilations_eq hcache, hcompilations]
    exact ⟨hraised, by simp [Template.compiledBy, hown, hraised]⟩
  cases hcomes with
  | kept hmode hcached hresult hafter =>
    have hserved := hserves.2 ⟨_, hcached⟩
    refine ⟨Fetch.followsChanges_of_idle hfound hcounted hafter (.inr ⟨hmode, hserved⟩), cache,
      hafter ▸ hcache, h.kept hown hmode hresult hafter hserved⟩
  | unreadable _ hreads hresult hafter =>
    have hunreadable : ¬ f.IsReadable := fun ⟨source, hread⟩ => by cases hreads.symm.trans hread
    refine ⟨Fetch.followsChanges_of_idle hfound hcounted hafter (.inl hunreadable), cache,
      hafter ▸ hcache, h.later ?_ fun place => Template.led?_of_error hresult⟩
    simp [Template.compiledBy, hafter]
  | malformed hmissed hreads _ hresult hafter =>
    rw [← hafter] at hcount
    obtain ⟨hraised, hcompiled⟩ := hraised hcount rfl
    refine ⟨Fetch.followsChanges_of_compiles hfound hcounted ⟨_, hreads⟩ (hnew hmissed) hraised
      fun _ _ => ?_, _, hcount, h.counts hcompiled fun place => Template.led?_of_error hresult⟩
    rw [Store.entry?, Store.entry?, hcount, hcache]
    rfl
  | @compiles _ included store hmissed hreads hcompiles hresult hafter =>
    have hmade := Store.getElem?_caches_of_compile hcompiles hcount
    have hentry (e : TemplateError) (he : f.result = .error e) :
        f.after.entry? template f.place = f.before.entry? template f.place := by
      cases hresult.symm.trans he
    cases hmode : f.entrance.template.compiler.mode with
    | interpreted =>
      replace hafter : f.after = store := by rw [hafter, hmode]
      rw [← hafter] at hmade
      obtain ⟨hraised, hcompiled⟩ := hraised hmade rfl
      exact ⟨Fetch.followsChanges_of_compiles hfound hcounted ⟨_, hreads⟩ (hnew hmissed) hraised
        hentry, _, hmade, h.counts hcompiled fun place => Template.led?_of_interpreted hmode⟩
    | compiled =>
      have hremembered := Store.getElem?_remember f.place hmade hown
        ⟨f.path, f.modified, included⟩
      replace hafter : f.after = store.remember f.entrance.template f.place
          ⟨f.path, f.modified, included⟩ := by rw [hafter, hmode]; rfl
      rw [← hafter] at hremembered
      obtain ⟨hraised, hcompiled⟩ := hraised hremembered rfl
      exact ⟨Fetch.followsChanges_of_compiles hfound hcounted ⟨_, hreads⟩ (hnew hmissed) hraised
        hentry, _, hremembered, h.remembers hcompiled hown hmode hresult rfl rfl⟩

end Fetch

end Replays

/-! ### Since the template was made -/

/-- What happens to an include of the template depends on what was done since the template was
made. -/
def Template.FollowsChanges (template : Template) (first : Store) (before : List Event) :
    Event → Prop
  | .fetch f => ∀ early late, before = early ++ late → template.MadeBy first early →
      f.entrance.template.cache = template.cache → f.FollowsChanges template late
  | .assign .. | .declare .. => True

/-- The cache of the template holds what its nodes last led to since it was made. -/
def Template.Remembers (template : Template) (first : Store) (before : List Event) (store : Store) :
    Prop :=
  ∀ early late, before = early ++ late → template.MadeBy first early →
    ∃ cache, store.caches[template.cache]? = some cache ∧ cache.Replays template late

section Upholds

variable {template : Template} {first : Store}

/-- Where events end in a given one, so does what remains of them, if anything does. -/
theorem append_singleton_eq_append {α : Type} {before early late : List α} {a : α}
    (h : before ++ [a] = early ++ late) :
    (early = before ++ [a] ∧ late = []) ∨
      ∃ late', before = early ++ late' ∧ late = late' ++ [a] := by
  obtain rfl | ⟨late, last, rfl⟩ := late.eq_nil_or_concat'
  · exact .inl ⟨by rw [h, List.append_nil], rfl⟩
  · rw [← List.append_assoc] at h
    obtain ⟨hbefore, hlast⟩ := List.append_inj' h rfl
    cases hlast
    exact .inr ⟨late, hbefore, rfl⟩

/-- What was done last made the template. -/
theorem Template.MadeBy.of_append {before : List Event} {event : Event}
    (h : template.MadeBy first (before ++ [event])) :
    ∃ f, event = .fetch f ∧ f.after.caches[template.cache]? = some ⟨[], 0⟩ := by
  generalize hlog : before ++ [event] = log at h
  cases h with
  | loaded => simp at hlog
  | @included _ f _ hnew =>
    obtain ⟨-, hevent⟩ := List.append_inj' hlog rfl
    cases hevent
    exact ⟨f, rfl, hnew⟩

/-- An event that is no include makes no difference. -/
theorem Template.Remembers.later {before : List Event} {store store' : Store} {event : Event}
    (h : template.Remembers first before store) (hevent : ∀ f, event ≠ .fetch f)
    (hcaches : store'.caches = store.caches) :
    template.Remembers first (before ++ [event]) store' := by
  intro early late hsplit hmade
  obtain ⟨rfl, rfl⟩ | ⟨late, rfl, rfl⟩ := append_singleton_eq_append hsplit
  · obtain ⟨f, hfetch, -⟩ := hmade.of_append
    exact absurd hfetch (hevent f)
  · obtain ⟨cache, hcache, hreplays⟩ := h early late rfl hmade
    refine ⟨cache, hcaches ▸ hcache, ?_⟩
    cases event with
    | fetch f => exact absurd rfl (hevent f)
    | assign | declare => exact hreplays.later rfl fun _ => rfl

/-- An include leaves the template's cache with what its nodes last led to. -/
theorem Template.Remembers.fetch {before : List Event} {f : Fetch} (hcomes : f.Comes)
    (h : template.Remembers first before f.before) :
    template.FollowsChanges first before (.fetch f) ∧
      template.Remembers first (before ++ [.fetch f]) f.after := by
  refine ⟨fun early late hsplit hmade hown => ?_, fun early late hsplit hmade => ?_⟩
  · obtain ⟨cache, hcache, hreplays⟩ := h early late hsplit hmade
    exact (hreplays.fetch hcache hcomes hown).1
  · obtain ⟨rfl, rfl⟩ | ⟨late, rfl, rfl⟩ := append_singleton_eq_append hsplit
    · obtain ⟨_, hfetch, hnew⟩ := hmade.of_append
      cases hfetch
      exact ⟨_, hnew, IncludeCache.replays_new⟩
    · obtain ⟨cache, hcache, hreplays⟩ := h early late rfl hmade
      by_cases hown : f.entrance.template.cache = template.cache
      · exact (hreplays.fetch hcache hcomes hown).2
      · refine ⟨cache, hcomes.getElem?_caches hown hcache, hreplays.later ?_ fun place => ?_⟩
        · simp [Template.compiledBy, hown]
        · simp [Template.led?, hown]

private theorem upholds_followsChanges :
    Upholds (template.FollowsChanges first) (template.Remembers first) (fun _ _ _ => True) where
  later _ _ := trivial
  assign _ _ _ _ h := ⟨trivial, h.later nofun rfl⟩
  declare h _ := ⟨trivial, h.later nofun rfl⟩
  fetch hcomes _ h _ :=
    let ⟨hfollows, hremembers⟩ := h.fetch hcomes
    ⟨hfollows, hremembers, fun _ _ => trivial⟩
  named _ _ := trivial
  block _ _ _ := trivial

/-- Every include of the template in a chronicle follows the changes of its file. -/
theorem Chronicle.followsChanges {log : List Event} {store : Store} (h : Chronicle first log store)
    (template : Template) :
    Lawful (template.FollowsChanges first) [] log ∧ template.Remembers first log store := by
  refine h.lawful upholds_followsChanges (fun hremembers hcompile early late hsplit hmade => ?_)
    (fun _ _ _ => trivial) fun early late hsplit hmade => ?_
  · obtain ⟨cache, hcache, hreplays⟩ := hremembers early late hsplit hmade
    exact ⟨cache, Store.getElem?_caches_of_compile hcompile hcache, hreplays⟩
  · obtain ⟨rfl, rfl⟩ := List.append_eq_nil_iff.1 hsplit.symm
    generalize hlog : ([] : List Event) = log at hmade
    cases hmade with
    | included => simp at hlog
    | loaded hcompiles =>
      obtain ⟨-, -, -, hcache, rfl⟩ := Store.of_compile_eq_ok hcompiles
      exact ⟨⟨[], 0⟩, by rw [hcache, Array.getElem?_push, if_pos rfl], IncludeCache.replays_new⟩

end Upholds

/-! ### One node -/

/-- An include of the template follows the changes of its file, after these events since the
template was made. -/
def Template.Follows (template : Template) (before : List Event) : Event → Prop
  | .fetch f => f.entrance.template.cache = template.cache → f.FollowsChanges template before
  | .assign .. | .declare .. => True

section Node

variable {template : Template} {place : Nat} {path : Path} {time : Option Nat}
  {before part : List Event} {event : Event}

/-- What is done since the template was made does not depend on what was done before. -/
theorem Template.lawful_follows {first : Store} {early late : List Event}
    (hmade : template.MadeBy first early)
    (h : Lawful (template.FollowsChanges first) (early ++ before) late) :
    Lawful template.Follows before late := by
  induction late generalizing before with
  | nil => trivial
  | cons event late ih =>
    refine ⟨?_, ih (by simpa using h.2)⟩
    cases event with
    | fetch f => exact h.1 early before rfl hmade
    | assign | declare => trivial

private theorem Template.not_executes (h : ¬ template.Executes place event) :
    template.compiledAt place event = false ∧ template.led? place event = none := by
  cases event with
  | fetch f =>
    rw [Executes, not_and] at h
    constructor
    · simp only [compiledAt, compiledBy]
      simpa using fun hown _ => h hown
    · simpa [led?] using fun hown hplace => absurd hplace (h hown)
  | assign | declare => exact ⟨rfl, rfl⟩

/-- The node last led to the path at the time of change. -/
def Template.Settled (template : Template) (place : Nat) (path : Path) (time : Option Nat)
    (log : List Event) : Prop :=
  ∃ last ∈ template.last? place log, last.LeadsTo path time

theorem Template.Settled.unique {time' : Option Nat} {log : List Event}
    (h : template.Settled place path time log) (h' : template.Settled place path time' log) :
    time = time' := by
  obtain ⟨last, hlast, -, htime⟩ := h
  obtain ⟨last', hlast', -, htime'⟩ := h'
  cases Option.mem_unique hlast hlast'
  exact htime.symm.trans htime'

private theorem Fetch.LeadsTo.iff {f : Fetch} (h : f.LeadsTo path time) (last : Fetch) :
    last.LeadsTo f.path f.modified ↔ last.LeadsTo path time := by
  rw [LeadsTo, LeadsTo, h.2, Path.agrees_iff, Path.agrees_iff, Path.agrees_iff.1 h.1]

/-- What one execution of the node does that leads to the path at the time of change: it compiles
the file unless the node last led there, and then the node has led there. -/
theorem Template.follows_executed (hlaw : template.Follows before event)
    (hsteady : template.Steadily place path time [event])
    (hexecuted : template.Executes place event) :
    (template.compiledAt place event = true ↔ ¬ template.Settled place path time before) ∧
      template.Settled place path time (before ++ [event]) := by
  cases event with
  | assign | declare => exact hexecuted.elim
  | fetch f =>
    obtain ⟨hmode, hleads, htarget⟩ := hsteady f (List.mem_singleton_self _) hexecuted
    obtain ⟨hown, rfl⟩ := hexecuted
    have hfollows := hlaw hown
    obtain ⟨included, hresult⟩ := hfollows.found htarget
    have hcompiled : template.compiledAt f.place (.fetch f) = true ↔
        f.before.compilations template < f.after.compilations template := by
      simp [compiledAt, compiledBy, hown]
    constructor
    · by_cases hsettled : template.Settled f.place path time before
      · obtain ⟨last, hlast, hthere⟩ := id hsettled
        rw [hcompiled, hfollows.unchanged hmode (.inr ⟨last, hlast, (hleads.iff last).2 hthere⟩)]
        simpa using hsettled
      · obtain ⟨source, _, hread, -⟩ := htarget
        rw [hcompiled, hfollows.changed hmode ⟨source, hread⟩ fun last hlast hthere =>
          hsettled ⟨last, hlast, (hleads.iff last).1 hthere⟩]
        simpa using hsettled
    · refine ⟨f, ?_, hleads⟩
      rw [last?_append, led?_of_own hown hmode hresult, if_pos rfl]
      rfl

theorem Template.Steadily.mono {part' : List Event} (h : template.Steadily place path time part)
    (hpart : part' ⊆ part) : template.Steadily place path time part' :=
  fun f hf => h f (hpart hf)

/-- Once the node has led to the path it goes on to do so, and compiles nothing more. -/
theorem Template.Settled.stays (h : template.Settled place path time before)
    (hlaw : Lawful template.Follows before part)
    (hsteady : template.Steadily place path time part) :
    template.Settled place path time (before ++ part) ∧
      part.countP (template.compiledAt place) = 0 := by
  induction part generalizing before with
  | nil => exact ⟨by rwa [List.append_nil], rfl⟩
  | cons event part ih =>
    have hrest : template.Steadily place path time part := hsteady.mono (List.subset_cons_self _ _)
    have hfirst : template.Steadily place path time [event] := hsteady.mono (by simp)
    rw [List.append_cons]
    by_cases hexecuted : template.Executes place event
    · obtain ⟨hcompiled, hsettled⟩ := Template.follows_executed hlaw.1 hfirst hexecuted
      rw [List.countP_cons_of_neg (fun hcounted => hcompiled.1 hcounted h)]
      exact ih hsettled hlaw.2 hrest
    · obtain ⟨hcompiled, hled⟩ := Template.not_executes hexecuted
      rw [List.countP_cons_of_neg (by simp [hcompiled])]
      refine ih ?_ hlaw.2 hrest
      rwa [Template.Settled, Template.last?_append_of_led?_eq_none hled]

/-- If the node is executed, it has led to the path in the end; and it has compiled the file once
unless it last led there before. -/
theorem Template.settled_of_executed (hlaw : Lawful template.Follows before part)
    (hsteady : template.Steadily place path time part)
    (hexecuted : ∃ event ∈ part, template.Executes place event) :
    template.Settled place path time (before ++ part) ∧
      (¬ template.Settled place path time before →
        part.countP (template.compiledAt place) = 1) := by
  induction part generalizing before with
  | nil =>
    obtain ⟨_, hmem, -⟩ := hexecuted
    cases hmem
  | cons event part ih =>
    have hrest : template.Steadily place path time part := hsteady.mono (List.subset_cons_self _ _)
    have hfirst : template.Steadily place path time [event] := hsteady.mono (by simp)
    rw [List.append_cons]
    by_cases hevent : template.Executes place event
    · obtain ⟨hcompiled, hsettled⟩ := Template.follows_executed hlaw.1 hfirst hevent
      obtain ⟨hstays, hcount⟩ := hsettled.stays hlaw.2 hrest
      refine ⟨hstays, fun hbefore => ?_⟩
      rw [List.countP_cons_of_pos (hcompiled.2 hbefore), hcount]
    · obtain ⟨hcompiled, hled⟩ := Template.not_executes hevent
      obtain ⟨later, hlater, hexecutes⟩ := hexecuted
      obtain rfl | hlater := List.mem_cons.1 hlater
      · exact absurd hexecutes hevent
      · obtain ⟨hstays, hcount⟩ := ih hlaw.2 hrest ⟨later, hlater, hexecutes⟩
        refine ⟨hstays, fun hbefore => ?_⟩
        rw [List.countP_cons_of_neg (by simp [hcompiled])]
        refine hcount ?_
        rwa [Template.Settled, Template.last?_append_of_led?_eq_none hled]

/-- A node that leads to one path at one time of change compiles the file at most once. -/
theorem Template.countP_compiledAt_le_one (hlaw : Lawful template.Follows before part)
    (hsteady : template.Steadily place path time part) :
    part.countP (template.compiledAt place) ≤ 1 := by
  by_cases hexecuted : ∃ event ∈ part, template.Executes place event
  · by_cases hbefore : template.Settled place path time before
    · rw [(hbefore.stays hlaw hsteady).2]
      exact Nat.zero_le 1
    · exact Nat.le_of_eq ((Template.settled_of_executed hlaw hsteady hexecuted).2 hbefore)
  · have hnone : part.countP (template.compiledAt place) = 0 := by
      rw [List.countP_eq_zero]
      intro event hevent
      simp [(Template.not_executes fun h => hexecuted ⟨event, hevent, h⟩).1]
    rw [hnone]
    exact Nat.zero_le 1

end Node

/-! ### Recompilation -/

/-- Since a template was made, its counter is the number of its includes for which a file was
compiled, and each include follows the changes of its file. A node that leads to one path, as long
as the time of change of the file stays the same, compiles it at most once, and once more when the
time of change is another one. Every chronicle goes on with any render. -/
theorem Chronicle.compilations_follow_changes {first store : Store} {early late : List Event}
    {template : Template} (hchronicle : Chronicle first (early ++ late) store)
    (hmade : template.MadeBy first early) :
    store.compilations template = late.countP template.compiledBy ∧
      (∀ before f after, late = before ++ .fetch f :: after →
        f.entrance.template.cache = template.cache → f.FollowsChanges template before) ∧
      (∀ place path time before part after, late = before ++ part ++ after →
        template.Steadily place path time part → part.countP (template.compiledAt place) ≤ 1) ∧
      (∀ place path time time' before part part' after,
        late = before ++ part ++ part' ++ after → time ≠ time' →
        template.Steadily place path time part → template.Steadily place path time' part' →
        (∃ event ∈ part, template.Executes place event) →
        (∃ event ∈ part', template.Executes place event) →
          part'.countP (template.compiledAt place) = 1) ∧
      (∀ (next : Template) (options : RenderOptions) (files : FileTree) (sink : Sink),
        ∃ log, Chronicle first (early ++ late ++ log)
          (next.renderInto options files store sink).store) ∧
      ∀ (next : Template) (options : RenderOptions) (files : FileTree),
        ∃ log,
          Chronicle first (early ++ late ++ log) (next.evaluate options files store).store := by
  obtain ⟨hlawful, hremembers⟩ := hchronicle.followsChanges template
  obtain ⟨cache, hcache, hreplays⟩ := hremembers early late rfl hmade
  have hfollows : Lawful template.Follows [] late :=
    Template.lawful_follows hmade (by simpa using (lawful_append.1 hlawful).2)
  refine ⟨by rw [Store.compilations_eq hcache, hreplays.counted], ?_, ?_, ?_,
    hchronicle.exists_render, hchronicle.exists_evaluate⟩
  · rintro before f after rfl
    exact hfollows.at
  · rintro place path time before part after rfl hsteady
    rw [List.append_assoc] at hfollows
    have hpart := (lawful_append.1 (lawful_append.1 hfollows).2).1
    exact Template.countP_compiledAt_le_one hpart hsteady
  · rintro place path time time' before part part' after rfl htime hsteady hsteady' hexecuted
      hexecuted'
    obtain ⟨⟨⟨-, hpart⟩, hpart'⟩, -⟩ := by simpa only [lawful_append] using hfollows
    obtain ⟨hsettled, -⟩ := Template.settled_of_executed hpart hsteady hexecuted
    obtain ⟨-, hcount⟩ := Template.settled_of_executed hpart' hsteady' hexecuted'
    refine hcount fun hsettled' => htime ?_
    exact hsettled.unique (by simpa using hsettled')

/-- A file outside the working directory is included before and after its time of change is another
one. -/
theorem Chronicle.compilations_follow_changes_again :
    ∃ (template : Template) (first : Store) (f f' : Fetch),
      let files (time : Nat) := FileTree.empty.write ⟨"/srv/f"⟩ (.text "") time
      let options : RenderOptions := { baseDir := some ⟨"/srv"⟩ }
      let after (time : Nat) (store : Store) :=
        (template.renderInto options (files time) store .collector).store
      Store.empty.compile ⟨.compiled, []⟩ "@include\x7b'f'\x7d" none = .ok (template, first) ∧
      Chronicle first [.fetch f, .fetch f'] (after 2 (after 1 first)) ∧
      f.files = files 1 ∧ f'.files = files 2 ∧
      [Event.fetch f'].countP (template.compiledAt 0) = 1 := by
  let files (time : Nat) := FileTree.empty.write ⟨"/srv/f"⟩ (.text "") time
  let options : RenderOptions := { baseDir := some ⟨"/srv"⟩ }
  let start (template : Template) (store : Store) :=
    options.initial template store .collector
  let fetched (time : Nat) (template : Template) (store : Store) :=
    ((options.level (files time)).fetchFile template 0 ⟨"/srv/f"⟩).run.run
      (start template store)
  let after (time : Nat) (template : Template) (store : Store) :=
    (template.renderInto options (files time) store .collector).store
  let leadsToNothing (time : Nat) (template : Template) (store : Store) : Bool :=
    (fetched time template store).1.toOption.any (·.program.endsAt 0)
  obtain ⟨⟨template, first⟩, hcompile, hrun⟩ := Attempt.exists_eq_ok_and
    (x := Store.empty.compile ⟨.compiled, []⟩ "@include\x7b'f'\x7d" none)
    (p := fun loaded => decide (loaded.1.program.included? = some "f" ∧
      leadsToNothing 1 loaded.1 loaded.2 ∧
      leadsToNothing 2 loaded.1 (after 1 loaded.1 loaded.2))) (by decide +kernel)
  obtain ⟨hincluded, hbefore, hafter⟩ := of_decide_eq_true hrun
  obtain ⟨-, hcompiler, -⟩ := Store.of_compile_eq_ok hcompile
  let site : Entrance := .top template options.baseDir
  let visit (time : Nat) (before : Store) (result : Except TemplateError Template)
      (left : Store) : Fetch :=
    ⟨site, 0, "f", ⟨"/srv/f"⟩, files time, before, result, left⟩
  have hrecords (time : Nat) (store : Store) (h : leadsToNothing time template store = true) :
      ∃ result left, Records (options.setting (files time)) 64 site
        ((options.level (files time)).runPart template .whole) (start template store)
        [.fetch (visit time store result left)] := by
    have hjoin : (⟨"/srv/f"⟩ : Path) = (start template store).currentDir.join ⟨"f"⟩ := by
      have hdir : (start template store).currentDir = ⟨"/srv"⟩ := rfl
      rw [hdir]
      decide
    obtain ⟨included, hfetched, hends⟩ := (Option.any_eq_true _ _).1 h
    cases hfetch : fetched time template store with
    | mk result s' =>
      rw [hfetch] at hfetched
      cases result with
      | error e => cases hfetched
      | ok found =>
        cases hfetched
        refine ⟨_, _, Level.records_runPart_of_included site hincluded hjoin
          (.file hjoin hfetch nofun fun below hbelow => ?_)⟩
        exact Level.records_runPart_of_endsAt (.file ⟨"/srv/f"⟩ included site) hends _
  obtain ⟨result, kept, hfirst⟩ := hrecords 1 first hbefore
  obtain ⟨result', kept', hsecond⟩ := hrecords 2 (after 1 template first) hafter
  have hchronicle := (Chronicle.start.render hfirst).render hsecond
  have hsteady (time : Nat) (store : Store) (result : Except TemplateError Template) (kept : Store)
      (htime : (files time).modified? ⟨"/srv/f"⟩ = some time)
      (hread : (files time).read ⟨"/srv/f"⟩ = .ok "") :
      template.Steadily 0 ⟨"/srv/f"⟩ (some time) [.fetch (visit time store result kept)] := by
    intro f hf _
    cases List.mem_singleton.1 hf
    obtain ⟨program, hprogram⟩ : ∃ program, Program.compile ⟨.compiled, []⟩ "" = .ok program :=
      Attempt.exists_eq_ok (by decide +kernel)
    exact ⟨congrArg Compiler.mode hcompiler, ⟨Path.agrees_iff.2 rfl, htime⟩, "", program, hread,
      hcompiler ▸ hprogram⟩
  obtain ⟨-, -, -, hagain, -⟩ :=
    @Chronicle.compilations_follow_changes first _ [] _ template hchronicle (.loaded hcompile)
  refine ⟨template, first, _, _, hcompile, hchronicle, rfl, rfl, ?_⟩
  exact hagain 0 ⟨"/srv/f"⟩ (some 1) (some 2) [] _ _ [] rfl (by decide)
    (hsteady 1 _ _ _ (by decide +kernel) (by decide +kernel))
    (hsteady 2 _ _ _ (by decide +kernel) (by decide +kernel))
    ⟨_, List.mem_singleton_self _, rfl, rfl⟩ ⟨_, List.mem_singleton_self _, rfl, rfl⟩

end TextTemplate
