import TextTemplate.Engine
import TextTemplate.Proofs.Session.History

/-!
# Engines

An engine is both where its templates are kept and where a running template looks up the names that
it includes. A name that is added makes a difference only to a render that looked it up before, and
failed because of it; forgetting the name again makes no difference at all.

## Main definitions

* `EngineCall`, `EngineCall.perform`: what an engine is called for, and what a call does.
* `Engine.after`: the engine and its store after some calls.
* `Comparison.without`: renders that are compared until a name is looked up.

## Main results

* `Engine.exists_session`: the calls of an engine make a session.
* `Engine.templates_independent`: adding and removing other templates.
-/

namespace TextTemplate

/-! ### Calls -/

/-- What an engine is called for. -/
inductive EngineCall where
  | add (name source : String)
  | addFile (name : String) (path : Path)
  | remove (name : String)
  | register (kind : CustomKind)
  | render (name : String) (context : Value) (resolver : Resolver)

namespace EngineCall

/-- The name under which a template is to be added. -/
def added? : EngineCall → Option String
  | add name _ => some name
  | addFile name _ => some name
  | remove _ | register _ | render _ _ _ => none

/-- What is left of an attempt to add a template: an engine and its store, which are the old ones
where the attempt failed, with the error. -/
def settle (before : Engine × Store) :
    Except TemplateError (Engine × Store) → Option TemplateError × Engine × Store
  | .ok after => (none, after)
  | .error e => (some e, before)

/-- The engine and its store after a call, with the error of a template that could not be added. -/
def perform (files : FileTree) (before : Engine × Store) :
    EngineCall → Option TemplateError × Engine × Store
  | add name source => settle before (before.1.add before.2 name source)
  | addFile name path => settle before (before.1.addFile files before.2 name path)
  | remove name => (none, before.1.remove name, before.2)
  | register kind => (none, before.1.register kind, before.2)
  | render name context resolver =>
    (none, before.1, (before.1.render files before.2 name context resolver).store)

end EngineCall

/-- A new engine and its store after some calls. -/
def Engine.after (files : FileTree) (config : EngineConfig) (calls : List EngineCall) :
    Engine × Store :=
  calls.foldl (fun before call => (call.perform files before).2) ({ config }, .empty)

/-! ### Adding a template -/

section Adding

variable {files : FileTree} {engine engine' : Engine} {store store' : Store}

private theorem Compiler.exists_of_loadFile {compiler : Compiler} {path : Path}
    {made : Template × Store} (h : compiler.loadFile files store path = .ok made) :
    ∃ source, compiler.load store source (some path) = .ok made := by
  rw [loadFile] at h
  split at h
  · cases h
  · exact ⟨_, h⟩

private theorem Engine.keep_eq_ok {name : String} {made : Except TemplateError (Template × Store)}
    (h : engine.keep name made = .ok (engine', store')) :
    engine.templates.contains name = false ∧ ∃ template, made = .ok (template, store') ∧
      engine' = { engine with templates := engine.templates.insert name template } := by
  rw [keep] at h
  split at h
  · cases h
  · rename_i hfree
    cases made with
    | error e => cases h
    | ok made =>
      cases h
      exact ⟨by simpa using hfree, made.1, rfl, rfl⟩

/-- Where a template is added, its name was free, and it has been compiled. -/
theorem EngineCall.of_perform_added {call : EngineCall} {name : String}
    (hadded : call.added? = some name)
    (h : call.perform files (engine, store) = (none, engine', store')) :
    engine.templates.contains name = false ∧ ∃ template source origin,
      store.compile engine.compiler source origin = .ok (template, store') ∧
        engine' = { engine with templates := engine.templates.insert name template } := by
  have hsettled {attempt : Except TemplateError (Engine × Store)}
      (h : settle (engine, store) attempt = (none, engine', store')) :
      attempt = .ok (engine', store') := by
    cases attempt with
    | ok after => cases h; rfl
    | error e => cases h
  cases call with
  | add name source =>
    cases hadded
    obtain ⟨hfree, template, hload, hengine⟩ := Engine.keep_eq_ok (hsettled h)
    exact ⟨hfree, template, source, none, Attempt.mapError_eq_ok_iff.1 hload, hengine⟩
  | addFile name path =>
    cases hadded
    obtain ⟨hfree, template, hfile, hengine⟩ := Engine.keep_eq_ok (hsettled h)
    obtain ⟨source, hload⟩ := Compiler.exists_of_loadFile hfile
    exact ⟨hfree, template, source, some path, Attempt.mapError_eq_ok_iff.1 hload, hengine⟩
  | remove name | register kind | render name context resolver => cases hadded

/-- A template that cannot be added leaves everything as it was. -/
theorem EngineCall.of_perform_refused {call : EngineCall} {name : String} {e : TemplateError}
    {before after : Engine × Store} (hadded : call.added? = some name)
    (h : call.perform files before = (some e, after)) : after = before := by
  have hsettled {attempt : Except TemplateError (Engine × Store)}
      (h : settle before attempt = (some e, after)) : after = before := by
    cases attempt with
    | ok made => cases h
    | error e => cases h; rfl
  cases call with
  | add name source => exact hsettled h
  | addFile name path => exact hsettled h
  | remove name | register kind | render name context resolver => cases hadded

end Adding

/-! ### The session of an engine -/

/-- The templates of the engine have been compiled in a session that led to the store. -/
def Engine.InSession (files : FileTree) (engine : Engine) (store : Store) : Prop :=
  ∃ templates, Session (· = files) templates store ∧
    ∀ template, IsRegistered (some engine.templates) template → template ∈ templates

section InSession

variable {files : FileTree} {engine : Engine} {store : Store}

private theorem isRegistered_of_insert {templates : Bindings Template} {name : String}
    {added template : Template} (h : IsRegistered (some (templates.insert name added)) template) :
    template = added ∨ IsRegistered (some templates) template := by
  obtain ⟨_, other, ⟨⟩, hfound⟩ := h
  by_cases hname : other = name
  · subst hname
    rw [Bindings.find?_insert_self] at hfound
    exact .inl (Option.some.inj hfound).symm
  · rw [Bindings.find?_insert_of_ne hname] at hfound
    exact .inr ⟨_, other, rfl, hfound⟩

private theorem isRegistered_of_erase {templates : Bindings Template} {name : String}
    {template : Template} (h : IsRegistered (some (templates.erase name)) template) :
    IsRegistered (some templates) template := by
  obtain ⟨_, other, ⟨⟩, hfound⟩ := h
  by_cases hname : other = name
  · subst hname
    rw [Bindings.find?_erase_self] at hfound
    cases hfound
  · rw [Bindings.find?_erase_of_ne hname] at hfound
    exact ⟨_, other, rfl, hfound⟩

/-- Every call goes on with the session. -/
theorem EngineCall.inSession_perform (h : engine.InSession files store) (call : EngineCall) :
    (call.perform files (engine, store)).2.1.InSession files
      (call.perform files (engine, store)).2.2 := by
  obtain ⟨templates, hsession, hknown⟩ := h
  cases hadded : call.added? with
  | some name =>
    cases hperform : call.perform files (engine, store) with
    | mk error after =>
      cases error with
      | some e =>
        rw [of_perform_refused hadded hperform]
        exact ⟨templates, hsession, hknown⟩
      | none =>
        obtain ⟨engine', store'⟩ := after
        obtain ⟨-, template, source, origin, hcompile, rfl⟩ := of_perform_added hadded hperform
        refine ⟨template :: templates, .load hsession hcompile, fun other hother => ?_⟩
        obtain rfl | hother := isRegistered_of_insert hother
        · exact List.mem_cons_self ..
        · exact List.mem_cons_of_mem _ (hknown other hother)
  | none =>
    cases call with
    | add name source | addFile name path => cases hadded
    | remove name =>
      exact ⟨templates, hsession, fun other hother => hknown other (isRegistered_of_erase hother)⟩
    | register kind => exact ⟨templates, hsession, hknown⟩
    | render name context resolver =>
      rw [perform, Engine.render]
      split
      · exact ⟨templates, hsession, hknown⟩
      · rename_i template hfound
        have hoptions : (engine.options template context resolver).KnownIn templates := hknown
        exact ⟨templates, .render hsession (hknown template ⟨_, name, rfl, hfound⟩) hoptions rfl
          .collector, hknown⟩

/-- Whatever an engine is called for, it is a session. -/
theorem Engine.exists_session (files : FileTree) (config : EngineConfig) (calls : List EngineCall) :
    (after files config calls).1.InSession files (after files config calls).2 := by
  have hcalls (before : Engine × Store) (h : before.1.InSession files before.2) :
      let reached := calls.foldl (fun before call => (call.perform files before).2) before
      reached.1.InSession files reached.2 := by
    induction calls generalizing before with
    | nil => exact h
    | cons call calls ih => exact ih _ (call.inSession_perform h)
  refine hcalls _ ⟨[], .start, ?_⟩
  rintro template ⟨_, name, ⟨⟩, ⟨⟩⟩

end InSession

/-! ### Another name -/

/-- Renders under the same files, of which the left one knows no template of this name. The
comparison is given up where it looks the name up. -/
def Comparison.without (files : FileTree) (name : String) : Comparison :=
  .exact
    { trees := (· = files)
      consistent := consistent_eq files
      compilers := Eq
      precedes := .of_eq
      escapes := fun e =>
        ∃ position directive, e = .render (.templateNotFound name) position directive
      escapes_annotate := by
        rintro _ ⟨position, directive, rfl⟩ position' directive'
        cases position with
        | none => exact ⟨some position', some directive', rfl⟩
        | some position => exact ⟨some position, directive, rfl⟩
      escapes_compile := fun h _ _ _ _ _ _ hfails => .inl (h ▸ hfails) }

instance (files : FileTree) (name : String) : (Comparison.without files name).IsExact :=
  Comparison.isExact_exact _

section Renders

variable {files : FileTree} {name : String} {owners owners' : List Compiler} {store store' : Store}
  {templates : Bindings Template} {template : Template}

/-- With one more name, other names are looked up as before. -/
theorem Level.simulates_registered_insert {left right : Setting} {levels : Nat} (added : Template)
    (hleft : left.registry = some templates)
    (hright : right.registry = some (templates.insert name added))
    (hfree : templates.find? name = none)
    (howned : ∀ template, IsRegistered (some templates) template →
      (Comparison.without files name).Templates ⟨owners, owners'⟩ template template)
    (other : String) {v : View} (hv : ⟨owners, owners'⟩ ≤ v.world) :
    TextTemplate.Simulates (Comparison.without files name)
      (Comparison.without files name).rendering v
      (fun w a b => (Comparison.without files name).Templates w a b ∧ a.origin = b.origin)
      ((above left levels).registered other) ((above right levels).registered other) := by
  rw [registered, registered, setting_above, setting_above, hleft, hright]
  dsimp only
  by_cases hname : other = name
  · subst hname
    rw [hfree]
    exact fun _ _ _ _ _ => .inl (.escapes ⟨none, none, rfl⟩)
  · rw [Bindings.find?_insert_of_ne hname]
    cases hfound : templates.find? other with
    | none => exact .fail _
    | some template =>
      exact .pure fun w hw => ⟨(howned template ⟨_, other, rfl, hfound⟩).mono (hv.trans hw), rfl⟩

/-- A template is rendered as before with one more name, unless it looks the name up. -/
theorem Engine.outcomes_insert {engine : Engine} (hsound : store.Sound (· = files) owners)
    (hsound' : store'.Sound (· = files) owners') (hblocks : store.blocks = store'.blocks)
    (hgrows : owners <+: owners') (hfree : engine.templates.find? name = none)
    (howned : ∀ template, IsRegistered (some engine.templates) template →
      template.OwnedIn owners)
    (hfound : IsRegistered (some engine.templates) template) (added : Template) (context : Value)
    (resolver : Resolver) :
    (Comparison.without files name).Outcomes ⟨owners, owners'⟩
      (template.renderInto (engine.options template context resolver) files store .collector)
      (template.renderInto ({ engine with
        templates := engine.templates.insert name added }.options template context resolver)
        files store' .collector) := by
  have htemplates (template : Template) (h : IsRegistered (some engine.templates) template) :
      (Comparison.without files name).Templates ⟨owners, owners'⟩ template template :=
    ⟨⟨rfl, howned template h, (howned template h).mono hgrows⟩, rfl, trivial⟩
  have hstores : (Comparison.without files name).Stores ⟨owners, owners'⟩ store store' :=
    hsound.stores (fun _ => rfl) hsound' hblocks
  have hlevels : ((engine.options template context resolver).level files).Simulates
      (Comparison.without files name) ⟨owners, owners'⟩
      (({ engine with templates := engine.templates.insert name added }.options template context
        resolver).level files) := by
    rw [RenderOptions.level, RenderOptions.level]
    refine Level.simulates_above ?_ ?_ ?_ ?_
      (fun _ => Level.simulates_registered_insert added ?_ ?_ hfree htemplates) _ <;> rfl
  let v := RenderOptions.view (engine.options template context resolver)
    ({ engine with templates := engine.templates.insert name added }.options template context
      resolver) template template ⟨owners, owners'⟩
  exact Simulates.outcomes (v := v) (hlevels.runPart (htemplates template hfound) .whole)
    (Comparison.states_initial rfl rfl hstores trivial)

/-- A template is rendered as before where the same names stand for the same templates. -/
theorem Engine.outcomes_of_find? {engine : Engine} (hsound : store.Sound (· = files) owners)
    (hsound' : store'.Sound (· = files) owners') (hblocks : store.blocks = store'.blocks)
    (hgrows : owners <+: owners') (hsame : ∀ name, templates.find? name =
      engine.templates.find? name)
    (howned : ∀ template, IsRegistered (some engine.templates) template →
      template.OwnedIn owners)
    (hfound : IsRegistered (some engine.templates) template) (context : Value)
    (resolver : Resolver) :
    (Comparison.same (consistent_eq files)).Outcomes ⟨owners, owners'⟩
      (template.renderInto (engine.options template context resolver) files store .collector)
      (template.renderInto ({ engine with templates }.options template context resolver) files
        store' .collector) := by
  have htemplates (template : Template) (h : IsRegistered (some engine.templates) template) :
      (Comparison.same (consistent_eq files)).Templates ⟨owners, owners'⟩ template template :=
    ⟨⟨rfl, howned template h, (howned template h).mono hgrows⟩, rfl, trivial⟩
  have hregistry (name : String) : Option.Rel (fun a b : Template =>
      (Comparison.same (consistent_eq files)).Templates ⟨owners, owners'⟩ a b ∧
        a.origin = b.origin) (engine.templates.find? name) (templates.find? name) := by
    rw [hsame]
    cases hname : engine.templates.find? name with
    | none => exact .none
    | some template => exact .some ⟨htemplates template ⟨_, name, rfl, hname⟩, rfl⟩
  have hoptions : (engine.options template context resolver).Simulates
      (Comparison.same (consistent_eq files)) ⟨owners, owners'⟩
      ({ engine with templates }.options template context resolver) :=
    ⟨rfl, rfl, .some hregistry, rfl, rfl⟩
  exact template.simulates_renderInto hoptions (htemplates template hfound) rfl rfl
    (hsound.stores (fun _ => rfl) hsound' hblocks) .collector

end Renders

/-! ### Independence -/

section Independence

variable {files : FileTree} {engine engine' : Engine} {store store' : Store}

private theorem Engine.render_of_find? {name : String} {template : Template} {context : Value}
    {resolver : Resolver} (h : engine.templates.find? name = some template) :
    engine.render files store name context resolver =
      template.renderText (engine.options template context resolver) files store := by
  rw [render, h]

/-- What adding a template leaves as it was: the files that the caches hold, the blocks, and the
templates of other names. -/
theorem EngineCall.exists_sound_of_added {call : EngineCall} {name : String}
    (hsession : engine.InSession files store) (hadded : call.added? = some name)
    (h : call.perform files (engine, store) = (none, engine', store')) :
    ∃ owners owners' added, store.Sound (· = files) owners ∧ store'.Sound (· = files) owners' ∧
      owners <+: owners' ∧ store.blocks = store'.blocks ∧
      (∀ template, IsRegistered (some engine.templates) template → template.OwnedIn owners) ∧
      engine.templates.find? name = none ∧
      engine' = { engine with templates := engine.templates.insert name added } := by
  obtain ⟨templates, hreached, hknown⟩ := hsession
  obtain ⟨owners, hsound, howned⟩ := hreached.exists_sound (consistent_eq files)
  obtain ⟨hfree, added, source, origin, hcompile, rfl⟩ := of_perform_added hadded h
  obtain ⟨hsound', -⟩ := hsound.compile hcompile
  obtain ⟨-, -, -, -, rfl⟩ := Store.of_compile_eq_ok hcompile
  rw [Bindings.contains, Option.isSome_eq_false_iff, Option.isNone_iff_eq_none] at hfree
  exact ⟨owners, _, added, hsound, hsound', List.prefix_append _ _, rfl,
    fun template htemplate => howned template (hknown template htemplate), hfree, rfl⟩

/-- Rendering a template after another one has been added. -/
theorem EngineCall.agrees_added {call : EngineCall} {name : String}
    (hsession : engine.InSession files store) (hadded : call.added? = some name)
    (h : call.perform files (engine, store) = (none, engine', store')) {registered : String}
    (hregistered : engine.templates.contains registered = true) (context : Value)
    (resolver : Resolver) :
    (engine.render files store registered context resolver).Agrees Eq
        (engine'.render files store' registered context resolver) ∨
      ∃ position directive, (engine.render files store registered context resolver).result =
        .error (.render (.templateNotFound name) position directive) := by
  obtain ⟨owners, owners', added, hsound, hsound', hgrows, hblocks, howned, hfree, rfl⟩ :=
    exists_sound_of_added hsession hadded h
  obtain ⟨template, hfound⟩ := Option.isSome_iff_exists.1 hregistered
  have hother : registered ≠ name := by
    rintro rfl
    cases hfree.symm.trans hfound
  have hfound' : (engine.templates.insert name added).find? registered = some template := by
    rw [Bindings.find?_insert_of_ne hother, hfound]
  rw [Engine.render_of_find? hfound, Engine.render_of_find? hfound']
  obtain ⟨e, hresult, position, directive, rfl⟩ | ⟨-, -, -, hagrees⟩ :=
    Template.outcomes_renderText (Engine.outcomes_insert hsound hsound' hblocks hgrows hfree howned
      ⟨_, registered, rfl, hfound⟩ added context resolver)
  · exact .inr ⟨position, directive, hresult⟩
  · exact .inl hagrees

/-- Rendering a template after another one has been added and removed. -/
theorem EngineCall.agrees_removed {call : EngineCall} {name : String}
    (hsession : engine.InSession files store) (hadded : call.added? = some name)
    (h : call.perform files (engine, store) = (none, engine', store')) (registered : String)
    (context : Value) (resolver : Resolver) :
    (engine.render files store registered context resolver).Agrees Eq
      ((engine'.remove name).render files store' registered context resolver) := by
  obtain ⟨owners, owners', added, hsound, hsound', hgrows, hblocks, howned, hfree, rfl⟩ :=
    exists_sound_of_added hsession hadded h
  have hsame (other : String) : ((engine.templates.insert name added).erase name).find? other =
      engine.templates.find? other := by
    by_cases hother : other = name
    · rw [hother, Bindings.find?_erase_self, hfree]
    · rw [Bindings.find?_erase_of_ne hother, Bindings.find?_insert_of_ne hother]
  cases hfound : engine.templates.find? registered with
  | none =>
    have hstores : (Comparison.same (consistent_eq files)).Stores ⟨owners, owners'⟩ store store' :=
      hsound.stores (fun _ => rfl) hsound' hblocks
    rw [Engine.render, Engine.render, Engine.remove, hsame, hfound]
    exact ⟨rfl, rfl, rfl, hstores.blocks.imp fun _ _ => Comparison.Blocks.alike⟩
  | some template =>
    rw [Engine.render_of_find? hfound, Engine.render_of_find? ((hsame registered).trans hfound)]
    exact (Template.outcomes_renderText (Engine.outcomes_of_find? hsound hsound' hblocks hgrows
      hsame howned ⟨_, registered, rfl, hfound⟩ context resolver)).agrees (consistent_eq files)

/-- Whatever an engine has been called for: a template that cannot be added leaves the names and all
renders as they were. After a template has been added under a name, every other template is rendered
as before, unless it was the name that the render did not find; and after the name has been removed
again, every name is rendered as before. -/
theorem Engine.templates_independent (files : FileTree) (config : EngineConfig)
    (calls : List EngineCall) {call : EngineCall} {name : String}
    (hadded : call.added? = some name) :
    let (engine, store) := after files config calls
    match call.perform files (engine, store) with
    | (some _, engine', store') =>
      engine'.templates.names = engine.templates.names ∧
        ∀ registered context resolver, engine'.render files store' registered context resolver =
          engine.render files store registered context resolver
    | (none, engine', store') =>
      ∀ registered context resolver,
        let earlier := engine.render files store registered context resolver
        (engine.templates.contains registered = true →
          earlier.Agrees Eq (engine'.render files store' registered context resolver) ∨
            ∃ position directive, earlier.result =
              .error (.render (.templateNotFound name) position directive)) ∧
        earlier.Agrees Eq
          ((engine'.remove name).render files store' registered context resolver) := by
  have hsession := exists_session files config calls
  generalize after files config calls = before at hsession
  obtain ⟨engine, store⟩ := before
  dsimp only
  cases hperform : call.perform files (engine, store) with
  | mk error after =>
    cases error with
    | some e =>
      rw [EngineCall.of_perform_refused hadded hperform]
      exact ⟨rfl, fun _ _ _ => rfl⟩
    | none =>
      exact fun registered context resolver =>
        ⟨fun hregistered => EngineCall.agrees_added hsession hadded hperform hregistered context
          resolver, EngineCall.agrees_removed hsession hadded hperform registered context resolver⟩

/-- A template that includes another one by name, and a third one that is added. -/
theorem Engine.templates_independent_third :
    let calls : List EngineCall :=
      [.add "page" "a@includeNamed\x7b'part'\x7d", .add "part" "b"]
    let before := after .empty {} calls
    let call : EngineCall := .add "other" "c"
    let reached := (call.perform .empty before).2
    call.added? = some "other" ∧ reached.1.templates.contains "other" = true ∧
      (before.1.render .empty before.2 "page" .null .absent).result = .ok "ab" ∧
      (before.1.render .empty before.2 "page" .null .absent).Agrees Eq
        (reached.1.render .empty reached.2 "page" .null .absent) ∧
      (before.1.render .empty before.2 "page" .null .absent).Agrees Eq
        ((reached.1.remove "other").render .empty reached.2 "page" .null .absent) := by
  intro calls before call reached
  have hadded : call.added? = some "other" := rfl
  have hresult : (before.1.render .empty before.2 "page" .null .absent).result = .ok "ab" := by
    decide +kernel
  have hperform : call.perform .empty before = (none, reached) :=
    Prod.ext (by decide +kernel) rfl
  have hindependent := Engine.templates_independent .empty {} calls hadded
  change match call.perform .empty before with | (some _, _, _) => _ | (none, _, _) => _
    at hindependent
  rw [hperform] at hindependent
  obtain ⟨hkept, hremoved⟩ := hindependent "page" .null .absent
  refine ⟨hadded, by decide +kernel, hresult, (hkept (by decide +kernel)).resolve_right ?_,
    hremoved⟩
  rintro ⟨position, directive, herror⟩
  cases hresult.symm.trans herror

end Independence

end TextTemplate
