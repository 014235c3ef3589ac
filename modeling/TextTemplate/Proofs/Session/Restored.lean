import TextTemplate.Proofs.Grammar.Customs
import TextTemplate.Proofs.Json.ReadBack
import TextTemplate.Proofs.Session.Cache

/-!
# Templates that are written and read back

A template is written as its source, its mode and the file it came from, in a format that gives them
back, and reading it compiles the source again, without extensions. A template that was made without
extensions is made again as it was, but for its include cache; what it includes is then compiled by
the same compiler, so that both are rendered alike wherever the one could be rendered. A template
made with extensions is read back as long as it has no custom directive, and else refused at the
first one.

## Main definitions

* `Store.forgetOf`: the store with the include cache of a template emptied.
* `Template.Renews`: the same template, but for its include cache.

## Main results

* `Store.restore_write`: what reading a template that was written comes to.
* `Session.agrees_renewed`: templates that are the same but for their caches are rendered alike.
* `written_and_read_back`: which templates are read back, and what they are then.
-/

namespace TextTemplate

open Attempt

/-! ### Reading what was written -/

section Written

variable {Document : Type} {format : TemplateFormat Document} (hfaithful : format.IsFaithful)

include hfaithful

/-- Reading a template that was written compiles its source again, without extensions. -/
theorem Store.restore_write (store : Store) (template : Template) :
    store.restore format (format.write template.text) =
      (store.compile ⟨template.compiler.mode, []⟩ template.source template.origin).mapError
        .uncompilable := by
  rw [restore, hfaithful template.text]
  dsimp only [Template.text]
  cases store.compile ⟨template.compiler.mode, []⟩ template.source template.origin <;> rfl

end Written

/-- The restored template is the original one, but for its include cache. -/
structure Template.Renews (restored template : Template) : Prop where
  program : restored.program = template.program
  compiler : restored.compiler = template.compiler
  origin : restored.origin = template.origin

namespace Template

variable {Document : Type} {format : TemplateFormat Document} (hfaithful : format.IsFaithful)
  {template : Template}

include hfaithful

/-- A template without custom directives is read back. -/
theorem exists_restore (h : template.customs = []) (store : Store) :
    ∃ restored store', store.restore format (format.write template.text) = .ok (restored, store') ∧
      store.compile ⟨template.compiler.mode, []⟩ template.source template.origin =
        .ok (restored, store') ∧ restored.program = template.program := by
  have hprogram : Program.compile ⟨template.compiler.mode, []⟩ template.source =
      .ok template.program :=
    (Program.compile_congr [] template.compiler.extensions h).trans template.compiled
  obtain ⟨restored, store', hload, hsame⟩ := Store.exists_compile hprogram store template.origin
  exact ⟨restored, store', by rw [store.restore_write hfaithful, hload, mapError_ok], hload, hsame⟩

/-- A template with a custom directive is refused at the first one. -/
theorem restore_eq_error {d : Directive} {others : List Directive}
    (h : template.customs = d :: others) (store : Store) :
    store.restore format (format.write template.text) =
      .error (.uncompilable ⟨d.position, d.name, template.origin, .unknownDirective d.name⟩) := by
  have hrefused : Program.compile ⟨template.compiler.mode, []⟩ template.source =
      .error (d.error (.unknownDirective d.name)) :=
    Program.compile_eq_unknown template.compiler.extensions h template.compiled
  rw [store.restore_write hfaithful]
  cases hload : store.compile ⟨template.compiler.mode, []⟩ template.source template.origin with
  | ok made =>
    obtain ⟨restored, store'⟩ := made
    obtain ⟨hsource, hcompiler, -⟩ := Store.of_compile_eq_ok hload
    have hcompiled := restored.compiled
    rw [hcompiler, ← source, hsource, hrefused] at hcompiled
    cases hcompiled
  | error e =>
    obtain ⟨e', he', rfl⟩ := Store.of_compile_eq_error hload
    cases hrefused.symm.trans he'
    rfl

end Template

/-! ### The same template with another cache -/

/-- The store with the include cache of a template emptied. -/
def Store.forgetOf (store : Store) (template : Template) : Store :=
  store.modifyCache template fun cache => { cache with entries := [] }

private theorem Store.Sound.forgetOf {trees : FileTree → Prop} {owners : List Compiler}
    {store : Store} {template : Template} (h : store.Sound trees owners)
    (howned : template.OwnedIn owners) :
    (store.forgetOf template).Sound trees owners where
  faithful := h.faithful.modifyCache howned fun _ _ _ hentry => absurd hentry List.not_mem_nil
  blocks := h.blocks

section Renewed

variable {trees : FileTree → Prop} {templates : List Template} {store : Store}
  {restored template : Template} {options : RenderOptions} {files : FileTree}

/-- In every session, a template that is another one but for its include cache is rendered and
evaluated as the other one is from an empty cache. -/
theorem Session.agrees_renewed (hconsistent : Consistent trees)
    (hsession : Session trees templates store) (hrenews : restored.Renews template)
    (hknown : restored ∈ templates) (hknown' : template ∈ templates)
    (hregistered : options.KnownIn templates) (hpresent : trees files) :
    (∀ sink, (restored.renderInto options files store sink).Agrees Eq
      (template.renderInto options files (store.forgetOf template) sink)) ∧
    (restored.renderText options files store).Agrees Eq
      (template.renderText options files (store.forgetOf template)) ∧
    (restored.evaluate options files store).Agrees Eq
      (template.evaluate options files (store.forgetOf template)) := by
  obtain ⟨owners, hsound, howned⟩ := hsession.exists_sound hconsistent
  have hoptions := hregistered.simulates hconsistent howned
  have htemplates : (Comparison.same hconsistent).Templates ⟨owners, owners⟩ restored template :=
    ⟨⟨hrenews.compiler, howned restored hknown, howned template hknown'⟩,
      congrArg Program.source hrenews.program, trivial⟩
  have hstores : (Comparison.same hconsistent).Stores ⟨owners, owners⟩ store
      (store.forgetOf template) :=
    hsound.stores (fun _ => rfl) (hsound.forgetOf (howned template hknown')) rfl
  have hrender := Template.simulates_renderInto hoptions htemplates hrenews.origin hpresent hstores
  have hevaluate := Template.simulates_evaluate_of_program hoptions htemplates hrenews.program
    hrenews.origin hpresent hstores
  exact ⟨fun sink => (hrender sink).agrees hconsistent,
    (Template.outcomes_renderText (hrender .collector)).agrees hconsistent,
    hevaluate.agrees hconsistent⟩

end Renewed

/-! ### Which templates are read back -/

/-- In a format that gives back what is written, a template that was compiled without extensions is
read back with the same source, mode, origin and nodes and an empty include cache of its own, and in
every session it is rendered and evaluated as the original is from an empty cache. A template that
was compiled with extensions is read back exactly when none of its nodes is that of a custom
directive, and else the failure is that the first of these is unknown, where it stands. -/
theorem written_and_read_back {Document : Type} {format : TemplateFormat Document}
    (hfaithful : format.IsFaithful) (template : Template) (store : Store) :
    (template.compiler.extensions = [] →
      ∃ restored store',
        store.restore format (format.write template.text) = .ok (restored, store') ∧
        restored.source = template.source ∧ restored.compiler = template.compiler ∧
        restored.origin = template.origin ∧
        restored.program.nodes.size = template.program.nodes.size ∧
        restored.program.isPureExpression = template.program.isPureExpression ∧
        store'.caches[restored.cache]? = some ⟨[], 0⟩ ∧
        (∀ trees templates, Session trees templates store →
          Session trees (restored :: templates) store') ∧
        ∀ (trees : FileTree → Prop) (templates : List Template) (later : Store)
          (options : RenderOptions) (files : FileTree),
          Consistent trees → Session trees templates later → restored ∈ templates →
          template ∈ templates → options.KnownIn templates → trees files →
          (∀ sink, (restored.renderInto options files later sink).Agrees Eq
            (template.renderInto options files (later.forgetOf template) sink)) ∧
          (restored.renderText options files later).Agrees Eq
            (template.renderText options files (later.forgetOf template)) ∧
          (restored.evaluate options files later).Agrees Eq
            (template.evaluate options files (later.forgetOf template))) ∧
    template.program.nodes.toList.filterMap Node.custom? =
      template.customs.map (fun d => (d.span, d.name)) ∧
    ((∃ restored, store.restore format (format.write template.text) = .ok restored) ↔
      template.customs = []) ∧
    ∀ d others, template.customs = d :: others →
      store.restore format (format.write template.text) =
        .error (.uncompilable ⟨d.position, d.name, template.origin, .unknownDirective d.name⟩) := by
  refine ⟨fun hextensions => ?_, template.filterMap_custom_nodes, ⟨?_, ?_⟩, fun d others hcustoms =>
    Template.restore_eq_error hfaithful hcustoms store⟩
  · obtain ⟨restored, store', hread, hload, hprogram⟩ :=
      Template.exists_restore hfaithful (Template.customs_eq_nil hextensions) store
    obtain ⟨hsource, hcompiler, horigin, hcache, hstore⟩ := Store.of_compile_eq_ok hload
    have hrenews : restored.Renews template := by
      refine ⟨hprogram, ?_, horigin⟩
      rw [hcompiler, ← hextensions]
    refine ⟨restored, store', hread, hsource, hrenews.compiler, horigin, by rw [hprogram],
      by rw [hprogram], ?_, fun _ _ hsession => hsession.load hload, ?_⟩
    · rw [hcache, hstore, Array.getElem?_push_size]
    · intro trees templates later options files hconsistent hsession hrestored htemplate hknown
        hfiles
      exact hsession.agrees_renewed hconsistent hrenews hrestored htemplate hknown hfiles
  · rintro ⟨read, hread⟩
    cases hcustoms : template.customs with
    | nil => rfl
    | cons d others =>
      have hrefused := Template.restore_eq_error hfaithful hcustoms store
      cases hread.symm.trans hrefused
  · intro hcustoms
    obtain ⟨restored, store', hread, -⟩ := Template.exists_restore hfaithful hcustoms store
    exact ⟨_, hread⟩

/-- A page that has been rendered, and remembers what it included, is written and read back in JSON;
a template with two custom directives is refused at the first of them. -/
theorem written_and_read_back_page :
    ∃ (page restored loud : Template) (before after : Store),
      let files : FileTree :=
        ⟨["work"], [(["dir"], .directory 7), (["dir", "part"], .file (.text "@{1}") 1)]⟩
      Session (· = files) [restored, page] after ∧ page.origin = some ⟨"/dir/page"⟩ ∧
      before.readTemplate page.toJson.text = .ok (restored, after) ∧
      (∀ sink, (restored.renderInto {} files after sink).Agrees Eq
        (page.renderInto {} files (after.forgetOf page) sink)) ∧
      (restored.evaluate {} files after).Agrees Eq
        (page.evaluate {} files (after.forgetOf page)) ∧
      loud.source = "a@shout{b}@if{c}@wrap{}d@end{}@end{}" ∧
      before.readTemplate loud.toJson.text =
        .error (.uncompilable ⟨⟨1, 1, 2⟩, "shout", none, .unknownDirective "shout"⟩) := by
  let files : FileTree :=
    ⟨["work"], [(["dir"], .directory 7), (["dir", "part"], .file (.text "@{1}") 1)]⟩
  obtain ⟨program, hprogram⟩ : ∃ program,
      Program.compile ⟨.interpreted, []⟩ "@include\x7b'part'\x7d" = .ok program :=
    exists_eq_ok (by decide +kernel)
  obtain ⟨page, store, hload, -⟩ := Store.exists_compile hprogram .empty (some ⟨"/dir/page"⟩)
  obtain ⟨-, hcompiler, horigin, -⟩ := Store.of_compile_eq_ok hload
  have hregistered (templates : List Template) : RenderOptions.KnownIn {} templates :=
    RenderOptions.knownIn_of_registry_eq_none rfl templates
  have hstart : Session (· = files) [page] store := .load .start hload
  obtain ⟨before, hafter⟩ : ∃ before, Session (· = files) [page] before :=
    ⟨_, hstart.render (List.mem_singleton_self _) (hregistered _) rfl .collector⟩
  obtain ⟨program', hprogram'⟩ : ∃ program',
      Program.compile ⟨.compiled, [.shout, .wrap]⟩ "a@shout{b}@if{c}@wrap{}d@end{}@end{}" =
        .ok program' :=
    exists_eq_ok (by decide +kernel)
  obtain ⟨loud, _, hload', -⟩ := Store.exists_compile hprogram' .empty none
  obtain ⟨hsource', -, horigin', -⟩ := Store.of_compile_eq_ok hload'
  have hcustoms : loud.customs =
      [⟨"shout", ⟨1, 1, 2⟩, ⟨1, 10⟩, ⟨8, 9⟩⟩, ⟨"wrap", ⟨16, 1, 17⟩, ⟨16, 23⟩, ⟨22, 22⟩⟩] := by
    rw [Template.customs, hsource']
    decide +kernel
  obtain ⟨restored, after, hread, -, -, -, -, -, -, hsession, hagrees⟩ :=
    (written_and_read_back TemplateFormat.isFaithful_json page before).1 (by rw [hcompiler])
  obtain ⟨hinto, -, hevaluate⟩ := hagrees (· = files) [restored, page] after {} files
    (consistent_eq files) (hsession _ _ hafter) (by simp) (by simp) (hregistered _) rfl
  refine ⟨page, restored, loud, before, after, hsession _ _ hafter, horigin, hread, hinto,
    hevaluate, hsource', ?_⟩
  have hrefused :=
    (written_and_read_back TemplateFormat.isFaithful_json loud before).2.2.2 _ _ hcustoms
  rw [horigin'] at hrefused
  exact hrefused

end TextTemplate
