import TextTemplate.Proofs.Session.Cache

/-!
# Both modes agree

A template made in compiled mode and one made in interpreted mode from the same source are
rendered alike. The only difference is when an expression is found to be none: in compiled mode
where a text is compiled, and in interpreted mode where the expression is evaluated. A render in
compiled mode can therefore stop at a file with such an expression, where one in interpreted mode
goes on.

## Main definitions

* `Template.Versions`: templates that differ in their mode only.
* `FileTree.Refuses`: a render stops at a file with an expression that is none.

## Main results

* `Session.agrees_versions`: renders of both versions.
* `modes_agree`: compiling and rendering a source in both modes.
-/

namespace TextTemplate

/-! ### Versions -/

/-- Templates of the same source, from the same file; the expressions of the left one may have
been read when it was compiled, while those of the right one are read later. -/
structure Template.Versions (left right : Template) : Prop where
  source : left.source = right.source
  origin : left.origin = right.origin
  compilers : left.compiler.Precedes right.compiler

/-- The error of a file that a template in compiled mode includes, about an expression in the
file. -/
def FileTree.Refuses (files : FileTree) (e : TemplateError) : Prop :=
  ∃ (compiler : Compiler) (path : Path) (source : String) (error : CompileError),
    compiler.mode = .compiled ∧ files.read path = .ok source ∧
      Program.compile compiler source = .error error ∧ error.fault.isExpression = true ∧
      e = .compile { error with path := some path }

/-- Compilers that read expressions at the same time differ in nothing. -/
theorem Compiler.Precedes.eq_or_compiled {left right : Compiler} (h : left.Precedes right) :
    left = right ∨ left.mode = .compiled := by
  obtain ⟨leftMode, leftExtensions⟩ := left
  obtain ⟨rightMode, rightExtensions⟩ := right
  obtain ⟨hextensions, hmode⟩ := h
  cases hextensions
  obtain hmode | ⟨hleft, -⟩ := hmode
  · cases hmode
    exact .inl rfl
  · exact .inr hleft

/-- Renders of versions under the same files. The comparison is given up where a file is refused in
compiled mode. -/
def Comparison.versions (files : FileTree) : Comparison :=
  .exact
    { trees := (· = files)
      consistent := consistent_eq files
      compilers := Compiler.Precedes
      precedes := id
      escapes := files.Refuses
      escapes_annotate := by
        rintro _ ⟨compiler, path, source, error, hmode, hread, hfails, hfault, rfl⟩ position name
        exact ⟨compiler, path, source, error, hmode, hread, hfails, hfault, rfl⟩
      escapes_compile := by
        rintro left right h _ path source e rfl hread hfails
        obtain rfl | hmode := h.eq_or_compiled
        · exact .inl hfails
        · cases hfault : e.fault.isExpression with
          | true => exact .inr ⟨left, path, source, e, hmode, hread, hfails, hfault, rfl⟩
          | false => exact .inl (Program.compile_eq_error_of_precedes h hfails hfault) }

instance (files : FileTree) : (Comparison.versions files).IsExact :=
  Comparison.isExact_exact _

/-! ### Renders -/

section Versions

variable {trees : FileTree → Prop} {templates : List Template} {store : Store}
  {left right : Template} {options : RenderOptions} {registry : Option (Bindings Template)}

private theorem Template.Versions.simulates (h : left.Versions right) (files : FileTree)
    {owners : List Compiler} (hleft : left.OwnedIn owners) (hright : right.OwnedIn owners) :
    (Comparison.versions files).Templates ⟨owners, owners⟩ left right :=
  ⟨⟨h.compilers, hleft, hright⟩, h.source, trivial⟩

private theorem RegisteredAlike.simulates
    (h : RegisteredAlike Template.Versions options.registry registry) (files : FileTree)
    {owners : List Compiler}
    (howned : ∀ template ∈ templates, template.OwnedIn owners) (hleft : options.KnownIn templates)
    (hright : { options with registry }.KnownIn templates) :
    options.Simulates (Comparison.versions files) ⟨owners, owners⟩ { options with registry } := by
  refine ⟨rfl, rfl, h.imp fun a b ha hb hab => ⟨?_, hab.origin⟩, rfl, rfl⟩
  exact hab.simulates files (howned a (hleft a ha)) (howned b (hright b hb))

/-- Versions of a template are rendered alike from empty include caches, unless the render in
compiled mode stops at a file that it refuses. -/
theorem Session.agrees_versions (hconsistent : Consistent trees)
    (hsession : Session trees templates store) (hversions : left.Versions right)
    (hleft : left ∈ templates) (hright : right ∈ templates)
    (hregistry : RegisteredAlike Template.Versions options.registry registry)
    (hknown : options.KnownIn templates) (hknown' : { options with registry }.KnownIn templates)
    (files : FileTree) (sink : Sink) :
    (left.renderInto options files store.forget sink).Agrees Compiler.Precedes
        (right.renderInto { options with registry } files store.forget sink) ∨
      ∃ e, (left.renderInto options files store.forget sink).result = .error e ∧
        files.Refuses e := by
  obtain ⟨owners, hsound, howned⟩ := hsession.exists_sound hconsistent
  have hstores : (Comparison.versions files).Stores ⟨owners, owners⟩ store.forget store.forget :=
    hsound.forget.stores (fun _ => ⟨rfl, .inl rfl⟩) hsound.forget rfl
  obtain hescapes | ⟨-, -, -, hagrees⟩ :=
    Template.simulates_renderInto (hregistry.simulates files howned hknown hknown')
      (hversions.simulates files (howned left hleft) (howned right hright)) hversions.origin rfl
      hstores sink
  · exact .inr hescapes
  · exact .inl hagrees

end Versions

/-- A source that compiles in compiled mode compiles in interpreted mode, to as many nodes; an
error that is not about an expression is the same in both modes; and templates of the source in
both modes are rendered alike from empty include caches, after any session and with any options,
unless the render in compiled mode stops at a file that it refuses. -/
theorem modes_agree (extensions : Extensions) (source : String) :
    (∀ program, Program.compile ⟨.compiled, extensions⟩ source = .ok program →
      ∃ program', Program.compile ⟨.interpreted, extensions⟩ source = .ok program' ∧
        program'.nodes.size = program.nodes.size ∧
        program'.isPureExpression = program.isPureExpression) ∧
    (∀ e, Program.compile ⟨.compiled, extensions⟩ source = .error e → e.fault.isExpression = false →
      Program.compile ⟨.interpreted, extensions⟩ source = .error e) ∧
    (∀ e, Program.compile ⟨.interpreted, extensions⟩ source = .error e →
      ∃ e', Program.compile ⟨.compiled, extensions⟩ source = .error e' ∧
        (e' = e ∨ e'.fault.isExpression = true)) ∧
    ∀ (trees : FileTree → Prop) (templates : List Template) (store : Store) (left right : Template)
      (options : RenderOptions) (registry : Option (Bindings Template)) (files : FileTree)
      (sink : Sink),
      Consistent trees → Session trees templates store → left ∈ templates → right ∈ templates →
      left.source = source → right.source = source → left.origin = right.origin →
      left.compiler = ⟨.compiled, extensions⟩ → right.compiler = ⟨.interpreted, extensions⟩ →
      RegisteredAlike Template.Versions options.registry registry → options.KnownIn templates →
      { options with registry }.KnownIn templates →
      (left.renderInto options files store.forget sink).Agrees Compiler.Precedes
          (right.renderInto { options with registry } files store.forget sink) ∨
        ∃ e, (left.renderInto options files store.forget sink).result = .error e ∧
          files.Refuses e := by
  have hprecedes : Compiler.Precedes ⟨.compiled, extensions⟩ ⟨.interpreted, extensions⟩ :=
    ⟨rfl, .inr ⟨rfl, rfl⟩⟩
  refine ⟨fun program => Program.exists_compile_of_precedes hprecedes,
    fun e => Program.compile_eq_error_of_precedes hprecedes,
    fun e => Program.exists_compile_eq_error_of_precedes hprecedes, ?_⟩
  intro trees templates store left right options registry files sink hconsistent hsession hleft
    hright hsource hsource' horigin hcompiler hcompiler' hregistry hknown hknown'
  have hversions : left.Versions right :=
    ⟨hsource.trans hsource'.symm, horigin, by rw [hcompiler, hcompiler']; exact hprecedes⟩
  exact hsession.agrees_versions hconsistent hversions hleft hright hregistry hknown hknown' files
    sink

/-- Where there are no files, nothing is refused. -/
theorem FileTree.not_refuses_empty (e : TemplateError) : ¬FileTree.empty.Refuses e := by
  rintro ⟨-, path, source, -, -, hread, -⟩
  obtain ⟨names, time, hwalk⟩ := exists_walk_of_read hread
  simpa [known, empty] using mem_known_of_walk hwalk

/-- A template with an expression and a branch, in both modes. -/
theorem modes_agree_branch :
    ∃ (left right : Template) (store : Store),
      Session (· = FileTree.empty) [right, left] store ∧ left.source = right.source ∧
      left.compiler.mode = .compiled ∧ right.compiler.mode = .interpreted ∧
      ∀ sink, (left.renderInto {} .empty store.forget sink).Agrees Compiler.Precedes
        (right.renderInto {} .empty store.forget sink) := by
  let source := "@if{a}@{b + 1}@else{}c@end{}"
  obtain ⟨program, hprogram⟩ : ∃ program, Program.compile ⟨.compiled, []⟩ source = .ok program :=
    Attempt.exists_eq_ok (by decide +kernel)
  obtain ⟨program', hprogram', -⟩ := (modes_agree [] source).1 program hprogram
  obtain ⟨left, store, hload, -⟩ := Store.exists_compile hprogram .empty none
  obtain ⟨right, store', hload', -⟩ := Store.exists_compile hprogram' store none
  obtain ⟨hsource, hcompiler, horigin, -⟩ := Store.of_compile_eq_ok hload
  obtain ⟨hsource', hcompiler', horigin', -⟩ := Store.of_compile_eq_ok hload'
  have hsession : Session (· = FileTree.empty) [right, left] store' :=
    .load (.load .start hload) hload'
  refine ⟨left, right, store', hsession, hsource.trans hsource'.symm, by rw [hcompiler],
    by rw [hcompiler'], fun sink => ?_⟩
  have hknown : RenderOptions.KnownIn {} [right, left] :=
    RenderOptions.knownIn_of_registry_eq_none rfl _
  have hagrees := (modes_agree [] source).2.2.2 (· = FileTree.empty) [right, left] store' left right
    {} none .empty sink (consistent_eq _) hsession (by simp) (by simp) hsource hsource'
    (horigin.trans horigin'.symm) hcompiler hcompiler' .none hknown hknown
  exact hagrees.resolve_right fun ⟨e, _, hrefuses⟩ => FileTree.not_refuses_empty e hrefuses

end TextTemplate
