import TextTemplate.Proofs.Course.Failure
import TextTemplate.Proofs.Text.Cursor

/-!
# Places of errors

An error of the compiler stands where the reader was at the sigil of a directive, an error of a
render where its node starts, counted anew from the start of the source. Both count the same, and
the nodes of a directive start at its sigil. So an error at a directive has the same place whether
it is found when the source is compiled or when it is rendered.

## Main definitions

* `Node.isDirective`: the nodes of directives.

## Main results

* `Body.Derives.among_of_mem_layout`: they are nodes of directives of the source.
* `Site.exists_directive`: and its place is that of the directive.
* `Template.exists_site_of_render`, `Template.exists_site_of_evaluate`: the errors of renders are at
  the places of nodes.
* `compile_and_render_places_agree`: what the reader counts, and the places of errors.
-/

namespace TextTemplate

/-! ### Nodes of directives -/

/-- Whether the node is that of a directive, and not of a text or the end. -/
def Node.isDirective (node : Node) : Bool :=
  match node.kind with
  | .text _ | .finish => false
  | .action _ | .block .. | .terminal => true

section Derivation

variable {compiler : Compiler} {source : String}

/-- The node is one of a directive among the phrases, unless it is the node of a text. -/
def Node.Among (node : Node) (phrases : List Phrase) : Prop :=
  node.isDirective = true → ∃ d, .directive d ∈ phrases ∧ node.name = d.name ∧ node.span = d.span

theorem Node.Among.mono {node : Node} {phrases phrases' : List Phrase} (h : node.Among phrases)
    (hsubset : phrases ⊆ phrases') : node.Among phrases' := fun hdirective =>
  let ⟨d, hmem, hsame⟩ := h hdirective
  ⟨d, hsubset hmem, hsame⟩

mutual

/-- The nodes of a body are those of its texts and directives. -/
theorem Body.Derives.among_of_mem_layout {phrases : List Phrase} {body : Body} {node : Node}
    {place : Nat} : body.Derives compiler source phrases → node ∈ body.layout place →
      node.Among phrases
  | .done, mem => absurd mem List.not_mem_nil
  | .text follows, mem => by
    rcases List.mem_cons.1 mem with rfl | mem
    · exact fun isDirective => absurd isDirective Bool.false_ne_true
    · exact (follows.among_of_mem_layout mem).mono (List.subset_cons_self _ _)
  | .action _ follows, mem => by
    rcases List.mem_cons.1 mem with rfl | mem
    · exact fun _ => ⟨_, List.mem_cons_self, rfl, rfl⟩
    · exact (follows.among_of_mem_layout mem).mono (List.subset_cons_self _ _)
  | .block _ block follows, mem => by
    rcases List.mem_cons.1 mem with rfl | mem
    · exact fun _ => ⟨_, List.mem_cons_self, rfl, rfl⟩
    · rcases List.mem_append.1 mem with mem | mem
      · refine (block.among_of_mem_layout mem).mono ?_
        exact List.Subset.trans (List.subset_append_left _ _) (List.subset_cons_self _ _)
      · refine (follows.among_of_mem_layout mem).mono ?_
        exact List.Subset.trans (List.subset_append_right _ _) (List.subset_cons_self _ _)

/-- So are the nodes of the rest of a block. -/
theorem Branches.Derives.among_of_mem_layout {opener opener' : Opener} {phrases : List Phrase}
    {body : Body} {branches : Branches} {node : Node} {place terminus after : Nat} :
    Branches.Derives compiler source opener phrases opener' body branches →
      node ∈ body.layout place ++ branches.layout terminus after → node.Among phrases
  | .closed derives _ _, mem => by
    rcases List.mem_append.1 mem with mem | mem
    · exact (derives.among_of_mem_layout mem).mono (List.subset_append_left _ _)
    · obtain rfl := List.mem_singleton.1 mem
      exact fun _ => ⟨_, List.mem_append_right _ List.mem_cons_self, rfl, rfl⟩
  | .branch derives _ _ follows, mem => by
    rcases List.mem_append.1 mem with mem | mem
    · exact (derives.among_of_mem_layout mem).mono (List.subset_append_left _ _)
    · -- The directive of a branch has two nodes.
      rcases List.mem_cons.1 mem with rfl | mem
      · exact fun _ => ⟨_, List.mem_append_right _ List.mem_cons_self, rfl, rfl⟩
      · rcases List.mem_cons.1 mem with rfl | mem
        · exact fun _ => ⟨_, List.mem_append_right _ List.mem_cons_self, rfl, rfl⟩
        · refine (follows.among_of_mem_layout mem).mono ?_
          exact List.Subset.trans (List.subset_cons_self _ _) (List.subset_append_right _ _)

end

end Derivation

/-! ### Where directives and their nodes are -/

namespace Scans

variable {start : Nat} {before cs : List Char} {outline : Outline} {d : Directive}

/-- A directive starts at its sigil. -/
theorem start_eq_of_mem (h : Scans start before cs outline)
    (hmem : .directive d ∈ outline.pieces) : d.span.start = d.position.offset := by
  induction h with
  | done => exact absurd hmem not_directive_mem_textPiece
  | unterminated => exact absurd hmem not_directive_mem_textPiece
  | literal _ _ _ ih => exact ih hmem
  | escape _ _ ih => exact ih ((List.mem_append.1 hmem).resolve_left not_directive_mem_textPiece)
  | directive _ _ _ _ ih =>
    rcases List.mem_append.1 hmem with hmem | hmem
    · rcases List.mem_append.1 hmem with hmem | hmem
      · exact absurd hmem not_directive_mem_textPiece
      · cases List.mem_singleton.1 hmem
        rfl
    · exact ih hmem

end Scans

/-- The place of a sigil is the one that is computed from its offset. -/
theorem StandsAt.locate {source name : String} {position : Position}
    (h : StandsAt source.toList name position) :
    Cuts source.toList position.offset ∧ position = Position.locate source position.offset := by
  obtain ⟨before, rest, inside, hsplit, -, rfl⟩ := h
  exact ⟨⟨before, rest, hsplit, rfl⟩, (Position.locate_of_append hsplit).symm⟩

/-- The node of a directive has its name and its place. -/
theorem Site.exists_directive (site : Site) (h : site.node.isDirective = true) :
    ∃ d, .directive d ∈ (Outline.ofSource site.template.source).pieces ∧
      site.node.name = d.name ∧ site.node.span = d.span ∧ site.position = d.position := by
  obtain ⟨-, body, hderives, hnodes⟩ := compile_eq_ok_iff.1 site.template.compiled
  have hmem : site.node ∈ body.layout 0 ++ [finishNode site.template.source.utf8ByteSize] := by
    have := Array.mem_of_getElem? site.isNode
    rw [hnodes] at this
    exact List.mem_toArray.1 this
  rcases List.mem_append.1 hmem with hmem | hmem
  · obtain ⟨d, hphrase, hname, hspan⟩ := hderives.among_of_mem_layout hmem h
    have hpiece : .directive d ∈ (Outline.ofSource site.template.source).pieces :=
      (directive_mem_of_mem_joinTexts hphrase).resolve_left List.not_mem_nil
    have hscans : Scans 0 [] site.template.source.toList _ := Outline.ofSource_eq_iff.1 rfl
    refine ⟨d, hpiece, hname, hspan, ?_⟩
    rw [Site.position, hspan, hscans.start_eq_of_mem hpiece]
    exact (hscans.standsAt_of_mem hpiece).locate.2.symm
  · rw [List.mem_singleton.1 hmem] at h
    exact absurd h Bool.false_ne_true

/-! ### Errors -/

/-- What is reported of a node has its name and its place. -/
theorem Site.Reports.place_and_name {site : Site} {arisen : TemplateError} {fault : RenderFault}
    {position : Option Position} {name : Option String}
    (h : site.Reports arisen (.render fault position name)) :
    position = some site.position ∧ name = some site.node.name := by
  cases h with
  | fault hsplit hstart =>
    rw [Site.position, ← hstart, Position.locate_of_append hsplit]
    exact ⟨rfl, rfl⟩

namespace Template

variable {template : Template} {options : RenderOptions} {files : FileTree} {store : Store}
  {fault : RenderFault} {position : Option Position} {name : Option String}

/-- An error of a render has the name and the place of a node. -/
theorem exists_site_of_render {sink : Sink} (h : (template.renderInto options files store
    sink).result = .error (.render fault position name)) :
    ∃ site : Site, position = some site.position ∧ name = some site.node.name := by
  have hexplained (e : TemplateError) : (template.renderInto options files store sink).result =
      .error e ↔ ∃ innermost enclosing arisen, template.FailsIn options files store sink
        (innermost :: enclosing) arisen ∧ innermost.Reports arisen e :=
    FailsIn.run_iff fun _ => Level.exists_site_of_runPart _ _
  obtain ⟨site, _, arisen, -, hreports⟩ := (hexplained _).1 h
  exact ⟨site, hreports.place_and_name⟩

/-- So has an error of an evaluation. -/
theorem exists_site_of_evaluate (h : (template.evaluate options files store).result =
    .error (.render fault position name)) :
    ∃ site : Site, position = some site.position ∧ name = some site.node.name := by
  cases hpure : template.program.pureExpression? with
  | some found =>
    obtain ⟨site, _, arisen, -, hreports⟩ :=
      (template.evaluate_error_iff options files store hpure).1 h
    exact ⟨site, hreports.place_and_name⟩
  | none =>
    rw [evaluate, hpure] at h
    have hrendered := Attempt.map_eq_error_iff.1 h
    rw [renderText] at hrendered
    exact exists_site_of_render (Attempt.map_eq_error_iff.1 hrendered)

end Template

/-- An error of the compiler is that of a directive of the source, or of the one that is not
closed. -/
theorem Reports.exists_directive {compiler : Compiler} {source : String} {outline : Outline}
    {e : CompileError} (h : Reports compiler source outline e) :
    (∃ d, .directive d ∈ outline.pieces ∧ e.directive = d.name ∧ e.position = d.position) ∨
      outline.unterminated = some (e.directive, e.position) := by
  have hpiece {d : Directive} (hphrase : .directive d ∈ outline.phrases) :
      .directive d ∈ outline.pieces :=
    (directive_mem_of_mem_joinTexts hphrase).resolve_left List.not_mem_nil
  cases h with
  | directive hphrases =>
    refine .inl ⟨_, hpiece ?_, rfl, rfl⟩
    rw [hphrases]
    exact List.mem_append_right _ List.mem_cons_self
  | unterminated hunterminated => exact .inr hunterminated
  | unclosed _ hcontext =>
    exact .inl ⟨_, hpiece (hcontext.first_mem _ List.mem_cons_self), rfl, rfl⟩

/-- What the reader counts and what is computed from an offset agree, and so do the places of
errors. Between two characters the place of the reader, whether it goes byte by byte or character by
character, is the one that is computed: behind its bytes, in the line behind the newlines before it,
and in the column behind the characters since the last newline. An error of the compiler has the
place of a directive, which is such a place, a node of a directive has the place of this directive,
and an error of a render has that of a node. So an error of the compiler at a directive has the
place of an error of a render in a node of the same directive. -/
theorem compile_and_render_places_agree (source : String) :
    (∀ before rest, source.toList = before ++ rest →
      (Cursor.after source (byteLength before)).position source =
          Position.locate source (byteLength before) ∧
        before.foldl Position.step Position.start = Position.locate source (byteLength before) ∧
        Position.locate source (byteLength before) =
          ⟨byteLength before, 1 + before.count '\n', 1 + (lastLine before).length⟩) ∧
    (∀ compiler e, Program.compile compiler source = .error e →
      ((∃ d, .directive d ∈ (Outline.ofSource source).pieces ∧ e.directive = d.name ∧
          e.position = d.position) ∨
        (Outline.ofSource source).unterminated = some (e.directive, e.position)) ∧
      Cuts source.toList e.position.offset ∧
      e.position = Position.locate source e.position.offset) ∧
    (∀ site : Site, site.template.source = source → site.node.isDirective = true →
      ∃ d, .directive d ∈ (Outline.ofSource source).pieces ∧ site.node.name = d.name ∧
        site.node.span = d.span ∧ site.position = d.position) ∧
    (∀ (template : Template) options files store fault position name,
      (∃ sink, (template.renderInto options files store sink).result =
          .error (.render fault position name)) ∨
        (template.evaluate options files store).result = .error (.render fault position name) →
          ∃ site : Site, position = some site.position ∧ name = some site.node.name) ∧
    ∀ compiler e (site : Site), Program.compile compiler source = .error e →
      site.template.source = source → site.node.span.start = e.position.offset →
        site.position = e.position := by
  have hscans : Scans 0 [] source.toList (Outline.ofSource source) := Outline.ofSource_eq_iff.1 rfl
  have hplaces {compiler : Compiler} {e : CompileError}
      (h : Program.compile compiler source = .error e) :
      Cuts source.toList e.position.offset ∧
        e.position = Position.locate source e.position.offset :=
    (standsAt_of_reports hscans (compile_eq_error_iff.1 h)).locate
  refine ⟨fun before rest hsplit => ?_, fun compiler e h => ⟨?_, hplaces h⟩, ?_, ?_, ?_⟩
  · have hlocated := Position.locate_of_append hsplit
    refine ⟨(Cursor.position_after hsplit).trans hlocated.symm, ?_, ?_⟩
    · rw [hlocated, Position.after_eq_foldl]
    · rw [hlocated, Position.after_eq]
  · exact (compile_eq_error_iff.1 h).exists_directive
  · rintro site rfl hdirective
    exact site.exists_directive hdirective
  · rintro template options files store fault position name (⟨sink, hrendered⟩ | hevaluated)
    · exact Template.exists_site_of_render hrendered
    · exact Template.exists_site_of_evaluate hevaluated
  · intro compiler e site h hsame hstart
    rw [Site.position, hsame, hstart]
    exact (hplaces h).2.symm

/-- A malformed expression in the second line, behind a character of more than one byte. If
expressions are read when they are evaluated, there is a node of the directive that the compiler
reports if they are read at once. -/
theorem compile_and_render_places_agree_modes :
    ∃ (e : CompileError) (site : Site), Program.compile ⟨.compiled, []⟩ "ä\n@{1 +}" = .error e ∧
      site.template.source = "ä\n@{1 +}" ∧ site.node.isDirective = true ∧
      e.position = ⟨3, 2, 1⟩ ∧ site.position = e.position := by
  obtain ⟨e, hfails, hhere⟩ : ∃ e, Program.compile ⟨.compiled, []⟩ "ä\n@{1 +}" = .error e ∧
      e.position = ⟨3, 2, 1⟩ := by
    have hrefused : (match Program.compile ⟨.compiled, []⟩ "ä\n@{1 +}" with
        | .ok _ => none
        | .error e => some e.position) = some ⟨3, 2, 1⟩ := by
      decide +kernel
    cases houtcome : Program.compile ⟨.compiled, []⟩ "ä\n@{1 +}" with
    | ok program =>
      rw [houtcome] at hrefused
      cases hrefused
    | error e =>
      rw [houtcome] at hrefused
      exact ⟨e, rfl, Option.some.inj hrefused⟩
  obtain ⟨program, hcompiles, hfound⟩ := Attempt.exists_eq_ok_and
    (x := Program.compile ⟨.interpreted, []⟩ "ä\n@{1 +}")
    (p := fun program =>
      (program.node? 1).any fun node => node.isDirective && node.span.start == 3)
    (by decide +kernel)
  have hsource := Program.source_of_compile hcompiles
  obtain ⟨node, hnode, hfacts⟩ := (Option.any_eq_true _ _).1 hfound
  obtain ⟨hdirective, hstarts⟩ := Bool.and_eq_true_iff.1 hfacts
  let template : Template :=
    ⟨program, none, ⟨.interpreted, []⟩, 0, by rw [hsource]; exact hcompiles⟩
  let site : Site := ⟨template, 1, node, hnode⟩
  have hstart : site.node.span.start = e.position.offset := by
    rw [hhere]
    exact beq_iff_eq.1 hstarts
  obtain ⟨-, -, -, -, hagree⟩ := compile_and_render_places_agree "ä\n@{1 +}"
  exact ⟨e, site, hfails, hsource, hdirective, hhere, hagree _ e site hfails hsource hstart⟩

end TextTemplate
