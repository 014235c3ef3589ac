import TextTemplate.Proofs.Course.Cut
import TextTemplate.Proofs.Script.Comment
import TextTemplate.Proofs.Session.Texts

/-!
# Comments are invisible

A comment that is put into a source does nothing. Whatever is rendered, what is written is the same,
and so are the variables; only errors in the source are reported further to the right, if they are
behind the comment. Errors in other templates and in files stay where they are.

## Main definitions

* `Seamed`: which places correspond.
* `TemplateError.Moved`: errors at places that correspond.
* `Outcome.Matches`: outcomes with the same text, whatever its pieces are.
* `Comparison.commented`: comparing a render to one with a comment.

## Main results

* `Session.matches_commented`: rendering a source with a comment.
* `comments_invisible`: compiling and rendering a source with a comment.
-/

namespace TextTemplate

/-! ### Errors that move -/

section Moved

variable (texts : String → Prop) (before text after : String)

/-- In a source with a comment at a seam, the places behind the seam are moved; and in other texts,
each place corresponds to itself. -/
inductive Seamed : String → String → Places → Prop
  | same {source : String} (known : texts source) : Seamed source source Eq
  | commented : Seamed (before ++ after) (before ++ commentOf text ++ after)
      (.pushed before.utf8ByteSize (commentOf text).utf8ByteSize)

/-- The fault is the same, or a text that is no expression, for the same reason. Where such a text
is an expression of the source, its place in the source moves; a custom directive counts it from the
start of what it evaluates. -/
inductive RenderFault.Moved : RenderFault → RenderFault → Prop
  | same (fault : RenderFault) : RenderFault.Moved fault fault
  | malformed {offset offset' : Nat}
      (moved : Places.pushed before.utf8ByteSize (commentOf text).utf8ByteSize offset offset')
      (reason : String) :
      RenderFault.Moved (.expression (.malformed offset reason))
        (.expression (.malformed offset' reason))

/-- The error is the same, as long as it has no place, or that of the same directive at a place that
corresponds. -/
inductive TemplateError.Moved : TemplateError → TemplateError → Prop
  | same {e : TemplateError} (unplaced : e.IsUnplaced) : TemplateError.Moved e e
  | unplaced {fault fault' : RenderFault} (moved : fault.Moved before text fault')
      (directive : Option String) :
      TemplateError.Moved (.render fault none directive) (.render fault' none directive)
  | placed {fault fault' : RenderFault} {source source' : String} {places : Places}
      {offset offset' : Nat} (moved : fault.Moved before text fault')
      (sources : Seamed texts before text after source source' places)
      (corresponds : places offset offset') (directive : String) :
      TemplateError.Moved
        (.render fault (some (Position.locate source offset)) (some directive))
        (.render fault' (some (Position.locate source' offset')) (some directive))

/-- The same, for templates of such sources. -/
def Placement.commented : Placement := fun a b places =>
  Seamed texts before text after a.source b.source places

end Moved

section Located

variable {texts : String → Prop} {before text after : String}

private theorem TemplateError.Moved.annotate {e e' : TemplateError}
    (h : e.Moved texts before text after e') {source source' : String} {places : Places}
    (hsources : Seamed texts before text after source source' places) {offset offset' : Nat}
    (hplace : places offset offset') (name : String) :
    (e.annotate (Position.locate source offset) name).Moved texts before text after
      (e'.annotate (Position.locate source' offset') name) := by
  cases h with
  | @same e hunplaced =>
    cases e with
    | render fault position directive =>
      cases position with
      | none => exact .placed (.same fault) hsources hplace name
      | some position => exact absurd rfl (hunplaced fault position directive)
    | _ => exact .same nofun
  | unplaced hmoved directive => exact .placed hmoved hsources hplace name
  | placed hmoved hplaced hcorresponds directive =>
    exact .placed hmoved hplaced hcorresponds directive

/-- A text that is no expression, in an expression that starts at places that correspond. -/
theorem Seamed.malformed {source source' : String} {places : Places}
    (h : Seamed texts before text after source source' places) {base base' : Nat}
    (hplace : places base base') (offset : Nat) (reason : String) :
    TemplateError.Moved texts before text after
      (RenderFault.expression (.malformed (offset + base) reason)).toError
      (RenderFault.expression (.malformed (offset + base') reason)).toError := by
  cases h with
  | same =>
    cases hplace
    exact .same nofun
  | commented =>
    by_cases hseam : base < before.utf8ByteSize
    · rw [Places.pushed, if_pos hseam] at hplace
      rw [hplace]
      exact .same nofun
    · rw [Places.pushed, if_neg hseam] at hplace
      refine .unplaced (.malformed ?_ reason) none
      rw [Places.pushed, if_neg (by omega), hplace, Nat.add_assoc]

private theorem Placement.commented_of_source_eq {a b : Template} (hsource : a.source = b.source)
    (hknown : texts a.source) : Placement.commented texts before text after a b Eq := by
  rw [Placement.commented, ← hsource]
  exact .same hknown

end Located

/-! ### What is compared -/

section Comparing

variable {files : FileTree} {texts : String → Prop}
  (hfiles : ∀ path source, files.read path = .ok source → texts source) (before text after : String)

/-- Renders of a source and of the source with a comment in it; the comparison is never given
up. -/
def Comparison.commented : Comparison where
  toPairing := (Comparison.same (consistent_eq files)).toPairing
  entries := ScriptsAlike (.commented texts before text after) fun _ _ _ _ _ => False
  paths := Eq
  texts
  sinks := Sink.IsText
  excuses _ := False
  alike := TemplateError.Moved texts before text after
  entries_whole htext hsource hcompilers _ :=
    .of_source hsource hcompilers (Placement.commented_of_source_eq hsource htext) (fun _ => rfl)
      .whole
  paths_refl _ := rfl
  paths_join h target := Path.join_congr h target
  paths_parent? h := Path.parent?_congr h
  texts_read := by
    rintro _ path source rfl hread
    exact hfiles path source hread
  sinks_collector := Sink.isText_collector
  sinks_append h text := h.append text
  excuses_annotate h _ _ := h
  alike_refl h := .same h
  alike_paths h f hf := h ▸ .same (hf _)
  reads h _ _ _ := .inl (h ▸ rfl)

private theorem Comparison.isTextual_commented :
    (Comparison.commented hfiles before text after).IsTextual (.commented texts before text after)
      fun _ _ _ _ _ => False where
  sinks := id
  entries := Iff.rfl
  locates h _ _ hplace name _ _ he := he.annotate h hplace name
  malformed h _ _ hplace := h.malformed hplace

end Comparing

/-! ### Outcomes -/

/-- Outcomes with the same text and the same variables: both are successful, or both fail with
errors that are alike. -/
structure Outcome.Matches {α : Type} (alike : TemplateError → TemplateError → Prop)
    (left right : Outcome α) : Prop where
  ok (value : α) : left.result = .ok value ↔ right.result = .ok value
  error {e : TemplateError} (h : left.result = .error e) :
    ∃ e', right.result = .error e' ∧ alike e e'
  collected : left.sink.collected = right.sink.collected
  resolver : left.resolver = right.resolver

/-- Outcomes with such results, that have collected the same. -/
theorem Outcome.matches_of_results {α : Type} {escapes excuses : TemplateError → Prop}
    {alike : TemplateError → TemplateError → Prop} {result result' : Except TemplateError α}
    (h : Results ⟨escapes, excuses, alike⟩ Eq result result') {sink sink' : Sink}
    (hcollected : sink.collected = sink'.collected) (resolver : Resolver) (store store' : Store) :
    Matches alike ⟨result, sink, resolver, store⟩ ⟨result', sink', resolver, store'⟩ where
  ok value := by
    cases h with
    | ok hvalues => rw [hvalues]
    | error => exact iff_of_false nofun nofun
  error he := by
    cases h with
    | ok => cases he
    | error halike =>
      cases he
      exact ⟨_, rfl, halike⟩
  collected := hcollected
  resolver := rfl

/-- A text that a render can come across: that of a registered template, that of the template of
a declared block, or that of a file. -/
def Store.Knows (store : Store) (options : RenderOptions) (files : FileTree) (text : String) :
    Prop :=
  (∃ template, IsRegistered options.registry template ∧ template.source = text) ∨
    (∃ block ∈ store.blocks.toList, block.template.source = text) ∨
      ∃ path, files.read path = .ok text

section Renders

variable {before text after : String} {a b : Template} {trees : FileTree → Prop}
  {templates : List Template} {store : Store} {options : RenderOptions} {files : FileTree}

/-- The scripts of a source and of the source with a comment are alike. -/
theorem TakesComment.scriptsAlike (h : TakesComment before after text)
    (hsource : a.source = before ++ after) (hsource' : b.source = before ++ commentOf text ++ after)
    (hcompilers : a.compiler = b.compiler) (texts : String → Prop) (inlinable : Inlinable)
    (dir dir' : Path) :
    ScriptsAlike (.commented texts before text after) inlinable ⟨a, .whole, dir⟩
      ⟨b, .whole, dir'⟩ := by
  obtain ⟨-, script, halike, hscript⟩ := h.exists_script hsource
  obtain rfl := hscript b hcompilers.symm hsource'
  rw [← hsource'] at halike
  have hplaces : Placement.commented texts before text after a b
      (.pushed before.utf8ByteSize (commentOf text).utf8ByteSize) := by
    rw [Placement.commented, hsource, hsource']
    exact .commented
  exact .mk hplaces rfl rfl a.placed_script b.placed_script (fun _ _ => False.elim) halike

/-- A comment at a seam changes neither what is run, nor what it leads to. -/
theorem Session.run_commented (hconsistent : Consistent trees)
    (hsession : Session trees templates store) (h : TakesComment before after text)
    (hsource : a.source = before ++ after) (hsource' : b.source = before ++ commentOf text ++ after)
    (hcompilers : a.compiler = b.compiler) (horigins : a.origin = b.origin) (ha : a ∈ templates)
    (hb : b ∈ templates) (hknown : options.KnownIn templates) (hfiles : trees files)
    {result result' : Except TemplateError Unit} {s t : RenderState}
    (hrun : ((options.level files).runPart a .whole).run.run
      (options.initial a store .collector) = (result, s))
    (hrun' : ((options.level files).runPart b .whole).run.run
      (options.initial b store .collector) = (result', t)) :
    s.sink = t.sink ∧ s.resolver = t.resolver ∧
      Results ⟨fun _ => False, fun _ => False,
        TemplateError.Moved (store.Knows options files) before text after⟩ Eq result result' := by
  let texts := store.Knows options files
  have hread (path : Path) (source : String) (h : files.read path = .ok source) : texts source :=
    .inr (.inr ⟨path, h⟩)
  let c := Comparison.commented hread before text after
  have htextual := Comparison.isTextual_commented hread before text after
  obtain ⟨owners, hsound, howned⟩ := hsession.exists_sound hconsistent
  have hsetting := hknown.simulates_scripts (c := c) (fun _ => rfl) howned
    (fun template htemplate => .inl ⟨template, htemplate, rfl⟩) rfl
  have hstores := (hsound.under hfiles).stores_scripts htextual (fun _ => rfl) fun block hblock =>
    ⟨Eq, Placement.commented_of_source_eq rfl (.inr (.inl ⟨block, hblock, rfl⟩)), fun _ => rfl⟩
  have hdirs : options.baseDir.getD a.defaultDirectory =
      options.baseDir.getD b.defaultDirectory := by
    rw [Template.defaultDirectory, Template.defaultDirectory, horigins]
  have hentries : c.Entries ⟨owners, owners⟩
      ⟨a, .whole, options.baseDir.getD a.defaultDirectory⟩
      ⟨b, .whole, options.baseDir.getD b.defaultDirectory⟩ :=
    ⟨⟨hcompilers, howned a ha, howned b hb⟩, hdirs,
      h.scriptsAlike hsource hsource' hcompilers texts _ _ _⟩
  have hlevel := Level.related_above SameOnText.congruence (options.setting files) options.maxDepth
  have hsimulates := (hsetting.above_scripts htextual options.maxDepth).runEntry
    (v := ⟨⟨owners, owners⟩, [], []⟩) htextual .none hlevel hlevel
    hentries
  have hinitial : c.States (options.view options a b ⟨owners, owners⟩)
      (options.initial a store .collector) (options.initial b store .collector) :=
    Comparison.states_initial rfl hdirs hstores Sink.isText_collector
  obtain ⟨v, -, hstates, hresults⟩ :=
    hsimulates.exists_results (fun _ => id) (fun _ => id) hinitial
  rw [← RenderOptions.level, hrun, hrun'] at hstates hresults
  refine ⟨hstates.sink, hstates.resolver, ?_⟩
  cases hresults with
  | ok hvalue => exact .ok hvalue
  | error herror => exact .error herror

/-- A source and the source with a comment at a seam are rendered alike, into every sink with room
for everything. -/
theorem Session.matches_commented (hconsistent : Consistent trees)
    (hsession : Session trees templates store) (h : TakesComment before after text)
    (hsource : a.source = before ++ after) (hsource' : b.source = before ++ commentOf text ++ after)
    (hcompilers : a.compiler = b.compiler) (horigins : a.origin = b.origin) (ha : a ∈ templates)
    (hb : b ∈ templates) (hknown : options.KnownIn templates) (hfiles : trees files) :
    (a.renderText options files store).Matches
        (TemplateError.Moved (store.Knows options files) before text after)
        (b.renderText options files store) ∧
      ∀ sink : Sink, sink.IsUnlimited →
        (a.renderInto options files store sink).Matches
          (TemplateError.Moved (store.Knows options files) before text after)
          (b.renderInto options files store sink) := by
  generalize hrun : ((options.level files).runPart a .whole).run.run
    (options.initial a store .collector) = last
  generalize hrun' : ((options.level files).runPart b .whole).run.run
    (options.initial b store .collector) = last'
  obtain ⟨result, s⟩ := last
  obtain ⟨result', t⟩ := last'
  obtain ⟨hsink, hresolver, hresults⟩ := hsession.run_commented hconsistent h hsource hsource'
    hcompilers horigins ha hb hknown hfiles hrun hrun'
  refine ⟨?_, fun sink hunlimited => ?_⟩
  · rw [Template.renderText_of_run hrun, Template.renderText_of_run hrun', hresolver]
    have hcollected := congrArg Sink.collected hsink
    exact Outcome.matches_of_results (hresults.map_const hcollected) hcollected _ _ _
  · obtain ⟨pieces, _, _, _, -, htaken, -⟩ := a.exists_pieces options files store
    obtain ⟨pieces', _, _, _, -, htaken', -⟩ := b.exists_pieces options files store
    have hinto := htaken _ _ (Sink.appendAll_text "" pieces)
    have hinto' := htaken' _ _ (Sink.appendAll_text "" pieces')
    rw [← Sink.collector, Template.renderInto, RenderM.outcome, hrun] at hinto
    rw [← Sink.collector, Template.renderInto, RenderM.outcome, hrun'] at hinto'
    simp only [Outcome.mk.injEq, String.empty_append] at hinto hinto'
    obtain ⟨rfl, hwritten, rfl, -⟩ := hinto
    obtain ⟨rfl, hwritten', rfl, -⟩ := hinto'
    rw [hwritten, hwritten'] at hsink
    obtain ⟨_, _, happend, happend', hcollected⟩ :=
      hunlimited.exists_appendAll (Sink.text.inj hsink)
    rw [htaken _ _ happend, htaken' _ _ happend', hresolver]
    exact Outcome.matches_of_results hresults hcollected _ _ _

end Renders

/-- Comments are invisible. Let a source compile, and cut it in two where no directive and no escape
with its head is cut, and not behind the sigil of a comment. With a comment between the two parts
the source compiles as well; it has one node more, and the texts of its nodes are the same, so that
the text on both sides of the comment is one node. After any session, and with any options, both
are rendered with the same text and the same variables, into every sink with room for everything,
and with the same success; or they fail with the same error, where the places behind the comment
are moved by its length. -/
theorem comments_invisible {compiler : Compiler} {before after text : String} {program : Program}
    (hprogram : Program.compile compiler (before ++ after) = .ok program)
    (h : TakesComment before after text) :
    (∃ commented, Program.compile compiler (before ++ commentOf text ++ after) = .ok commented ∧
      commented.nodes.size = program.nodes.size + 1 ∧ commented.texts = program.texts) ∧
    ∀ (trees : FileTree → Prop) (templates : List Template) (store : Store) (a b : Template)
      (options : RenderOptions) (files : FileTree),
      Consistent trees → Session trees templates store → a.source = before ++ after →
      b.source = before ++ commentOf text ++ after → a.compiler = compiler →
      b.compiler = compiler → a.origin = b.origin → a ∈ templates → b ∈ templates →
      options.KnownIn templates → trees files →
      (a.renderText options files store).Matches
          (TemplateError.Moved (store.Knows options files) before text after)
          (b.renderText options files store) ∧
        ∀ sink : Sink, sink.IsUnlimited →
          (a.renderInto options files store sink).Matches
            (TemplateError.Moved (store.Knows options files) before text after)
            (b.renderInto options files store sink) := by
  refine ⟨?_, ?_⟩
  · obtain ⟨a, store, hload, -⟩ := Store.exists_compile hprogram .empty none
    obtain ⟨hsource, rfl, -⟩ := Store.of_compile_eq_ok hload
    obtain ⟨⟨commented, hcommented⟩, -⟩ := h.exists_script hsource
    exact ⟨commented, hcommented, h.size_nodes hprogram hcommented, h.texts_eq hprogram hcommented⟩
  · rintro trees templates store a b options files hconsistent hsession hsource hsource' rfl
      hcompiler horigins ha hb hknown hfiles
    exact hsession.matches_commented hconsistent h hsource hsource' hcompiler.symm horigins ha hb
      hknown hfiles

/-- A comment in a text in a loop. -/
theorem comments_invisible_loop :
    ∃ (a b : Template) (store : Store), Session (· = FileTree.empty) [b, a] store ∧
      a.source = "@foreach{i : [1, 2]}ab@{i}@end{}" ∧
      b.source = "@foreach{i : [1, 2]}a@comment{[c]}b@{i}@end{}" ∧
      b.program.nodes.size = a.program.nodes.size + 1 ∧
      (b.renderText {} .empty store).result = .ok "ab1ab2" := by
  let compiler : Compiler := ⟨.compiled, []⟩
  let before := "@foreach{i : [1, 2]}a"
  let after := "b@{i}@end{}"
  have h : TakesComment before after "[c]" := by decide +kernel
  obtain ⟨_, hload, hrun⟩ := Attempt.exists_eq_ok_and
    (x := do
      let a ← Store.empty.compile compiler (before ++ after) none
      let b ← a.2.compile compiler (before ++ commentOf "[c]" ++ after) none
      return (a.1, b))
    (p := fun made => (made.1.renderText {} .empty made.2.2).result == .ok "ab1ab2")
    (by decide +kernel)
  obtain ⟨⟨a, store₁⟩, hloadA, hload⟩ := Attempt.bind_eq_ok_iff.1 hload
  obtain ⟨⟨b, store⟩, hloadB, ⟨⟩⟩ := Attempt.bind_eq_ok_iff.1 hload
  obtain ⟨hsource, hcompiler, horigin, -, -⟩ := Store.of_compile_eq_ok hloadA
  obtain ⟨hsource', hcompiler', horigin', -, -⟩ := Store.of_compile_eq_ok hloadB
  have hprogram : Program.compile compiler (before ++ after) = .ok a.program := by
    rw [← hsource, ← hcompiler]
    exact a.compiled
  obtain ⟨⟨commented, hcommented, hsize, -⟩, hrenders⟩ := comments_invisible hprogram h
  obtain ⟨hmatches, -⟩ := hrenders (· = FileTree.empty) [b, a] store a b {} .empty
    (consistent_eq _) (.load (.load .start hloadA) hloadB) hsource hsource' hcompiler hcompiler'
    (horigin.trans horigin'.symm) (by simp) (by simp)
    (RenderOptions.knownIn_of_registry_eq_none rfl _) rfl
  rw [← hsource', ← hcompiler'] at hcommented
  obtain rfl : commented = b.program := Except.ok.inj (hcommented.symm.trans b.compiled)
  exact ⟨a, b, store, .load (.load .start hloadA) hloadB, hsource, hsource', hsize,
    (hmatches.ok "ab1ab2").1 (eq_of_beq hrun)⟩

end TextTemplate
