import TextTemplate.Proofs.Course.Snapshot
import TextTemplate.Proofs.Session.Texts

/-!
# Rendering in pieces

A source can be cut in two wherever the first part does not end with what could be the beginning of
a directive. Rendering the whole is then rendering the first part and after it the second one with
the variables that the first one leaves, as long as these are all kept by the resolver, and no
blocks are declared in the first part.

## Main definitions

* `RenderState.Vacates`: steps that leave nothing behind in empty scopes.
* `Comparison.scripts`: comparing what scripts write.
* `Template.ConsistsOf`: templates of a source that is cut in two.

## Main results

* `Session.renderText_consistsOf`: rendering the whole, and rendering the parts.
* `rendered_in_pieces`: compiling and rendering a source in two parts.
-/

namespace TextTemplate

/-! ### What a step leaves behind -/

/-- Steps that keep the blocks that there are; and as long as there are no more, a resolver that
accepts assignments gets them all, so that an empty scope stays empty, and no name is declared. -/
structure RenderState.Vacates (s t : RenderState) : Prop where
  blocks : s.store.blocks.toList <+: t.store.blocks.toList
  resolver (hblocks : t.store.blocks.size = s.store.blocks.size)
    (hresolver : ∃ vars, s.resolver = .writable vars) : ∃ vars, t.resolver = .writable vars
  scopes (hblocks : t.store.blocks.size = s.store.blocks.size)
    (hresolver : ∃ vars, s.resolver = .writable vars) {n : Nat} (hempty : s.scopes[n]? = some []) :
    t.scopes[n]? = some []
  declared (hblocks : t.store.blocks.size = s.store.blocks.size) : t.declared = s.declared

/-- A name is bound again only in a scope that is not empty. -/
theorem getElem?_of_rebind? {name : String} {value : Value} {scopes scopes' : List Scope}
    (h : rebind? name value scopes = some scopes') {n : Nat} (hempty : scopes[n]? = some []) :
    scopes'[n]? = some [] := by
  induction scopes generalizing scopes' n with
  | nil => cases h
  | cons scope outer ih =>
    rw [rebind?] at h
    split_ifs at h with hcontains
    · cases h
      cases n with
      | zero =>
        obtain rfl : scope = [] := Option.some.inj hempty
        cases hcontains
      | succ n => exact hempty
    · obtain ⟨outer', houter, rfl⟩ := Option.map_eq_some_iff.1 h
      cases n with
      | zero => exact hempty
      | succ n => exact ih houter hempty

namespace RenderState

theorem Vacates.refl (s : RenderState) : s.Vacates s :=
  ⟨List.prefix_rfl, fun _ => id, fun _ _ _ => id, fun _ => rfl⟩

theorem Vacates.trans {s t u : RenderState} (h : s.Vacates t) (h' : t.Vacates u) :
    s.Vacates u := by
  -- If there are as many blocks at the end, there are as many in between.
  have hbetween (hblocks : u.store.blocks.size = s.store.blocks.size) :
      t.store.blocks.size = s.store.blocks.size ∧ u.store.blocks.size = t.store.blocks.size := by
    have hle := h.blocks.length_le
    have hle' := h'.blocks.length_le
    simp only [Array.length_toList] at hle hle'
    omega
  refine ⟨h.blocks.trans h'.blocks, fun hblocks hresolver => ?_,
    fun hblocks hresolver _ hempty => ?_, fun hblocks => ?_⟩
  all_goals obtain ⟨hfirst, hsecond⟩ := hbetween hblocks
  · exact h'.resolver hsecond (h.resolver hfirst hresolver)
  · exact h'.scopes hsecond (h.resolver hfirst hresolver) (h.scopes hfirst hresolver hempty)
  · exact (h'.declared hsecond).trans (h.declared hfirst)

private theorem vacates_assign (s : RenderState) (name : String) (value : Value) :
    s.Vacates (s.assign name value) := by
  unfold assign
  split
  · rename_i scopes hscopes
    exact { Vacates.refl s with scopes := fun _ _ _ => getElem?_of_rebind? hscopes }
  · split
    · rename_i resolver hresolver
      refine { Vacates.refl s with resolver := ?_ }
      rintro - ⟨vars, hvars⟩
      rw [hvars] at hresolver
      exact ⟨_, (Option.some.inj hresolver).symm⟩
    · rename_i hrefuses
      refine { Vacates.refl s with scopes := ?_ }
      rintro - ⟨vars, hvars⟩
      rw [hvars] at hrefuses
      cases hrefuses

/-- Every step is of this kind. -/
theorem steady_vacates : Steady Vacates where
  refl := .refl
  trans := .trans
  caches s _ := { Vacates.refl s with }
  assign := vacates_assign
  declare s name template place := by
    have hsize : (s.declare name template place).store.blocks.size = s.store.blocks.size + 1 :=
      Array.size_push _
    exact ⟨steady_blocks.declare s name template place, fun h => absurd h (by omega),
      fun h => absurd h (by omega), fun h => absurd h (by omega)⟩
  sink s _ := { Vacates.refl s with }
  withScope {s t scope} h := by
    refine { h with scopes := fun hblocks hresolver n hempty => ?_ }
    rw [popScope, List.getElem?_drop, Nat.add_comm]
    exact h.scopes hblocks hresolver hempty
  withDir h := { h with }
  withScopes h := { h with scopes := fun _ _ _ => id }

end RenderState

/-! ### What scripts write -/

section Scripts

variable {trees : FileTree → Prop} (hconsistent : Consistent trees)

/-- Renders of scripts that are alike; they fail together, whatever their errors are. -/
def Comparison.scripts : Comparison where
  toPairing := (Comparison.same hconsistent).toPairing
  entries := ScriptsAlike .any fun _ _ _ _ _ => False
  paths := Eq
  texts _ := True
  sinks := Sink.IsText
  excuses _ := False
  alike _ _ := True
  entries_whole _ hsource hcompilers _ :=
    .of_source hsource hcompilers rfl (fun _ => trivial) .whole
  paths_refl _ := rfl
  paths_join h target := Path.join_congr h target
  paths_parent? h := Path.parent?_congr h
  texts_read _ _ := trivial
  sinks_collector := Sink.isText_collector
  sinks_append h text := h.append text
  excuses_annotate h _ _ := h
  alike_refl _ := trivial
  alike_paths _ _ _ := trivial
  reads h _ _ _ := .inl (h ▸ rfl)

private theorem Comparison.isTextual_scripts :
    (scripts hconsistent).IsTextual .any fun _ _ _ _ _ => False :=
  .of_alike (fun _ _ => trivial) (fun _ => id) fun _ _ => Iff.rfl

variable {hconsistent} {v : View} {w : World} {setting : Setting} {a b : Template}

/-- What is compared is never given up. -/
theorem Simulates.exists_states {left right : RenderM Unit}
    (h : Simulates (Comparison.scripts hconsistent)
      (Comparison.scripts hconsistent).rendering v Same left right) {s t : RenderState}
    (hst : (Comparison.scripts hconsistent).States v s t) :
    ∃ v', v ≤ v' ∧
      (Comparison.scripts hconsistent).States v' (left.run.run s).2 (right.run.run t).2 ∧
      ((left.run.run s).1 = .ok () ↔ (right.run.run t).1 = .ok ()) := by
  obtain ⟨v', hv, hstates, hresults⟩ := h.exists_results (fun _ => id) (fun _ => id) hst
  refine ⟨v', hv, hstates, ?_⟩
  generalize (left.run.run s).1 = result at hresults
  generalize (right.run.run t).1 = result' at hresults
  cases hresults with
  | ok => exact iff_of_true rfl rfl
  | error => exact iff_of_false nofun nofun

/-- A template is run like a script that is alike, in a template that it stands in. -/
theorem Setting.Simulates.runPart_script
    (h : setting.Simulates (Comparison.scripts hconsistent) v.world setting) (levels : Nat)
    (hab : (Comparison.scripts hconsistent).Hosts v.world a b) {script : Script}
    (hplaced : script.PlacedIn b)
    (halike : Script.Alike .any a.source b.source (fun _ _ => False) a.script script) :
    TextTemplate.Simulates (Comparison.scripts hconsistent)
      (Comparison.scripts hconsistent).rendering v Same
      ((Level.above setting levels).runPart a .whole)
      (script.run (Level.above setting levels) b) := by
  have htextual := Comparison.isTextual_scripts hconsistent
  have hlevel := Level.related_above SameOnText.congruence setting levels
  refine .of_sameOnText_left htextual (Level.sameOnText_runPart hlevel rfl) ?_
  exact halike.simulates_run htextual ⟨h.above_scripts htextual levels,
    .none, hab, rfl, fun _ _ => id⟩ a.placed_script hplaced

end Scripts

/-! ### Sources that are cut in two -/

/-- Templates of a source and of the two parts that it is cut into, from the same file if from any,
and by the same compiler. -/
structure Template.ConsistsOf (whole a b : Template) : Prop where
  source : whole.source = a.source ++ b.source
  compilers : a.compiler = whole.compiler ∧ b.compiler = whole.compiler
  origins : a.origin = whole.origin ∧ b.origin = whole.origin

section Pieces

variable {trees : FileTree → Prop} {hconsistent : Consistent trees} {templates : List Template}
  {store : Store} {whole a b : Template} {options : RenderOptions} {files : FileTree}
  {vars : Bindings Value} {text : String}

/-- A render that declares no block and whose resolver accepts assignments leaves the scopes, the
directories and the names of blocks as they were at its start. -/
theorem Template.state_of_vacates (hresolver : options.resolver = .writable vars)
    (template : Template) (store : Store) {sink : Sink} {s : RenderState}
    (hrun : (((options.level files).runPart template .whole).run.run
      (options.initial template store sink)).2 = s)
    (hblocks : s.store.blocks = store.blocks) :
    s = { options.initial template s.store s.sink with resolver := s.resolver } := by
  have hcomposed := Level.composed_runPart
    (Level.isComposed_above (options.setting files) options.maxDepth) template .whole
  have hvacates := hcomposed.steady RenderState.steady_vacates
    (options.initial template store sink)
  have hbalanced := hcomposed.steady RenderState.steady_balanced
    (options.initial template store sink)
  rw [RenderOptions.level] at hrun
  rw [hrun] at hvacates hbalanced
  have hsize : s.store.blocks.size = store.blocks.size := congrArg Array.size hblocks
  have hscopes : s.scopes = [[]] := by
    have hlength : s.scopes.length = 1 := hbalanced.scopes
    obtain ⟨scope, hscope⟩ := List.length_eq_one_iff.1 hlength
    have hempty := hvacates.scopes hsize ⟨vars, hresolver⟩ (n := 0) rfl
    rw [hscope] at hempty ⊢
    rw [Option.some.inj hempty]
  have hdeclared : s.declared = ∅ := hvacates.declared hsize
  have hdirs : s.dirs = [options.baseDir.getD template.defaultDirectory] := hbalanced.dirs
  obtain ⟨scopes, dirs, declared, resolver, store', sink'⟩ := s
  cases hscopes
  cases hdeclared
  cases hdirs
  rfl

/-- Running the whole is running one part after the other. -/
theorem Setting.Simulates.runPart_consistsOf {v : View} {setting : Setting}
    (h : setting.Simulates (Comparison.scripts hconsistent) v.world setting) (levels : Nat)
    (hparts : whole.ConsistsOf a b) (ha : (Comparison.scripts hconsistent).Hosts v.world a whole)
    (hb : (Comparison.scripts hconsistent).Hosts v.world b whole)
    (hsealed : Sealed a.source.toList b.source.toList) :
    TextTemplate.Simulates (Comparison.scripts hconsistent)
      (Comparison.scripts hconsistent).rendering v Same (do
        (Level.above setting levels).runPart a .whole
        (Level.above setting levels).runPart b .whole)
      ((Level.above setting levels).runPart whole .whole) := by
  obtain ⟨-, script, script', halike, halike', happend⟩ :=
    exists_script_append (hparts.compilers.1.trans hparts.compilers.2.symm) hsealed fun _ _ => False
  have hscript := happend whole hparts.compilers.1.symm hparts.source
  rw [← hparts.source] at halike halike'
  have hplaced : (script.append script').PlacedIn whole := hscript ▸ whole.placed_script
  obtain ⟨hplaced, hplaced'⟩ := Script.placed_append.1 hplaced
  have hlevel := Level.related_above SameOnText.congruence setting levels
  have hpart : whole.scriptAt? .whole = some whole.script := rfl
  have hwhole := Level.sameOnText_runPart hlevel hpart
  rw [hscript, Script.run_append] at hwhole
  refine .of_sameOnText_right (Comparison.isTextual_scripts hconsistent) hwhole ?_
  exact (h.runPart_script levels ha hplaced halike).bind_same fun v' hv _ =>
    (h.mono hv.1).runPart_script levels (hb.mono hv.1) hplaced' halike'

/-- Behind a text, a template writes what it writes when nothing has been written. -/
theorem Template.exists_run_behind (template : Template) (options : RenderOptions)
    (files : FileTree) (store : Store) (text : String) :
    ∃ (result : Except TemplateError Unit) (written : String) (last : RenderState),
      ((options.level files).runPart template .whole).run.run
          { options.initial template store .collector with sink := .text text } =
        (result, { last with sink := .text (text ++ written) }) ∧
      template.renderText options files store =
        ⟨result.map fun _ => written, .text written, last.resolver, last.store⟩ := by
  obtain ⟨pieces, result, last, hwrites⟩ := Level.related_runPart congruence_emits
    (Level.related_above congruence_emits (options.setting files) options.maxDepth) template .whole
    (options.initial template store .collector)
  have hrun := hwrites.taken (Sink.appendAll_text "" pieces)
  rw [String.empty_append] at hrun
  exact ⟨result, String.join pieces, last, hwrites.taken (Sink.appendAll_text text pieces),
    Template.renderText_of_run hrun⟩

/-- Rendering the whole is rendering the first part, and then the second one with the resolver and
the store that the first part leaves. -/
theorem Session.renderText_consistsOf (hconsistent : Consistent trees)
    (hsession : Session trees templates store) (hparts : whole.ConsistsOf a b)
    (hwhole : whole ∈ templates) (ha : a ∈ templates) (hb : b ∈ templates)
    (hknown : options.KnownIn templates) (hfiles : trees files)
    (hsealed : Sealed a.source.toList b.source.toList)
    (hresolver : options.resolver = .writable vars) {left right : Outcome String}
    (hleft : a.renderText options files store = left) (htext : left.result = .ok text)
    (hblocks : left.store.blocks = store.blocks)
    (hright : b.renderText { options with resolver := left.resolver } files left.store = right) :
    (∀ written, (whole.renderText options files store).result = .ok written ↔
      ∃ rest, right.result = .ok rest ∧ written = text ++ rest) ∧
    (whole.renderText options files store).resolver = right.resolver := by
  obtain ⟨owners, hsound, howned⟩ := hsession.exists_sound hconsistent
  have hhosts {part : Template} (hpart : part ∈ templates)
      (hcompiler : part.compiler = whole.compiler) :
      (Comparison.scripts hconsistent).Hosts ⟨owners, owners⟩ part whole :=
    ⟨hcompiler, howned part hpart, howned whole hwhole⟩
  have hsetting := hknown.simulates_scripts (c := Comparison.scripts hconsistent) (fun _ => rfl)
    howned (fun _ _ => trivial) hfiles
  have horigin {part : Template} (h : part.origin = whole.origin) :
      part.defaultDirectory = whole.defaultDirectory := by
    rw [Template.defaultDirectory, h, Template.defaultDirectory]
  have hinitial : (Comparison.scripts hconsistent).States
      (options.view options a whole ⟨owners, owners⟩) (options.initial a store .collector)
      (options.initial whole store .collector) :=
    Comparison.states_initial rfl (congrArg options.baseDir.getD (horigin hparts.origins.1))
      (hsound.stores_scripts (Comparison.isTextual_scripts hconsistent) (fun _ => rfl)
        fun _ _ => ⟨_, rfl, fun _ => trivial⟩)
      Sink.isText_collector
  obtain ⟨v, -, hstates, hok⟩ := (hsetting.runPart_consistsOf (v := options.view options a whole _)
    options.maxDepth hparts (hhosts ha hparts.compilers.1) (hhosts hb hparts.compilers.2)
    hsealed).exists_states hinitial
  rw [← RenderOptions.level, run_bind] at hstates hok
  -- The first part stops where it started, but for the resolver and the caches.
  rw [← hleft] at htext
  obtain ⟨s, hfirst, hsink⟩ := Template.renderText_eq_ok_iff.1 htext
  rw [Template.renderText_of_run hfirst] at hleft
  subst hleft
  have hlast := a.state_of_vacates hresolver store (congrArg Prod.snd hfirst) hblocks
  generalize hoptions : { options with resolver := s.resolver } = options' at hright
  have hbehind : s = { options'.initial b s.store .collector with sink := .text text } := by
    rw [← hsink, ← hoptions]
    refine hlast.trans ?_
    rw [RenderOptions.initial, RenderOptions.initial, horigin hparts.origins.1,
      horigin hparts.origins.2]
    rfl
  -- What the second part does from there, it does from its own start.
  obtain ⟨result, rest, last, hsecond, hrest⟩ := b.exists_run_behind options' files s.store text
  have hlevel : options'.level files = options.level files := by rw [← hoptions]; rfl
  rw [hlevel, ← hbehind] at hsecond
  rw [hfirst, andThen, hsecond] at hstates hok
  rw [← hright, hrest]
  generalize hrun : ((options.level files).runPart whole .whole).run.run
    (options.initial whole store .collector) = final at hstates hok
  rw [Template.renderText_of_run hrun]
  refine ⟨fun written => ?_, hstates.resolver.symm⟩
  dsimp only
  rw [← hstates.sink]
  cases result with
  | error =>
    obtain ⟨_ | _, _⟩ := final
    · constructor
      · intro h
        cases h
      · rintro ⟨_, h, -⟩
        cases h
    · cases hok.2 rfl
  | ok =>
    rw [hok.1 rfl]
    refine ⟨fun h => ⟨_, rfl, (Except.ok.inj h).symm⟩, ?_⟩
    rintro ⟨_, ⟨⟩, rfl⟩
    rfl

end Pieces

/-- A source that is cut in two where the first part does not end with the beginning of a head
compiles if both parts do. After any session, and with any options in which the resolver accepts
assignments, let the first part be rendered, with success and without declaring a block. Then the
whole is rendered with success if and only if the second part is, with the resolver and the store
that the first part leaves; what is written is what the parts write, and the variables of the
resolver are in the end the same. -/
theorem rendered_in_pieces (compiler : Compiler) (first second : String)
    (hfirst : ∃ program, Program.compile compiler first = .ok program)
    (hsecond : ∃ program, Program.compile compiler second = .ok program)
    (hends : ¬EndsInHead first.toList) :
    (∃ program, Program.compile compiler (first ++ second) = .ok program) ∧
    ∀ (trees : FileTree → Prop) (templates : List Template) (store : Store)
      (whole a b : Template) (options : RenderOptions) (vars : Bindings Value) (files : FileTree)
      (left right : Outcome String) (text : String),
      Consistent trees → Session trees templates store → whole.ConsistsOf a b →
      whole.compiler = compiler → a.source = first → b.source = second →
      whole ∈ templates → a ∈ templates → b ∈ templates → options.KnownIn templates →
      trees files → options.resolver = .writable vars →
      a.renderText options files store = left → left.result = .ok text →
      left.store.blocks = store.blocks →
      b.renderText { options with resolver := left.resolver } files left.store = right →
      (∀ written, (whole.renderText options files store).result = .ok written ↔
        ∃ rest, right.result = .ok rest ∧ written = text ++ rest) ∧
      (whole.renderText options files store).resolver = right.resolver := by
  obtain ⟨program, hprogram⟩ := hfirst
  obtain ⟨program', hprogram'⟩ := hsecond
  refine ⟨?_, ?_⟩
  · obtain ⟨a, store, hload, -⟩ := Store.exists_compile hprogram .empty none
    obtain ⟨b, store', hload', -⟩ := Store.exists_compile hprogram' store none
    obtain ⟨rfl, rfl, -⟩ := Store.of_compile_eq_ok hload
    obtain ⟨rfl, hcompiler, -⟩ := Store.of_compile_eq_ok hload'
    exact (exists_script_append hcompiler.symm (sealed_of_not_endsInHead hends _)
      fun _ _ => False).1
  · rintro trees templates store whole a b options vars files left right text hconsistent hsession
      hparts - rfl rfl hwhole ha hb hknown hfiles hresolver hleft htext hblocks hright
    exact hsession.renderText_consistsOf hconsistent hparts hwhole ha hb hknown hfiles
      (sealed_of_not_endsInHead hends _) hresolver hleft htext hblocks hright

/-- The second part reads the variable that the first part assigns to. -/
theorem rendered_in_pieces_assigned :
    ∃ (whole a b : Template) (store : Store),
      Session (· = FileTree.empty) [whole, b, a] store ∧ whole.ConsistsOf a b ∧
      a.source = "a@code{x = 1}" ∧ b.source = "@{x}" ∧
      (whole.renderText { resolver := .writable [] } .empty store).result = .ok "a1" := by
  let compiler : Compiler := ⟨.compiled, []⟩
  let first := "a@code{x = 1}"
  let second := "@{x}"
  have hfirst : ∃ program, Program.compile compiler first = .ok program :=
    Attempt.exists_eq_ok (by decide +kernel)
  have hsecond : ∃ program, Program.compile compiler second = .ok program :=
    Attempt.exists_eq_ok (by decide +kernel)
  have hends : ¬EndsInHead first.toList := by
    apply not_endsInHead_of_getLast? (c := '}') <;> decide +kernel
  have hpieces := (rendered_in_pieces compiler first second hfirst hsecond hends).2
  let options : RenderOptions := { resolver := .writable [] }
  let left (a : Template) (store : Store) := a.renderText options .empty store
  let right (a b : Template) (store : Store) :=
    b.renderText { options with resolver := (left a store).resolver } .empty (left a store).store
  obtain ⟨_, hload, hrun⟩ := Attempt.exists_eq_ok_and
    (x := do
      let a ← Store.empty.compile compiler first none
      let b ← a.2.compile compiler second none
      let whole ← b.2.compile compiler (first ++ second) none
      return (a.1, b.1, whole))
    (p := fun made => (left made.1 made.2.2.2).result == .ok "a" &&
      ((left made.1 made.2.2.2).store.blocks.isEmpty &&
        ((right made.1 made.2.1 made.2.2.2).result == .ok "1")))
    (by decide +kernel)
  obtain ⟨⟨a, store₁⟩, hloadA, hload⟩ := Attempt.bind_eq_ok_iff.1 hload
  obtain ⟨⟨b, store₂⟩, hloadB, hload⟩ := Attempt.bind_eq_ok_iff.1 hload
  obtain ⟨⟨whole, store⟩, hloadWhole, ⟨⟩⟩ := Attempt.bind_eq_ok_iff.1 hload
  obtain ⟨hleft, hrun⟩ := Bool.and_eq_true_iff.1 hrun
  obtain ⟨hblocks, hright⟩ := Bool.and_eq_true_iff.1 hrun
  obtain ⟨hsourceA, hcompilerA, horiginA, -, rfl⟩ := Store.of_compile_eq_ok hloadA
  obtain ⟨hsourceB, hcompilerB, horiginB, -, rfl⟩ := Store.of_compile_eq_ok hloadB
  obtain ⟨hsource, hcompiler, horigin, -, hstore⟩ := Store.of_compile_eq_ok hloadWhole
  have hsession : Session (· = FileTree.empty) [whole, b, a] store :=
    .load (.load (.load .start hloadA) hloadB) hloadWhole
  have hparts : whole.ConsistsOf a b :=
    ⟨by rw [hsource, hsourceA, hsourceB],
      ⟨hcompilerA.trans hcompiler.symm, hcompilerB.trans hcompiler.symm⟩,
      ⟨horiginA.trans horigin.symm, horiginB.trans horigin.symm⟩⟩
  refine ⟨whole, a, b, store, hsession, hparts, hsourceA, hsourceB, ?_⟩
  have hkept : (left a store).store.blocks = store.blocks := by
    rw [Array.isEmpty_iff.1 hblocks, hstore]
    rfl
  exact ((hpieces _ [whole, b, a] store whole a b options [] .empty _ _ "a" (consistent_eq _)
    hsession hparts hcompiler hsourceA hsourceB (by simp) (by simp) (by simp)
    (RenderOptions.knownIn_of_registry_eq_none rfl _) rfl rfl rfl (eq_of_beq hleft) hkept
    rfl).1 "a1").2 ⟨"1", eq_of_beq hright, rfl⟩

end TextTemplate
