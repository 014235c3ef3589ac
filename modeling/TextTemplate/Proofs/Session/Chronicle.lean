import TextTemplate.Proofs.Course.Laws
import TextTemplate.Proofs.Session.History

/-!
# Chronicles

A chronicle tells what has been done since a store was reached, over any number of renders that
succeeded or failed, with any options and with any files from one render to the next. Every session
has a chronicle, and every chronicle obeys the laws that hold of what is recorded of a step.

## Main definitions

* `Chronicle`: what has been done between two stores.

## Main results

* `Session.exists_chronicle`: every session has a chronicle.
* `Chronicle.lawful`: a chronicle obeys the laws of its events.
-/

namespace TextTemplate

/-- From the first store on, by compiling templates and by rendering and evaluating templates, this
has been done, and the other store has been reached. -/
inductive Chronicle (first : Store) : List Event → Store → Prop
  | start : Chronicle first [] first
  | load {log : List Event} {store store' : Store} {compiler : Compiler} {source : String}
      {origin : Option Path} {template : Template} (before : Chronicle first log store)
      (loaded : store.compile compiler source origin = .ok (template, store')) :
      Chronicle first log store'
  | render {log log' : List Event} {store : Store} {template : Template} {options : RenderOptions}
      {files : FileTree} {sink : Sink} (before : Chronicle first log store)
      (records : Records (options.setting files) options.maxDepth (.top template options.baseDir)
        ((options.level files).runPart template .whole) (options.initial template store sink)
        log') :
      Chronicle first (log ++ log') (template.renderInto options files store sink).store
  | evaluate {log log' : List Event} {store : Store} {template : Template}
      {options : RenderOptions} {files : FileTree} {node : Node} {value : Slot}
      (before : Chronicle first log store)
      (pure : template.program.pureExpression? = some (node, value))
      (records : Records (options.setting files) options.maxDepth (.top template options.baseDir)
        (Level.located template node.span.start node.name
          ((options.level files).evaluate template value))
        (options.initial template store .collector) log') :
      Chronicle first (log ++ log') (template.evaluate options files store).store

section Chronicle

variable {first store : Store} {log : List Event}

/-- A render goes on with a chronicle. -/
theorem Chronicle.exists_render (h : Chronicle first log store) (template : Template)
    (options : RenderOptions) (files : FileTree) (sink : Sink) :
    ∃ log', Chronicle first (log ++ log') (template.renderInto options files store sink).store := by
  obtain ⟨log', hlog'⟩ := Level.exists_records_runPart (options.setting files) options.maxDepth
    (.top template options.baseDir) .whole (options.initial template store sink)
  exact ⟨log', h.render hlog'⟩

/-- An evaluation goes on with a chronicle. -/
theorem Chronicle.exists_evaluate (h : Chronicle first log store) (template : Template)
    (options : RenderOptions) (files : FileTree) :
    ∃ log', Chronicle first (log ++ log') (template.evaluate options files store).store := by
  cases hpure : template.program.pureExpression? with
  | none =>
    have hstore : (template.evaluate options files store).store =
        (template.renderInto options files store .collector).store := by
      rw [Template.evaluate]
      simp only [hpure]
      rfl
    rw [hstore]
    exact h.exists_render template options files .collector
  | some found =>
    obtain ⟨node, value⟩ := found
    obtain ⟨log', hlog'⟩ := Level.exists_records_evaluate (options.setting files) options.maxDepth
      (.top template options.baseDir) template value (options.initial template store .collector)
    exact ⟨log', h.evaluate hpure (hlog'.adapt _)⟩

/-- What is done in a session has a chronicle. -/
theorem Session.exists_chronicle {trees : FileTree → Prop} {templates : List Template}
    (h : Session trees templates store) : ∃ log, Chronicle .empty log store := by
  induction h with
  | start => exact ⟨[], .start⟩
  | load _ hloaded ih =>
    obtain ⟨log, hlog⟩ := ih
    exact ⟨log, hlog.load hloaded⟩
  | @render _ _ template options files _ _ _ _ sink ih =>
    obtain ⟨log, hlog⟩ := ih
    obtain ⟨log', hlog'⟩ := hlog.exists_render template options files sink
    exact ⟨log ++ log', hlog'⟩
  | @evaluate _ _ template options files _ _ _ _ ih =>
    obtain ⟨log, hlog⟩ := ih
    obtain ⟨log', hlog'⟩ := hlog.exists_evaluate template options files
    exact ⟨log ++ log', hlog'⟩

/-- A chronicle obeys a law that the events uphold, if compiling a template keeps its invariant, and
it holds at the start. -/
theorem Chronicle.lawful {law : List Event → Event → Prop} {kept : List Event → Store → Prop}
    {stands : List Event → Entrance → Path → Prop} (hL : Upholds law kept stands)
    (hload : ∀ {log store store' compiler source origin template}, kept log store →
      Store.compile store compiler source origin = .ok (template, store') → kept log store')
    (htop : ∀ log template baseDir, stands log (.top template baseDir)
      (baseDir.getD template.defaultDirectory))
    (hfirst : kept [] first) (h : Chronicle first log store) :
    Lawful law [] log ∧ kept log store := by
  induction h with
  | start => exact ⟨trivial, hfirst⟩
  | load _ hloaded ih => exact ⟨ih.1, hload ih.2 hloaded⟩
  | render _ hrecords ih =>
    obtain ⟨hlaw, hkept⟩ := hrecords.lawful hL ih.2 (htop _ _ _)
    exact ⟨lawful_append.2 ⟨ih.1, hlaw⟩, hkept⟩
  | @evaluate _ _ store template options files node value _ hpure hrecords ih =>
    obtain ⟨hlaw, hkept⟩ := hrecords.lawful hL ih.2 (htop _ _ _)
    have hstore : (template.evaluate options files store).store =
        ((Level.located template node.span.start node.name
          ((options.level files).evaluate template value)).run.run
            (options.initial template store .collector)).2.store := by
      rw [Template.evaluate]
      simp only [hpure]
      rfl
    rw [hstore]
    exact ⟨lawful_append.2 ⟨ih.1, hlaw⟩, hkept⟩

end Chronicle

end TextTemplate
