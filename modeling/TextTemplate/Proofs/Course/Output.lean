import TextTemplate.Proofs.Attempt
import TextTemplate.Proofs.Course.Congruence

/-!
# What a step writes

What a step writes does not depend on where it is written, and no step reads what has been written
before it. A step therefore writes a list of pieces, whatever the sink: into one that takes them
all it does what it does into any other, and where a sink refuses a piece, the step ends there and
reports why the piece was refused.

## Main definitions

* `Sink.appendAll`: writes pieces until one is refused.
* `TemplateError.IsOutput`: the failure of a sink, as a failure of the render.
* `Writes`: the pieces that a step writes, with what it does besides.
* `Emits`: steps that write some pieces from every state.

## Main results

* `congruence_emits`: every step writes some pieces.
* `Writes.run_captured`: what a step writes, as a text.
-/

namespace TextTemplate

/-! ### Sinks -/

namespace Sink

/-- Writes one piece after the other; at the first that is refused, what has been written and why no
more was. -/
def appendAll (sink : Sink) : List String → Sink × Option String
  | [] => (sink, none)
  | piece :: rest =>
    match sink.append piece with
    | (sink, none) => sink.appendAll rest
    | (sink, some reason) => (sink, some reason)

variable {sink sink' : Sink} {pieces pieces' : List String} {reason : String}

/-- Pieces are refused with the first of them that is refused. -/
theorem appendAll_append (sink : Sink) (pieces pieces' : List String) :
    sink.appendAll (pieces ++ pieces') =
      match sink.appendAll pieces with
      | (sink, none) => sink.appendAll pieces'
      | (sink, some reason) => (sink, some reason) := by
  induction pieces generalizing sink with
  | nil => rfl
  | cons piece pieces ih =>
    rw [List.cons_append, appendAll, appendAll]
    obtain ⟨_, _ | _⟩ := sink.append piece
    · exact ih _
    · rfl

private theorem appendAll_append_eq_none_iff :
    sink.appendAll (pieces ++ pieces') = (sink', none) ↔
      ∃ middle, sink.appendAll pieces = (middle, none) ∧
        middle.appendAll pieces' = (sink', none) := by
  rw [appendAll_append]
  obtain ⟨middle, _ | reason⟩ := sink.appendAll pieces <;> simp

private theorem appendAll_append_eq_some_iff :
    sink.appendAll (pieces ++ pieces') = (sink', some reason) ↔
      sink.appendAll pieces = (sink', some reason) ∨
        ∃ middle, sink.appendAll pieces = (middle, none) ∧
          middle.appendAll pieces' = (sink', some reason) := by
  rw [appendAll_append]
  obtain ⟨middle, _ | reason⟩ := sink.appendAll pieces <;> simp

/-- A sink that collects one text takes every piece. -/
theorem appendAll_text (written : String) (pieces : List String) :
    (text written).appendAll pieces = (text (written ++ String.join pieces), none) := by
  induction pieces generalizing written with
  | nil => simp [appendAll]
  | cons piece rest ih =>
    rw [appendAll, append.eq_def, String.join_cons, ← String.append_assoc]
    exact ih (written ++ piece)

end Sink

/-! ### Steps -/

/-- The failure of a sink, as a failure of the render. -/
def TemplateError.IsOutput (reason : String) (e : TemplateError) : Prop :=
  ∃ position directive, e = .render (.output reason) position directive

private theorem TemplateError.IsOutput.annotate {reason : String} {e : TemplateError}
    (h : e.IsOutput reason) (position : Position) (directive : String) :
    (e.annotate position directive).IsOutput reason := by
  obtain ⟨_ | _, _, rfl⟩ := h
  · exact ⟨_, _, rfl⟩
  · exact ⟨_, _, rfl⟩

/-- What a step does from a state, whatever the sink: it writes these pieces, none of them empty,
with this result and this state after it; where the sink refuses one of them, it fails with the
reason of the sink. -/
structure Writes {α : Type} (step : RenderM α) (s : RenderState) (pieces : List String)
    (result : Except TemplateError α) (t : RenderState) : Prop where
  ne_empty : ∀ piece ∈ pieces, piece ≠ ""
  taken {sink sink' : Sink} : sink.appendAll pieces = (sink', none) →
    step.run.run { s with sink } = (result, { t with sink := sink' })
  refused {sink sink' : Sink} {reason : String} : sink.appendAll pieces = (sink', some reason) →
    ∃ e t', step.run.run { s with sink } = (.error e, t') ∧ t'.sink = sink' ∧ e.IsOutput reason

namespace Writes

variable {α α' : Type} {step : RenderM α} {s t : RenderState} {pieces : List String}
  {result : Except TemplateError α}

/-- A step that writes nothing. -/
theorem of_silent (h : ∀ sink, step.run.run { s with sink } = (result, { t with sink })) :
    Writes step s [] result t where
  ne_empty := nofun
  taken := by
    rintro sink _ ⟨⟩
    exact h sink
  refused := nofun

private theorem emit (text : String) (s : RenderState) :
    ∃ pieces, Writes (RenderM.emit text) s pieces (.ok ()) s := by
  by_cases htext : text = ""
  · refine ⟨[], of_silent fun sink => ?_⟩
    rw [run_emit, if_pos htext]
  · refine ⟨[text], by simpa using htext, fun {sink sink'} h => ?_, fun {sink sink' reason} h => ?_⟩
    all_goals
      rw [run_emit, if_neg htext]
      rw [Sink.appendAll] at h
      dsimp only
      generalize sink.append text = after at h ⊢
      obtain ⟨after, _ | refusal⟩ := after
      all_goals cases h
    · rfl
    · exact ⟨_, _, rfl, rfl, none, none, rfl⟩

private theorem annotate (h : Writes step s pieces result t) (position : Position)
    (directive : String) :
    Writes (ExceptT.adapt (TemplateError.annotate position directive) step) s pieces
      (result.mapError (TemplateError.annotate position directive)) t where
  ne_empty := h.ne_empty
  taken hsink := by rw [run_adapt, h.taken hsink]
  refused hsink := by
    obtain ⟨e, t', hrun, ht', houtput⟩ := h.refused hsink
    exact ⟨_, t', by rw [run_adapt, hrun, Attempt.mapError_error], ht', houtput.annotate _ _⟩

private theorem bind_error {e : TemplateError} (h : Writes step s pieces (.error e) t)
    (next : α → RenderM α') : Writes (step >>= next) s pieces (.error e) t where
  ne_empty := h.ne_empty
  taken hsink := by
    rw [run_bind, h.taken hsink]
    rfl
  refused hsink := by
    obtain ⟨e, t', hrun, hreported⟩ := h.refused hsink
    exact ⟨e, t', by rw [run_bind, hrun]; rfl, hreported⟩

private theorem bind_ok {a : α} {u : RenderState} {pieces' : List String}
    {result' : Except TemplateError α'} (h : Writes step s pieces (.ok a) t)
    {next : α → RenderM α'} (hnext : Writes (next a) t pieces' result' u) :
    Writes (step >>= next) s (pieces ++ pieces') result' u where
  ne_empty piece hpiece := (List.mem_append.1 hpiece).elim (h.ne_empty piece) (hnext.ne_empty piece)
  taken hsink := by
    obtain ⟨middle, hfirst, hrest⟩ := Sink.appendAll_append_eq_none_iff.1 hsink
    rw [run_bind, h.taken hfirst]
    exact hnext.taken hrest
  refused hsink := by
    rw [run_bind]
    rcases Sink.appendAll_append_eq_some_iff.1 hsink with hfirst | ⟨middle, hfirst, hrest⟩
    · obtain ⟨e, t', hrun, hreported⟩ := h.refused hfirst
      exact ⟨e, t', by rw [hrun]; rfl, hreported⟩
    · rw [h.taken hfirst]
      exact hnext.refused hrest

/-- The step itself does not depend on the sink, only what it writes goes there. -/
theorem get_bind {next : RenderState → RenderM α} (hblind : ∀ s sink, next { s with sink } = next s)
    (h : Writes (next s) s pieces result t) : Writes (get >>= next) s pieces result t := by
  have hrun (sink : Sink) :
      (get >>= next).run.run { s with sink } = (next s).run.run { s with sink } := by
    change (next { s with sink }).run.run { s with sink } = _
    rw [hblind]
  exact ⟨h.ne_empty, fun hsink => (hrun _).trans (h.taken hsink),
    fun hsink => hrun _ ▸ h.refused hsink⟩

/-- A step between two changes of the state that leave the sink alone. -/
theorem between {σ : Type} {enter : RenderState → σ × RenderState}
    {leave : σ → RenderState → RenderState}
    (henter : ∀ s sink, enter { s with sink } = ((enter s).1, { (enter s).2 with sink }))
    (hleave : ∀ kept s sink, leave kept { s with sink } = { leave kept s with sink })
    (hkeep : ∀ kept s, (leave kept s).sink = s.sink)
    (h : Writes step (enter s).2 pieces result t) :
    Writes (RenderM.between enter leave step) s pieces result (leave (enter s).1 t) where
  ne_empty := h.ne_empty
  taken hsink := by rw [run_between, henter, h.taken hsink, hleave]
  refused hsink := by
    obtain ⟨e, t', hrun, ht', houtput⟩ := h.refused hsink
    refine ⟨e, leave (enter s).1 t', ?_, (hkeep _ t').trans ht', houtput⟩
    rw [run_between, henter, hrun]

/-- What a step writes, as a text; the sink is left as it was. -/
theorem run_captured {step : RenderM Unit} {result : Except TemplateError Unit}
    (h : Writes step s pieces result t) (sink : Sink) :
    (RenderM.captured step).run.run { s with sink } =
      (result.map fun _ => String.join pieces, { t with sink }) := by
  have hrun : step.run.run { s with sink := .collector } =
      (result, { t with sink := .text (String.join pieces) }) := by
    refine h.taken ?_
    rw [Sink.collector, Sink.appendAll_text, String.empty_append]
  rw [RenderM.captured, run_between, run_bind]
  dsimp only
  rw [hrun]
  cases result <;> rfl

end Writes

theorem RenderState.assign_with_sink (s : RenderState) (sink : Sink) (name : String)
    (value : Value) :
    RenderState.assign { s with sink } name value = { s.assign name value with sink } := by
  unfold assign
  cases rebind? name value s.scopes with
  | some scopes => rfl
  | none => cases s.resolver.assign? name value <;> rfl

/-- Whatever the state, the step writes some pieces. -/
def Emits {α : Type} (step : RenderM α) : Prop :=
  ∀ s, ∃ pieces result t, Writes step s pieces result t

namespace Emits

variable {α α' : Type} {step : RenderM α}

theorem bind (h : Emits step) {next : α → RenderM α'} (hnext : ∀ a, Emits (next a)) :
    Emits (step >>= next) := by
  intro s
  obtain ⟨pieces, _ | a, t, hstep⟩ := h s
  · exact ⟨pieces, _, t, hstep.bind_error _⟩
  · obtain ⟨pieces', result, u, hnext⟩ := hnext a t
    exact ⟨pieces ++ pieces', result, u, hstep.bind_ok hnext⟩

theorem annotate (h : Emits step) (position : Position) (directive : String) :
    Emits (ExceptT.adapt (TemplateError.annotate position directive) step) := by
  intro s
  obtain ⟨pieces, result, t, hstep⟩ := h s
  exact ⟨pieces, _, t, hstep.annotate position directive⟩

theorem get_bind {next : RenderState → RenderM α} (hblind : ∀ s sink, next { s with sink } = next s)
    (h : ∀ s, Emits (next s)) : Emits (get >>= next) := by
  intro s
  obtain ⟨pieces, result, t, hnext⟩ := h s s
  exact ⟨pieces, result, t, hnext.get_bind hblind⟩

theorem assign (name : String) (value : Value) :
    Emits (modify (·.assign name value) : RenderM Unit) := by
  intro s
  refine ⟨[], .ok (), s.assign name value, .of_silent fun sink => ?_⟩
  rw [← RenderState.assign_with_sink]
  rfl

private theorem between {σ : Type} {enter : RenderState → σ × RenderState}
    {leave : σ → RenderState → RenderState}
    (henter : ∀ s sink, enter { s with sink } = ((enter s).1, { (enter s).2 with sink }))
    (hleave : ∀ kept s sink, leave kept { s with sink } = { leave kept s with sink })
    (hkeep : ∀ kept s, (leave kept s).sink = s.sink) (h : Emits step) :
    Emits (RenderM.between enter leave step) := by
  intro s
  obtain ⟨pieces, result, t, hstep⟩ := h (enter s).2
  exact ⟨pieces, result, leave (enter s).1 t, hstep.between henter hleave hkeep⟩

theorem withScope (h : Emits step) (scope : Scope) : Emits (RenderM.withScope scope step) :=
  h.between (fun _ _ => rfl) (fun _ _ _ => rfl) (fun _ _ => rfl)

theorem withDir (h : Emits step) (dir : Path) : Emits (RenderM.withDir dir step) :=
  h.between (fun _ _ => rfl) (fun _ _ _ => rfl) (fun _ _ => rfl)

theorem withScopes (h : Emits step) (scopes : List Scope) :
    Emits (RenderM.withScopes scopes step) :=
  h.between (fun _ _ => rfl) (fun _ _ _ => rfl) (fun _ _ => rfl)

theorem captured {step : RenderM Unit} (h : Emits step) : Emits (RenderM.captured step) := by
  intro s
  obtain ⟨pieces, result, t, hstep⟩ := h s
  exact ⟨[], _, t, .of_silent hstep.run_captured⟩

end Emits

private theorem operations_emits : Operations fun {_} (_ step : RenderM _) => Emits step where
  result _ s := ⟨[], _, s, .of_silent fun _ => rfl⟩
  bind hstep hnext := hstep.bind hnext
  get_bind _ := .get_bind
  caches f _ s := ⟨[], (f s.store).1, { s with store := { s.store with caches := (f s.store).2 } },
    .of_silent fun _ => rfl⟩
  assign := .assign
  declare name template place s :=
    ⟨[], .ok (), s.declare name template place, .of_silent fun _ => rfl⟩
  emit text s := (Writes.emit text s).imp fun _ hwrites => ⟨_, _, hwrites⟩
  withScope scope _ _ h := h.withScope scope
  withDir dir _ _ h := h.withDir dir
  withScopes outer _ _ h := h.withScopes ([] :: outer)
  captured := .captured

/-- Every step writes some pieces. -/
theorem congruence_emits : Congruence fun {_} (_ step : RenderM _) => Emits step :=
  operations_emits.congruence fun position directive _ _ h => h.annotate position directive

end TextTemplate
