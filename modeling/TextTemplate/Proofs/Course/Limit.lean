import TextTemplate.Proofs.Course.Cut

/-!
# Raising the recursion limit

Two renders that differ only in how deeply includes and block calls may nest do the same until the
one with the lower limit would have to go deeper. There it fails, and nothing catches the failure:
no expression, condition, loop or captured text goes on after it. So the render with the higher
limit does the same, or it goes on where the other one stopped.

## Main definitions

* `Sink.Continues`: a sink into which more has been written.
* `HitsLimit`: a failure at the recursion limit.
* `StopsShort`: one step does what another one does, or stops short of it at the recursion limit.

## Main results

* `congruence_stopsShort`: the operations of a render respect this relation.
* `Level.stopsShort_above`: it relates levels of which one has more levels below it.
* `Template.renderInto_of_maxDepth_le`: a render with a lower limit, and one with a higher limit.
-/

namespace TextTemplate

/-! ### Sinks -/

namespace Sink

variable {sink sink' sink'' : Sink} {reason : String}

/-- The sink stays as it is, whatever is written. -/
def IsFull (sink : Sink) : Prop :=
  ∀ piece, (sink.append piece).1 = sink

/-- A sink that has refused a piece takes nothing more. -/
theorem isFull_of_append {piece : String} (h : sink.append piece = (sink', some reason)) :
    sink'.IsFull := by
  intro piece'
  rw [append.eq_def] at h
  split at h
  · cases h
  · cases h
  · cases h
    rfl
  · cases h
  · cases h
  · dsimp only at h
    split at h
    · cases h
    · cases h
      rw [append.eq_def]
      dsimp only
      split
      · rename_i hfits
        have hempty : piece'.toUTF8 = .empty := by simpa using hfits
        rw [hempty, ByteArray.append_empty]
        rfl
      · rw [ByteArray.extract_same, ByteArray.append_empty]

private theorem isFull_of_appendAll {pieces : List String}
    (h : sink.appendAll pieces = (sink', some reason)) : sink'.IsFull := by
  induction pieces generalizing sink with
  | nil => cases h
  | cons piece rest ih =>
    rw [appendAll] at h
    cases hpiece : sink.append piece with
    | mk after refusal =>
      rw [hpiece] at h
      cases refusal with
      | none => exact ih h
      | some refusal =>
        cases h
        exact isFull_of_append hpiece

private theorem IsFull.appendAll (h : sink.IsFull) (pieces : List String) :
    (sink.appendAll pieces).1 = sink := by
  induction pieces with
  | nil => rfl
  | cons piece rest ih =>
    have hsame := h piece
    rw [Sink.appendAll]
    generalize sink.append piece = after at hsame ⊢
    obtain ⟨after, _ | refusal⟩ := after
    · obtain rfl : after = sink := hsame
      exact ih
    · exact hsame

/-- The second sink is the first one with more pieces written into it. -/
def Continues (sink sink' : Sink) : Prop :=
  ∃ pieces, (sink.appendAll pieces).1 = sink'

theorem Continues.refl (sink : Sink) : sink.Continues sink :=
  ⟨[], rfl⟩

theorem Continues.trans (h : sink.Continues sink') (h' : sink'.Continues sink'') :
    sink.Continues sink'' := by
  obtain ⟨pieces, rfl⟩ := h
  obtain ⟨pieces', rfl⟩ := h'
  cases hfirst : sink.appendAll pieces with
  | mk middle refusal =>
    cases refusal with
    | none => exact ⟨pieces ++ pieces', by rw [appendAll_append, hfirst]⟩
    | some reason => exact ⟨pieces, by rw [hfirst, (isFull_of_appendAll hfirst).appendAll]⟩

end Sink

/-! ### Steps -/

/-- The failure of an include or a block call that would nest too deeply. -/
def TemplateError.IsRecursionLimit (e : TemplateError) : Prop :=
  ∃ limit position directive, e = .render (.recursionLimit limit) position directive

private theorem TemplateError.IsRecursionLimit.annotate {e : TemplateError} (h : e.IsRecursionLimit)
    (position : Position) (directive : String) :
    (e.annotate position directive).IsRecursionLimit := by
  obtain ⟨_, _ | _, _, rfl⟩ := h
  · exact ⟨_, _, _, rfl⟩
  · exact ⟨_, _, _, rfl⟩

/-- A failure at the recursion limit. -/
def HitsLimit {α : Type} (result : Except TemplateError α) : Prop :=
  ∃ e, result = .error e ∧ e.IsRecursionLimit

/-- The right step writes some pieces, and the left one does what the right one does, or it stops
short of it at the recursion limit. -/
structure StopsShort {α : Type} (left right : RenderM α) : Prop where
  emits : Emits right
  run (s : RenderState) : left.run.run s = right.run.run s ∨
    HitsLimit (left.run.run s).1 ∧ (left.run.run s).2.sink.Continues (right.run.run s).2.sink

section StopsShort

variable {α α' : Type} {left right : RenderM α}

theorem HitsLimit.bind {result : Except TemplateError α × RenderState} (h : HitsLimit result.1)
    (next : α → RenderM α') :
    HitsLimit (andThen next result).1 ∧ (andThen next result).2 = result.2 := by
  obtain ⟨_, s⟩ := result
  obtain ⟨e, rfl, hlimit⟩ := h
  exact ⟨⟨e, rfl, hlimit⟩, rfl⟩

/-- What a step writes goes behind what was there. -/
theorem Emits.continues (h : Emits right) (s : RenderState) :
    s.sink.Continues (right.run.run s).2.sink := by
  obtain ⟨pieces, result, t, hwrites⟩ := h s
  refine ⟨pieces, ?_⟩
  cases hsink : s.sink.appendAll pieces with
  | mk sink refusal =>
    cases refusal with
    | none => rw [hwrites.taken hsink]
    | some reason =>
      obtain ⟨e, t', hrun, ht', -⟩ := hwrites.refused hsink
      rw [hrun, ht']

/-- A step stops short of itself. -/
theorem StopsShort.refl (h : Emits right) : StopsShort right right :=
  ⟨h, fun _ => .inl rfl⟩

/-- The left step fails at once, where the right one may do anything. -/
theorem StopsShort.of_fails {e : TemplateError} (hlimit : e.IsRecursionLimit)
    (h : Emits right) : StopsShort (throw e) right :=
  ⟨h, fun s => .inr ⟨⟨e, rfl, hlimit⟩, h.continues s⟩⟩

/-- A step between two changes of the state, where the second one leaves the sink alone. -/
theorem StopsShort.between {σ : Type} {enter : RenderState → σ × RenderState}
    {leave : σ → RenderState → RenderState} (hkeep : ∀ kept s, (leave kept s).sink = s.sink)
    (h : StopsShort left right) (hemits : Emits (RenderM.between enter leave right)) :
    StopsShort (RenderM.between enter leave left) (RenderM.between enter leave right) := by
  refine ⟨hemits, fun s => ?_⟩
  rw [run_between, run_between, hkeep, hkeep]
  exact (h.run (enter s).2).imp_left fun hsame => by rw [hsame]

end StopsShort

private theorem operations_stopsShort : Operations StopsShort where
  result h := .refl (congruence_emits.result h)
  bind {_ _ left right next next'} hstep hnext := by
    refine ⟨hstep.emits.bind fun a => (hnext a).emits, fun s => ?_⟩
    rw [run_bind, run_bind]
    rcases hstep.run s with hsame | ⟨hitsLimit, hcontinues⟩
    · rw [hsame]
      rcases right.run.run s with ⟨_ | a, t⟩
      · exact .inl rfl
      · exact (hnext a).run t
    · -- The left step goes no further; what the right one still writes comes behind.
      obtain ⟨hits, hkept⟩ := hitsLimit.bind next
      refine .inr ⟨hits, ?_⟩
      rw [hkept]
      refine hcontinues.trans ?_
      rcases right.run.run s with ⟨_ | a, t⟩
      · exact .refl _
      · exact (hnext a).emits.continues t
  get_bind _ hblind h := ⟨.get_bind hblind fun s => (h s).emits, fun s => (h s).run s⟩
  caches f h := .refl (congruence_emits.caches f h)
  assign name value := .refl (.assign name value)
  declare name template place := .refl (congruence_emits.declare name template place)
  emit text := .refl (congruence_emits.emit text)
  withScope scope _ _ h := h.between (fun _ _ => rfl) (h.emits.withScope scope)
  withDir dir _ _ h := h.between (fun _ _ => rfl) (h.emits.withDir dir)
  withScopes outer _ _ h := h.between (fun _ _ => rfl) (h.emits.withScopes ([] :: outer))
  captured {left right} h := by
    refine ⟨h.emits.captured, fun s => ?_⟩
    rw [RenderM.captured, RenderM.captured, run_between, run_between, run_bind, run_bind]
    dsimp only
    rcases h.run { s with sink := .collector } with hsame | ⟨hitsLimit, -⟩
    · exact .inl (by rw [hsame])
    · -- What was captured is lost, and the sink is the one from before.
      exact .inr ⟨(hitsLimit.bind _).1, .refl s.sink⟩

/-- The operations of a render respect that a step stops short. -/
theorem congruence_stopsShort : Congruence StopsShort := by
  refine operations_stopsShort.congruence fun position directive left right h => ?_
  refine ⟨h.emits.annotate position directive, fun s => ?_⟩
  rw [run_adapt, run_adapt]
  rcases h.run s with hsame | ⟨⟨e, hresult, hlimit⟩, hcontinues⟩
  · exact .inl (by rw [hsame])
  · refine .inr ⟨⟨_, ?_, hlimit.annotate position directive⟩, hcontinues⟩
    rw [hresult, Attempt.mapError_error]

/-! ### Levels -/

/-- A level with fewer levels below it stops short of one with more of them. -/
theorem Level.stopsShort_above (setting : Setting) (limit : Nat) {levels levels' : Nat}
    (h : levels ≤ levels') :
    Related StopsShort (above setting levels) (above { setting with limit } levels') := by
  induction levels generalizing levels' with
  | zero =>
    refine ⟨?_, ?_, ?_, fun template part dir => ?_⟩
    · cases levels' <;> rfl
    · cases levels' <;> rfl
    · cases levels' <;> rfl
    · exact .of_fails ⟨setting.limit, none, none, rfl⟩
        ((related_above congruence_emits _ levels').enter template part dir)
  | succ levels ih =>
    obtain ⟨levels', rfl⟩ : ∃ n, levels' = n + 1 := ⟨levels' - 1, by omega⟩
    exact ⟨rfl, rfl, rfl, fun template part dir => congruence_stopsShort.withDir dir
      (related_runPart congruence_stopsShort (ih (Nat.le_of_succ_le_succ h)) template part)⟩

/-! ### Renders -/

/-- A failure at the recursion limit is not that of a sink. -/
theorem HitsLimit.not_isCut {outcome : Outcome Unit} (h : HitsLimit outcome.result) (sink : Sink)
    (reason : String) : ¬outcome.IsCut sink reason := by
  rintro ⟨-, e, hresult, _, _, rfl⟩
  obtain ⟨e, hresult', _, _, _, rfl⟩ := h
  rw [hresult] at hresult'
  cases hresult'

private theorem RenderM.outcome_congr {α : Type} {left right : RenderM α} {s : RenderState}
    (h : left.run.run s = right.run.run s) : left.outcome s = right.outcome s := by
  rw [outcome, outcome, h]

section Renders

variable (template : Template) (options : RenderOptions) (files : FileTree) (store : Store)
  (sink : Sink) {depth : Nat}

/-- A render with a higher limit does what one with a lower limit does, or goes on behind it. -/
theorem Template.renderInto_eq_or_continues (h : options.maxDepth ≤ depth) :
    template.renderInto options files store sink =
        template.renderInto { options with maxDepth := depth } files store sink ∨
      HitsLimit (template.renderInto options files store sink).result ∧
        (template.renderInto options files store sink).sink.Continues
          (template.renderInto { options with maxDepth := depth } files store sink).sink := by
  have hshort : StopsShort ((options.level files).runPart template .whole)
      ((RenderOptions.level { options with maxDepth := depth } files).runPart template .whole) :=
    Level.related_runPart congruence_stopsShort
      (Level.stopsShort_above (options.setting files) depth h) template .whole
  exact (hshort.run (options.initial template store sink)).imp_left RenderM.outcome_congr

/-- A render with a lower limit, and one with a higher limit: where the first one does not fail at
its limit, both have the same outcome; and where it does, what it has written is the beginning of
what the second one writes. -/
theorem Template.renderInto_of_maxDepth_le (h : options.maxDepth ≤ depth) :
    (¬HitsLimit (template.renderInto options files store sink).result →
      template.renderInto { options with maxDepth := depth } files store sink =
        template.renderInto options files store sink) ∧
    (HitsLimit (template.renderInto options files store sink).result →
      ∃ pieces more,
        sink.appendAll pieces = ((template.renderInto options files store sink).sink, none) ∧
        (sink.appendAll (pieces ++ more)).1 =
          (template.renderInto { options with maxDepth := depth } files store sink).sink) := by
  have hrelated := template.renderInto_eq_or_continues options files store sink h
  refine ⟨fun hwithin => ?_, fun hits => ?_⟩
  · rcases hrelated with hsame | ⟨hits, -⟩
    · exact hsame.symm
    · exact (hwithin hits).elim
  · have hcontinues : (template.renderInto options files store sink).sink.Continues
        (template.renderInto { options with maxDepth := depth } files store sink).sink := by
      rcases hrelated with hsame | ⟨-, hcontinues⟩
      · rw [hsame]
        exact .refl _
      · exact hcontinues
    obtain ⟨more, hmore⟩ := hcontinues
    obtain ⟨pieces, _, _, _, -, htaken, hrefused⟩ := template.exists_pieces options files store
    refine ⟨pieces, more, ?_⟩
    cases hsink : sink.appendAll pieces with
    | mk after refusal =>
      cases refusal with
      | none =>
        rw [htaken _ _ hsink] at hmore ⊢
        exact ⟨rfl, by rw [Sink.appendAll_append, hsink, ← hmore]⟩
      | some reason => exact (hits.not_isCut _ _ (hrefused _ _ _ hsink)).elim

end Renders

/-- A block that calls another one: within one level the call fails, and nothing of the block that
it was in is written; within two levels the render goes on there. -/
theorem renderInto_of_maxDepth_le_nested :
    ∃ (template : Template) (store : Store),
      Store.empty.compile ⟨.compiled, []⟩
        "@declare\x7b'f'\x7dx@end{}@declare\x7b'g'\x7dy@{f()}@end{}a@{g()}" none =
          .ok (template, store) ∧
      HitsLimit (template.renderInto { maxDepth := 1 } .empty store .collector).result ∧
      (template.renderInto { maxDepth := 1 } .empty store .collector).sink.collected = "a" ∧
      (template.renderInto { maxDepth := 2 } .empty store .collector).sink.collected = "ayx" ∧
      ∃ pieces more,
        Sink.collector.appendAll pieces =
          ((template.renderInto { maxDepth := 1 } .empty store .collector).sink, none) ∧
        (Sink.collector.appendAll (pieces ++ more)).1 =
          (template.renderInto { maxDepth := 2 } .empty store .collector).sink := by
  obtain ⟨⟨template, store⟩, hcompile, hlast⟩ := Attempt.exists_eq_ok_and
    (x := Store.empty.compile ⟨.compiled, []⟩
      "@declare\x7b'f'\x7dx@end{}@declare\x7b'g'\x7dy@{f()}@end{}a@{g()}" none)
    (p := fun loaded =>
      (loaded.1.renderInto { maxDepth := 1 } .empty loaded.2 .collector).result =
        .error (.render (.recursionLimit 1) (some ⟨34, 1, 35⟩) (some "")) ∧
      (loaded.1.renderInto { maxDepth := 1 } .empty loaded.2 .collector).sink.collected = "a" ∧
      (loaded.1.renderInto { maxDepth := 2 } .empty loaded.2 .collector).sink.collected = "ayx")
    (by decide +kernel)
  obtain ⟨hresult, hshallow, hdeep⟩ := of_decide_eq_true hlast
  have hits : HitsLimit (template.renderInto { maxDepth := 1 } .empty store .collector).result :=
    ⟨_, hresult, 1, _, _, rfl⟩
  exact ⟨template, store, hcompile, hits, hshallow, hdeep,
    (template.renderInto_of_maxDepth_le { maxDepth := 1 } .empty store .collector
      (by decide : 1 ≤ 2)).2 hits⟩

end TextTemplate
