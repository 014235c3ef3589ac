import TextTemplate.Proofs.Course.Output
import TextTemplate.Render.Renderer

/-!
# Sinks that refuse a piece

A list that is full, and bytes without room for the next piece, end a render. Up to there it writes
what it writes into any other sink, nothing comes after it, and the render reports why the piece was
refused.

## Main definitions

* `Sink.IsUnlimited`: sinks that refuse no piece.
* `Outcome.IsCut`: the outcome of a render that ended where the sink refused a piece.

## Main results

* `Sink.appendAll_pieces_of_lt`, `Sink.appendAll_bytes_of_lt`: what is left of the pieces that do
  not fit.
* `Template.exists_pieces`: what a render writes, whatever the sink.
* `Template.renderInto_cut`: what a render leaves in each sink.
-/

namespace TextTemplate

/-! ### Sinks -/

namespace Sink

variable {room : Nat} {pieces : List String}

private theorem appendAll_pieces (written pieces : List String) :
    (Sink.pieces written none).appendAll pieces =
      (.pieces (pieces.reverse ++ written) none, none) := by
  induction pieces generalizing written with
  | nil => rfl
  | cons piece rest ih =>
    rw [appendAll, append.eq_def, List.reverse_cons, List.append_assoc]
    exact ih (piece :: written)

/-- A list with room for the pieces takes them. -/
theorem appendAll_pieces_of_le (h : pieces.length ≤ room) (written : List String) :
    (Sink.pieces written (some room)).appendAll pieces =
      (.pieces (pieces.reverse ++ written) (some (room - pieces.length)), none) := by
  induction pieces generalizing written room with
  | nil => rfl
  | cons piece rest ih =>
    obtain ⟨room, rfl⟩ : ∃ n, room = n + 1 := ⟨room - 1, by simp at h; omega⟩
    rw [appendAll, append.eq_def, List.reverse_cons, List.append_assoc, List.length_cons,
      Nat.add_sub_add_right]
    exact ih (Nat.le_of_succ_le_succ h) (piece :: written)

/-- A list without room for the pieces takes as many as it has room for. -/
theorem appendAll_pieces_of_lt (h : room < pieces.length) (written : List String) :
    (Sink.pieces written (some room)).appendAll pieces =
      (.pieces ((pieces.take room).reverse ++ written) (some 0), some "sink full") := by
  induction pieces generalizing written room with
  | nil => cases h
  | cons piece rest ih =>
    cases room with
    | zero => rfl
    | succ room =>
      rw [appendAll, append.eq_def, List.take_succ_cons, List.reverse_cons, List.append_assoc]
      exact ih (Nat.lt_of_succ_lt_succ h) (piece :: written)

private theorem toUTF8_join_cons (piece : String) (rest : List String) :
    (String.join (piece :: rest)).toUTF8 = piece.toUTF8 ++ (String.join rest).toUTF8 := by
  rw [String.join_cons]
  exact String.toByteArray_append

/-- The first bytes of two parts, where the first part is among them. -/
theorem extract_append_of_size_le {a : ByteArray} (h : a.size ≤ room) (b : ByteArray) :
    (a ++ b).extract 0 room = a ++ b.extract 0 (room - a.size) := by
  have hwhole : a.extract 0 room = a := by
    rw [ByteArray.ext_iff, ByteArray.data_extract]
    exact Array.extract_eq_self_of_le h
  rw [ByteArray.extract_append, hwhole, Nat.zero_sub]

/-- Bytes with room for the pieces take them. -/
theorem appendAll_bytes_of_le (h : (String.join pieces).utf8ByteSize ≤ room)
    (written : ByteArray) :
    (Sink.bytes written (some room)).appendAll pieces =
      (.bytes (written ++ (String.join pieces).toUTF8)
        (some (room - (String.join pieces).utf8ByteSize)), none) := by
  induction pieces generalizing written room with
  | nil => rw [appendAll, String.join_nil, String.toUTF8, String.toByteArray_empty,
      ByteArray.append_empty, String.utf8ByteSize_empty, Nat.sub_zero]
  | cons piece rest ih =>
    rw [String.join_cons, String.utf8ByteSize_append] at h
    have hsize : piece.toUTF8.size = piece.utf8ByteSize := String.size_toByteArray
    have hfits : piece.toUTF8.size ≤ room := by omega
    rw [appendAll, append.eq_def]
    simp only [hfits, ↓reduceIte]
    rw [ih (by omega), toUTF8_join_cons, String.join_cons, String.utf8ByteSize_append, hsize,
      Nat.sub_sub, ByteArray.append_assoc]

/-- Bytes without room for the pieces take the bytes that they have room for. -/
theorem appendAll_bytes_of_lt (h : room < (String.join pieces).utf8ByteSize)
    (written : ByteArray) :
    (Sink.bytes written (some room)).appendAll pieces =
      (.bytes (written ++ (String.join pieces).toUTF8.extract 0 room) (some 0),
        some "failed to write whole buffer") := by
  induction pieces generalizing written room with
  | nil => simp at h
  | cons piece rest ih =>
    rw [String.join_cons, String.utf8ByteSize_append] at h
    have hsize : piece.toUTF8.size = piece.utf8ByteSize := String.size_toByteArray
    rw [toUTF8_join_cons, appendAll, append.eq_def]
    by_cases hfits : piece.toUTF8.size ≤ room
    · simp only [hfits, ↓reduceIte]
      rw [ih (by omega), extract_append_of_size_le hfits, ByteArray.append_assoc]
    · simp only [hfits, ↓reduceIte]
      rw [ByteArray.extract_append, Nat.zero_sub, Nat.sub_eq_zero_of_le (Nat.le_of_not_le hfits),
        ByteArray.extract_same, ByteArray.append_empty]

/-- The sink has room for everything. -/
def IsUnlimited : Sink → Prop
  | .text _ => True
  | .pieces _ room => room = none
  | .bytes _ room => room = none

private theorem appendAll_bytes (written : ByteArray) (pieces : List String) :
    (Sink.bytes written none).appendAll pieces =
      (.bytes (written ++ (String.join pieces).toUTF8) none, none) := by
  induction pieces generalizing written with
  | nil => rw [appendAll, String.join_nil, String.toUTF8, String.toByteArray_empty,
      ByteArray.append_empty]
  | cons piece rest ih =>
    rw [appendAll, append.eq_def]
    dsimp only
    rw [ih, toUTF8_join_cons, ByteArray.append_assoc]

private theorem join_append (pieces pieces' : List String) :
    String.join (pieces ++ pieces') = String.join pieces ++ String.join pieces' := by
  induction pieces with
  | nil => simp
  | cons piece rest ih => rw [List.cons_append, String.join_cons, String.join_cons, ih,
      String.append_assoc]

/-- Such a sink takes all pieces, and what it has collected is their text. -/
theorem IsUnlimited.exists_appendAll {sink : Sink} (h : sink.IsUnlimited)
    {pieces pieces' : List String} (hjoin : String.join pieces = String.join pieces') :
    ∃ last last', sink.appendAll pieces = (last, none) ∧ sink.appendAll pieces' = (last', none) ∧
      last.collected = last'.collected := by
  cases sink with
  | text written =>
    exact ⟨_, _, appendAll_text written pieces, appendAll_text written pieces',
      congrArg (written ++ ·) hjoin⟩
  | pieces written room =>
    obtain rfl : room = none := h
    refine ⟨_, _, appendAll_pieces written pieces, appendAll_pieces written pieces', ?_⟩
    simp only [collected, List.reverse_append, List.reverse_reverse, join_append, hjoin]
  | bytes written room =>
    obtain rfl : room = none := h
    refine ⟨_, _, appendAll_bytes written pieces, appendAll_bytes written pieces', ?_⟩
    rw [hjoin]

end Sink

/-! ### Renders -/

/-- The render ended where the sink refused a piece: this is what was written, and this the reason
that is reported. -/
structure Outcome.IsCut {α : Type} (outcome : Outcome α) (sink : Sink) (reason : String) :
    Prop where
  sink_eq : outcome.sink = sink
  reports : ∃ e, outcome.result = .error e ∧ e.IsOutput reason

namespace Template

variable (template : Template) (options : RenderOptions) (files : FileTree) (store : Store)

/-- A render writes some pieces, whatever the sink: it has the same result and leaves the same
variables and store with every sink that takes them, and with every other one it ends where a piece
is refused. -/
theorem exists_pieces :
    ∃ (pieces : List String) (result : Except TemplateError Unit) (resolver : Resolver)
      (store' : Store),
      (∀ piece ∈ pieces, piece ≠ "") ∧
      (∀ sink sink', sink.appendAll pieces = (sink', none) →
        template.renderInto options files store sink = ⟨result, sink', resolver, store'⟩) ∧
      ∀ sink sink' reason, sink.appendAll pieces = (sink', some reason) →
        (template.renderInto options files store sink).IsCut sink' reason := by
  obtain ⟨pieces, result, t, hwrites⟩ := Level.related_runPart congruence_emits
    (Level.related_above congruence_emits (options.setting files) options.maxDepth) template .whole
    (options.initial template store .collector)
  refine ⟨pieces, result, t.resolver, t.store, hwrites.ne_empty, fun sink sink' hsink => ?_,
    fun sink sink' reason hsink => ?_⟩
  · have hrun : ((options.level files).runPart template .whole).run.run
        (options.initial template store sink) = (result, { t with sink := sink' }) :=
      hwrites.taken hsink
    rw [renderInto, RenderM.outcome, hrun]
  · obtain ⟨e, t', hrun, ht', houtput⟩ := hwrites.refused hsink
    have hrun : ((options.level files).runPart template .whole).run.run
        (options.initial template store sink) = (.error e, t') := hrun
    rw [renderInto, RenderM.outcome, hrun]
    exact ⟨ht', e, rfl, houtput⟩

/-- What a render leaves in each sink. A list takes every piece, or as many as it has room for;
bytes take those of all pieces, or as many as they have room for; and a text takes all of them.
Where something does not fit, the render reports the failure of the sink, and otherwise the sink
makes no difference. -/
theorem renderInto_cut :
    ∃ (pieces : List String) (result : Except TemplateError Unit) (resolver : Resolver)
      (store' : Store),
      (∀ piece ∈ pieces, piece ≠ "") ∧
      template.renderInto options files store (.pieces [] none) =
        ⟨result, .pieces pieces.reverse none, resolver, store'⟩ ∧
      (∀ room, pieces.length ≤ room →
        template.renderInto options files store (.pieces [] (some room)) =
          ⟨result, .pieces pieces.reverse (some (room - pieces.length)), resolver, store'⟩) ∧
      (∀ room, room < pieces.length →
        (template.renderInto options files store (.pieces [] (some room))).IsCut
          (.pieces (pieces.take room).reverse (some 0)) "sink full") ∧
      (∀ room, (String.join pieces).utf8ByteSize ≤ room →
        template.renderInto options files store (.bytes .empty (some room)) =
          ⟨result, .bytes (String.join pieces).toUTF8
            (some (room - (String.join pieces).utf8ByteSize)), resolver, store'⟩) ∧
      (∀ room, room < (String.join pieces).utf8ByteSize →
        (template.renderInto options files store (.bytes .empty (some room))).IsCut
          (.bytes ((String.join pieces).toUTF8.extract 0 room) (some 0))
          "failed to write whole buffer") ∧
      template.renderText options files store =
        ⟨result.map fun _ => String.join pieces, .text (String.join pieces), resolver, store'⟩ := by
  obtain ⟨pieces, result, resolver, store', hnonempty, htaken, hrefused⟩ :=
    template.exists_pieces options files store
  refine ⟨pieces, result, resolver, store', hnonempty, htaken _ _ ?_,
    fun room hfits => htaken _ _ ?_,
    fun room hfull => hrefused _ _ _ ?_, fun room hfits => htaken _ _ ?_,
    fun room hfull => hrefused _ _ _ ?_, ?_⟩
  · rw [Sink.appendAll_pieces, List.append_nil]
  · rw [Sink.appendAll_pieces_of_le hfits, List.append_nil]
  · rw [Sink.appendAll_pieces_of_lt hfull, List.append_nil]
  · rw [Sink.appendAll_bytes_of_le hfits, ByteArray.empty_append]
  · rw [Sink.appendAll_bytes_of_lt hfull, ByteArray.empty_append]
  · have hinto : template.renderInto options files store .collector =
        ⟨result, .text (String.join pieces), resolver, store'⟩ := by
      refine htaken _ _ ?_
      rw [Sink.collector, Sink.appendAll_text, String.empty_append]
    rw [renderText, hinto]
    rfl

end Template

end TextTemplate
