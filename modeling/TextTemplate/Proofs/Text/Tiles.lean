import TextTemplate.Proofs.Grammar.Scan

/-!
# The tiles of a source

The pieces of a source and the second sigils of its escapes follow one another without a gap from
its first byte to its last. Where the escapes are can be said without reading the source from left
to right: wherever an escape starts outside all directives.

## Main definitions

* `Span.Contains`: the bytes of a span.
* `Tile`, `Tiles`: what a stretch of a source is made of.
* `IsSecondSigil`: the second sigils of the escapes outside some spans.

## Main results

* `Tiles.exists_piece_or_skipped_iff`, `Tiles.skipped_notMem`, `Tiles.pairwise_pieces`: every byte
  is in one piece, or else it is skipped.
* `Scans.exists_tiles`: a source that is read to its end is tiled.
-/

namespace TextTemplate

/-! ### Tiles -/

/-- The byte at an offset is in the span. -/
def Span.Contains (span : Span) (offset : Nat) : Prop :=
  span.start ≤ offset ∧ offset < span.stop

instance (span : Span) (offset : Nat) : Decidable (span.Contains offset) :=
  inferInstanceAs (Decidable (_ ∧ _))

/-- The bytes of a piece. -/
def Piece.span : Piece → Span
  | .text span => span
  | .directive d => d.span

/-- A piece of a source, or the second sigil of an escape at its offset. -/
inductive Tile where
  | piece (piece : Piece)
  | skipped (offset : Nat)

namespace Tile

/-- The bytes of a tile. -/
def span : Tile → Span
  | piece p => p.span
  | skipped offset => ⟨offset, offset + 1⟩

def piece? : Tile → Option Piece
  | piece p => some p
  | skipped _ => none

end Tile

/-- The tiles follow one another from one place to another. -/
inductive Tiles : Nat → List Tile → Nat → Prop
  | nil (place : Nat) : Tiles place [] place
  | cons {tile : Tile} {tiles : List Tile} {start stop : Nat} (starts : tile.span.start = start)
      (nonempty : start < tile.span.stop) (rest : Tiles tile.span.stop tiles stop) :
      Tiles start (tile :: tiles) stop

namespace Tiles

variable {start middle stop : Nat} {tiles tiles' : List Tile} {tile : Tile}

private theorem le (h : Tiles start tiles stop) : start ≤ stop := by
  induction h with
  | nil => exact Nat.le_refl _
  | cons _ _ _ ih => omega

theorem append (h : Tiles start tiles middle) (h' : Tiles middle tiles' stop) :
    Tiles start (tiles ++ tiles') stop := by
  induction h with
  | nil => exact h'
  | cons hstarts hnonempty _ ih => exact .cons hstarts hnonempty (ih h')

/-- A tile is not empty, and lies between the two places. -/
theorem of_mem (h : Tiles start tiles stop) (htile : tile ∈ tiles) :
    start ≤ tile.span.start ∧ tile.span.start < tile.span.stop ∧ tile.span.stop ≤ stop := by
  induction h with
  | nil => cases htile
  | cons hstarts hnonempty hrest ih =>
    have hle := hrest.le
    rcases List.mem_cons.1 htile with rfl | htile
    · omega
    · have := ih htile
      omega

private theorem pairwise (h : Tiles start tiles stop) :
    tiles.Pairwise fun a b => a.span.stop ≤ b.span.start := by
  induction h with
  | nil => exact .nil
  | cons _ _ hrest ih => exact .cons (fun _ hb => (hrest.of_mem hb).1) ih

/-- Every byte is in one tile only. -/
theorem eq_of_contains (h : Tiles start tiles stop) (htile : tile ∈ tiles) {tile' : Tile}
    (htile' : tile' ∈ tiles) {offset : Nat} (hcontains : tile.span.Contains offset)
    (hcontains' : tile'.span.Contains offset) : tile = tile' := by
  induction h with
  | nil => cases htile
  | cons _ _ hrest ih =>
    have hlt := hcontains.2
    have hlt' := hcontains'.2
    have hle := hcontains.1
    have hle' := hcontains'.1
    rcases List.mem_cons.1 htile with rfl | hlater <;>
      rcases List.mem_cons.1 htile' with rfl | hlater'
    · rfl
    · have hbehind := (hrest.of_mem hlater').1
      omega
    · have hbehind := (hrest.of_mem hlater).1
      omega
    · exact ih hlater hlater'

theorem mem_filterMap_piece? {piece : Piece} :
    piece ∈ tiles.filterMap Tile.piece? ↔ .piece piece ∈ tiles := by
  rw [List.mem_filterMap]
  constructor
  · rintro ⟨_ | _, htile, hpiece⟩
    · cases hpiece
      exact htile
    · cases hpiece
  · exact fun htile => ⟨_, htile, rfl⟩

/-- A piece among tiles is not empty, and lies between the two places. -/
theorem of_mem_pieces (h : Tiles start tiles stop) {piece : Piece}
    (hpiece : piece ∈ tiles.filterMap Tile.piece?) :
    start ≤ piece.span.start ∧ piece.span.start < piece.span.stop ∧ piece.span.stop ≤ stop :=
  h.of_mem (mem_filterMap_piece?.1 hpiece)

theorem pairwise_pieces (h : Tiles start tiles stop) :
    (tiles.filterMap Tile.piece?).Pairwise fun a b => a.span.stop ≤ b.span.start := by
  rw [List.pairwise_filterMap]
  refine h.pairwise.imp fun {a b} hab p hp q hq => ?_
  cases a <;> cases hp
  cases b <;> cases hq
  exact hab

/-- The bytes of the tiles are those between the two places. -/
theorem exists_contains_iff (h : Tiles start tiles stop) (offset : Nat) :
    (∃ tile ∈ tiles, tile.span.Contains offset) ↔ start ≤ offset ∧ offset < stop := by
  constructor
  · rintro ⟨tile, htile, hoffset⟩
    have hbounds := h.of_mem htile
    exact ⟨Nat.le_trans hbounds.1 hoffset.1, Nat.lt_of_lt_of_le hoffset.2 hbounds.2.2⟩
  · intro hoffset
    induction h with
    | nil => omega
    | @cons tile _ start _ hstarts _ _ ih =>
      by_cases hlt : offset < tile.span.stop
      · exact ⟨tile, List.mem_cons_self, by omega, hlt⟩
      · obtain ⟨tile', htile', hcontains⟩ := ih ⟨Nat.le_of_not_lt hlt, hoffset.2⟩
        exact ⟨tile', List.mem_cons_of_mem _ htile', hcontains⟩

/-- Every byte is in a piece or skipped. -/
theorem exists_piece_or_skipped_iff (h : Tiles start tiles stop) (offset : Nat) :
    ((∃ piece, .piece piece ∈ tiles ∧ piece.span.Contains offset) ∨ .skipped offset ∈ tiles) ↔
      start ≤ offset ∧ offset < stop := by
  rw [← h.exists_contains_iff]
  constructor
  · rintro (⟨piece, hpiece, hcontains⟩ | hskipped)
    · exact ⟨_, hpiece, hcontains⟩
    · exact ⟨_, hskipped, Nat.le_refl _, Nat.lt_succ_self _⟩
  · rintro ⟨piece | skipped, htile, hcontains⟩
    · exact .inl ⟨piece, htile, hcontains⟩
    · obtain rfl : skipped = offset := Nat.le_antisymm hcontains.1 (Nat.le_of_lt_succ hcontains.2)
      exact .inr htile

/-- No byte of a piece is skipped. -/
theorem skipped_notMem (h : Tiles start tiles stop) {piece : Piece} (hpiece : .piece piece ∈ tiles)
    {offset : Nat} (hcontains : piece.span.Contains offset) : .skipped offset ∉ tiles := by
  intro hskipped
  have heq := h.eq_of_contains hpiece hskipped hcontains ⟨Nat.le_refl _, Nat.lt_succ_self _⟩
  cases heq

/-- The piece of text between two places tiles them. -/
theorem of_textPiece (h : start ≤ stop) : Tiles start ((textPiece start stop).map .piece) stop := by
  rw [textPiece]
  split_ifs with hlt
  · exact .cons rfl hlt (.nil stop)
  · obtain rfl : start = stop := Nat.le_antisymm h (Nat.le_of_not_lt hlt)
    exact .nil start

end Tiles

/-! ### Escapes -/

/-- The byte at an offset is the second sigil of an escape in `cs`, behind the text `before` and
outside these spans. -/
def IsSecondSigil (spans : List Span) (before cs : List Char) (offset : Nat) : Prop :=
  ∃ between rest, cs = between ++ rest ∧ IsEscape rest ∧
    (∀ span ∈ spans, ¬span.Contains (byteLength (before ++ between))) ∧
    offset = byteLength (before ++ between) + 1

theorem utf8Size_of_isSigil {c : Char} (h : isSigil c = true) : c.utf8Size = 1 := by
  rw [isSigil, Bool.or_eq_true, beq_iff_eq, beq_iff_eq] at h
  rcases h with rfl | rfl <;> rfl

section Escapes

variable {spans : List Span} {before cs : List Char} {offset : Nat}

private theorem not_isSecondSigil_nil : ¬IsSecondSigil spans before [] offset := by
  rintro ⟨between, rest, hcs, hescape, -⟩
  obtain ⟨rfl, rfl⟩ := List.append_eq_nil_iff.1 hcs.symm
  cases hescape

/-- Where no escape starts, the next one starts behind the character. -/
theorem isSecondSigil_cons_iff {c : Char} (h : ¬IsEscape (c :: cs)) :
    IsSecondSigil spans before (c :: cs) offset ↔
      IsSecondSigil spans (before ++ [c]) cs offset := by
  constructor
  · rintro ⟨between, rest, hcs, hrest, houtside, hoffset⟩
    cases between with
    | nil =>
      obtain rfl : c :: cs = rest := hcs
      exact absurd hrest h
    | cons d between =>
      obtain ⟨rfl, rfl⟩ := List.cons.inj hcs
      exact ⟨between, rest, rfl, hrest, by simpa using houtside, by simpa using hoffset⟩
  · rintro ⟨between, rest, rfl, hrest⟩
    exact ⟨c :: between, rest, rfl, by simpa using hrest⟩

/-- Where an escape starts outside the spans, the next one starts behind both sigils. -/
theorem isSecondSigil_escape_iff {sigil : Char} (h : IsEscape (sigil :: sigil :: cs))
    (houtside : ∀ span ∈ spans, ¬span.Contains (byteLength before)) :
    IsSecondSigil spans before (sigil :: sigil :: cs) offset ↔
      offset = byteLength before + 1 ∨
        IsSecondSigil spans (before ++ [sigil, sigil]) cs offset := by
  constructor
  · rintro ⟨between, rest, hcs, hrest⟩
    cases between with
    | nil => exact .inl (by simpa using hrest.2.2)
    | cons c between =>
      obtain ⟨rfl, hbetween⟩ := List.cons.inj hcs
      have hsecond : IsSecondSigil spans (before ++ [sigil]) (sigil :: cs) offset :=
        ⟨between, rest, hbetween, by simpa using hrest⟩
      rw [isSecondSigil_cons_iff h.not_isEscape_tail] at hsecond
      exact .inr (by simpa using hsecond)
  · rintro (rfl | ⟨between, rest, rfl, hrest⟩)
    · exact ⟨[], _, rfl, h, by simpa using houtside, by simp⟩
    · exact ⟨sigil :: sigil :: between, rest, rfl, by simpa using hrest⟩

/-- No escape starts in a text that one of the spans covers. -/
theorem isSecondSigil_append_iff {text : List Char} :
    IsSecondSigil (⟨byteLength before, byteLength (before ++ text)⟩ :: spans) before (text ++ cs)
        offset ↔
      IsSecondSigil spans (before ++ text) cs offset := by
  constructor
  · rintro ⟨between, rest, hcs, hrest, houtside, hoffset⟩
    have hle : byteLength text ≤ byteLength between := by
      have hcovered := houtside _ List.mem_cons_self
      simp only [Span.Contains, byteLength_append] at hcovered
      omega
    -- The escape cannot start within the text, so that it starts in what stands behind it.
    obtain ⟨more, rfl, rfl⟩ : ∃ more, between = text ++ more ∧ cs = more ++ rest := by
      rcases List.append_eq_append_iff.1 hcs with ⟨more, hbetween, hmore⟩ | ⟨more, htext, hmore⟩
      · exact ⟨more, hbetween, hmore⟩
      · cases more with
        | nil => exact ⟨[], by rw [htext, List.append_nil, List.append_nil], hmore.symm⟩
        | cons c more =>
          have hpos := c.utf8Size_pos
          rw [htext, byteLength_append, byteLength_cons] at hle
          omega
    refine ⟨more, rest, rfl, hrest, fun span hspan => ?_, by simpa using hoffset⟩
    rw [List.append_assoc]
    exact houtside span (List.mem_cons_of_mem _ hspan)
  · rintro ⟨between, rest, rfl, hrest, houtside, hoffset⟩
    rw [List.append_assoc] at houtside hoffset
    refine ⟨text ++ between, rest, (List.append_assoc ..).symm, hrest, ?_, hoffset⟩
    intro span hspan
    rcases List.mem_cons.1 hspan with rfl | hspan
    · simp only [Span.Contains, byteLength_append]
      omega
    · exact houtside span hspan

end Escapes

/-! ### Reading -/

/-- The spans of the directives among pieces. -/
def directiveSpans (pieces : List Piece) : List Span :=
  pieces.filterMap fun
    | .text _ => none
    | .directive d => some d.span

private theorem mem_directiveSpans {pieces : List Piece} {span : Span} :
    span ∈ directiveSpans pieces ↔ ∃ d, .directive d ∈ pieces ∧ d.span = span := by
  rw [directiveSpans, List.mem_filterMap]
  constructor
  · rintro ⟨_ | d, hpiece, hspan⟩
    · cases hspan
    · exact ⟨d, hpiece, Option.some.inj hspan⟩
  · rintro ⟨d, hd, rfl⟩
    exact ⟨_, hd, rfl⟩

private theorem directiveSpans_textPiece_append (start stop : Nat) (pieces : List Piece) :
    directiveSpans (textPiece start stop ++ pieces) = directiveSpans pieces := by
  rw [textPiece]
  split_ifs <;> rfl

private theorem filterMap_piece?_map_piece (pieces : List Piece) :
    (pieces.map Tile.piece).filterMap Tile.piece? = pieces := by
  rw [List.filterMap_map]
  exact List.filterMap_some

private theorem skipped_mem_map_piece_append_iff {offset : Nat} {pieces : List Piece}
    {tiles : List Tile} :
    .skipped offset ∈ pieces.map .piece ++ tiles ↔ .skipped offset ∈ tiles := by
  simp

/-- No directive among tiles reaches in front of the first of them. -/
theorem Tiles.not_contains_of_lt {start stop offset : Nat} {tiles : List Tile}
    (h : Tiles start tiles stop) (hlt : offset < start) :
    ∀ span ∈ directiveSpans (tiles.filterMap Tile.piece?), ¬span.Contains offset := by
  intro span hspan hcontains
  obtain ⟨d, hd, rfl⟩ := mem_directiveSpans.1 hspan
  have hstart : start ≤ d.span.start := (h.of_mem_pieces hd).1
  have hle := hcontains.1
  omega

/-- What is read to its end is tiled by its pieces and by the second sigils of the escapes outside
its directives. -/
theorem Scans.exists_tiles {start : Nat} {before cs : List Char} {outline : Outline}
    (h : Scans start before cs outline) (hterminated : outline.unterminated = none)
    (hstart : start ≤ byteLength before) :
    ∃ tiles, Tiles start tiles (byteLength (before ++ cs)) ∧
      tiles.filterMap Tile.piece? = outline.pieces ∧
      ∀ offset, .skipped offset ∈ tiles ↔
        IsSecondSigil (directiveSpans outline.pieces) before cs offset := by
  induction h with
  | @done start before =>
    refine ⟨(textPiece start (byteLength before)).map .piece, ?_, filterMap_piece?_map_piece _,
      fun offset => iff_of_false (by simp) not_isSecondSigil_nil⟩
    rw [List.append_nil]
    exact .of_textPiece hstart
  | @literal start before cs c outline hescape hhead _ ih =>
    obtain ⟨tiles, htiles, hpieces, hskipped⟩ := ih hterminated (by
      rw [byteLength_append]
      omega)
    exact ⟨tiles, by simpa using htiles, hpieces, fun offset =>
      (hskipped offset).trans (isSecondSigil_cons_iff hescape).symm⟩
  | @escape start before cs sigil outline hescape _ ih =>
    have hsize : sigil.utf8Size = 1 := by
      obtain ⟨hhead⟩ := hescape
      exact utf8Size_of_isSigil hhead.isSigil
    have hkept : byteLength (before ++ [sigil]) = byteLength before + 1 := by
      rw [byteLength_append, byteLength_cons, byteLength_nil, hsize]
    have hboth : byteLength (before ++ [sigil, sigil]) = byteLength before + 2 := by
      rw [byteLength_append, byteLength_cons, byteLength_cons, byteLength_nil, hsize]
    obtain ⟨tiles, htiles, hpieces, hskipped⟩ := ih hterminated (Nat.le_refl _)
    refine ⟨(textPiece start (byteLength (before ++ [sigil]))).map .piece ++
      .skipped (byteLength before + 1) :: tiles, ?_, ?_, fun offset => ?_⟩
    · refine (Tiles.of_textPiece (by omega)).append
        (.cons hkept.symm (by simp [hkept, Tile.span]) ?_)
      rw [List.append_assoc, hboth] at htiles
      exact htiles
    · rw [List.filterMap_append, filterMap_piece?_map_piece, List.filterMap_cons]
      exact congrArg _ hpieces
    · have houtside :
          ∀ span ∈ directiveSpans outline.pieces, ¬span.Contains (byteLength before) := by
        rw [← hpieces]
        exact htiles.not_contains_of_lt (by omega)
      rw [skipped_mem_map_piece_append_iff, List.mem_cons, Tile.skipped.injEq, hskipped,
        Outline.prepend, directiveSpans_textPiece_append, isSecondSigil_escape_iff hescape houtside]
  | @directive start before name body cs sigil outline hescape hhead hbalanced _ ih =>
    obtain ⟨tiles, htiles, hpieces, hskipped⟩ := ih hterminated (Nat.le_refl _)
    let d := directiveAt before sigil name body
    let text := sigil :: name ++ '{' :: body ++ ['}']
    have hspan : d.span = ⟨byteLength before, byteLength (before ++ text)⟩ := by
      simp [d, text, directiveAt]
    have hlt : byteLength before < byteLength (before ++ text) := by
      have hpos := sigil.utf8Size_pos
      simp only [text, List.cons_append, byteLength_append, byteLength_cons]
      omega
    refine ⟨(textPiece start (byteLength before)).map .piece ++ .piece (.directive d) :: tiles, ?_,
      ?_, fun offset => ?_⟩
    · refine (Tiles.of_textPiece hstart).append (.cons ?_ ?_ ?_)
      · exact congrArg Span.start hspan
      · change byteLength before < d.span.stop
        rwa [hspan]
      · change Tiles d.span.stop _ _
        rw [hspan]
        simpa [text] using htiles
    · rw [List.filterMap_append, filterMap_piece?_map_piece, List.filterMap_cons]
      simp [Tile.piece?, hpieces, Outline.prepend, d]
    · have hcs : sigil :: (name ++ '{' :: (body ++ '}' :: cs)) = text ++ cs := by simp [text]
      have hspans : directiveSpans (Outline.prepend (textPiece start (byteLength before) ++
          [.directive d]) outline).pieces = d.span :: directiveSpans outline.pieces := by
        rw [Outline.prepend, List.append_assoc, directiveSpans_textPiece_append]
        rfl
      rw [skipped_mem_map_piece_append_iff, List.mem_cons, or_iff_right Tile.noConfusion, hskipped,
        hspans, hspan, hcs, isSecondSigil_append_iff]
      simp [text]
  | unterminated => cases hterminated

end TextTemplate
