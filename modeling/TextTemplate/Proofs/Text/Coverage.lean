import TextTemplate.Proofs.Grammar.Acceptance
import TextTemplate.Proofs.Text.Tiles

/-!
# What the nodes of a template cover

No byte of a source is lost and none belongs to two nodes. Text is held back across comments and
escapes, so that the nodes do not come in the order in which the source was read; but all spans of
text are kept, in order, and so are all directives.

## Main definitions

* `Node.textSpans`, `Node.directiveSpan?`: what a node covers.
* `Program.textSpans`, `Program.directiveSpans`, `Program.IsSecondSigil`: what a program covers, and
  the second sigils of its escapes.
* `Imprint`: what nodes cover and where they start, read off the phrases of the source.

## Main results

* `Body.Derives.map_imprint_layout`: the nodes of a body have the imprints of its phrases.
* `joinTexts_starts_sublist`: joining texts puts no phrase in front of an earlier one.
* `Program.coverage`: the texts, the directives and the second sigils make up the source.
-/

namespace TextTemplate

/-! ### What nodes cover -/

/-- The literal text of a node. -/
def Node.textSpans (node : Node) : List Span :=
  match node.kind with
  | .text spans => spans
  | _ => []

/-- The directive of a node. That of a branch belongs to the node that opens the branch, and not to
the one in front of it, which closes the branch before. -/
def Node.directiveSpan? (node : Node) : Option Span :=
  match node.kind with
  | .text _ | .finish => none
  | .action _ | .block .. => some node.span
  | .terminal => if node.name = "end" then some node.span else none

namespace Program

/-- The spans of the literal text of a program, node by node. -/
def textSpans (program : Program) : List Span :=
  program.nodes.toList.flatMap Node.textSpans

/-- The spans of the directives of a program. -/
def directiveSpans (program : Program) : List Span :=
  program.nodes.toList.filterMap Node.directiveSpan?

/-- The byte at an offset is the second sigil of an escape outside the directives. -/
def IsSecondSigil (program : Program) (offset : Nat) : Prop :=
  TextTemplate.IsSecondSigil program.directiveSpans [] program.source.toList offset

end Program

/-- No byte is in both spans. -/
def Span.Disjoint (a b : Span) : Prop :=
  ∀ offset, a.Contains offset → ¬b.Contains offset

private theorem Span.disjoint_of_le {a b : Span} (h : a.stop ≤ b.start) : a.Disjoint b := by
  intro offset ha hb
  have := ha.2
  have := hb.1
  omega

theorem Span.Disjoint.symm {a b : Span} (h : a.Disjoint b) : b.Disjoint a :=
  fun offset hb ha => h offset ha hb

/-! ### Imprints -/

/-- The texts and the directive of a node, and where it starts. -/
structure Imprint where
  texts : List Span
  directive? : Option Span
  start : Nat

def Node.imprint (node : Node) : Imprint :=
  ⟨node.textSpans, node.directiveSpan?, node.span.start⟩

/-- The imprint of a directive. -/
def Directive.imprint (d : Directive) : Imprint :=
  ⟨[], some d.span, d.span.start⟩

/-- Where a phrase starts. -/
def Phrase.start : Phrase → Nat
  | .text spans => (textNode spans).span.start
  | .directive d => d.span.start

/-- The imprints of the nodes of a phrase: a directive that goes on with a branch stands for two
nodes, the first of which closes the branch before it. -/
def Phrase.imprints : Phrase → List Imprint
  | .text spans => [⟨spans, none, (textNode spans).span.start⟩]
  | .directive d =>
    if d.name = "else" ∨ d.name = "elseif" then [⟨[], none, d.span.start⟩, d.imprint]
    else [d.imprint]

section Derivation

variable {compiler : Compiler} {source : String}

/-- A directive that goes on with no branch leaves one imprint. -/
theorem Directive.imprints_of_reads {d : Directive} {role : Role}
    (h : d.Reads compiler source role) (hrole : role ≠ .goesOn) :
    (Phrase.directive d).imprints = [d.imprint] := by
  have hname : ¬(d.name = "else" ∨ d.name = "elseif") := by
    intro hname
    have hgoesOn : d.role compiler source = .ok .goesOn := Directive.role_of_goesOn hname
    exact hrole (Except.ok.inj ((Directive.role_eq_ok_iff.2 h).symm.trans hgoesOn))
  rw [Phrase.imprints, if_neg hname]

private theorem Directive.imprint_terminal (d : Directive) (next : Nat) :
    ((d.node .terminal).followedBy next).imprint =
      ⟨[], if d.name = "end" then some d.span else none, d.span.start⟩ :=
  rfl

mutual

/-- The nodes of a body have the imprints of its phrases. -/
theorem Body.Derives.map_imprint_layout {phrases : List Phrase} {body : Body} (place : Nat) :
    body.Derives compiler source phrases →
      (body.layout place).map Node.imprint = phrases.flatMap Phrase.imprints
  | .done => rfl
  | .text hrest => by
    rw [Body.layout, List.map_cons, hrest.map_imprint_layout]
    rfl
  | .action hreads hrest => by
    rw [Body.layout, List.map_cons, hrest.map_imprint_layout, List.flatMap_cons,
      Directive.imprints_of_reads hreads nofun]
    rfl
  | .block hreads hblock hrest => by
    rw [Body.layout, List.map_cons, List.map_append, hrest.map_imprint_layout,
      hblock.map_imprint_layout, List.flatMap_cons, List.flatMap_append,
      Directive.imprints_of_reads hreads nofun]
    rfl

/-- So have the nodes of the rest of a block. -/
theorem Branches.Derives.map_imprint_layout {opener opener' : Opener} {phrases : List Phrase}
    {body : Body} {branches : Branches} : ∀ place terminus after : Nat,
    Branches.Derives compiler source opener phrases opener' body branches →
      (body.layout place ++ branches.layout terminus after).map Node.imprint =
        phrases.flatMap Phrase.imprints
  | _, _, _, .closed (d := d) hbody hreads _ => by
    have hname : d.name = "end" := Directive.names_of_reads hreads
    rw [List.map_append, hbody.map_imprint_layout, List.flatMap_append, List.flatMap_cons,
      Directive.imprints_of_reads hreads nofun, Branches.layout, List.map_cons,
      Directive.imprint_terminal, if_pos hname]
    rfl
  | _, _, _, .branch (d := d) hbody hreads _ hmore => by
    have hname : d.name = "else" ∨ d.name = "elseif" := Directive.names_of_reads hreads
    have hend : d.name ≠ "end" := by
      rcases hname with hname | hname <;> rw [hname] <;> decide
    rw [List.map_append, hbody.map_imprint_layout, Branches.layout, List.map_cons, List.map_cons,
      hmore.map_imprint_layout, List.flatMap_append, List.flatMap_cons, Phrase.imprints,
      if_pos hname, Directive.imprint_terminal, if_neg hend]
    rfl

end

end Derivation

/-! ### Texts and directives -/

/-- The spans of text among pieces. -/
def textSpans (pieces : List Piece) : List Span :=
  pieces.filterMap fun
    | .text span => some span
    | .directive _ => none

/-- Every piece is a text or a directive. -/
theorem perm_map_span (pieces : List Piece) :
    (textSpans pieces ++ directiveSpans pieces).Perm (pieces.map Piece.span) := by
  induction pieces with
  | nil => exact .nil
  | cons piece pieces ih =>
    cases piece with
    | text span => exact ih.cons span
    | directive d => exact List.perm_middle.trans (ih.cons d.span)

namespace Phrase

/-- The spans of text of a phrase. -/
def texts : Phrase → List Span
  | text spans => spans
  | directive _ => []

/-- The span of the directive of a phrase. -/
def directiveSpan? : Phrase → Option Span
  | text _ => none
  | directive d => some d.span

private theorem flatMap_texts_imprints (phrase : Phrase) :
    phrase.imprints.flatMap Imprint.texts = phrase.texts := by
  cases phrase with
  | text spans => exact List.append_nil spans
  | directive d =>
    rw [imprints]
    split_ifs <;> rfl

private theorem filterMap_directive?_imprints (phrase : Phrase) :
    phrase.imprints.filterMap Imprint.directive? = phrase.directiveSpan?.toList := by
  cases phrase with
  | text spans => rfl
  | directive d =>
    rw [imprints]
    split_ifs <;> rfl

private theorem start_of_mem_imprints {phrase : Phrase} {imprint : Imprint}
    (h : imprint ∈ phrase.imprints) : imprint.start = phrase.start := by
  cases phrase with
  | text spans =>
    obtain rfl := List.mem_singleton.1 h
    rfl
  | directive d =>
    rw [imprints] at h
    split_ifs at h
    · simp only [List.mem_cons, List.not_mem_nil, or_false] at h
      rcases h with rfl | rfl <;> rfl
    · obtain rfl := List.mem_singleton.1 h
      rfl

end Phrase

/-! ### Joining texts -/

section JoinTexts

variable (spans : List Span) (comments : List Directive)

private theorem flatMap_texts_heldBack :
    (heldBack spans comments).flatMap Phrase.texts = spans.reverse := by
  have hcomments : (comments.reverse.map Phrase.directive).flatMap Phrase.texts = [] := by
    rw [List.flatMap_map, List.flatMap_eq_nil_iff]
    exact fun _ _ => rfl
  rw [heldBack, List.flatMap_append, hcomments, List.append_nil]
  split_ifs with hspans
  · rw [hspans]
    rfl
  · exact List.append_nil _

private theorem filterMap_directiveSpan?_heldBack :
    (heldBack spans comments).filterMap Phrase.directiveSpan? =
      comments.reverse.map Directive.span := by
  have hcomments : (comments.reverse.map Phrase.directive).filterMap Phrase.directiveSpan? =
      comments.reverse.map Directive.span := by
    rw [List.filterMap_map, ← List.filterMap_eq_map]
    rfl
  rw [heldBack, List.filterMap_append, hcomments]
  split_ifs <;> rfl

variable {spans comments}

/-- Joining texts keeps all of them, in order. -/
theorem flatMap_texts_joinTexts (pieces : List Piece) (spans : List Span)
    (comments : List Directive) :
    (joinTexts spans comments pieces).flatMap Phrase.texts = spans.reverse ++ textSpans pieces := by
  induction pieces generalizing spans comments with
  | nil => rw [joinTexts, flatMap_texts_heldBack, textSpans, List.filterMap_nil, List.append_nil]
  | cons piece pieces ih =>
    cases piece with
    | text span =>
      rw [joinTexts, ih, List.reverse_cons, List.append_assoc]
      rfl
    | directive d =>
      rw [joinTexts]
      split_ifs
      · exact ih spans (d :: comments)
      · rw [List.flatMap_append, flatMap_texts_heldBack, List.flatMap_cons, ih]
        rfl

/-- Joining texts keeps all directives, in order. -/
theorem filterMap_directiveSpan?_joinTexts (pieces : List Piece) (spans : List Span)
    (comments : List Directive) :
    (joinTexts spans comments pieces).filterMap Phrase.directiveSpan? =
      comments.reverse.map Directive.span ++ directiveSpans pieces := by
  induction pieces generalizing spans comments with
  | nil =>
    rw [joinTexts, filterMap_directiveSpan?_heldBack, directiveSpans, List.filterMap_nil,
      List.append_nil]
  | cons piece pieces ih =>
    cases piece with
    | text span => exact ih (span :: spans) comments
    | directive d =>
      rw [joinTexts]
      split_ifs
      · rw [ih, List.reverse_cons, List.map_append, List.append_assoc]
        rfl
      · rw [List.filterMap_append, filterMap_directiveSpan?_heldBack, List.filterMap_cons, ih]
        rfl

/-- A text starts with its first span, whatever it goes on with. -/
theorem starts_heldBack_cons (span : Span) (h : spans = [] → comments = []) :
    ((heldBack (span :: spans) comments).map Phrase.start).Sublist
      ((heldBack spans comments).map Phrase.start ++ [span.start]) := by
  cases spans with
  | nil =>
    rw [h rfl]
    exact .refl _
  | cons first spans =>
    have hstart : (textNode (span :: first :: spans).reverse).span.start =
        (textNode (first :: spans).reverse).span.start := by
      rw [List.reverse_cons (a := span)]
      simp only [textNode, List.head?_append]
      rw [List.head?_reverse]
      rfl
    rw [heldBack, heldBack, if_neg (List.cons_ne_nil _ _), if_neg (List.cons_ne_nil _ _),
      List.map_append, List.map_append, List.map_singleton, List.map_singleton, Phrase.start,
      Phrase.start, hstart]
    exact List.sublist_append_left _ _

/-- Joining texts puts no phrase in front of an earlier one: the phrases start where pieces start,
in the same order. Comments are held back behind a text only. -/
theorem joinTexts_starts_sublist (pieces : List Piece) (spans : List Span)
    (comments : List Directive) (h : spans = [] → comments = []) :
    ((joinTexts spans comments pieces).map Phrase.start).Sublist
      ((heldBack spans comments).map Phrase.start ++ pieces.map (·.span.start)) := by
  induction pieces generalizing spans comments with
  | nil => rw [joinTexts, List.map_nil, List.append_nil]
  | cons piece pieces ih =>
    cases piece with
    | text span =>
      rw [joinTexts]
      have hmore := ih (span :: spans) comments fun hspans => absurd hspans (List.cons_ne_nil _ _)
      refine hmore.trans ?_
      rw [List.map_cons, List.append_cons]
      exact (starts_heldBack_cons span h).append_right _
    | directive d =>
      rw [joinTexts]
      split_ifs with hcomment
      · have hmore := ih spans (d :: comments) fun hspans => absurd hspans hcomment.2
        have hheld :
            heldBack spans (d :: comments) = heldBack spans comments ++ [.directive d] := by
          rw [heldBack, heldBack, List.reverse_cons, List.map_append, List.append_assoc]
          rfl
        rw [hheld, List.map_append, List.append_assoc] at hmore
        exact hmore
      · rw [List.map_append, List.map_cons]
        exact ((ih [] [] fun _ => rfl).cons_cons _).append_left _

end JoinTexts

/-! ### Places in a source -/

/-- The offset is that of a place between two characters. -/
def Cuts (source : List Char) (offset : Nat) : Prop :=
  ∃ before after, source = before ++ after ∧ byteLength before = offset

namespace Cuts

variable {before : List Char} {offset : Nat}

theorem zero (source : List Char) : Cuts source 0 :=
  ⟨[], source, rfl, rfl⟩

theorem whole (source : List Char) : Cuts source (byteLength source) :=
  ⟨source, [], (List.append_nil _).symm, rfl⟩

theorem append (h : Cuts before offset) (after : List Char) : Cuts (before ++ after) offset := by
  obtain ⟨front, rest, rfl, hoffset⟩ := h
  exact ⟨front, rest ++ after, List.append_assoc _ _ _, hoffset⟩

end Cuts

/-- Between two characters, the place that is computed from an offset is the one that the text
before it gives. -/
theorem Position.locate_of_append {source : String} {before rest : List Char}
    (h : source.toList = before ++ rest) :
    Position.locate source (byteLength before) = Position.after before := by
  have hsize : byteLength before ≤ source.utf8ByteSize := by
    rw [← byteLength_toList, h, byteLength_append]
    exact Nat.le_add_right _ _
  have hchars : Span.chars source ⟨0, byteLength before⟩ = before := by
    have hwhole : source.toList = [] ++ before ++ rest := h
    have hslice := Span.chars_append hwhole
    rwa [byteLength_nil, Nat.zero_add] at hslice
  rw [locate, Nat.min_eq_left hsize, hchars]
  rfl

private theorem start_of_mem_textPiece {start stop : Nat} {piece : Piece}
    (h : piece ∈ textPiece start stop) : piece.span.start = start := by
  rw [textPiece] at h
  split_ifs at h
  · rw [List.mem_singleton.1 h]
    rfl
  · cases h

/-- Every piece starts between two characters. -/
theorem Scans.cuts_of_mem {start : Nat} {before cs : List Char} {outline : Outline}
    (h : Scans start before cs outline) (hstart : Cuts before start) {piece : Piece}
    (hpiece : piece ∈ outline.pieces) : Cuts (before ++ cs) piece.span.start := by
  induction h with
  | done | unterminated =>
    rw [start_of_mem_textPiece hpiece]
    exact hstart.append _
  | literal _ _ _ ih => simpa using ih (hstart.append _) hpiece
  | escape _ _ ih =>
    obtain hpiece | hpiece := List.mem_append.1 hpiece
    · rw [start_of_mem_textPiece hpiece]
      exact hstart.append _
    · simpa using ih (.whole _) hpiece
  | @directive _ before _ _ _ _ _ _ _ _ _ ih =>
    obtain hpiece | hpiece := List.mem_append.1 hpiece
    · obtain hpiece | hpiece := List.mem_append.1 hpiece
      · rw [start_of_mem_textPiece hpiece]
        exact hstart.append _
      · rw [List.mem_singleton.1 hpiece]
        exact (Cuts.whole before).append _
    · simpa using ih (.whole _) hpiece

/-! ### Programs -/

section Programs

variable {compiler : Compiler} {source : String} {program : Program}

/-- A program has the imprints of the phrases of its source, and that of its end. -/
theorem Program.map_imprint_nodes (h : Program.compile compiler source = .ok program) :
    program.nodes.toList.map Node.imprint =
      (Outline.ofSource source).phrases.flatMap Phrase.imprints ++
        [⟨[], none, source.utf8ByteSize⟩] := by
  obtain ⟨-, body, hbody, rfl⟩ := compile_eq_ok_iff.1 h
  rw [List.toList_toArray, List.map_append, hbody.map_imprint_layout]
  rfl

/-- The spans of text of a program are those of its source. -/
theorem Program.textSpans_eq (h : Program.compile compiler source = .ok program) :
    program.textSpans = TextTemplate.textSpans (Outline.ofSource source).pieces := by
  have himprints : program.textSpans =
      (program.nodes.toList.map Node.imprint).flatMap Imprint.texts := by
    rw [List.flatMap_map]
    rfl
  have hphrases : (Outline.ofSource source).phrases.flatMap (fun phrase =>
      phrase.imprints.flatMap Imprint.texts) =
        (Outline.ofSource source).phrases.flatMap Phrase.texts := by
    simp only [Phrase.flatMap_texts_imprints]
  rw [himprints, Program.map_imprint_nodes h, List.flatMap_append, List.flatMap_assoc, hphrases,
    Outline.phrases, flatMap_texts_joinTexts]
  exact List.append_nil _

/-- The directives of a program are those of its source. -/
theorem Program.directiveSpans_eq (h : Program.compile compiler source = .ok program) :
    program.directiveSpans = TextTemplate.directiveSpans (Outline.ofSource source).pieces := by
  have himprints : program.directiveSpans =
      (program.nodes.toList.map Node.imprint).filterMap Imprint.directive? := by
    rw [List.filterMap_map]
    rfl
  have hphrases (phrases : List Phrase) :
      (phrases.flatMap Phrase.imprints).filterMap Imprint.directive? =
        phrases.filterMap Phrase.directiveSpan? := by
    induction phrases with
    | nil => rfl
    | cons phrase phrases ih =>
      rw [List.flatMap_cons, List.filterMap_append, ih, Phrase.filterMap_directive?_imprints,
        List.filterMap_cons]
      cases phrase <;> rfl
  rw [himprints, Program.map_imprint_nodes h, List.filterMap_append, hphrases, Outline.phrases,
    filterMap_directiveSpan?_joinTexts]
  exact List.append_nil _

/-- What a program covers is what the pieces of its source cover. -/
theorem Program.perm_spans (h : Program.compile compiler source = .ok program) :
    (program.textSpans ++ program.directiveSpans).Perm
      ((Outline.ofSource source).pieces.map Piece.span) := by
  rw [Program.textSpans_eq h, Program.directiveSpans_eq h]
  exact perm_map_span _

/-- The source of a program is tiled by the pieces of its outline and by the second sigils of its
escapes. -/
theorem Program.exists_tiles (h : Program.compile compiler source = .ok program) :
    ∃ tiles, Tiles 0 tiles source.utf8ByteSize ∧
      tiles.filterMap Tile.piece? = (Outline.ofSource source).pieces ∧
      ∀ offset, .skipped offset ∈ tiles ↔ program.IsSecondSigil offset := by
  have hterminated := (compile_eq_ok_iff.1 h).1
  obtain ⟨tiles, htiles, hpieces, hskipped⟩ :=
    (Outline.ofSource_eq_iff.1 rfl).exists_tiles hterminated (Nat.zero_le _)
  rw [List.nil_append, byteLength_toList] at htiles
  refine ⟨tiles, htiles, hpieces, fun offset => ?_⟩
  rw [hskipped, Program.IsSecondSigil, Program.directiveSpans_eq h, Program.source_of_compile h]

/-- The nodes of a program start one after the other. -/
theorem Program.pairwise_starts (h : Program.compile compiler source = .ok program) :
    (program.nodes.toList.map fun node => node.span.start).Pairwise (· ≤ ·) := by
  obtain ⟨tiles, htiles, hpieces, -⟩ := Program.exists_tiles h
  have hsublist := joinTexts_starts_sublist (Outline.ofSource source).pieces [] [] fun _ => rfl
  have hsorted : ((Outline.ofSource source).phrases.map Phrase.start).Pairwise (· ≤ ·) := by
    refine List.Pairwise.sublist hsublist ?_
    change (List.map _ _).Pairwise _
    rw [← hpieces, List.pairwise_map]
    refine htiles.pairwise_pieces.imp_of_mem fun {a b} ha _ hab => ?_
    have hnonempty := (htiles.of_mem_pieces ha).2.1
    omega
  have hbounded : ∀ start ∈ (Outline.ofSource source).phrases.map Phrase.start,
      start ≤ source.utf8ByteSize := by
    intro start hstart
    obtain ⟨piece, hpiece, rfl⟩ := List.mem_map.1 (hsublist.subset hstart)
    rw [← hpieces] at hpiece
    have hbounds := htiles.of_mem_pieces hpiece
    omega
  have hstarts : (program.nodes.toList.map fun node => node.span.start) =
      (program.nodes.toList.map Node.imprint).map Imprint.start := by
    rw [List.map_map]
    rfl
  rw [List.pairwise_map] at hsorted
  rw [hstarts, Program.map_imprint_nodes h, List.pairwise_map, List.pairwise_append,
    List.pairwise_flatMap]
  refine ⟨⟨fun phrase _ => ?_, hsorted.imp fun {a b} hab => ?_⟩, List.pairwise_singleton _ _, ?_⟩
  · refine List.pairwise_of_forall_mem_list fun x hx y hy => Nat.le_of_eq ?_
    rw [Phrase.start_of_mem_imprints hx, Phrase.start_of_mem_imprints hy]
  · intro x hx y hy
    rwa [Phrase.start_of_mem_imprints hx, Phrase.start_of_mem_imprints hy]
  · intro x hx y hy
    obtain ⟨phrase, hphrase, hx⟩ := List.mem_flatMap.1 hx
    obtain rfl := List.mem_singleton.1 hy
    rw [Phrase.start_of_mem_imprints hx]
    exact hbounded _ (List.mem_map_of_mem hphrase)

/-- The nodes of a program start where a piece of the source starts, or at its end. -/
theorem Program.start_of_mem_nodes (h : Program.compile compiler source = .ok program) {node : Node}
    (hnode : node ∈ program.nodes) : node.span.start = source.utf8ByteSize ∨
      ∃ piece ∈ (Outline.ofSource source).pieces, piece.span.start = node.span.start := by
  have himprint : node.imprint ∈ program.nodes.toList.map Node.imprint :=
    List.mem_map_of_mem (Array.mem_toList_iff.2 hnode)
  rw [Program.map_imprint_nodes h, List.mem_append, List.mem_flatMap, List.mem_singleton]
    at himprint
  obtain ⟨phrase, hphrase, himprint⟩ | himprint := himprint
  · have hsublist := joinTexts_starts_sublist (Outline.ofSource source).pieces [] [] fun _ => rfl
    obtain ⟨piece, hpiece, hstart⟩ := List.mem_map.1 (hsublist.subset (List.mem_map_of_mem hphrase))
    exact .inr ⟨piece, hpiece, hstart.trans (Phrase.start_of_mem_imprints himprint).symm⟩
  · exact .inl (congrArg Imprint.start himprint)

/-- In front of every node there is a part of the source. -/
theorem Program.cuts_start (h : Program.compile compiler source = .ok program) {node : Node}
    (hnode : node ∈ program.nodes) : Cuts source.toList node.span.start := by
  obtain hstart | ⟨piece, hpiece, hstart⟩ := Program.start_of_mem_nodes h hnode
  · rw [hstart, ← byteLength_toList]
    exact .whole _
  · rw [← hstart]
    exact (Outline.ofSource_eq_iff.1 rfl).cuts_of_mem (.zero []) hpiece

/-- The spans of text of a program come in order. -/
theorem Program.pairwise_textSpans (h : Program.compile compiler source = .ok program) :
    program.textSpans.Pairwise fun a b => a.stop ≤ b.start := by
  obtain ⟨tiles, htiles, hpieces, -⟩ := Program.exists_tiles h
  rw [Program.textSpans_eq h, ← hpieces, TextTemplate.textSpans, List.pairwise_filterMap]
  refine htiles.pairwise_pieces.imp fun {a b} hab p hp q hq => ?_
  cases a <;> cases hp
  cases b <;> cases hq
  exact hab

/-- The texts of the nodes of a program, its directives, each counted once, and the second sigils of
its escapes are disjoint and make up the source. The spans of a text are not empty and come in
order, and the nodes start one after the other. -/
theorem Program.coverage (h : Program.compile compiler source = .ok program) :
    (program.textSpans ++ program.directiveSpans).Pairwise Span.Disjoint ∧
    (∀ span ∈ program.textSpans ++ program.directiveSpans, ∀ offset, span.Contains offset →
      ¬program.IsSecondSigil offset) ∧
    (∀ offset, ((∃ span ∈ program.textSpans ++ program.directiveSpans, span.Contains offset) ∨
      program.IsSecondSigil offset) ↔ offset < source.utf8ByteSize) ∧
    (∀ node ∈ program.nodes, (∀ span ∈ node.textSpans, span.start < span.stop) ∧
      node.textSpans.Pairwise fun a b => a.stop ≤ b.start) ∧
    (program.nodes.toList.map fun node => node.span.start).Pairwise (· ≤ ·) := by
  obtain ⟨tiles, htiles, hpieces, hskipped⟩ := Program.exists_tiles h
  have hspans := Program.perm_spans h
  rw [← hpieces] at hspans
  have hmem (span : Span) : span ∈ program.textSpans ++ program.directiveSpans ↔
      ∃ piece, .piece piece ∈ tiles ∧ piece.span = span := by
    simp only [hspans.mem_iff, List.mem_map, Tiles.mem_filterMap_piece?]
  have htexts := Program.pairwise_textSpans h
  rw [Program.textSpans, List.pairwise_flatMap] at htexts
  refine ⟨?_, ?_, fun offset => ?_, fun node hnode => ⟨fun span hspan => ?_, ?_⟩,
    Program.pairwise_starts h⟩
  · rw [hspans.pairwise_iff fun {_ _} => Span.Disjoint.symm, List.pairwise_map]
    exact htiles.pairwise_pieces.imp fun hab => Span.disjoint_of_le hab
  · intro span hspan offset hcontains hsecond
    obtain ⟨piece, hpiece, rfl⟩ := (hmem span).1 hspan
    exact htiles.skipped_notMem hpiece hcontains ((hskipped offset).2 hsecond)
  · have hcovered := htiles.exists_piece_or_skipped_iff offset
    rw [and_iff_right (Nat.zero_le offset), hskipped] at hcovered
    rw [← hcovered]
    simp only [hmem, exists_exists_and_eq_and]
  · have hspan : span ∈ program.textSpans :=
      List.mem_flatMap.2 ⟨node, Array.mem_toList_iff.2 hnode, hspan⟩
    obtain ⟨piece, hpiece, rfl⟩ := (hmem span).1 (List.mem_append_left _ hspan)
    exact (htiles.of_mem hpiece).2.1
  · exact htexts.1 node (Array.mem_toList_iff.2 hnode)

end Programs

/-- A text goes on behind a comment and an escape; the directive of the second branch stands for two
nodes and is counted once. -/
theorem Program.coverage_branch :
    ∃ program, Program.compile ⟨.compiled, []⟩ "a@comment{x}b@@{c}@if{1}d@else{}e@end{}" =
        .ok program ∧
      program.textSpans = [⟨0, 1⟩, ⟨12, 14⟩, ⟨15, 18⟩, ⟨24, 25⟩, ⟨32, 33⟩] ∧
      program.directiveSpans = [⟨1, 12⟩, ⟨18, 24⟩, ⟨25, 32⟩, ⟨33, 39⟩] ∧
      program.IsSecondSigil 14 ∧
      (program.textSpans ++ program.directiveSpans).Pairwise Span.Disjoint := by
  obtain ⟨program, hprogram, hspans⟩ := Attempt.exists_eq_ok_and
    (x := Program.compile ⟨.compiled, []⟩ "a@comment{x}b@@{c}@if{1}d@else{}e@end{}")
    (p := fun program => program.textSpans = [⟨0, 1⟩, ⟨12, 14⟩, ⟨15, 18⟩, ⟨24, 25⟩, ⟨32, 33⟩] ∧
      program.directiveSpans = [⟨1, 12⟩, ⟨18, 24⟩, ⟨25, 32⟩, ⟨33, 39⟩]) (by decide +kernel)
  obtain ⟨htexts, hdirectives⟩ := of_decide_eq_true hspans
  obtain ⟨hdisjoint, -, hcovered, -⟩ := Program.coverage hprogram
  refine ⟨program, hprogram, htexts, hdirectives, ?_, hdisjoint⟩
  -- The byte is in the source and in none of the spans.
  refine ((hcovered 14).2 (by decide +kernel)).resolve_left ?_
  rw [htexts, hdirectives]
  decide

end TextTemplate
