import TextTemplate.Proofs.Script.Parts
import TextTemplate.Proofs.Text.Runs
import TextTemplate.Proofs.Text.Seams

/-!
# Comments between two parts of a source

A comment at a seam of a source leaves the script as it is, with the directives behind the seam
moved by the length of the comment. The texts of the nodes stay the same, also where the comment
stands inside one of them, and there is one node more.

## Main definitions

* `Places.pushed`: offsets that move if they are not in front of a seam.

## Main results

* `Expands.of_directives`: marks of the same items whose directives have moved are carried over.
* `TakesComment.exists_script`: the script of a source with a comment.
* `TakesComment.size_nodes`, `TakesComment.texts_eq`: the nodes of a source with a comment.
-/

namespace TextTemplate

/-- Offsets in front of a seam stay, and the others move by a length. -/
def Places.pushed (seam length : Nat) : Places := fun offset offset' =>
  offset' = if offset < seam then offset else offset + length

/-! ### Directives among marks -/

/-- The directive of a mark. -/
def Mark.directive? : Mark → Option Directive
  | .char _ => none
  | .directive _ d => some d

section Marks

variable {source source' : String} {places : Places}

private theorem filterMap_directive?_map_char (text : List Char) :
    (text.map Mark.char).filterMap Mark.directive? = [] := by
  rw [List.filterMap_map, List.filterMap_eq_nil_iff]
  exact fun _ _ => rfl

/-- Joining texts keeps the directives in their order, but for the comments. -/
theorem filterMap_directive?_joinTexts (pieces : List Piece) (spans : List Span)
    (comments : List Directive) (h : ∀ d ∈ comments, d.name = "comment") (place : Nat) :
    (marks source place (joinTexts spans comments pieces)).filterMap Mark.directive? =
      (pieces.filterMap Piece.directive?).filter (·.name ≠ "comment") := by
  induction pieces generalizing spans comments place with
  | nil => rw [joinTexts, marks_heldBack h, filterMap_directive?_map_char]; rfl
  | cons piece pieces ih =>
    cases piece with
    | text span => exact ih _ _ h _
    | directive d =>
      have hcons : (Piece.directive d :: pieces).filterMap Piece.directive? =
          d :: pieces.filterMap Piece.directive? := rfl
      rw [joinTexts, hcons]
      split_ifs with hcomment
      · rw [ih _ _ (List.forall_mem_cons.2 ⟨hcomment.1, h⟩),
          List.filter_cons_of_neg (by simpa using hcomment.1)]
      · rw [marks_append, marks_heldBack h, marks, List.filterMap_append, List.filterMap_append,
          filterMap_directive?_map_char, ih [] [] (List.forall_mem_nil _), Phrase.marks]
        split_ifs with hname
        · rw [List.filter_cons_of_neg (by simpa using hname)]
          rfl
        · rw [List.filter_cons_of_pos (by simpa using hname)]
          rfl

/-- The directives of the marks of a source are its directives, but for the comments. -/
theorem Outline.filterMap_directive?_marks (source : String) :
    (Outline.marks source).filterMap Mark.directive? =
      (ofSource source).directives.filter (·.name ≠ "comment") :=
  filterMap_directive?_joinTexts _ [] [] (List.forall_mem_nil _) 0

/-- Marks of the same items whose directives have moved are carried over. -/
theorem Expands.of_directives {compiler : Compiler} {inlines : Slot → Script → Prop}
    {ms ms' : List Mark} (h : ms.map (Mark.item source) = ms'.map (Mark.item source'))
    (hmoved : List.Forall₂ (Directive.Moved places source source') (ms.filterMap Mark.directive?)
      (ms'.filterMap Mark.directive?)) :
    Expands compiler places source source' inlines ms ms' := by
  induction ms generalizing ms' with
  | nil =>
    rw [List.map_nil, eq_comm, List.map_eq_nil_iff] at h
    subst h
    exact .nil
  | cons mark ms ih =>
    obtain ⟨mark', ms', rfl, hmark, hms⟩ := List.map_eq_cons_iff.1 h.symm
    cases mark with
    | char c =>
      cases mark' with
      | char c' =>
        cases hmark
        exact .char c (ih hms.symm hmoved)
      | directive => cases hmark
    | directive p d =>
      cases mark' with
      | char => cases hmark
      | directive p' d' =>
        obtain ⟨hd, hrest⟩ := List.forall₂_cons.1 hmoved
        exact .directive hd (ih hms.symm hrest)

/-- Where a text of one source stands in another one, its directives have moved there. -/
theorem Directive.MovedTo.moved {before before' cs after after' : List Char} {d d' : Directive}
    (h : Directive.MovedTo before before' cs d d')
    (hsource : source.toList = before ++ (cs ++ after))
    (hsource' : source'.toList = before' ++ (cs ++ after'))
    (hplaces : ∀ n < byteLength cs, places (byteLength before + n) (byteLength before' + n)) :
    d.Moved places source source' d' := by
  obtain ⟨front, sigil, name, body, back, rfl, rfl, rfl⟩ := h
  have hbody : source.toList =
      before ++ front ++ sigil :: name ++ '{' :: body ++ ('}' :: back ++ after) := by
    rw [hsource]
    simp
  have hbody' : source'.toList =
      before' ++ front ++ sigil :: name ++ '{' :: body ++ ('}' :: back ++ after') := by
    rw [hsource']
    simp
  -- The body ends in front of the brace behind it.
  have hinside (n : Nat)
      (hn : n ≤ byteLength front + byteLength (sigil :: name ++ ['{']) + byteLength body) :
      places (byteLength before + n) (byteLength before' + n) := by
    have hpos := Char.utf8Size_pos '}'
    refine hplaces n ?_
    simp only [byteLength_append, byteLength_cons, byteLength_nil] at hn ⊢
    omega
  refine ⟨⟨rfl, body, covers_body hbody, covers_body hbody', fun n hn => ?_⟩, ?_⟩
  · have hat := hinside (byteLength front + byteLength (sigil :: name ++ ['{']) + n) (by omega)
    simp only [directiveAt, byteLength_append, byteLength_cons, byteLength_nil,
      ← Nat.add_assoc] at hat ⊢
    exact hat
  · have hat := hinside (byteLength front) (by omega)
    rwa [← byteLength_append, ← byteLength_append] at hat

end Marks

/-! ### Sources with comments -/

section Comments

variable {before after text : String}

namespace TakesComment

variable (h : TakesComment before after text)

include h

/-- The directives of a source move when a comment is put into it. -/
theorem moved_directives (hterminated : (Outline.ofSource (before ++ after)).unterminated = none) :
    List.Forall₂ (Directive.Moved
        (.pushed before.utf8ByteSize (commentOf text).utf8ByteSize) (before ++ after)
        (before ++ commentOf text ++ after))
      ((Outline.ofSource (before ++ after)).directives.filter (·.name ≠ "comment"))
      ((Outline.ofSource (before ++ commentOf text ++ after)).directives.filter
        (·.name ≠ "comment")) := by
  obtain ⟨ds, es, es', hleft, hright, hds, hes⟩ := h.exists_directives hterminated
  have hcomment : ([directiveAt before.toList '@' "comment".toList text.toList].filter
      (·.name ≠ "comment")) = [] := by
    rw [List.filter_cons_of_neg (by simp [directiveAt]), List.filter_nil]
  rw [hleft, hright, ← List.singleton_append, List.filter_append, List.filter_append,
    List.filter_append, hcomment, List.nil_append, ← List.filter_append, ← List.filter_append]
  have hsource : (before ++ after).toList = before.toList ++ after.toList := String.toList_append
  refine List.rel_filter (fun d d' hd => by dsimp only; rw [hd.name]) (List.rel_append ?_ ?_)
  · have hcommented : (before ++ commentOf text ++ after).toList =
        before.toList ++ (commentOf text ++ after).toList := by
      rw [String.append_assoc, String.toList_append]
    refine List.forall₂_same.2 fun d hd => (hds d hd).moved hsource hcommented fun n hn => ?_
    rw [byteLength_toList] at hn
    rw [byteLength_nil, Nat.zero_add, Places.pushed, if_pos hn]
  · have hcommented : (before ++ commentOf text ++ after).toList =
        (before ++ commentOf text).toList ++ after.toList := String.toList_append
    rw [← List.append_nil after.toList] at hsource hcommented
    refine hes.imp fun d d' hd => hd.moved hsource hcommented fun n _ => ?_
    rw [byteLength_toList, byteLength_toList, String.utf8ByteSize_append, Places.pushed,
      if_neg (by omega)]
    omega

/-- A source with a comment compiles, and its script is that of the source without it. -/
theorem exists_script {a : Template} (hsource : a.source = before ++ after) :
    (∃ program, Program.compile a.compiler (before ++ commentOf text ++ after) = .ok program) ∧
      ∃ script : Script,
        Script.Alike (.pushed before.utf8ByteSize (commentOf text).utf8ByteSize) a.source
          (before ++ commentOf text ++ after) (fun _ _ => False) a.script script ∧
        ∀ template : Template, template.compiler = a.compiler →
          template.source = before ++ commentOf text ++ after → template.script = script := by
  have hterminated := a.unterminated_eq_none
  have hderives := a.script_derives
  rw [hsource] at hterminated hderives ⊢
  obtain ⟨items, items', hleft, hright⟩ := h.exists_yields hterminated
  have hmoved := h.moved_directives hterminated
  rw [← Outline.filterMap_directive?_marks, ← Outline.filterMap_directive?_marks] at hmoved
  have hitems : (Outline.marks (before ++ after)).map (Mark.item (before ++ after)) =
      (Outline.marks (before ++ commentOf text ++ after)).map
        (Mark.item (before ++ commentOf text ++ after)) := by
    rw [Outline.map_item_marks_of_yields hleft, Outline.map_item_marks_of_yields hright,
      Item.scripted_append, Item.scripted_append]
    rfl
  obtain ⟨script, hderives', halike⟩ := hderives.expand (.of_directives hitems hmoved)
  obtain ⟨hcompiles, hscript⟩ :=
    exists_compile_of_script (Outline.yields_iff.1 hright).1 hderives'
  exact ⟨hcompiles, script, halike, hscript⟩

section Programs

variable {compiler : Compiler} {program commented : Program}
  (hprogram : Program.compile compiler (before ++ after) = .ok program)
  (hcommented : Program.compile compiler (before ++ commentOf text ++ after) = .ok commented)

include hprogram hcommented

/-- The texts of the nodes stay the same: a text with a comment in it is one node. -/
theorem texts_eq : commented.texts = program.texts := by
  obtain ⟨items, items', hleft, hright⟩ := h.exists_yields (compile_eq_ok_iff.1 hprogram).1
  rw [Program.texts_eq hprogram, Program.texts_eq hcommented, (Outline.yields_iff.1 hleft).2,
    (Outline.yields_iff.1 hright).2, Item.runs, Item.runs, Item.scripted_append,
    Item.scripted_append]
  rfl

/-- There is one node more, that of the comment. -/
theorem size_nodes : commented.nodes.size = program.nodes.size + 1 := by
  obtain ⟨items, items', hleft, hright⟩ := h.exists_yields (compile_eq_ok_iff.1 hprogram).1
  have htexts := congrArg List.length (h.texts_eq hprogram hcommented)
  rw [Program.texts_eq hprogram, Program.texts_eq hcommented] at htexts
  rw [Program.size_nodes hprogram, Program.size_nodes hcommented, htexts,
    (Outline.yields_iff.1 hleft).2, (Outline.yields_iff.1 hright).2]
  have hcomment : (Item.directive "comment".toList text.toList).width = 1 := rfl
  rw [Item.widths_append, Item.widths_append, Item.widths, hcomment]
  omega

end Programs

end TakesComment

end Comments

end TextTemplate
