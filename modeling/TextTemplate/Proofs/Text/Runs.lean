import TextTemplate.Proofs.Script.Alike

/-!
# The text nodes of a program

Between two directives that are no comments all literal text is one node, whatever comments and
escapes there are in it. So the text nodes of a program hold the runs of characters of its source,
and which nodes there are depends on the items of the source only.

## Main definitions

* `Program.texts`: the texts of the nodes of a program.
* `Item.runs`: the runs of characters among items.
* `Item.width`: how many nodes a directive has.

## Main results

* `Program.texts_eq`: the texts of a program are runs.
* `Program.size_nodes`: how many nodes a program has.
-/

namespace TextTemplate

/-- The texts of such spans, where there are any. -/
def textsOf (source : String) (spans : List (List Span)) : List (List Char) :=
  (spans.map (textOf source)).filter (· ≠ [])

/-- The texts of the nodes of a program, node by node. -/
def Program.texts (program : Program) : List (List Char) :=
  textsOf program.source (program.nodes.toList.map Node.textSpans)

namespace Item

/-- The characters between directives, behind the start of such a run. -/
def runsFrom (run : List Char) : List Item → List (List Char)
  | [] => [run]
  | .char c :: items => runsFrom (run ++ [c]) items
  | .directive _ _ :: items => run :: runsFrom [] items

/-- The runs of characters between directives that are no comments, where there are any. -/
def runs (items : List Item) : List (List Char) :=
  (runsFrom [] (scripted items)).filter (· ≠ [])

/-- How many nodes an item has of its own: a character has none, and a directive that goes on with
a branch has two. -/
def width : Item → Nat
  | .char _ => 0
  | .directive name _ => if name = "else".toList ∨ name = "elseif".toList then 2 else 1

/-- How many nodes items have of their own, together. -/
def widths : List Item → Nat
  | [] => 0
  | item :: items => item.width + widths items

theorem widths_append (items items' : List Item) :
    widths (items ++ items') = widths items + widths items' := by
  induction items with
  | nil => exact (Nat.zero_add _).symm
  | cons item items ih => rw [List.cons_append, widths, widths, ih, Nat.add_assoc]

private theorem widths_map_char (text : List Char) : widths (text.map .char) = 0 := by
  induction text with
  | nil => rfl
  | cons c text ih => exact (Nat.zero_add _).trans ih

private theorem runsFrom_append_char (run text : List Char) (items : List Item) :
    runsFrom run (text.map .char ++ items) = runsFrom (run ++ text) items := by
  induction text generalizing run with
  | nil => rw [List.append_nil, List.map_nil, List.nil_append]
  | cons c text ih =>
    rw [List.map_cons, List.cons_append, runsFrom, ih, List.append_assoc, List.singleton_append]

/-- A directive ends a run. -/
theorem filter_runsFrom_directive (run name body : List Char) (items : List Item) :
    (runsFrom run (.directive name body :: items)).filter (· ≠ []) =
      [run].filter (· ≠ []) ++ (runsFrom [] items).filter (· ≠ []) :=
  List.filter_append [run] _

end Item

/-! ### Characters of texts -/

section Texts

variable {source : String}

private theorem textOf_append (spans spans' : List Span) :
    textOf source (spans ++ spans') = textOf source spans ++ textOf source spans' :=
  List.flatMap_append

private theorem chars_ne_nil_of_mem_textPiece {before text after : List Char} {span : Span}
    (h : source.toList = before ++ text ++ after)
    (hspan : .text span ∈ textPiece (byteLength before) (byteLength (before ++ text))) :
    span.chars source ≠ [] := by
  obtain ⟨spans, hpiece, hchars⟩ := exists_textPiece_eq h
  rw [textPiece] at hpiece hspan
  split_ifs at hpiece hspan with hlt
  · obtain rfl := Piece.text.inj (List.mem_singleton.1 hspan)
    rw [byteLength_append, Span.chars_append h]
    rintro rfl
    rw [List.append_nil] at hlt
    exact Nat.lt_irrefl _ hlt
  · cases hspan

/-- No text among the pieces is empty. The literal text being read stands behind `front`. -/
theorem Scans.chars_ne_nil_of_mem {start : Nat} {before cs : List Char} {outline : Outline}
    (h : Scans start before cs outline) {front literal : List Char}
    (hbefore : before = front ++ literal) (hstart : start = byteLength front)
    (hsource : source.toList = before ++ cs) {span : Span} (hspan : .text span ∈ outline.pieces) :
    span.chars source ≠ [] := by
  induction h generalizing front literal with
  | done | unterminated =>
    subst hbefore hstart
    exact chars_ne_nil_of_mem_textPiece hsource hspan
  | @literal start before cs c outline _ _ _ ih =>
    have hread : before ++ [c] = front ++ (literal ++ [c]) := by rw [hbefore, List.append_assoc]
    exact ih hread hstart (by simpa using hsource) hspan
  | @escape start before cs sigil outline _ _ ih =>
    subst hbefore hstart
    obtain hspan | hspan := List.mem_append.1 hspan
    · have hkept : source.toList = front ++ (literal ++ [sigil]) ++ sigil :: cs := by
        simpa using hsource
      exact chars_ne_nil_of_mem_textPiece hkept (by rwa [List.append_assoc] at hspan)
    · exact ih (List.append_nil _).symm rfl (by simpa using hsource) hspan
  | @directive start before name body cs sigil outline _ _ _ _ ih =>
    subst hbefore hstart
    obtain hspan | hspan := List.mem_append.1 hspan
    · obtain hspan | hspan := List.mem_append.1 hspan
      · exact chars_ne_nil_of_mem_textPiece hsource hspan
      · cases List.mem_singleton.1 hspan
    · exact ih (List.append_nil _).symm rfl (by simpa using hsource) hspan

/-! ### Phrases -/

private theorem textsOf_append (spans spans' : List (List Span)) :
    textsOf source (spans ++ spans') = textsOf source spans ++ textsOf source spans' := by
  rw [textsOf, List.map_append, List.filter_append]
  rfl

private theorem textsOf_comments (comments : List Directive) :
    textsOf source ((comments.map Phrase.directive).map Phrase.texts) = [] := by
  induction comments with
  | nil => rfl
  | cons d comments ih => exact ih

private theorem textsOf_heldBack (spans : List Span) (comments : List Directive) :
    textsOf source ((heldBack spans comments).map Phrase.texts) =
      [textOf source spans.reverse].filter (· ≠ []) := by
  rw [heldBack, List.map_append, textsOf_append, textsOf_comments, List.append_nil]
  split_ifs with hspans
  · rw [hspans]
    rfl
  · rfl

/-- Joined texts are runs of characters. -/
theorem textsOf_joinTexts (pieces : List Piece) (spans : List Span) (comments : List Directive) :
    textsOf source ((joinTexts spans comments pieces).map Phrase.texts) =
      (Item.runsFrom (textOf source spans.reverse)
        (Item.scripted (pieces.flatMap (Piece.items source)))).filter (· ≠ []) := by
  induction pieces generalizing spans comments with
  | nil => exact textsOf_heldBack spans comments
  | cons piece pieces ih =>
    rw [List.flatMap_cons, Item.scripted_append]
    cases piece with
    | text span =>
      rw [joinTexts, ih, Piece.items, Item.scripted_map_char, Item.runsFrom_append_char,
        List.reverse_cons, textOf_append]
      simp [textOf]
    | directive d =>
      rw [joinTexts, d.scripted_items 0, Phrase.marks]
      split_ifs with hdeferred hcomment hcomment
      · exact ih spans (d :: comments)
      · exact absurd hdeferred.1 hcomment
      · have hspans : spans = [] := by
          by_contra hspans
          exact hdeferred ⟨hcomment, hspans⟩
        subst hspans
        rw [List.map_append, textsOf_append, textsOf_heldBack, List.map_cons]
        exact ih [] []
      · rw [List.map_append, textsOf_append, textsOf_heldBack, List.map_singleton,
          List.singleton_append, Mark.item, Item.filter_runsFrom_directive]
        exact congrArg _ (ih [] [])

private theorem Directive.width_of_comment {d : Directive} (h : d.name = "comment") :
    (Phrase.directive d).width = 1 := by
  rw [Phrase.width, Phrase.imprints, h]
  rfl

private theorem phrasesWidth_comments {comments : List Directive}
    (h : ∀ d ∈ comments, d.name = "comment") :
    phrasesWidth (comments.map Phrase.directive) = comments.length := by
  induction comments with
  | nil => rfl
  | cons d comments ih =>
    obtain ⟨hd, hcomments⟩ := List.forall_mem_cons.1 h
    rw [List.map_cons, phrasesWidth_cons, ih hcomments, Directive.width_of_comment hd,
      List.length_cons, Nat.add_comm]

private theorem phrasesWidth_heldBack {spans : List Span} {comments : List Directive}
    (hspans : ∀ span ∈ spans, span.chars source ≠ [])
    (hcomments : ∀ d ∈ comments, d.name = "comment") :
    phrasesWidth (heldBack spans comments) =
      comments.length + ([textOf source spans.reverse].filter (· ≠ [])).length := by
  rw [heldBack, phrasesWidth_append, phrasesWidth_comments (by simpa using hcomments),
    List.length_reverse, Nat.add_comm]
  cases spans with
  | nil => rfl
  | cons span spans =>
    have htext : textOf source (span :: spans).reverse ≠ [] := by
      rw [List.reverse_cons, textOf_append]
      simpa [textOf] using fun _ => (hspans span List.mem_cons_self)
    rw [if_neg (List.cons_ne_nil _ _), List.filter_cons_of_pos (by simpa using htext)]
    rfl

private theorem Directive.width_phrase (d : Directive) :
    (Phrase.directive d).width = Item.widths (Piece.items source (.directive d)) := by
  have hnames : (d.name.toList = "else".toList ∨ d.name.toList = "elseif".toList) ↔
      (d.name = "else" ∨ d.name = "elseif") := by rw [String.toList_inj, String.toList_inj]
  rw [Piece.items, Item.widths, Item.width, Phrase.width, Phrase.imprints]
  simp only [hnames]
  split_ifs <;> rfl

/-- How many nodes joined texts and the directives between them have. -/
theorem phrasesWidth_joinTexts {pieces : List Piece} {spans : List Span}
    {comments : List Directive} (hspans : ∀ span ∈ spans, span.chars source ≠ [])
    (hpieces : ∀ span, .text span ∈ pieces → span.chars source ≠ [])
    (hcomments : ∀ d ∈ comments, d.name = "comment") :
    phrasesWidth (joinTexts spans comments pieces) =
      comments.length + ((Item.runsFrom (textOf source spans.reverse)
        (Item.scripted (pieces.flatMap (Piece.items source)))).filter (· ≠ [])).length +
      Item.widths (pieces.flatMap (Piece.items source)) := by
  induction pieces generalizing spans comments with
  | nil => exact phrasesWidth_heldBack hspans hcomments
  | cons piece pieces ih =>
    have hrest := fun span hspan => hpieces span (List.mem_cons_of_mem _ hspan)
    rw [List.flatMap_cons, Item.scripted_append, Item.widths_append]
    cases piece with
    | text span =>
      rw [joinTexts, ih (List.forall_mem_cons.2 ⟨hpieces span List.mem_cons_self, hspans⟩) hrest
        hcomments, Piece.items, Item.scripted_map_char,
        Item.runsFrom_append_char, List.reverse_cons, textOf_append, Item.widths_map_char,
        Nat.zero_add]
      simp [textOf]
    | directive d =>
      rw [joinTexts, ← d.width_phrase, d.scripted_items 0, Phrase.marks]
      split_ifs with hdeferred hcomment hcomment
      · rw [ih hspans hrest (List.forall_mem_cons.2 ⟨hdeferred.1, hcomments⟩), List.length_cons,
          Directive.width_of_comment hcomment, List.map_nil, List.nil_append]
        omega
      · exact absurd hdeferred.1 hcomment
      · have hspans' : spans = [] := by
          by_contra hspans
          exact hdeferred ⟨hcomment, hspans⟩
        subst hspans'
        have hempty : ([textOf source [].reverse].filter (· ≠ [])).length = 0 := rfl
        rw [phrasesWidth_append, phrasesWidth_heldBack hspans hcomments, phrasesWidth_cons,
          ih (by simp) hrest (by simp), hempty, List.map_nil, List.nil_append, List.length_nil]
        omega
      · rw [phrasesWidth_append, phrasesWidth_heldBack hspans hcomments, phrasesWidth_cons,
          ih (by simp) hrest (by simp), List.map_singleton, List.singleton_append, Mark.item,
          Item.filter_runsFrom_directive, List.length_append, List.length_nil]
        change _ + (_ + (0 + ((Item.runsFrom [] _).filter _).length + _)) = _
        omega

end Texts

/-! ### Programs -/

section Programs

variable {compiler : Compiler} {source : String} {program : Program}

private theorem Phrase.textsOf_imprints (phrases : List Phrase) :
    textsOf source ((phrases.flatMap Phrase.imprints).map Imprint.texts) =
      textsOf source (phrases.map Phrase.texts) := by
  induction phrases with
  | nil => rfl
  | cons phrase phrases ih =>
    rw [List.flatMap_cons, List.map_append, textsOf_append, ih, List.map_cons,
      ← List.singleton_append, textsOf_append]
    congr 1
    cases phrase with
    | text spans => rfl
    | directive d =>
      rw [imprints]
      split_ifs <;> rfl

/-- The texts of a program are the runs of characters of its source. -/
theorem Program.texts_eq (h : Program.compile compiler source = .ok program) :
    program.texts = Item.runs ((Outline.ofSource source).items source) := by
  have hnodes : program.nodes.toList.map Node.textSpans =
      (program.nodes.toList.map Node.imprint).map Imprint.texts := by
    rw [List.map_map]
    rfl
  rw [texts, Program.source_of_compile h, hnodes, Program.map_imprint_nodes h, List.map_append,
    textsOf_append, Phrase.textsOf_imprints, Outline.phrases, textsOf_joinTexts]
  exact List.append_nil _

/-- A program has a node for each of its texts, those of its directives, and one at its end. -/
theorem Program.size_nodes (h : Program.compile compiler source = .ok program) :
    program.nodes.size = (Item.runs ((Outline.ofSource source).items source)).length +
      Item.widths ((Outline.ofSource source).items source) + 1 := by
  have hwidth : phrasesWidth (Outline.ofSource source).phrases =
      0 + (Item.runs ((Outline.ofSource source).items source)).length +
        Item.widths ((Outline.ofSource source).items source) :=
    phrasesWidth_joinTexts (by simp) (fun span hspan => (Outline.ofSource_eq_iff.1
      rfl).chars_ne_nil_of_mem (List.append_nil []).symm rfl rfl hspan) (by simp)
  rw [Nat.zero_add] at hwidth
  rw [← hwidth, phrasesWidth, ← Array.length_toList, ← List.length_map Node.imprint,
    Program.map_imprint_nodes h, List.length_append, List.length_singleton]

end Programs

end TextTemplate
