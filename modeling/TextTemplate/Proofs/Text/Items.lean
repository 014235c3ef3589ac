import TextTemplate.Proofs.Expression.InDirective
import TextTemplate.Proofs.Text.Escape

/-!
# Sources in parts

A source is made of characters of its literal text and of directives, and is read from left to
right. How a part of it is read depends on what stands behind it, as far as a head or an escape may
reach there. Where none does, the parts of a source are read one by one.

## Main definitions

* `Item`, `Outline.items`: what a source is made of, apart from where it stands.
* `Yields`: what a text yields in front of another one.
* `Sealed`: no head and no escape reaches from a text into the next one.
* `EndsInHead`: texts that end with the beginning of a head.

## Main results

* `Outline.yields_iff`: how a source is read.
* `Yields.append`, `Yields.move`: parts are read one by one, whatever stands behind them.
* `Outline.yields_around`: a source is cut at each of its directives.
-/

namespace TextTemplate

/-- A character of the literal text, or a directive with this name and body. -/
inductive Item where
  | char (c : Char)
  | directive (name body : List Char)
deriving DecidableEq

/-- What a piece is made of: the characters of a text, or a directive. -/
def Piece.items (source : String) : Piece → List Item
  | .text span => (span.chars source).map .char
  | .directive d => [.directive d.name.toList (d.body.chars source)]

/-- What the pieces are made of. -/
def Outline.items (source : String) (outline : Outline) : List Item :=
  outline.pieces.flatMap (Piece.items source)

/-- In front of `after`, the text is read to its end, and yields these items. -/
inductive Yields (after : List Char) : List Char → List Item → Prop
  | nil : Yields after [] []
  | literal {c : Char} {cs : List Char} {items : List Item}
      (noEscape : ¬IsEscape (c :: cs ++ after)) (noHead : ¬StartsHead (c :: cs ++ after))
      (rest : Yields after cs items) : Yields after (c :: cs) (.char c :: items)
  | escape {sigil : Char} {cs : List Char} {items : List Item}
      (escape : IsEscape (sigil :: sigil :: cs ++ after)) (rest : Yields after cs items) :
      Yields after (sigil :: sigil :: cs) (.char sigil :: items)
  | directive {sigil : Char} {name body cs : List Char} {items : List Item}
      (noEscape : ¬IsEscape (sigil :: (name ++ '{' :: (body ++ '}' :: cs)) ++ after))
      (head : IsHead (sigil :: (name ++ '{' :: (body ++ '}' :: cs))) name (body ++ '}' :: cs))
      (balanced : Balanced '}' body) (rest : Yields after cs items) :
      Yields after (sigil :: (name ++ '{' :: (body ++ '}' :: cs)))
        (.directive name body :: items)

/-- No head of a directive and no escape starts in the text and ends behind it. -/
def Sealed (cs after : List Char) : Prop :=
  ∀ before rest, cs = before ++ rest → rest ≠ [] →
    (StartsHead (rest ++ after) → StartsHead rest) ∧ (IsEscape (rest ++ after) → IsEscape rest)

/-! ### Parts -/

section Parts

variable {cs ds after after' : List Char} {items items' : List Item}

theorem IsHead.append {name inside : List Char} (h : IsHead cs name inside) (more : List Char) :
    IsHead (cs ++ more) name (inside ++ more) := by
  obtain ⟨inside, hsigil, hname, hdigit⟩ := h
  have happended : IsHead (_ :: (name ++ '{' :: (inside ++ more))) name (inside ++ more) :=
    .mk _ hsigil hname hdigit
  simpa using happended

theorem IsHead.withInside {sigil : Char} {name inside : List Char}
    (h : IsHead (sigil :: (name ++ '{' :: inside)) name inside) (inside' : List Char) :
    IsHead (sigil :: (name ++ '{' :: inside')) name inside' := by
  generalize hcs : sigil :: (name ++ '{' :: inside) = cs at h
  obtain ⟨inside, hsigil, hname, hdigit⟩ := h
  obtain ⟨rfl, -⟩ := List.cons.inj hcs
  exact .mk _ hsigil hname hdigit

theorem StartsHead.append (h : StartsHead cs) (more : List Char) : StartsHead (cs ++ more) := by
  obtain ⟨name, inside, hhead⟩ := h
  exact ⟨name, inside ++ more, hhead.append more⟩

theorem isEscape_iff {sigil : Char} :
    IsEscape (sigil :: sigil :: cs) ↔ StartsHead (sigil :: cs) := by
  constructor
  · rintro ⟨hhead⟩
    exact ⟨_, _, hhead⟩
  · rintro ⟨_, _, hhead⟩
    exact .mk hhead

theorem IsEscape.append (h : IsEscape cs) (more : List Char) : IsEscape (cs ++ more) := by
  obtain ⟨hhead⟩ := h
  exact .mk (hhead.append more)

/-- One text behind another one. -/
theorem Yields.append (h : Yields (ds ++ after) cs items) (h' : Yields after ds items') :
    Yields after (cs ++ ds) (items ++ items') := by
  induction h with
  | nil => exact h'
  | literal hescape hhead _ ih => exact .literal (by simpa using hescape) (by simpa using hhead) ih
  | escape hescape _ ih => exact .escape (by simpa using hescape) ih
  | directive hescape hhead hbalanced _ ih =>
    have happended := hhead.append ds
    simp only [List.cons_append, List.append_assoc] at happended hescape ⊢
    exact .directive (by simpa using hescape) happended hbalanced ih

/-- A text is read in the same way in front of another one, if no head reached out of it before,
and none does now, nor an escape. -/
theorem Yields.move (h : Yields after cs items)
    (hheads : ∀ before rest, cs = before ++ rest → rest ≠ [] → StartsHead (rest ++ after) →
      StartsHead rest)
    (hsealed : Sealed cs after') : Yields after' cs items := by
  induction h with
  | nil => exact .nil
  | @literal c cs items hescape hhead _ ih =>
    have hwhole := hsealed [] _ rfl (List.cons_ne_nil c cs)
    refine .literal (fun h => hescape ((hwhole.2 h).append after))
      (fun h => hhead ((hwhole.1 h).append after)) (ih ?_ ?_)
    · exact fun before rest hcs => hheads (c :: before) rest (by rw [hcs]; rfl)
    · exact fun before rest hcs => hsealed (c :: before) rest (by rw [hcs]; rfl)
  | @escape sigil cs items hescape _ ih =>
    have hhead : StartsHead (sigil :: cs) :=
      hheads [sigil] _ rfl (List.cons_ne_nil sigil cs) (isEscape_iff.1 hescape)
    refine .escape (isEscape_iff.2 (hhead.append after')) (ih ?_ ?_)
    · exact fun before rest hcs => hheads (sigil :: sigil :: before) rest (by rw [hcs]; rfl)
    · exact fun before rest hcs => hsealed (sigil :: sigil :: before) rest (by rw [hcs]; rfl)
  | @directive sigil name body cs items hescape hhead hbalanced _ ih =>
    have hsplit (before rest : List Char) (hcs : cs = before ++ rest) :
        sigil :: (name ++ '{' :: (body ++ '}' :: cs)) =
          (sigil :: (name ++ '{' :: (body ++ '}' :: before))) ++ rest := by simp [hcs]
    have hwhole := hsealed [] _ rfl (List.cons_ne_nil _ _)
    refine .directive (fun h => hescape ((hwhole.2 h).append after)) hhead hbalanced (ih ?_ ?_)
    · exact fun before rest hcs => hheads _ rest (hsplit before rest hcs)
    · exact fun before rest hcs => hsealed _ rest (hsplit before rest hcs)

/-- So it is if nothing stood behind it before. -/
theorem Yields.followedBy (h : Yields [] cs items) (hsealed : Sealed cs after) :
    Yields after cs items :=
  h.move (fun _ rest _ _ hhead => by rwa [List.append_nil] at hhead) hsealed

end Parts

/-! ### Sources -/

section Sources

variable {source : String}

private theorem flatMap_items_textPiece {before text after : List Char}
    (h : source.toList = before ++ text ++ after) :
    (textPiece (byteLength before) (byteLength (before ++ text))).flatMap (Piece.items source) =
      text.map .char := by
  obtain ⟨spans, hspans, htext⟩ := exists_textPiece_eq h
  rw [hspans, List.flatMap_map, ← htext, List.map_flatMap]
  rfl

private theorem items_directiveAt {before name body after : List Char} {sigil : Char}
    (h : source.toList = before ++ sigil :: name ++ '{' :: body ++ after) :
    Piece.items source (.directive (directiveAt before sigil name body)) =
      [.directive name body] := by
  rw [Piece.items, (covers_body h).chars_eq]
  simp [directiveAt]

/-- What is read to its end yields the items of its pieces. The literal text being read stands
behind `front`. -/
theorem Scans.exists_yields {start : Nat} {before cs : List Char} {outline : Outline}
    (h : Scans start before cs outline) (hterminated : outline.unterminated = none)
    {front literal : List Char} (hbefore : before = front ++ literal)
    (hstart : start = byteLength front) (hsource : source.toList = before ++ cs) :
    ∃ items, Yields [] cs items ∧ outline.items source = literal.map .char ++ items := by
  induction h generalizing front literal with
  | done =>
    subst hbefore hstart
    exact ⟨[], .nil, by
      rw [Outline.items, flatMap_items_textPiece hsource, List.append_nil]⟩
  | @literal start before cs c outline hescape hhead _ ih =>
    have hread : before ++ [c] = front ++ (literal ++ [c]) := by rw [hbefore, List.append_assoc]
    obtain ⟨items, hitems, houtline⟩ := ih hterminated hread hstart (by simpa using hsource)
    refine ⟨.char c :: items, .literal (by simpa using hescape) ?_ hitems, by simpa using houtline⟩
    rw [List.append_nil]
    rintro ⟨name, inside, h⟩
    exact hhead name inside h
  | @escape start before cs sigil outline hescape _ ih =>
    subst hbefore hstart
    obtain ⟨items, hitems, houtline⟩ := ih hterminated (List.append_nil _).symm rfl
      (by simpa using hsource)
    have hkept : source.toList = front ++ (literal ++ [sigil]) ++ sigil :: cs := by
      simpa using hsource
    refine ⟨.char sigil :: items, .escape (by simpa using hescape) hitems, ?_⟩
    rw [Outline.items] at houtline ⊢
    rw [Outline.prepend, List.flatMap_append, houtline, List.append_assoc front,
      flatMap_items_textPiece hkept]
    simp
  | @directive start before name body cs sigil outline hescape hhead hbalanced _ ih =>
    subst hbefore hstart
    obtain ⟨items, hitems, houtline⟩ := ih hterminated (List.append_nil _).symm rfl
      (by simpa using hsource)
    have haround : source.toList =
        (front ++ literal) ++ sigil :: name ++ '{' :: body ++ ('}' :: cs) := by
      simpa using hsource
    refine ⟨.directive name body :: items,
      .directive (by simpa using hescape) hhead hbalanced hitems, ?_⟩
    rw [Outline.items] at houtline ⊢
    rw [Outline.prepend, List.flatMap_append, List.flatMap_append, houtline,
      flatMap_items_textPiece hsource, List.flatMap_singleton, items_directiveAt haround]
    simp
  | unterminated => cases hterminated

/-- What yields these items is read to its end, with pieces made of them. -/
theorem Yields.exists_scans {cs : List Char} {items : List Item} (h : Yields [] cs items)
    (front literal : List Char) (hsource : source.toList = front ++ literal ++ cs) :
    ∃ outline, Scans (byteLength front) (front ++ literal) cs outline ∧
      outline.unterminated = none ∧ outline.items source = literal.map .char ++ items := by
  induction h generalizing front literal with
  | nil =>
    refine ⟨_, .done, rfl, ?_⟩
    rw [Outline.items, flatMap_items_textPiece hsource, List.append_nil]
  | @literal c cs items hescape hhead _ ih =>
    obtain ⟨outline, hscans, hterminated, hitems⟩ :=
      ih front (literal ++ [c]) (by simpa using hsource)
    rw [List.append_nil] at hescape hhead
    refine ⟨outline, .literal hescape (fun name inside h => hhead ⟨name, inside, h⟩) ?_,
      hterminated, by simpa using hitems⟩
    rwa [List.append_assoc]
  | @escape sigil cs items hescape _ ih =>
    obtain ⟨outline, hscans, hterminated, hitems⟩ :=
      ih (front ++ literal ++ [sigil, sigil]) [] (by simpa using hsource)
    rw [List.append_nil] at hescape hscans
    have hkept : source.toList = front ++ (literal ++ [sigil]) ++ sigil :: cs := by
      simpa using hsource
    refine ⟨_, .escape hescape hscans, hterminated, ?_⟩
    rw [Outline.items] at hitems ⊢
    rw [Outline.prepend, List.flatMap_append, hitems, List.append_assoc front,
      flatMap_items_textPiece hkept]
    simp
  | @directive sigil name body cs items hescape hhead hbalanced _ ih =>
    obtain ⟨outline, hscans, hterminated, hitems⟩ :=
      ih (front ++ literal ++ sigil :: name ++ '{' :: body ++ ['}']) [] (by simpa using hsource)
    rw [List.append_nil] at hescape hscans
    have haround : source.toList =
        (front ++ literal) ++ sigil :: name ++ '{' :: body ++ ('}' :: cs) := by
      simpa using hsource
    refine ⟨_, .directive hescape hhead hbalanced hscans, hterminated, ?_⟩
    rw [Outline.items] at hitems ⊢
    rw [Outline.prepend, List.flatMap_append, List.flatMap_append, hitems,
      flatMap_items_textPiece hsource, List.flatMap_singleton, items_directiveAt haround]
    simp

/-- Around a directive the text is read in two parts. -/
theorem Scans.exists_around {start : Nat} {before cs : List Char} {outline : Outline}
    (h : Scans start before cs outline) (hterminated : outline.unterminated = none) {d : Directive}
    (hd : .directive d ∈ outline.pieces) :
    ∃ front sigil name body back items items',
      cs = front ++ sigil :: (name ++ '{' :: (body ++ '}' :: back)) ∧
        d = directiveAt (before ++ front) sigil name body ∧
        Yields (sigil :: (name ++ '{' :: (body ++ '}' :: back))) front items ∧
        Yields [] (sigil :: (name ++ '{' :: (body ++ '}' :: back)))
          (.directive name body :: items') := by
  induction h with
  | done | unterminated => exact absurd hd not_directive_mem_textPiece
  | @literal start before cs c outline hescape hhead _ ih =>
    obtain ⟨front, sigil, name, body, back, items, items', rfl, rfl, hfront, hback⟩ :=
      ih hterminated hd
    refine ⟨c :: front, sigil, name, body, back, .char c :: items, items', rfl, by simp, ?_, hback⟩
    refine .literal hescape ?_ hfront
    rintro ⟨name, inside, h⟩
    exact hhead name inside h
  | @escape start before cs sigil outline hescape _ ih =>
    obtain hd | hd := List.mem_append.1 hd
    · exact absurd hd not_directive_mem_textPiece
    · obtain ⟨front, sigil', name, body, back, items, items', rfl, rfl, hfront, hback⟩ :=
        ih hterminated hd
      exact ⟨sigil :: sigil :: front, sigil', name, body, back, .char sigil :: items, items', rfl,
        by simp, .escape hescape hfront, hback⟩
  | @directive start before name body cs sigil outline hescape hhead hbalanced hrest ih =>
    simp only [Outline.prepend, List.append_assoc, List.mem_append, List.mem_singleton,
      Piece.directive.injEq, not_directive_mem_textPiece, false_or] at hd
    obtain rfl | hd := hd
    · obtain ⟨items, hitems, -⟩ := hrest.exists_yields hterminated (List.append_nil _).symm rfl
        String.toList_ofList
      refine ⟨[], sigil, name, body, cs, [], items, rfl, by simp, .nil, ?_⟩
      exact .directive (by simpa using hescape) hhead hbalanced hitems
    · obtain ⟨front, sigil', name', body', back, items, items', rfl, rfl, hfront, hback⟩ :=
        ih hterminated hd
      refine ⟨sigil :: (name ++ '{' :: (body ++ '}' :: front)), sigil', name', body', back,
        .directive name body :: items, items', by simp, by simp, ?_, hback⟩
      exact .directive (by simpa using hescape) (hhead.withInside _) hbalanced hfront

/-- The body of every directive stands in the source. -/
theorem Scans.exists_covers {start : Nat} {before cs : List Char} {outline : Outline}
    (h : Scans start before cs outline) (hsource : source.toList = before ++ cs) {d : Directive}
    (hd : .directive d ∈ outline.pieces) : ∃ body, d.body.Covers source body := by
  induction h with
  | done | unterminated => exact absurd hd not_directive_mem_textPiece
  | literal _ _ _ ih => exact ih (by simpa using hsource) hd
  | escape _ _ ih =>
    obtain hd | hd := List.mem_append.1 hd
    · exact absurd hd not_directive_mem_textPiece
    · exact ih (by simpa using hsource) hd
  | @directive _ before name body cs sigil _ _ _ _ _ ih =>
    simp only [Outline.prepend, List.append_assoc, List.mem_append, List.mem_singleton,
      Piece.directive.injEq, not_directive_mem_textPiece, false_or] at hd
    obtain rfl | hd := hd
    · have hstands : source.toList = before ++ sigil :: name ++ '{' :: body ++ ('}' :: cs) := by
        simpa using hsource
      exact ⟨body, covers_body hstands⟩
    · exact ih (by simpa using hsource) hd

private theorem eq_of_directiveAt_eq {before before' name name' body body' after after' : List Char}
    {sigil sigil' : Char}
    (hd : directiveAt before sigil name body = directiveAt before' sigil' name' body')
    (h : before ++ sigil :: (name ++ '{' :: (body ++ '}' :: after)) =
      before' ++ sigil' :: (name' ++ '{' :: (body' ++ '}' :: after'))) :
    before = before' ∧ sigil = sigil' ∧ name = name' ∧ body = body' ∧ after = after' := by
  simp only [directiveAt, Directive.mk.injEq, Span.mk.injEq] at hd
  obtain ⟨hname, -, ⟨hbefore, -⟩, hopened, hclosing⟩ := hd
  obtain ⟨rfl, hdirective⟩ := append_inj_of_byteLength_eq h hbefore
  obtain rfl : name = name' := String.ofList_injective hname
  obtain ⟨rfl, hnamed⟩ := List.cons.inj hdirective
  have hlength : byteLength body = byteLength body' := by
    rw [byteLength_append _ body, byteLength_append _ body'] at hclosing
    exact Nat.add_left_cancel hclosing
  obtain ⟨rfl, hback⟩ := append_inj_of_byteLength_eq
    (List.cons.inj (List.append_cancel_left hnamed)).2 hlength
  exact ⟨rfl, rfl, rfl, rfl, (List.cons.inj hback).2⟩

/-- No head reaches across a sigil. -/
theorem startsHead_of_append_sigil {sigil : Char} {rest after : List Char}
    (hsigil : isSigil sigil = true) (hrest : rest ≠ []) (h : StartsHead (rest ++ sigil :: after)) :
    StartsHead rest := by
  obtain ⟨name, inside, hhead⟩ := h
  obtain ⟨c, cs, rfl⟩ := List.exists_cons_of_ne_nil hrest
  generalize hwhole : c :: cs ++ sigil :: after = whole at hhead
  obtain ⟨inside, hc, hname, hdigit⟩ := hhead
  obtain ⟨rfl, hcs⟩ := List.cons.inj hwhole
  rw [List.append_cons name] at hcs
  obtain ⟨more, hmore, hafter⟩ | ⟨more, rfl, -⟩ := List.append_eq_append_iff.1 hcs
  · cases more with
    | nil =>
      rw [List.append_nil] at hmore
      exact ⟨name, [], by rw [← hmore]; exact .mk [] hc hname hdigit⟩
    | cons d more =>
      obtain rfl := (List.cons.inj hafter).1
      have hnone := isSigil_eq_false_of_mem hname (c := sigil) (hmore ▸ by simp)
      simp [hsigil] at hnone
  · rw [← List.append_cons]
    exact ⟨name, more, .mk more hc hname hdigit⟩

/-- A head that starts in a text and ends behind it starts with a sigil and the start of a name, up
to the end of the text. -/
theorem StartsHead.of_append {cs after : List Char} (h : StartsHead (cs ++ after)) (hcs : cs ≠ [])
    (hopen : ∀ sigil name, isSigil sigil = true → (∀ c ∈ name, isDirectiveNamePart c = true) →
      cs ≠ sigil :: name) : StartsHead cs := by
  obtain ⟨name, inside, hhead⟩ := h
  obtain ⟨c, cs, rfl⟩ := List.exists_cons_of_ne_nil hcs
  generalize hwhole : c :: cs ++ after = whole at hhead
  obtain ⟨inside, hc, hname, hdigit⟩ := hhead
  obtain ⟨rfl, hrest⟩ := List.cons.inj hwhole
  obtain ⟨more, rfl, -⟩ | ⟨more, rfl, hmore⟩ := List.append_eq_append_iff.1 hrest
  · exact absurd rfl (hopen c cs hc fun d hd => hname d (List.mem_append_left _ hd))
  · cases more with
    | nil =>
      rw [List.append_nil] at hopen
      exact absurd rfl (hopen c name hc hname)
    | cons d more =>
      obtain ⟨rfl, -⟩ := List.cons.inj hmore
      exact ⟨name, more, .mk more hc hname hdigit⟩

/-- The text ends with a sigil and characters of a name, if any: with what could be the beginning of
a directive, or of an escape. -/
def EndsInHead (cs : List Char) : Prop :=
  ∃ sigil name, isSigil sigil = true ∧ (∀ c ∈ name, isDirectiveNamePart c = true) ∧
    sigil :: name <:+ cs

/-- A text whose last character is neither a sigil nor one of a name does not end so. -/
theorem not_endsInHead_of_getLast? {cs : List Char} {c : Char} (h : cs.getLast? = some c)
    (hsigil : isSigil c = false) (hname : isDirectiveNamePart c = false) : ¬EndsInHead cs := by
  rintro ⟨sigil, name, hhead, hnames, before, heq⟩
  rw [← heq, List.getLast?_append_of_ne_nil _ (List.cons_ne_nil sigil name)] at h
  obtain rfl | hmem := List.mem_cons.1 (List.mem_of_getLast? h)
  · cases hsigil.symm.trans hhead
  · cases hname.symm.trans (hnames c hmem)

/-- A text that does not end so is sealed. -/
theorem sealed_of_not_endsInHead {cs : List Char} (h : ¬EndsInHead cs) (after : List Char) :
    Sealed cs after := by
  have hhead (before rest : List Char) (hcs : cs = before ++ rest) (hrest : rest ≠ [])
      (hstarts : StartsHead (rest ++ after)) : StartsHead rest :=
    hstarts.of_append hrest fun sigil name hsigil hname heq =>
      h ⟨sigil, name, hsigil, hname, before, by rw [hcs, heq]⟩
  intro before rest hcs hrest
  refine ⟨hhead before rest hcs hrest, fun hescape => ?_⟩
  generalize hwhole : rest ++ after = whole at hescape
  obtain ⟨hstarts⟩ := hescape
  cases rest with
  | nil => exact absurd rfl hrest
  | cons c rest =>
    obtain ⟨rfl, hwhole⟩ := List.cons.inj hwhole
    cases rest with
    | nil => exact absurd ⟨c, [], hstarts.isSigil, nofun, before, hcs.symm⟩ h
    | cons d rest =>
      obtain ⟨rfl, rfl⟩ := List.cons.inj hwhole
      exact isEscape_iff.2 (hhead (before ++ [d]) (d :: rest) (by rw [hcs]; simp)
        (List.cons_ne_nil _ _) ⟨_, _, hstarts⟩)

namespace Outline

/-- A source yields the items of its pieces, if it is read to its end. -/
theorem yields_iff {items : List Item} :
    Yields [] source.toList items ↔
      (ofSource source).unterminated = none ∧ (ofSource source).items source = items := by
  constructor
  · intro h
    obtain ⟨outline, hscans, hterminated, hitems⟩ := h.exists_scans [] [] rfl
    rw [ofSource_eq_iff.2 hscans]
    exact ⟨hterminated, hitems⟩
  · rintro ⟨hterminated, rfl⟩
    obtain ⟨items, hyields, hitems⟩ := (ofSource_eq_iff.1 rfl).exists_yields hterminated
      (List.append_nil []).symm rfl rfl
    rw [hitems]
    exact hyields

/-- A source is read in two parts around each of its directives. -/
theorem yields_around (hterminated : (ofSource source).unterminated = none)
    {before name body after : List Char} {sigil : Char}
    (hsource : source.toList = before ++ sigil :: (name ++ '{' :: (body ++ '}' :: after)))
    (hd : .directive (directiveAt before sigil name body) ∈ (ofSource source).pieces) :
    ∃ items items', Yields (sigil :: (name ++ '{' :: (body ++ '}' :: after))) before items ∧
      Yields [] (sigil :: (name ++ '{' :: (body ++ '}' :: after)))
        (.directive name body :: items') := by
  obtain ⟨front, sigil', name', body', back, items, items', hcs, hdirective, hfront, hback⟩ :=
    (ofSource_eq_iff.1 rfl).exists_around hterminated hd
  obtain ⟨rfl, rfl, rfl, rfl, rfl⟩ := eq_of_directiveAt_eq hdirective (hsource.symm.trans hcs)
  exact ⟨items, items', hfront, hback⟩

end Outline

end Sources

end TextTemplate
