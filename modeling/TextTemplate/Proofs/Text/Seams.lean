import TextTemplate.Proofs.Text.Items

/-!
# Seams of sources

Where no directive of a source, and no escape with the head behind it, reaches across a place, the
source is read in two parts there. Each of them is read as it is on its own, so that something else
can be put between them; the directives behind the place move with their text.

## Main definitions

* `IsSeam`: places at which a source can be cut.
* `Outline.directives`: the directives of a source.
* `Directive.MovedTo`: a directive behind another text.

## Main results

* `IsSeam.exists_yields`: the two parts are read one by one.
* `Scans.exists_front`: what is read of the first part.
* `Scans.exists_moved`: what is read of the second part, behind any other text.
-/

namespace TextTemplate

/-- No directive of the source that is made of the two texts reaches across the place between them,
and no escape does, from its first sigil to the brace of the head behind it. -/
structure IsSeam (before after : String) : Prop where
  directives (d : Directive) (h : .directive d ∈ (Outline.ofSource (before ++ after)).pieces) :
    d.span.stop ≤ before.utf8ByteSize ∨ before.utf8ByteSize ≤ d.span.start
  escapes (front rest : List Char) (h : before.toList = front ++ rest) (hrest : rest ≠ [])
    (hescape : IsEscape (rest ++ after.toList)) : IsEscape rest

/-- The directive of a piece. -/
def Piece.directive? : Piece → Option Directive
  | .text _ => none
  | .directive d => some d

/-- The directives of a source, in order. -/
def Outline.directives (outline : Outline) : List Directive :=
  outline.pieces.filterMap Piece.directive?

/-- The directive stands behind one text where the other one stands behind another text. -/
def Directive.MovedTo (before before' cs : List Char) (d d' : Directive) : Prop :=
  ∃ front sigil name body back, cs = front ++ sigil :: (name ++ '{' :: (body ++ '}' :: back)) ∧
    d = directiveAt (before ++ front) sigil name body ∧
    d' = directiveAt (before' ++ front) sigil name body

section Directives

variable {start stop : Nat} {outline : Outline}

private theorem filterMap_directive?_textPiece :
    (textPiece start stop).filterMap Piece.directive? = [] := by
  rw [textPiece]
  split_ifs <;> rfl

private theorem Outline.directives_prepend (pieces : List Piece) (outline : Outline) :
    (outline.prepend pieces).directives = pieces.filterMap Piece.directive? ++ outline.directives :=
  List.filterMap_append

private theorem Outline.mem_directives {d : Directive} :
    d ∈ outline.directives ↔ .directive d ∈ outline.pieces := by
  rw [directives, List.mem_filterMap]
  constructor
  · rintro ⟨_ | d, hd, hpiece⟩
    · cases hpiece
    · rwa [Option.some.inj hpiece] at hd
  · exact fun hd => ⟨_, hd, rfl⟩

end Directives

instance (cs : List Char) : Decidable (IsEscape cs) :=
  decidable_of_iff _ startsWithEscape_eq_true_iff

private theorem isSeam_iff {before after : String} :
    IsSeam before after ↔
      (∀ d ∈ (Outline.ofSource (before ++ after)).directives,
        d.span.stop ≤ before.utf8ByteSize ∨ before.utf8ByteSize ≤ d.span.start) ∧
      ∀ rest ∈ before.toList.tails, rest ≠ [] → IsEscape (rest ++ after.toList) →
        IsEscape rest := by
  constructor
  · rintro ⟨hdirectives, hescapes⟩
    refine ⟨fun d hd => hdirectives d (Outline.mem_directives.1 hd), fun rest hrest => ?_⟩
    obtain ⟨front, hfront⟩ := (List.mem_tails _ _).1 hrest
    exact hescapes front rest hfront.symm
  · rintro ⟨hdirectives, hescapes⟩
    exact ⟨fun d hd => hdirectives d (Outline.mem_directives.2 hd),
      fun front rest hfront => hescapes rest ((List.mem_tails _ _).2 ⟨front, hfront.symm⟩)⟩

instance (before after : String) : Decidable (IsSeam before after) :=
  decidable_of_iff _ isSeam_iff.symm

/-! ### The first part -/

section First

variable {cs after : List Char} {items : List Item}

/-- In front of a text that an escape does not reach into, no head reaches into it either: a head
that is read starts a directive, and one that is not read is behind the sigil of an escape or in a
directive. -/
theorem Yields.startsHead_of_append (h : Yields after cs items)
    (hescapes : ∀ front rest, cs = front ++ rest → rest ≠ [] → IsEscape (rest ++ after) →
      IsEscape rest) (front rest : List Char) (hcs : cs = front ++ rest) (hrest : rest ≠ [])
    (hhead : StartsHead (rest ++ after)) : StartsHead rest := by
  induction h generalizing front with
  | nil => exact absurd (List.append_eq_nil_iff.1 hcs.symm).2 hrest
  | @literal c cs items hescape hnone _ ih =>
    cases front with
    | nil =>
      subst hcs
      exact absurd hhead hnone
    | cons d front =>
      obtain ⟨rfl, htail⟩ := List.cons.inj hcs
      exact ih (fun front rest hcs => hescapes (c :: front) rest (by rw [hcs]; rfl)) front htail
  | @escape sigil cs items hescape _ ih =>
    cases front with
    | nil =>
      subst hcs
      obtain ⟨_, _, hhead⟩ := hhead
      obtain ⟨hsigil⟩ := hescape
      exact absurd hhead (not_isHead_of_isSigil hsigil.isSigil)
    | cons d front =>
      obtain ⟨-, htail⟩ := List.cons.inj hcs
      cases front with
      | nil =>
        obtain rfl : sigil :: cs = rest := htail
        exact isEscape_iff.1 (hescapes [] _ rfl (List.cons_ne_nil _ _) hescape)
      | cons e front =>
        exact ih (fun front rest hcs => hescapes (sigil :: sigil :: front) rest (by rw [hcs]; rfl))
          front (List.cons.inj htail).2
  | @directive sigil name body cs items hescape _ _ _ ih =>
    have hsplit (rest : List Char) : sigil :: (name ++ '{' :: (body ++ '}' :: rest)) =
        sigil :: (name ++ '{' :: body) ++ ['}'] ++ rest := by simp
    have hinside (front : List Char) (hcs : cs = front ++ rest) : StartsHead rest :=
      ih (fun front rest hcs => hescapes (sigil :: (name ++ '{' :: (body ++ '}' :: front))) rest
        (by rw [hcs]; simp)) front hcs
    rw [hsplit] at hcs
    obtain ⟨more, -, hrest⟩ | ⟨more, hmore, rfl⟩ := List.append_eq_append_iff.1 hcs
    · exact hinside more hrest
    · -- The head would have to reach across the brace at the end of the directive.
      cases hlast : more.getLast? with
      | none =>
        obtain rfl := List.getLast?_eq_none_iff.1 hlast
        exact hinside [] rfl
      | some last =>
        have hbrace : '}' ∈ more := by
          have hends := congrArg List.getLast? hmore
          rw [List.getLast?_concat, List.getLast?_append, hlast] at hends
          exact Option.some.inj hends ▸ List.mem_of_getLast? hlast
        refine hhead.of_append hrest fun sigil' name' hsigil hname heq => ?_
        obtain h | h := List.mem_cons.1 (heq ▸ List.mem_append_left cs hbrace)
        · exact absurd hsigil (h ▸ by decide)
        · exact absurd (hname _ h) (by decide)

/-- In front of a sigil other than its last character a text is sealed. -/
theorem sealed_of_getLast?_ne {sigil : Char} (hsigil : isSigil sigil = true)
    (h : cs.getLast? ≠ some sigil) (after : List Char) : Sealed cs (sigil :: after) := by
  intro front rest hcs hrest
  refine ⟨startsHead_of_append_sigil hsigil hrest, fun hescape => ?_⟩
  generalize hwhole : rest ++ sigil :: after = whole at hescape
  obtain ⟨hhead⟩ := hescape
  obtain ⟨c, rest, rfl⟩ := List.exists_cons_of_ne_nil hrest
  obtain ⟨rfl, htail⟩ := List.cons.inj hwhole
  cases rest with
  | nil =>
    obtain ⟨rfl, -⟩ := List.cons.inj htail
    exact absurd (by rw [hcs, List.getLast?_concat]) h
  | cons d rest =>
    obtain ⟨rfl, rfl⟩ := List.cons.inj htail
    exact isEscape_iff.2 (startsHead_of_append_sigil hsigil (List.cons_ne_nil _ _) ⟨_, _, hhead⟩)

/-- Of two beginnings of a text the shorter one is the beginning of the other one. -/
theorem exists_eq_append_of_byteLength_le {first second first' second' : List Char}
    (h : first ++ second = first' ++ second') (hle : byteLength first ≤ byteLength first') :
    ∃ more, first' = first ++ more ∧ second = more ++ second' := by
  obtain ⟨more, hmore, hsecond⟩ | ⟨more, rfl, rfl⟩ := List.append_eq_append_iff.1 h
  · exact ⟨more, hmore, hsecond⟩
  · rw [byteLength_append] at hle
    obtain rfl : more = [] := byteLength_eq_zero_iff.1 (by omega)
    exact ⟨[], by simp, rfl⟩

/-- A source that is read to its end is read to a place that no directive and no escape reaches
across. -/
theorem Scans.exists_yields_before {start : Nat} {before whole : List Char} {outline : Outline}
    (h : Scans start before whole outline) (hterminated : outline.unterminated = none)
    (hwhole : whole = cs ++ after)
    (hdirectives : ∀ d ∈ outline.directives, d.span.stop ≤ byteLength (before ++ cs) ∨
      byteLength (before ++ cs) ≤ d.span.start)
    (hescapes : ∀ front rest, cs = front ++ rest → rest ≠ [] → IsEscape (rest ++ after) →
      IsEscape rest) : ∃ items, Yields after cs items := by
  induction h generalizing cs with
  | done =>
    obtain ⟨rfl, -⟩ := List.append_eq_nil_iff.1 hwhole.symm
    exact ⟨[], .nil⟩
  | @literal start before whole c outline hescape hhead _ ih =>
    cases cs with
    | nil => exact ⟨[], .nil⟩
    | cons d cs =>
      obtain ⟨rfl, rfl⟩ := List.cons.inj hwhole
      obtain ⟨items, hitems⟩ := ih hterminated rfl (by simpa using hdirectives)
        fun front rest hcs => hescapes (c :: front) rest (by rw [hcs]; rfl)
      refine ⟨_, .literal hescape ?_ hitems⟩
      rintro ⟨name, inside, h⟩
      exact hhead name inside h
  | @escape start before whole sigil outline hescape _ ih =>
    cases cs with
    | nil => exact ⟨[], .nil⟩
    | cons c cs =>
      obtain ⟨rfl, htail⟩ := List.cons.inj hwhole
      cases cs with
      | nil =>
        rw [hwhole] at hescape
        cases hescapes [] _ rfl (List.cons_ne_nil _ _) hescape
      | cons d cs =>
        obtain ⟨rfl, rfl⟩ := List.cons.inj htail
        rw [Outline.directives_prepend, filterMap_directive?_textPiece] at hdirectives
        obtain ⟨items, hitems⟩ := ih hterminated rfl (by simpa using hdirectives)
          fun front rest hcs => hescapes (sigil :: sigil :: front) rest (by rw [hcs]; rfl)
        exact ⟨_, .escape hescape hitems⟩
  | @directive start before name body whole sigil outline hescape hhead hbalanced _ ih =>
    rw [Outline.directives_prepend, List.filterMap_append, filterMap_directive?_textPiece,
      List.nil_append] at hdirectives
    obtain ⟨hd, hrest⟩ := List.forall_mem_cons.1 hdirectives
    cases cs with
    | nil => exact ⟨[], .nil⟩
    | cons c cs =>
      have hsplit (more : List Char) : sigil :: (name ++ '{' :: (body ++ '}' :: more)) =
          sigil :: name ++ '{' :: body ++ ['}'] ++ more := by simp
      have hstop : byteLength (sigil :: name ++ '{' :: body ++ ['}']) ≤ byteLength (c :: cs) := by
        have hpos := c.utf8Size_pos
        simp only [directiveAt, byteLength_append, byteLength_cons, byteLength_nil] at hd ⊢
        omega
      rw [hsplit] at hwhole
      obtain ⟨more, hmore, rfl⟩ := exists_eq_append_of_byteLength_le hwhole hstop
      rw [hmore] at hrest hescapes
      obtain ⟨items, hitems⟩ := ih hterminated rfl (by simpa using hrest)
        fun front rest hcs => hescapes (sigil :: name ++ '{' :: body ++ ['}'] ++ front) rest
          (by rw [hcs]; simp)
      rw [hmore, ← hsplit]
      exact ⟨_, .directive (by simpa using hescape) (hhead.withInside _) hbalanced hitems⟩
  | unterminated => cases hterminated

end First

/-! ### Both parts -/

section Both

variable {start start' : Nat} {before before' cs ds after : List Char} {outline : Outline}
  {d d' : Directive}

private theorem Outline.prepend_prepend (pieces pieces' : List Piece) (outline : Outline) :
    (outline.prepend pieces').prepend pieces = outline.prepend (pieces ++ pieces') := by
  rw [prepend, prepend, prepend, List.append_assoc]

/-- The end of a sealed text is sealed. -/
theorem Sealed.behind (cs : List Char) (h : Sealed (cs ++ ds) after) : Sealed ds after :=
  fun front rest hds => h (cs ++ front) rest (by rw [hds, List.append_assoc])

/-- A sealed text is read on its own, up to a literal text at its end, which may go on with what
stands behind it. -/
theorem Scans.exists_front (h : Scans start before cs outline)
    (hterminated : outline.unterminated = none) :
    ∃ pieces start', outline.pieces = pieces ++ textPiece start' (byteLength (before ++ cs)) ∧
      ∀ after, Sealed cs after → ∀ behind, Scans start' (before ++ cs) after behind →
        Scans start before (cs ++ after) (behind.prepend pieces) := by
  induction h with
  | @done start before =>
    refine ⟨[], start, by rw [List.append_nil]; rfl, fun after _ behind hbehind => ?_⟩
    rwa [List.append_nil] at hbehind
  | @literal start before cs c outline hescape hhead _ ih =>
    obtain ⟨pieces, start', hpieces, hfront⟩ := ih hterminated
    refine ⟨pieces, start', by simpa using hpieces, fun after hsealed behind hbehind => ?_⟩
    have hwhole := hsealed [] _ rfl (List.cons_ne_nil c cs)
    refine .literal (fun h => hescape (hwhole.2 h)) (fun name inside h => ?_)
      (hfront after (Sealed.behind [c] hsealed) behind (by simpa using hbehind))
    obtain ⟨name, inside, h⟩ := hwhole.1 ⟨name, inside, h⟩
    exact hhead name inside h
  | @escape start before cs sigil outline hescape _ ih =>
    obtain ⟨pieces, start', hpieces, hfront⟩ := ih hterminated
    refine ⟨textPiece start (byteLength (before ++ [sigil])) ++ pieces, start', ?_,
      fun after hsealed behind hbehind => ?_⟩
    · rw [Outline.prepend, hpieces]
      simp
    · rw [← Outline.prepend_prepend]
      exact .escape (hescape.append after)
        (hfront after (Sealed.behind [sigil, sigil] hsealed) behind (by simpa using hbehind))
  | @directive start before name body cs sigil outline hescape hhead hbalanced _ ih =>
    have hsplit : sigil :: (name ++ '{' :: (body ++ '}' :: cs)) =
        sigil :: name ++ '{' :: body ++ ['}'] ++ cs := by simp
    obtain ⟨pieces, start', hpieces, hfront⟩ := ih hterminated
    refine ⟨textPiece start (byteLength before) ++ [.directive (directiveAt before sigil name body)]
      ++ pieces, start', ?_, fun after hsealed behind hbehind => ?_⟩
    · rw [Outline.prepend, hpieces]
      simp
    · have hwhole := (hsealed [] _ rfl (List.cons_ne_nil _ _)).2
      have happended := hhead.append after
      simp only [List.cons_append, List.append_assoc] at hwhole happended
      rw [← Outline.prepend_prepend]
      have hscans := hfront after (Sealed.behind _ (hsplit ▸ hsealed)) behind
        (by simpa using hbehind)
      simpa using Scans.directive (fun h => hescape (hwhole h)) happended hbalanced hscans
  | unterminated => cases hterminated

theorem Directive.MovedTo.behind (front : List Char)
    (h : Directive.MovedTo (before ++ front) (before' ++ front) cs d d') :
    Directive.MovedTo before before' (front ++ cs) d d' := by
  obtain ⟨more, sigil, name, body, back, rfl, rfl, rfl⟩ := h
  exact ⟨front ++ more, sigil, name, body, back, by simp, by simp, by simp⟩

/-- Behind another text the same is read, at other places. -/
theorem Scans.exists_moved (h : Scans start before cs outline) (start' : Nat)
    (before' : List Char) :
    ∃ outline', Scans start' before' cs outline' ∧
      (outline.unterminated = none → outline'.unterminated = none) ∧
      List.Forall₂ (Directive.MovedTo before before' cs) outline.directives
        outline'.directives := by
  induction h generalizing start' before' with
  | done =>
    refine ⟨_, .done, id, ?_⟩
    rw [Outline.directives, Outline.directives, filterMap_directive?_textPiece,
      filterMap_directive?_textPiece]
    exact .nil
  | @literal start before cs c outline hescape hhead _ ih =>
    obtain ⟨outline', hscans, hkept, hmoved⟩ := ih start' (before' ++ [c])
    exact ⟨outline', .literal hescape hhead hscans, hkept, hmoved.imp fun _ _ => .behind [c]⟩
  | @escape start before cs sigil outline hescape _ ih =>
    obtain ⟨outline', hscans, hkept, hmoved⟩ := ih _ (before' ++ [sigil, sigil])
    refine ⟨_, .escape hescape hscans, hkept, ?_⟩
    rw [Outline.directives_prepend, Outline.directives_prepend, filterMap_directive?_textPiece,
      filterMap_directive?_textPiece]
    exact hmoved.imp fun _ _ => .behind [sigil, sigil]
  | @directive start before name body cs sigil outline hescape hhead hbalanced _ ih =>
    have hsplit : sigil :: (name ++ '{' :: (body ++ '}' :: cs)) =
        sigil :: name ++ '{' :: body ++ ['}'] ++ cs := by simp
    obtain ⟨outline', hscans, hkept, hmoved⟩ :=
      ih _ (before' ++ sigil :: name ++ '{' :: body ++ ['}'])
    refine ⟨_, .directive hescape hhead hbalanced hscans, hkept, ?_⟩
    rw [Outline.directives_prepend, Outline.directives_prepend, List.filterMap_append,
      List.filterMap_append, filterMap_directive?_textPiece, filterMap_directive?_textPiece]
    refine .cons ⟨[], sigil, name, body, cs, rfl, by simp, by simp⟩ (hmoved.imp fun _ _ hd => ?_)
    rw [hsplit]
    exact .behind _ (by simpa using hd)
  | @unterminated start before cs name inside hescape hhead hunbalanced =>
    refine ⟨_, .unterminated hescape hhead hunbalanced, nofun, ?_⟩
    rw [Outline.directives, Outline.directives, filterMap_directive?_textPiece,
      filterMap_directive?_textPiece]
    exact .nil

/-- The directives of what is read to its end stand in it. -/
theorem Scans.movedTo_self (h : Scans start before cs outline)
    (hterminated : outline.unterminated = none) (hd : d ∈ outline.directives) :
    Directive.MovedTo before before cs d d := by
  obtain ⟨front, sigil, name, body, back, -, -, hcs, hdirective, -⟩ :=
    h.exists_around hterminated (Outline.mem_directives.1 hd)
  exact ⟨front, sigil, name, body, back, hcs, hdirective, hdirective⟩

end Both

/-! ### Comments at seams -/

/-- A comment with this text. -/
def commentOf (text : String) : String :=
  "@comment\x7b" ++ text ++ "\x7d"

private theorem toList_commentOf (text : String) :
    (commentOf text).toList = '@' :: ("comment".toList ++ '{' :: (text.toList ++ ['}'])) := by
  rw [commentOf, String.toList_append, String.toList_append]
  rfl

/-- A seam of a source where a comment with this text can stand: the text is the whole body of a
directive, and the sigil of the comment is not doubled. -/
structure TakesComment (before after text : String) : Prop extends IsSeam before after where
  captures : captureBody? (text.toList ++ ['}']) = some (text.toList, [])
  noSigil : before.toList.getLast? ≠ some '@'

private theorem takesComment_iff {before after text : String} :
    TakesComment before after text ↔ IsSeam before after ∧
      captureBody? (text.toList ++ ['}']) = some (text.toList, []) ∧
      before.toList.getLast? ≠ some '@' :=
  ⟨fun h => ⟨h.toIsSeam, h.captures, h.noSigil⟩, fun ⟨hseam, hcaptures, hsigil⟩ =>
    ⟨hseam, hcaptures, hsigil⟩⟩

instance (before after text : String) : Decidable (TakesComment before after text) :=
  decidable_of_iff _ takesComment_iff.symm

/-- With any text behind it, a comment starts with its head. -/
theorem isHead_commentOf (inside : List Char) :
    IsHead ('@' :: ("comment".toList ++ '{' :: inside)) "comment".toList inside :=
  .mk inside rfl (List.all_eq_true.1 (by decide +kernel))
    ((Option.any_eq_false ..).1 (by decide +kernel))

section Seam

variable {before after text : String}

/-- What is read of a source whose first part is sealed. -/
theorem Outline.exists_ofSource_append (hterminated : (ofSource before).unterminated = none) :
    ∃ pieces start', (ofSource before).directives = pieces.filterMap Piece.directive? ∧
      ∀ after : String, Sealed before.toList after.toList →
        ∀ outline, Scans start' before.toList after.toList outline →
          ofSource (before ++ after) = outline.prepend pieces := by
  have hscans : Scans 0 [] before.toList (ofSource before) := ofSource_eq_iff.1 rfl
  obtain ⟨pieces, start', hpieces, hfront⟩ := hscans.exists_front hterminated
  refine ⟨pieces, start', ?_, fun after hsealed outline houtline => ?_⟩
  · rw [directives, hpieces, List.filterMap_append, filterMap_directive?_textPiece, List.append_nil]
  · rw [ofSource_eq_iff, String.toList_append]
    exact hfront _ hsealed _ houtline

/-- The two parts of a source are read one by one, and no head reaches from one into the other. -/
theorem IsSeam.exists_yields (h : IsSeam before after)
    (hterminated : (Outline.ofSource (before ++ after)).unterminated = none) :
    Sealed before.toList after.toList ∧
      ∃ items items', Yields [] before.toList items ∧ Yields [] after.toList items' := by
  have hscans : Scans 0 [] (before.toList ++ after.toList)
      (Outline.ofSource (before ++ after)) := by
    rw [← String.toList_append]
    exact Outline.ofSource_eq_iff.1 rfl
  obtain ⟨items, hitems⟩ := hscans.exists_yields_before hterminated rfl
    (fun d hd => by
      rw [List.nil_append, byteLength_toList]
      exact h.directives d (Outline.mem_directives.1 hd)) h.escapes
  have hheads := hitems.startsHead_of_append h.escapes
  have hsealed : Sealed before.toList after.toList := fun front rest hcs hrest =>
    ⟨hheads front rest hcs hrest, h.escapes front rest hcs hrest⟩
  have hbefore : Yields [] before.toList items :=
    hitems.move hheads fun front rest _ _ => by simp
  obtain ⟨pieces, start', -, hfront⟩ :=
    Outline.exists_ofSource_append (Outline.yields_iff.1 hbefore).1
  have hbehind := Outline.scans_scan start' before.toList after.toList
  rw [hfront after hsealed _ hbehind] at hterminated
  obtain ⟨outline, hafter, hkept, -⟩ := hbehind.exists_moved 0 []
  obtain rfl := Outline.ofSource_eq_iff.2 hafter
  exact ⟨hsealed, items, _, hbefore, Outline.yields_iff.2 ⟨hkept hterminated, rfl⟩⟩

namespace TakesComment

variable (h : TakesComment before after text)

include h

private theorem balanced : Balanced '}' text.toList :=
  (captureBody?_eq_some_iff.1 h.captures).2

/-- In front of a comment a text is sealed. -/
theorem sealed (after : List Char) :
    Sealed before.toList ('@' :: ("comment".toList ++ '{' :: (text.toList ++ '}' :: after))) :=
  sealed_of_getLast?_ne (by decide) h.noSigil _

variable (hterminated : (Outline.ofSource (before ++ after)).unterminated = none)

include hterminated

/-- A comment at a seam is one more item. -/
theorem exists_yields :
    ∃ items items', Yields [] (before ++ after).toList (items ++ items') ∧
      Yields [] (before ++ commentOf text ++ after).toList
        (items ++ .directive "comment".toList text.toList :: items') := by
  obtain ⟨hsealed, items, items', hbefore, hafter⟩ := h.toIsSeam.exists_yields hterminated
  refine ⟨items, items', ?_, ?_⟩
  · rw [String.toList_append]
    exact .append (hbefore.followedBy (by rwa [List.append_nil])) hafter
  · have hhead := isHead_commentOf (text.toList ++ '}' :: after.toList)
    have hcomment : Yields [] ((commentOf text).toList ++ after.toList)
        (.directive "comment".toList text.toList :: items') := by
      rw [toList_commentOf]
      simp only [List.cons_append, List.append_assoc, List.nil_append]
      exact .directive (by simpa using hhead.not_isEscape) hhead h.balanced hafter
    rw [String.toList_append, String.toList_append, List.append_assoc]
    refine .append (hbefore.followedBy ?_) hcomment
    rw [List.append_nil, toList_commentOf]
    simpa using h.sealed after.toList

/-- A comment at a seam is one more directive; those in front of it stay where they are, and those
behind it move. -/
theorem exists_directives :
    ∃ ds es es', (Outline.ofSource (before ++ after)).directives = ds ++ es ∧
      (Outline.ofSource (before ++ commentOf text ++ after)).directives =
        ds ++ directiveAt before.toList '@' "comment".toList text.toList :: es' ∧
      (∀ d ∈ ds, Directive.MovedTo [] [] before.toList d d) ∧
      List.Forall₂ (Directive.MovedTo before.toList (before ++ commentOf text).toList after.toList)
        es es' := by
  obtain ⟨hsealed, items, items', hbefore, hafter⟩ := h.toIsSeam.exists_yields hterminated
  have hfirst := (Outline.yields_iff.1 hbefore).1
  obtain ⟨pieces, start', hpieces, hfront⟩ := Outline.exists_ofSource_append hfirst
  have hbehind := Outline.scans_scan start' before.toList after.toList
  obtain ⟨outline, hmoved, -, hdirectives⟩ := hbehind.exists_moved
    (byteLength (before ++ commentOf text).toList) (before ++ commentOf text).toList
  refine ⟨(Outline.ofSource before).directives, _, outline.directives, ?_, ?_, ?_, hdirectives⟩
  · rw [hfront after hsealed _ hbehind, Outline.directives_prepend, hpieces]
  · have hhead := isHead_commentOf (text.toList ++ '}' :: after.toList)
    have hopened : (before ++ commentOf text).toList =
        before.toList ++ '@' :: "comment".toList ++ '{' :: text.toList ++ ['}'] := by
      rw [String.toList_append, toList_commentOf]
      simp
    have hcomment : '@' :: ("comment".toList ++ '{' :: (text.toList ++ '}' :: after.toList)) =
        (commentOf text ++ after).toList := by
      rw [String.toList_append, toList_commentOf]
      simp
    rw [hopened] at hmoved
    have hscans : Scans start' before.toList _ _ :=
      .directive hhead.not_isEscape hhead h.balanced hmoved
    rw [hcomment] at hscans
    have hsealed' : Sealed before.toList (commentOf text ++ after).toList := by
      rw [← hcomment]
      exact h.sealed after.toList
    rw [String.append_assoc, hfront _ hsealed' _ hscans, Outline.directives_prepend,
      Outline.directives_prepend, hpieces, List.filterMap_append, filterMap_directive?_textPiece]
    rfl
  · have hscans : Scans 0 [] before.toList (Outline.ofSource before) :=
      Outline.ofSource_eq_iff.1 rfl
    exact fun d => hscans.movedTo_self hfirst

end TakesComment

end Seam

end TextTemplate
