import TextTemplate.Proofs.Grammar.Balanced
import TextTemplate.Source.Directive

/-!
# The pieces of a source by rules

A source is read from left to right as literal text, escapes and directives. What the reader finds
where it stands depends on the text behind it alone: an escape, the head of a directive, or one more
character of the literal text.

## Main definitions

* `IsHead`, `IsEscape`: what a directive and an escape start with.
* `Scans`: the pieces of a text that stands behind another one.

## Main results

* `Outline.ofSource_eq_iff`: these rules are those of `Outline.ofSource`.
* `Scans.standsAt_of_mem`, `Scans.standsAt_of_unterminated`: every directive stands where its sigil
  stands.
-/

namespace TextTemplate

/-- The text starts with the head of a directive: a sigil, a name, which does not start with a
digit, and a brace; and `inside` stands behind the brace. -/
inductive IsHead : List Char → List Char → List Char → Prop
  | mk {sigil : Char} {name : List Char} (inside : List Char) (isSigil : isSigil sigil = true)
      (isName : ∀ c ∈ name, isDirectiveNamePart c = true)
      (noDigit : ∀ c ∈ name.head?, c.isDigit = false) :
      IsHead (sigil :: (name ++ '{' :: inside)) name inside

/-- The text starts with a sigil in front of a head with the same sigil. -/
inductive IsEscape : List Char → Prop
  | mk {sigil : Char} {cs name inside : List Char} (head : IsHead (sigil :: cs) name inside) :
      IsEscape (sigil :: sigil :: cs)

theorem directiveHead?_eq_some_iff {cs name inside : List Char} :
    directiveHead? cs = some (name, inside) ↔ IsHead cs name inside := by
  constructor
  · intro h
    cases cs with
    | nil => cases h
    | cons c cs =>
      rw [directiveHead?] at h
      split_ifs at h with hc
      split at h
      · rename_i heq
        cases h
        simp only [Bool.and_eq_true, Bool.not_eq_true'] at hc
        have hcs : cs = cs.takeWhile isDirectiveNamePart ++ '{' :: inside := by
          rw [← heq, List.takeWhile_append_dropWhile]
        have hname : ∀ d ∈ cs.takeWhile isDirectiveNamePart, isDirectiveNamePart d = true :=
          fun d hd => List.all_eq_true.1 List.all_takeWhile d hd
        have hdigit : ∀ d ∈ (cs.takeWhile isDirectiveNamePart).head?, d.isDigit = false := by
          intro d hd
          have hhead : cs.head? = some d := by
            rw [hcs, List.head?_append, hd]
            rfl
          simpa [hhead] using hc.2
        have := IsHead.mk inside hc.1 hname hdigit
        rwa [← hcs] at this
      · cases h
  · rintro ⟨_, hsigil, hname, hdigit⟩
    have hbrace : isDirectiveNamePart '{' = false := by decide
    have hhead : (name ++ '{' :: inside).head?.any Char.isDigit = false := by
      cases name with
      | nil => rfl
      | cons c name => simpa using hdigit c rfl
    rw [directiveHead?, hhead]
    simp [hsigil, List.dropWhile_append_of_pos hname, List.takeWhile_append_of_pos hname, hbrace]

theorem startsWithEscape_eq_true_iff {cs : List Char} :
    startsWithEscape cs = true ↔ IsEscape cs := by
  constructor
  · intro h
    match cs with
    | [] | [_] => cases h
    | c :: d :: cs =>
      simp only [startsWithEscape, Bool.and_eq_true, beq_iff_eq] at h
      obtain ⟨⟨-, rfl⟩, h⟩ := h
      obtain ⟨⟨name, inside⟩, h⟩ := Option.isSome_iff_exists.1 h
      exact .mk (directiveHead?_eq_some_iff.1 h)
  · rintro ⟨h⟩
    have hhead := directiveHead?_eq_some_iff.2 h
    cases h with
    | mk _ hsigil => simp [startsWithEscape, hhead, hsigil]

theorem IsHead.isSigil {c : Char} {cs name inside : List Char} (h : IsHead (c :: cs) name inside) :
    isSigil c = true := by
  obtain ⟨_, hsigil, _, _⟩ := h
  exact hsigil

/-- No part of a name, nor the brace behind it, is a sigil. -/
theorem isSigil_eq_false_of_mem {name : List Char} {c : Char}
    (hname : ∀ d ∈ name, isDirectiveNamePart d = true) (hc : c ∈ name ++ ['{']) :
    isSigil c = false := by
  have hc : isDirectiveNamePart c = true ∨ c = '{' := by
    rcases List.mem_append.1 hc with hc | hc
    · exact .inl (hname c hc)
    · exact .inr (List.mem_singleton.1 hc)
  rw [← Bool.not_eq_true]
  intro hsigil
  rw [isSigil, Bool.or_eq_true, beq_iff_eq, beq_iff_eq] at hsigil
  rcases hsigil with rfl | rfl <;> revert hc <;> decide

/-- A head has one sigil only. -/
theorem not_isHead_of_isSigil {c d : Char} {cs name inside : List Char} (h : isSigil d = true) :
    ¬IsHead (c :: d :: cs) name inside := by
  intro hhead
  generalize hrest : d :: cs = rest at hhead
  obtain ⟨inside, -, hname, -⟩ := hhead
  have hmem : d ∈ name ++ ['{'] := by
    cases name with
    | nil => exact List.mem_singleton.2 (List.cons.inj hrest).1
    | cons e name =>
      obtain ⟨rfl, -⟩ := List.cons.inj hrest
      exact List.mem_cons_self
  have hsigil := isSigil_eq_false_of_mem hname hmem
  simp [h] at hsigil

/-- Escapes do not overlap. -/
theorem IsEscape.not_isEscape_tail {sigil : Char} {cs : List Char}
    (h : IsEscape (sigil :: sigil :: cs)) : ¬IsEscape (sigil :: cs) := by
  obtain ⟨hhead⟩ := h
  rintro ⟨_⟩
  exact not_isHead_of_isSigil hhead.isSigil hhead

/-! ### Pieces -/

/-- The directive with this name and body, behind the text `before`. -/
def directiveAt (before : List Char) (sigil : Char) (name body : List Char) : Directive :=
  let opened := before ++ sigil :: name ++ ['{']
  ⟨String.ofList name, Position.after before,
    ⟨byteLength before, byteLength (opened ++ body ++ ['}'])⟩,
    ⟨byteLength opened, byteLength (opened ++ body)⟩⟩

/-- The pieces of a text that stands behind `before`; the literal text being read started at byte
`start`. -/
inductive Scans : Nat → List Char → List Char → Outline → Prop
  | done {start : Nat} {before : List Char} :
      Scans start before [] ⟨textPiece start (byteLength before), none⟩
  | literal {start : Nat} {before cs : List Char} {c : Char} {outline : Outline}
      (noEscape : ¬IsEscape (c :: cs)) (noHead : ∀ name inside, ¬IsHead (c :: cs) name inside)
      (rest : Scans start (before ++ [c]) cs outline) : Scans start before (c :: cs) outline
  | escape {start : Nat} {before cs : List Char} {sigil : Char} {outline : Outline}
      (escape : IsEscape (sigil :: sigil :: cs))
      (rest : Scans (byteLength (before ++ [sigil, sigil])) (before ++ [sigil, sigil]) cs outline) :
      Scans start before (sigil :: sigil :: cs)
        (outline.prepend (textPiece start (byteLength (before ++ [sigil]))))
  | directive {start : Nat} {before name body cs : List Char} {sigil : Char} {outline : Outline}
      (noEscape : ¬IsEscape (sigil :: (name ++ '{' :: (body ++ '}' :: cs))))
      (head : IsHead (sigil :: (name ++ '{' :: (body ++ '}' :: cs))) name (body ++ '}' :: cs))
      (balanced : Balanced '}' body)
      (rest : Scans (byteLength (before ++ sigil :: name ++ '{' :: body ++ ['}']))
        (before ++ sigil :: name ++ '{' :: body ++ ['}']) cs outline) :
      Scans start before (sigil :: (name ++ '{' :: (body ++ '}' :: cs)))
        (outline.prepend (textPiece start (byteLength before) ++
          [.directive (directiveAt before sigil name body)]))
  | unterminated {start : Nat} {before cs name inside : List Char} (noEscape : ¬IsEscape cs)
      (head : IsHead cs name inside)
      (unbalanced : ∀ body rest, inside = body ++ '}' :: rest → ¬Balanced '}' body) :
      Scans start before cs ⟨textPiece start (byteLength before),
        some (String.ofList name, Position.after before)⟩

namespace Outline

variable {start : Nat} {before : List Char}

private theorem scan_nil : scan start (Position.after before) [] =
    ⟨textPiece start (byteLength before), none⟩ := by
  rw [scan]
  rfl

private theorem scan_of_escape {sigil : Char} {cs : List Char}
    (h : IsEscape (sigil :: sigil :: cs)) :
    scan start (Position.after before) (sigil :: sigil :: cs) =
      prepend (textPiece start (byteLength (before ++ [sigil])))
        (scan (byteLength (before ++ [sigil, sigil])) (Position.after (before ++ [sigil, sigil]))
          cs) := by
  rw [scan, if_pos (startsWithEscape_eq_true_iff.2 h)]
  simp only [← Position.after_concat, List.tail_cons, List.append_assoc]
  rfl

private theorem scan_of_literal {c : Char} {cs : List Char} (hescape : ¬IsEscape (c :: cs))
    (hhead : ∀ name inside, ¬IsHead (c :: cs) name inside) :
    scan start (Position.after before) (c :: cs) =
      scan start (Position.after (before ++ [c])) cs := by
  rw [scan, if_neg (mt startsWithEscape_eq_true_iff.1 hescape)]
  split
  · rw [Position.after_concat]
  · exact absurd (directiveHead?_eq_some_iff.1 ‹_›) (hhead _ _)

theorem scan_of_unterminated {cs name inside : List Char} (hescape : ¬IsEscape cs)
    (hhead : IsHead cs name inside) (hbody : captureBody? inside = none) :
    scan start (Position.after before) cs = ⟨textPiece start (byteLength before),
      some (String.ofList name, Position.after before)⟩ := by
  have hsome := directiveHead?_eq_some_iff.2 hhead
  obtain ⟨_, hsigil, hname, hdigit⟩ := hhead
  rw [scan, if_neg (mt startsWithEscape_eq_true_iff.1 hescape)]
  split
  · rename_i heq
    cases hsome.symm.trans heq
  · rename_i heq
    cases hsome.symm.trans heq
    split
    · rfl
    · rename_i heq
      cases hbody.symm.trans heq

theorem scan_of_directive {sigil : Char} {name body cs : List Char}
    (hescape : ¬IsEscape (sigil :: (name ++ '{' :: (body ++ '}' :: cs))))
    (hhead : IsHead (sigil :: (name ++ '{' :: (body ++ '}' :: cs))) name (body ++ '}' :: cs))
    (hbody : Balanced '}' body) :
    scan start (Position.after before) (sigil :: (name ++ '{' :: (body ++ '}' :: cs))) =
      let whole := before ++ sigil :: name ++ '{' :: body ++ ['}']
      prepend (textPiece start (byteLength before) ++
          [.directive (directiveAt before sigil name body)])
        (scan (byteLength whole) (Position.after whole) cs) := by
  have hsome := directiveHead?_eq_some_iff.2 hhead
  have hcapture : captureBody? (body ++ '}' :: cs) = some (body, cs) :=
    captureBody?_eq_some_iff.2 ⟨rfl, hbody⟩
  rw [scan, if_neg (mt startsWithEscape_eq_true_iff.1 hescape)]
  split
  · rename_i heq
    cases hsome.symm.trans heq
  · rename_i heq
    cases hsome.symm.trans heq
    split
    · rename_i heq
      cases hcapture.symm.trans heq
    · rename_i heq
      cases hcapture.symm.trans heq
      simp only [← Position.after_concat, Position.foldl_step_after]
      simp [Position.after, directiveAt]

/-- A text has pieces by the rules, and they are those that the reader finds. -/
theorem scans_scan (start : Nat) (before cs : List Char) :
    Scans start before cs (scan start (Position.after before) cs) := by
  by_cases hescape : IsEscape cs
  · obtain ⟨h⟩ := hescape
    rw [scan_of_escape ⟨h⟩]
    exact .escape ⟨h⟩ (scans_scan _ _ _)
  · by_cases hhead : ∃ name inside, IsHead cs name inside
    · obtain ⟨name, inside, hhead⟩ := hhead
      cases hbody : captureBody? inside with
      | none =>
        rw [scan_of_unterminated hescape hhead hbody]
        refine .unterminated hescape hhead fun body rest heq hbalanced => ?_
        simp [captureBody?_eq_some_iff.2 ⟨heq, hbalanced⟩] at hbody
      | some captured =>
        obtain ⟨body, rest⟩ := captured
        obtain ⟨rfl, hbalanced⟩ := captureBody?_eq_some_iff.1 hbody
        obtain ⟨_, hsigil, hname, hdigit⟩ := id hhead
        rw [scan_of_directive hescape hhead hbalanced]
        exact .directive hescape hhead hbalanced (scans_scan _ _ _)
    · cases cs with
      | nil =>
        rw [scan_nil]
        exact .done
      | cons c cs =>
        have hnone : ∀ name inside, ¬IsHead (c :: cs) name inside :=
          fun name inside h => hhead ⟨name, inside, h⟩
        rw [scan_of_literal hescape hnone]
        exact .literal hescape hnone (scans_scan _ _ _)
termination_by cs.length

private theorem eq_scan_of_scans {start : Nat} {before cs : List Char} {outline : Outline}
    (h : Scans start before cs outline) : outline = scan start (Position.after before) cs := by
  induction h with
  | done => exact scan_nil.symm
  | literal hescape hhead _ ih => rw [ih, scan_of_literal hescape hhead]
  | escape hescape _ ih => rw [ih, scan_of_escape hescape]
  | directive hescape hhead hbody _ ih => rw [ih, scan_of_directive hescape hhead hbody]
  | unterminated hescape hhead hbody =>
    refine (scan_of_unterminated hescape hhead ?_).symm
    rw [Option.eq_none_iff_forall_ne_some]
    rintro ⟨body, rest⟩ h
    obtain ⟨heq, hbalanced⟩ := captureBody?_eq_some_iff.1 h
    exact hbody body rest heq hbalanced

/-- The rules for pieces are those of `ofSource`. -/
theorem ofSource_eq_iff {source : String} {outline : Outline} :
    ofSource source = outline ↔ Scans 0 [] source.toList outline :=
  ⟨fun h => h ▸ scans_scan 0 [] _, fun h => (eq_scan_of_scans h).symm⟩

end Outline

/-! ### Where directives stand -/

/-- The place is that of the sigil of a head with this name. -/
def StandsAt (source : List Char) (name : String) (position : Position) : Prop :=
  ∃ before rest inside, source = before ++ rest ∧ IsHead rest name.toList inside ∧
    position = Position.after before

theorem not_directive_mem_textPiece {d : Directive} {start stop : Nat} :
    .directive d ∉ textPiece start stop := by
  rw [textPiece]
  split_ifs <;> simp

namespace Scans

/-- Every directive stands where its sigil stands. -/
theorem standsAt_of_mem {start : Nat} {before cs : List Char} {outline : Outline} {d : Directive}
    (h : Scans start before cs outline) (hd : .directive d ∈ outline.pieces) :
    StandsAt (before ++ cs) d.name d.position := by
  induction h with
  | done => exact absurd hd not_directive_mem_textPiece
  | unterminated => exact absurd hd not_directive_mem_textPiece
  | literal _ _ _ ih => simpa using ih hd
  | escape _ _ ih =>
    obtain hd | hd := List.mem_append.1 hd
    · exact absurd hd not_directive_mem_textPiece
    · simpa using ih hd
  | directive _ hhead _ _ ih =>
    simp only [Outline.prepend, List.append_assoc, List.mem_append, List.mem_singleton,
      Piece.directive.injEq, not_directive_mem_textPiece, false_or] at hd
    obtain rfl | hd := hd
    · exact ⟨_, _, _, rfl, by simpa [directiveAt] using hhead, rfl⟩
    · simpa using ih hd

/-- So does the directive whose body is not closed. -/
theorem standsAt_of_unterminated {start : Nat} {before cs : List Char} {outline : Outline}
    {name : String} {position : Position} (h : Scans start before cs outline)
    (hname : outline.unterminated = some (name, position)) :
    StandsAt (before ++ cs) name position := by
  induction h with
  | done => cases hname
  | literal _ _ _ ih => simpa using ih hname
  | escape _ _ ih => simpa using ih hname
  | directive _ _ _ _ ih => simpa using ih hname
  | unterminated _ hhead =>
    cases hname
    exact ⟨_, _, _, rfl, by simpa using hhead, rfl⟩

end Scans

end TextTemplate
