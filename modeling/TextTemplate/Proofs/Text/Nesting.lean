import TextTemplate.Proofs.Text.Capture

/-!
# Inside and outside strings and brackets

A reader that cuts texts at separators counts the brackets that are open, of whatever kinds they
are, and knows whether it is in a string. In a text that closes its brackets, each by its own
closer, and its strings, the reader stands outside of them where both sides of the place close
theirs.

## Main definitions

* `Nesting`, `Nesting.next`: what the reader keeps, and one character more.
* `StringsEnd`: texts in which all strings end.

## Main results

* `StringsEnd.of_balanced`, `StringsEnd.trim`: such texts.
* `Closed.behind_eq_outside_iff`: the places outside the strings and brackets of a text.
-/

namespace TextTemplate

/-! ### Strings and brackets -/

/-- How many brackets are open where a reader stands, whatever their kinds, and whether it is in a
string. -/
structure Nesting where
  depth : Nat
  quoting : Quoting
deriving DecidableEq

namespace Nesting

/-- In no bracket and in no string. -/
def outside : Nesting :=
  ⟨0, .plain⟩

/-- The reader behind one more character. -/
def next : Nesting → Char → Nesting
  | ⟨depth, .plain⟩, c =>
    ⟨if (closerOf c).isSome then depth + 1 else if isCloser c then depth - 1 else depth,
      Quoting.plain.next c⟩
  | ⟨depth, quoting⟩, c => ⟨depth, quoting.next c⟩

/-- The reader behind a text. -/
def behind (nesting : Nesting) (cs : List Char) : Nesting :=
  cs.foldl next nesting

variable {depth : Nat} {c : Char}

theorem behind_cons (nesting : Nesting) (c : Char) (cs : List Char) :
    nesting.behind (c :: cs) = (nesting.next c).behind cs :=
  rfl

private theorem behind_append (nesting : Nesting) (cs ds : List Char) :
    nesting.behind (cs ++ ds) = (nesting.behind cs).behind ds :=
  List.foldl_append

theorem next_of_isPlain (h : IsPlain c) : next ⟨depth, .plain⟩ c = ⟨depth, .plain⟩ := by
  simp [next, Quoting.next, h.1, h.2.1, h.2.2]

theorem next_of_isQuote (h : isQuote c = true) : next ⟨depth, .plain⟩ c = ⟨depth, .quoted c⟩ := by
  rw [isQuote, Bool.or_eq_true, beq_iff_eq, beq_iff_eq] at h
  rcases h with rfl | rfl <;> rfl

theorem next_of_closerOf {closer : Char} (h : closerOf c = some closer) :
    next ⟨depth, .plain⟩ c = ⟨depth + 1, .plain⟩ := by
  simp [next, Quoting.next, h, isQuote_of_closerOf h]

theorem next_of_isCloser (h : isCloser c = true) :
    next ⟨depth, .plain⟩ c = ⟨depth - 1, .plain⟩ := by
  simp [next, Quoting.next, h, closerOf_of_isCloser h, isQuote_of_isCloser h]

/-- A character beyond ASCII is no bracket. -/
theorem next_of_le (h : 128 ≤ c.toNat) (quoting : Quoting) :
    next ⟨depth, quoting⟩ c = ⟨depth, quoting.next c⟩ := by
  cases quoting with
  | plain => simp [next, (isPlain_of_le h).1.2.1, (isPlain_of_le h).1.2.2]
  | quoted | escaped => rfl

end Nesting

/-! ### Strings -/

/-- Every string that begins in the text ends in it. -/
def StringsEnd (cs : List Char) : Prop :=
  cs.foldl Quoting.next .plain = .plain

section StringsEnd

variable {cs ds : List Char}

theorem Nesting.quoting_behind (nesting : Nesting) (cs : List Char) :
    (nesting.behind cs).quoting = cs.foldl Quoting.next nesting.quoting := by
  induction cs generalizing nesting with
  | nil => rfl
  | cons c cs ih =>
    obtain ⟨depth, quoting⟩ := nesting
    rw [behind_cons, ih, List.foldl_cons]
    cases quoting <;> rfl

private theorem Quoting.Proper.foldl {quoting : Quoting} (h : quoting.Proper) (cs : List Char) :
    (cs.foldl Quoting.next quoting).Proper := by
  induction cs generalizing quoting with
  | nil => exact h
  | cons c cs ih => exact ih (h.next c)

/-- Behind a string, as many brackets are open as before it. -/
theorem Nesting.behind_quoted {quote : Char} (hquote : isQuote quote = true) (depth : Nat)
    (h : Quoted quote cs) : behind ⟨depth, .quoted quote⟩ cs = ⟨depth, .plain⟩ := by
  induction h with
  | ends => simp [behind, next, Quoting.next, ne_backslash_of_isQuote hquote]
  | escaped _ ih => exact ih
  | char hplain hinside _ ih =>
    rw [behind_cons, next, Quoting.next, if_neg hplain, if_neg hinside]
    · exact ih
    · exact fun hsame => Quoting.noConfusion hsame

/-- No blank ends a string. -/
theorem Quoting.eq_plain_of_foldl_next {quoting : Quoting} (hproper : quoting.Proper)
    (hblank : ∀ c ∈ cs, isBlank c = true) (h : cs.foldl next quoting = .plain) :
    quoting = .plain := by
  induction cs generalizing quoting with
  | nil => exact h
  | cons c cs ih =>
    obtain ⟨hblanks, hallBlank⟩ := List.forall_mem_cons.1 hblank
    have hbehind : quoting.next c = .plain := ih (hproper.next c) hallBlank h
    cases quoting with
    | plain => rfl
    | quoted quote =>
      have hnoQuote := (isPlain_of_notMem_specials (notMem_specials_of_isBlank hblanks)).1
      have hnoEnd : c ≠ quote := by
        rintro rfl
        cases hnoQuote.symm.trans hproper
      rw [next, if_neg hnoEnd] at hbehind
      split_ifs at hbehind
    | escaped => cases hbehind

namespace StringsEnd

theorem nil : StringsEnd [] :=
  rfl

/-- A character that is no quote changes nothing outside strings. -/
theorem cons_iff {c : Char} (hnoQuote : isQuote c = false) :
    StringsEnd (c :: cs) ↔ StringsEnd cs := by
  rw [StringsEnd, List.foldl_cons, Quoting.next, if_neg (Bool.eq_false_iff.1 hnoQuote), StringsEnd]

private theorem append_iff (h : StringsEnd cs) : StringsEnd (cs ++ ds) ↔ StringsEnd ds := by
  rw [StringsEnd, List.foldl_append, h, StringsEnd]

/-- The strings of a body end in it. -/
theorem of_balanced {closer : Char} (h : Balanced closer cs) : StringsEnd cs := by
  induction h with
  | nil => exact nil
  | char hnoQuote _ _ _ ih => exact (cons_iff hnoQuote).2 ih
  | string hquote hquoted _ ih =>
    have hinside := congrArg Nesting.quoting (Nesting.behind_quoted hquote 0 hquoted)
    rw [Nesting.quoting_behind] at hinside
    rw [StringsEnd, List.foldl_cons, Quoting.next, if_pos hquote, List.foldl_append, hinside]
    exact ih
  | bracket hopens _ _ ihin ih =>
    refine (cons_iff (isQuote_of_closerOf hopens)).2 ((append_iff ihin).2 ?_)
    exact (cons_iff (isQuote_of_isCloser (isCloser_of_closerOf hopens))).2 ih

private theorem of_blank (h : ∀ c ∈ cs, isBlank c = true) : StringsEnd cs := by
  induction cs with
  | nil => exact nil
  | cons c cs ih =>
    obtain ⟨hblank, hblanks⟩ := List.forall_mem_cons.1 h
    have hplain := isPlain_of_notMem_specials (notMem_specials_of_isBlank hblank)
    exact (cons_iff hplain.1).2 (ih hblanks)

/-- So they do if blanks are taken away from both ends. -/
theorem trim (h : StringsEnd cs) : StringsEnd (trimEnd (trimStart cs)) := by
  have hfront : StringsEnd (trimStart cs) := by
    rw [← List.takeWhile_append_dropWhile (p := isBlank) (l := cs)] at h
    exact (append_iff (of_blank (List.all_eq_true.1 List.all_takeWhile))).1 h
  have hsplit : trimStart cs =
      trimEnd (trimStart cs) ++ ((trimStart cs).reverse.takeWhile isBlank).reverse := by
    rw [trimEnd, ← List.reverse_append, List.takeWhile_append_dropWhile, List.reverse_reverse]
  rw [hsplit, StringsEnd, List.foldl_append] at hfront
  have hproper : Quoting.plain.Proper := trivial
  refine Quoting.eq_plain_of_foldl_next (hproper.foldl _) ?_ hfront
  exact fun c hmem => List.all_eq_true.1 List.all_takeWhile c (List.mem_reverse.1 hmem)

theorem intercalate {separator : Char} (hplain : IsPlain separator) {texts : List (List Char)}
    (h : ∀ text ∈ texts, StringsEnd text) : StringsEnd ([separator].intercalate texts) := by
  induction texts with
  | nil => exact nil
  | cons text texts ih =>
    obtain ⟨hfirst, hmore⟩ := List.forall_mem_cons.1 h
    cases texts with
    | nil => rwa [List.intercalate_singleton]
    | cons second texts =>
      rw [List.intercalate_cons_cons, List.append_assoc]
      exact (append_iff hfirst).2 ((cons_iff hplain.1).2 (ih hmore))

end StringsEnd

end StringsEnd

/-! ### Outside strings and brackets -/

section Closed

variable {cs ds : List Char} {depth : Nat}

/-- In front of the end of a string, the reader is in it, with as many brackets open as before. -/
theorem Nesting.exists_behind_eq {quote : Char} (h : Quoted quote (cs ++ ds)) (hne : ds ≠ []) :
    ∃ quoting, quoting ≠ .plain ∧ behind ⟨depth, .quoted quote⟩ cs = ⟨depth, quoting⟩ := by
  generalize hall : cs ++ ds = all at h
  induction h generalizing cs with
  | ends =>
    cases cs with
    | nil => exact ⟨.quoted quote, nofun, rfl⟩
    | cons c cs => exact absurd (List.append_eq_nil_iff.1 (List.cons.inj hall).2).2 hne
  | escaped _ ih =>
    cases cs with
    | nil => exact ⟨.quoted quote, nofun, rfl⟩
    | cons c cs =>
      obtain ⟨rfl, htail⟩ := List.cons.inj hall
      cases cs with
      | nil => exact ⟨.escaped quote, nofun, rfl⟩
      | cons d cs =>
        have hinside := ih (List.cons.inj htail).2
        exact hinside
  | char hplain hinside _ ih =>
    cases cs with
    | nil => exact ⟨.quoted quote, nofun, rfl⟩
    | cons c cs =>
      obtain ⟨rfl, htail⟩ := List.cons.inj hall
      rw [behind_cons, next, Quoting.next, if_neg hplain, if_neg hinside]
      · exact ih htail
      · nofun

/-- Behind a text that closes its brackets and strings, no more of them are open than before. -/
theorem Closed.behind_eq {avoid : Option Char} (h : Closed avoid cs) (depth : Nat) :
    Nesting.behind ⟨depth, .plain⟩ cs = ⟨depth, .plain⟩ := by
  induction h generalizing depth with
  | nil => rfl
  | char hplain _ _ ih => rw [Nesting.behind_cons, Nesting.next_of_isPlain hplain, ih]
  | string hquote hquoted _ ih =>
    rw [Nesting.behind_cons, Nesting.next_of_isQuote hquote, Nesting.behind_append,
      Nesting.behind_quoted hquote depth hquoted, ih]
  | bracket hopens _ _ ihin ih =>
    rw [Nesting.behind_cons, Nesting.next_of_closerOf hopens, Nesting.behind_append, ihin,
      Nesting.behind_cons, Nesting.next_of_isCloser (isCloser_of_closerOf hopens), ih]
    rfl

/-- In such a text no fewer brackets are open than before; and where no more are open and no string
is, both sides close their brackets and strings. -/
theorem Closed.of_append {avoid : Option Char} (h : Closed avoid (cs ++ ds)) (depth : Nat) :
    depth ≤ (Nesting.behind ⟨depth, .plain⟩ cs).depth ∧
      (Nesting.behind ⟨depth, .plain⟩ cs = ⟨depth, .plain⟩ →
        Closed avoid cs ∧ Closed avoid ds) := by
  generalize hall : cs ++ ds = all at h
  have hwhole := h
  induction h generalizing cs ds depth with
  | nil =>
    obtain ⟨rfl, rfl⟩ := List.append_eq_nil_iff.1 hall
    exact ⟨Nat.le_refl _, fun _ => ⟨.nil, .nil⟩⟩
  | char hplain hother hrest ih =>
    cases cs with
    | nil =>
      obtain rfl : ds = _ := hall
      exact ⟨Nat.le_refl _, fun _ => ⟨.nil, hwhole⟩⟩
    | cons c cs =>
      obtain ⟨rfl, htail⟩ := List.cons.inj hall
      obtain ⟨hle, hclosed⟩ := ih depth htail hrest
      rw [Nesting.behind_cons, Nesting.next_of_isPlain hplain]
      exact ⟨hle, fun hsame => ⟨.char hplain hother (hclosed hsame).1, (hclosed hsame).2⟩⟩
  | string hquote hquoted hrest ih =>
    cases cs with
    | nil =>
      obtain rfl : ds = _ := hall
      exact ⟨Nat.le_refl _, fun _ => ⟨.nil, hwhole⟩⟩
    | cons c cs =>
      obtain ⟨rfl, htail⟩ := List.cons.inj hall
      rw [Nesting.behind_cons, Nesting.next_of_isQuote hquote]
      obtain ⟨more, rfl, rfl⟩ | ⟨more, rfl, rfl⟩ := List.append_eq_append_iff.1 htail
      · cases more with
        | nil =>
          rw [List.append_nil] at hquoted
          rw [Nesting.behind_quoted hquote depth hquoted]
          exact ⟨Nat.le_refl _, fun _ => ⟨by simpa using Closed.string hquote hquoted .nil, hrest⟩⟩
        | cons d more =>
          obtain ⟨quoting, hinString, hsame⟩ :=
            Nesting.exists_behind_eq hquoted (List.cons_ne_nil d more)
          rw [hsame]
          exact ⟨Nat.le_refl _, fun hplain => absurd (congrArg Nesting.quoting hplain) hinString⟩
      · obtain ⟨hle, hclosed⟩ := ih depth rfl hrest
        rw [Nesting.behind_append, Nesting.behind_quoted hquote depth hquoted]
        exact ⟨hle, fun hsame => ⟨.string hquote hquoted (hclosed hsame).1, (hclosed hsame).2⟩⟩
  | bracket hopens hinner hrest ihin ih =>
    cases cs with
    | nil =>
      obtain rfl : ds = _ := hall
      exact ⟨Nat.le_refl _, fun _ => ⟨.nil, hwhole⟩⟩
    | cons c cs =>
      obtain ⟨rfl, htail⟩ := List.cons.inj hall
      rw [Nesting.behind_cons, Nesting.next_of_closerOf hopens]
      -- As long as the bracket is open, the reader is not back where it was.
      have hinBracket {nesting : Nesting} {p : Prop} (hle : depth + 1 ≤ nesting.depth) :
          depth ≤ nesting.depth ∧ (nesting = ⟨depth, .plain⟩ → p) :=
        ⟨Nat.le_of_succ_le hle, fun hsame => absurd (hsame ▸ hle) (Nat.not_succ_le_self _)⟩
      obtain ⟨more, rfl, rfl⟩ | ⟨more, rfl, hsplit⟩ := List.append_eq_append_iff.1 htail
      · exact hinBracket (ihin (depth + 1) rfl hinner).1
      · rw [Nesting.behind_append, hinner.behind_eq]
        cases more with
        | nil => exact hinBracket (Nat.le_refl _)
        | cons d more =>
          obtain ⟨rfl, rfl⟩ := List.cons.inj hsplit
          obtain ⟨hle, hclosed⟩ := ih depth rfl hrest
          rw [Nesting.behind_cons, Nesting.next_of_isCloser (isCloser_of_closerOf hopens)]
          exact ⟨hle, fun hsame => ⟨.bracket hopens hinner (hclosed hsame).1, (hclosed hsame).2⟩⟩

/-- In such a text, a place is outside all strings and brackets if both sides close theirs. -/
theorem Closed.behind_eq_outside_iff {separator : Char} (hplain : IsPlain separator)
    (h : Closed none (cs ++ separator :: ds)) :
    Nesting.outside.behind cs = .outside ↔ Closed none cs ∧ Closed none ds := by
  constructor
  · intro hsame
    obtain ⟨hfront, hback⟩ := (h.of_append 0).2 hsame
    refine ⟨hfront, ?_⟩
    cases hback with
    | char _ _ hrest => exact hrest
    | string hquote => cases hplain.1.symm.trans hquote
    | bracket hopens => cases hplain.2.1.symm.trans hopens
  · exact fun hsides => hsides.1.behind_eq 0

end Closed

end TextTemplate
