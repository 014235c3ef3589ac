import Mathlib.Tactic.SplitIfs
import TextTemplate.Source.Bracket

/-!
# Balanced texts

The text in front of a closing bracket, when nothing in it closes that bracket: its brackets nest,
each closed by its own closer, and quoted strings hide the brackets they hold.

## Main definitions

* `Quoted`: what stands behind a quote, up to the quote that ends the string.
* `Balanced`: what stands in front of a closer.

## Main results

* `captureBody?_eq_some_iff`: the body of a directive is the balanced text in front of a brace.
-/

namespace TextTemplate

/-- The text behind a quote, up to the quote that ends the string. -/
inductive Quoted (quote : Char) : List Char → Prop
  | ends : Quoted quote [quote]
  | escaped {c : Char} {cs : List Char} (rest : Quoted quote cs) : Quoted quote ('\\' :: c :: cs)
  | char {c : Char} {cs : List Char} (plain : c ≠ '\\') (inside : c ≠ quote)
      (rest : Quoted quote cs) : Quoted quote (c :: cs)

/-- The text has no use for the closer behind it: its own brackets are closed, and every such closer
in it closes one of them or stands in a string. -/
inductive Balanced : Char → List Char → Prop
  | nil {closer : Char} : Balanced closer []
  | char {closer c : Char} {cs : List Char} (noQuote : isQuote c = false)
      (noOpener : closerOf c = none) (other : c ≠ closer) (rest : Balanced closer cs) :
      Balanced closer (c :: cs)
  | string {closer quote : Char} {inside cs : List Char} (isQuote : isQuote quote = true)
      (quoted : Quoted quote inside) (rest : Balanced closer cs) :
      Balanced closer (quote :: (inside ++ cs))
  | bracket {closer opener inner : Char} {inside cs : List Char}
      (opens : closerOf opener = some inner) (balanced : Balanced inner inside)
      (rest : Balanced closer cs) : Balanced closer (opener :: (inside ++ inner :: cs))

/-- The text lacks nothing but the last of these closers: a balanced text stands in front of
each. -/
inductive Fills : List Char → List Char → Prop
  | last {closer : Char} {cs : List Char} (balanced : Balanced closer cs) : Fills [closer] cs
  | level {closer : Char} {closers cs ds : List Char} (balanced : Balanced closer cs)
      (fills : Fills closers ds) : Fills (closer :: closers) (cs ++ closer :: ds)

namespace Fills

variable {closer : Char} {closers cs : List Char}

theorem balanced : Fills [closer] cs → Balanced closer cs
  | .last h => h
  | .level _ h => nomatch h

private theorem char {c : Char} (hq : isQuote c = false) (ho : closerOf c = none)
    (hc : c ≠ closer) :
    Fills (closer :: closers) cs → Fills (closer :: closers) (c :: cs)
  | .last h => .last (.char hq ho hc h)
  | .level h hs => .level (.char hq ho hc h) hs

theorem string {quote : Char} {inside : List Char} (hq : isQuote quote = true)
    (hin : Quoted quote inside) : Fills closers cs → Fills closers (quote :: (inside ++ cs))
  | .last h => .last (.string hq hin h)
  | .level h hs => by simpa using level (.string hq hin h) hs

theorem bracket {opener inner : Char} (ho : closerOf opener = some inner) :
    Fills (inner :: closer :: closers) cs → Fills (closer :: closers) (opener :: cs)
  | .level h (.last h') => .last (.bracket ho h h')
  | .level h (.level h' hs) => by simpa using level (.bracket ho h h') hs

end Fills

theorem isCloser_of_closerOf {c closer : Char} (h : closerOf c = some closer) :
    isCloser closer = true := by
  unfold closerOf at h
  split at h <;> cases h <;> rfl

theorem isQuote_of_closerOf {c closer : Char} (h : closerOf c = some closer) :
    isQuote c = false := by
  unfold closerOf at h
  split at h <;> first | rfl | cases h

theorem closerOf_of_isCloser {c : Char} (h : isCloser c = true) : closerOf c = none := by
  simp only [isCloser, Bool.or_eq_true, beq_iff_eq] at h
  obtain (rfl | rfl) | rfl := h <;> rfl

theorem isQuote_of_isCloser {c : Char} (h : isCloser c = true) : isQuote c = false := by
  simp only [isCloser, Bool.or_eq_true, beq_iff_eq] at h
  obtain (rfl | rfl) | rfl := h <;> rfl

/-! ### Reading a balanced text -/

theorem ne_backslash_of_isQuote {quote : Char} (h : isQuote quote = true) : quote ≠ '\\' := by
  rintro rfl
  cases h

/-- A quoted string is read to its end. -/
theorem captureUpTo?_quoted {quote : Char} {inside : List Char} (hq : isQuote quote = true)
    (h : Quoted quote inside) (expected cs : List Char) :
    captureUpTo? expected (.quoted quote) (inside ++ cs) =
      (captureUpTo? expected .plain cs).map fun (body, rest) => (inside ++ body, rest) := by
  induction h with
  | ends => simp [captureUpTo?, ne_backslash_of_isQuote hq]
  | escaped _ ih =>
    simp only [List.cons_append, captureUpTo?, if_true, ih, Option.map_map]
    rfl
  | char hplain hinside _ ih =>
    simp only [List.cons_append, captureUpTo?, if_neg hplain, if_neg hinside, ih, Option.map_map]
    rfl

/-- A balanced text is read to its end. -/
theorem captureUpTo?_balanced {closer : Char} {inside : List Char} (h : Balanced closer inside)
    (outer cs : List Char) :
    captureUpTo? (closer :: outer) .plain (inside ++ cs) =
      (captureUpTo? (closer :: outer) .plain cs).map
        fun (body, rest) => (inside ++ body, rest) := by
  induction h generalizing outer cs with
  | nil => simp
  | char hquote hopener hother _ ih =>
    simp [captureUpTo?, hquote, hopener, Ne.symm hother, ih]
    rfl
  | string hquote hin _ ih =>
    simp [captureUpTo?, hquote, captureUpTo?_quoted hquote hin, ih]
    rfl
  | bracket hopens _ _ ihin ih =>
    have hc := isCloser_of_closerOf hopens
    have hquote := isQuote_of_closerOf hopens
    simp [captureUpTo?, hopens, hquote, ihin, hc, isQuote_of_isCloser hc,
      closerOf_of_isCloser hc, ih]
    rfl

/-- What has been read up to the last closer, when the reader stood there in such a quoting. -/
def Within (expected body : List Char) : Quoting → Prop
  | .plain => Fills expected body
  | .quoted quote =>
    ∃ inside more, body = inside ++ more ∧ Quoted quote inside ∧ Fills expected more
  | .escaped quote =>
    ∃ c inside more, body = c :: (inside ++ more) ∧ Quoted quote inside ∧ Fills expected more

private theorem within_of_captureUpTo? {expected cs body rest : List Char} {q : Quoting}
    (hne : expected ≠ []) (hclosers : ∀ closer ∈ expected, isCloser closer = true)
    (h : captureUpTo? expected q cs = some (body, rest)) :
    Within expected body q ∧ cs = body ++ expected.getLast hne :: rest := by
  induction cs generalizing expected q body rest with
  | nil => simp [captureUpTo?] at h
  | cons c cs ih =>
    have hstep {e : List Char} {q : Quoting} (he : e ≠ [])
        (hclosers : ∀ closer ∈ e, isCloser closer = true)
        (h : (captureUpTo? e q cs).map (fun (b, r) => (c :: b, r)) = some (body, rest)) :
        ∃ b, body = c :: b ∧ Within e b q ∧ c :: cs = body ++ e.getLast he :: rest := by
      obtain ⟨⟨b, r⟩, hb, heq⟩ := Option.map_eq_some_iff.1 h
      cases heq
      obtain ⟨hw, rfl⟩ := ih he hclosers hb
      exact ⟨b, rfl, hw, rfl⟩
    cases q with
    | escaped quote =>
      obtain ⟨b, rfl, ⟨inside, more, rfl, hin, hfills⟩, hcs⟩ := hstep hne hclosers h
      exact ⟨⟨c, inside, more, rfl, hin, hfills⟩, hcs⟩
    | quoted quote =>
      simp only [captureUpTo?] at h
      obtain ⟨b, rfl, hw, hcs⟩ := hstep hne hclosers h
      refine ⟨?_, hcs⟩
      split_ifs at hw with hback hend
      · obtain ⟨d, inside, more, rfl, hin, hfills⟩ := hw
        exact ⟨c :: d :: inside, more, rfl, hback ▸ .escaped hin, hfills⟩
      · exact ⟨[c], b, rfl, hend ▸ .ends, hw⟩
      · obtain ⟨inside, more, rfl, hin, hfills⟩ := hw
        exact ⟨c :: inside, more, rfl, .char hback hend hin, hfills⟩
    | plain =>
      obtain ⟨closer, closers, rfl⟩ := List.exists_cons_of_ne_nil hne
      rw [captureUpTo?] at h
      split at h
      · obtain ⟨b, rfl, ⟨inside, more, rfl, hin, hfills⟩, hcs⟩ := hstep hne hclosers h
        exact ⟨hfills.string ‹_› hin, hcs⟩
      · rename_i hquote
        split at h
        · rename_i inner hopens
          obtain ⟨b, rfl, hfills, hcs⟩ := hstep (List.cons_ne_nil inner _)
            (List.forall_mem_cons.2 ⟨isCloser_of_closerOf hopens, hclosers⟩) h
          exact ⟨hfills.bracket hopens, by simpa using hcs⟩
        · rename_i hopens
          split at h
          · rename_i hcloses
            simp only [List.head?_cons, Bool.and_eq_true, beq_iff_eq, Option.some.injEq] at hcloses
            obtain ⟨-, rfl⟩ := hcloses
            split at h
            · rename_i htail
              cases h
              subst htail
              exact ⟨.last .nil, rfl⟩
            · rename_i htail
              obtain ⟨b, rfl, hfills, hcs⟩ :=
                hstep (by simpa using htail) (List.forall_mem_cons.1 hclosers).2 h
              refine ⟨.level .nil hfills, ?_⟩
              rw [hcs, List.getLast_cons]
          · rename_i hcloses
            obtain ⟨b, rfl, hfills, hcs⟩ := hstep hne hclosers h
            refine ⟨hfills.char (by simpa using hquote) hopens ?_, hcs⟩
            rintro rfl
            simp [hclosers c (by simp)] at hcloses

/-- The body of a directive is the balanced text in front of a brace. -/
theorem captureBody?_eq_some_iff {cs body rest : List Char} :
    captureBody? cs = some (body, rest) ↔ cs = body ++ '}' :: rest ∧ Balanced '}' body := by
  constructor
  · intro h
    obtain ⟨hw, rfl⟩ := within_of_captureUpTo? (List.cons_ne_nil _ _) (by simp [isCloser]) h
    exact ⟨rfl, Fills.balanced hw⟩
  · rintro ⟨rfl, h⟩
    rw [captureBody?, captureUpTo?_balanced h]
    simp [captureUpTo?, isQuote, closerOf, isCloser]

end TextTemplate
