/-!
# Positions in a source text

A position names a place between two characters of a text: how many bytes of its UTF-8 form lie
before it, and its line and column, both counted from one, the column in characters. It can be kept
up to date character by character (`Position.step`) or computed from the text before the place
(`Position.after`); `Position.after_eq_foldl` says that both give the same.
-/

namespace TextTemplate

/-- The number of bytes of a text in UTF-8. -/
def byteLength : List Char → Nat
  | [] => 0
  | c :: cs => c.utf8Size + byteLength cs

@[simp] theorem byteLength_nil : byteLength [] = 0 := rfl

@[simp] theorem byteLength_cons (c : Char) (cs : List Char) :
    byteLength (c :: cs) = c.utf8Size + byteLength cs := rfl

@[simp] theorem byteLength_append (cs ds : List Char) :
    byteLength (cs ++ ds) = byteLength cs + byteLength ds := by
  induction cs with
  | nil => simp
  | cons c cs ih => simp [ih, Nat.add_assoc]

@[simp] theorem byteLength_reverse (cs : List Char) : byteLength cs.reverse = byteLength cs := by
  induction cs with
  | nil => rfl
  | cons c cs ih => simp [ih, Nat.add_comm]

theorem byteLength_eq_zero_iff {cs : List Char} : byteLength cs = 0 ↔ cs = [] := by
  cases cs with
  | nil => simp
  | cons c cs =>
    have := c.utf8Size_pos
    simp only [byteLength_cons, reduceCtorEq, iff_false]
    omega

/-- A place in a text cuts it in one way. -/
theorem append_inj_of_byteLength_eq {before before' after after' : List Char}
    (h : before ++ after = before' ++ after') (hlength : byteLength before = byteLength before') :
    before = before' ∧ after = after' := by
  obtain ⟨more, rfl, rfl⟩ | ⟨more, rfl, rfl⟩ := List.append_eq_append_iff.1 h
  · have hmore : more = [] := byteLength_eq_zero_iff.1 (by simpa using hlength)
    simp [hmore]
  · have hmore : more = [] := byteLength_eq_zero_iff.1 (by simpa using hlength)
    simp [hmore]

theorem utf8ByteSize_ofList (cs : List Char) :
    (String.ofList cs).utf8ByteSize = byteLength cs := by
  induction cs with
  | nil => rfl
  | cons c cs ih =>
    rw [String.ofList_cons, String.utf8ByteSize_append, String.utf8ByteSize_singleton, ih,
      byteLength_cons]

theorem byteLength_toList (s : String) : byteLength s.toList = s.utf8ByteSize := by
  rw [← utf8ByteSize_ofList, String.ofList_toList]

/-- A place in a text. -/
structure Position where
  offset : Nat
  line : Nat
  column : Nat
deriving DecidableEq, Inhabited

namespace Position

/-- The place before the first character. -/
def start : Position := ⟨0, 1, 1⟩

/-- The place after one more character. -/
def step (p : Position) (c : Char) : Position where
  offset := p.offset + c.utf8Size
  line := if c = '\n' then p.line + 1 else p.line
  column := if c = '\n' then 1 else p.column + 1

/-- The place after a text that begins where the source begins. -/
def after (cs : List Char) : Position where
  offset := byteLength cs
  line := cs.count '\n' + 1
  column := (cs.reverse.takeWhile (· != '\n')).length + 1

@[simp] theorem after_nil : after [] = start := rfl

theorem after_concat (cs : List Char) (c : Char) : after (cs ++ [c]) = (after cs).step c := by
  by_cases h : c = '\n'
  · subst h
    simp [after, step]
  · simp [after, step, h]

theorem foldl_step_after (cs ds : List Char) :
    ds.foldl step (after cs) = after (cs ++ ds) := by
  induction ds generalizing cs with
  | nil => simp
  | cons d ds ih =>
    rw [List.foldl_cons, ← after_concat, ih]
    simp

/-- Counting along and computing from the text before the place agree. -/
theorem after_eq_foldl (cs : List Char) : after cs = cs.foldl step start := by
  rw [← after_nil, foldl_step_after]
  simp

end Position

end TextTemplate
