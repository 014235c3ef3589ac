/-!
# The places of characters in a string

A character of a string has a place, the number of characters before it, and an offset, the number
of bytes before it in UTF-8. The two agree where every character takes one byte, so that a place in
such a string is found at once; in any other string the characters before it are counted.

## Main definitions

* `positionAt` — the position in front of the character at a place.
* `charAt?` — the character at a place.

## Main statements

* `splits_positionAt` — so many characters stand before a place, the others behind it.
* `charAt?_eq_getElem?` — the character at a place is the one at that place of the list.
-/

namespace TextTemplate

/-- A position found at an offset is at that offset. -/
theorem offset_eq_of_pos? {source : String} {offset : String.Pos.Raw} {position : source.Pos}
    (h : source.pos? offset = some position) : position.offset = offset := by
  rw [String.pos?, Option.map_eq_some_iff] at h
  obtain ⟨_, h, rfl⟩ := h
  rw [String.Slice.pos?] at h
  split at h
  · cases h
    rfl
  · cases h

/-- There is a position between two texts that make up the source. -/
theorem exists_pos?_eq_some (before after : String) :
    ∃ position, (before ++ after).pos? ⟨before.utf8ByteSize⟩ = some position ∧
      position.Splits before after := by
  have h : (String.Pos.Raw.mk before.utf8ByteSize).IsValid (before ++ after) :=
    String.Pos.Raw.isValid_iff_exists_append.2 ⟨before, after, rfl, rfl⟩
  refine ⟨String.pos _ _ h, ?_, rfl, rfl⟩
  rw [String.pos?, String.Slice.pos?, dif_pos]
  · rfl
  · exact String.Pos.Raw.isValidForSlice_eq_true_iff.2 h.toSlice

/-- A character takes at least one byte. -/
theorem length_le_utf8ByteSize (s : String) : s.length ≤ s.utf8ByteSize := by
  suffices h : ∀ cs : List Char, cs.length ≤ (String.ofList cs).utf8ByteSize by
    have := h s.toList
    rwa [String.ofList_toList, String.length_toList] at this
  intro cs
  induction cs with
  | nil => exact Nat.zero_le _
  | cons c cs ih =>
    have := c.utf8Size_pos
    rw [String.ofList_cons, String.utf8ByteSize_append, String.utf8ByteSize_singleton,
      List.length_cons]
    omega

/-- The position in front of the character at a place, or at the end if there is none. -/
def positionAt (s : String) (place : Nat) : s.Pos :=
  if s.length = s.utf8ByteSize ∧ place ≤ s.length then (s.pos? ⟨place⟩).getD s.endPos
  else s.startPos.nextn place

/-- So many characters stand before a place, the others behind it. -/
theorem splits_positionAt (s : String) (place : Nat) :
    (positionAt s place).Splits (String.ofList (s.toList.take place))
      (String.ofList (s.toList.drop place)) := by
  rw [positionAt]
  split
  · rename_i h
    obtain ⟨hsingle, hle⟩ := h
    generalize hb : String.ofList (s.toList.take place) = before
    generalize ha : String.ofList (s.toList.drop place) = after
    have hs : s = before ++ after := by
      rw [← hb, ← ha, ← String.ofList_append, List.take_append_drop, String.ofList_toList]
    have hplace : before.length = place := by
      rw [← hb, String.length_ofList, List.length_take, String.length_toList]
      omega
    subst hs
    have := length_le_utf8ByteSize before
    have := length_le_utf8ByteSize after
    simp only [String.length_append, String.utf8ByteSize_append] at hsingle
    obtain ⟨p, hp, hsplits⟩ := exists_pos?_eq_some before after
    rw [show place = before.utf8ByteSize by omega, hp]
    exact hsplits
  · simpa using s.splits_nextn_startPos place

/-- The character at a place of a string. -/
def charAt? (s : String) (place : Nat) : Option Char :=
  let position := positionAt s place
  if h : position = s.endPos then none else some (position.get h)

/-- The characters of a string stand at their places in the list of them. -/
theorem charAt?_eq_getElem? (s : String) (place : Nat) : charAt? s place = s.toList[place]? := by
  have hsplits := splits_positionAt s place
  rw [charAt?]
  split
  · rename_i h
    have := congrArg String.toList (hsplits.eq_endPos_iff.1 h)
    simp at this
    simp
    omega
  · rename_i h
    obtain ⟨rest, hrest⟩ := hsplits.exists_eq_singleton_append h
    have := congrArg String.toList hrest
    simp at this
    rw [← List.head?_drop, this]
    rfl

end TextTemplate
