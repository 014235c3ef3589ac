import Mathlib.Data.List.Induction
import TextTemplate.Proofs.Text.Coverage

/-!
# Reading a source byte by byte

A reader that goes through a source byte by byte counts the bytes and the newlines and remembers
where its line begins; the column is the number of characters from there on. Between two characters
this gives the place that can be computed from the text before it, since a newline is one byte and
no other character has this byte in it.

## Main definitions

* `Cursor`, `Cursor.advance`: what the reader keeps, and one byte more.
* `Cursor.after`, `Cursor.position`: the reader behind some bytes of a source, and its place.
* `earlierLines`, `lastLine`: the lines that are over in a text, and the line that is not.

## Main results

* `Cursor.foldl_advance_bytes`: what the reader keeps behind a text.
* `Cursor.position_after`: the place of the reader is the one that the text before it gives.
* `newline_notMem_lastLine`, `getLast?_earlierLines`: the last line is what stands behind the last
  newline.
-/

namespace TextTemplate

/-- What a reader keeps: the number of bytes before it, its line, counted from one, and the number
of bytes before that line. -/
structure Cursor where
  offset : Nat
  line : Nat
  lineStart : Nat

namespace Cursor

/-- The reader before the first byte. -/
def start : Cursor := ⟨0, 1, 0⟩

/-- The reader behind one more byte. -/
def advance (cursor : Cursor) (byte : UInt8) : Cursor where
  offset := cursor.offset + 1
  line := if byte = 10 then cursor.line + 1 else cursor.line
  lineStart := if byte = 10 then cursor.offset + 1 else cursor.lineStart

/-- The reader behind the first `n` bytes of a source. -/
def after (source : String) (n : Nat) : Cursor :=
  (source.toByteArray.data.toList.take n).foldl advance start

/-- The place of the reader in its source. -/
def position (source : String) (cursor : Cursor) : Position where
  offset := cursor.offset
  line := cursor.line
  column := (Span.chars source ⟨cursor.lineStart, cursor.offset⟩).length + 1

end Cursor

/-! ### Lines -/

/-- The lines of a text that have an end. -/
def earlierLines (cs : List Char) : List Char :=
  (cs.reverse.dropWhile (· != '\n')).reverse

/-- The line of a text that has no end. -/
def lastLine (cs : List Char) : List Char :=
  (cs.reverse.takeWhile (· != '\n')).reverse

section Lines

variable (cs : List Char)

theorem earlierLines_append_lastLine : earlierLines cs ++ lastLine cs = cs := by
  rw [earlierLines, lastLine, ← List.reverse_append, List.takeWhile_append_dropWhile,
    List.reverse_reverse]

/-- There is no newline in the last line. -/
theorem newline_notMem_lastLine : '\n' ∉ lastLine cs := by
  intro hmem
  have := List.all_eq_true.1 List.all_takeWhile '\n' (List.mem_reverse.1 hmem)
  simp at this

/-- A newline stands right before the last line, unless that is the whole text. -/
theorem getLast?_earlierLines : ∀ c ∈ (earlierLines cs).getLast?, c = '\n' := by
  intro c hmem
  rw [earlierLines, List.getLast?_reverse] at hmem
  have := List.head?_dropWhile_not (· != '\n') cs.reverse
  rw [hmem] at this
  simpa using this

private theorem earlierLines_concat (c : Char) :
    earlierLines (cs ++ [c]) = if c = '\n' then cs ++ [c] else earlierLines cs := by
  rw [earlierLines, List.reverse_append, List.reverse_singleton, List.singleton_append,
    List.dropWhile_cons]
  by_cases hnewline : c = '\n' <;> simp [hnewline, earlierLines]

/-- The line and the column of a place by the lines before it. -/
theorem Position.after_eq : Position.after cs =
    ⟨byteLength cs, 1 + cs.count '\n', 1 + (lastLine cs).length⟩ := by
  rw [Position.after, lastLine, List.length_reverse, Nat.add_comm 1, Nat.add_comm 1]

end Lines

/-! ### Bytes -/

/-- A newline is one byte, and no other character has this byte in it. -/
theorem newline_notMem_utf8EncodeChar {c : Char} (h : c ≠ '\n') :
    10 ∉ String.utf8EncodeChar c := by
  have hcode : c.val.toNat ≠ 10 := fun hsame => h (Char.ext (UInt32.toNat_inj.1 hsame))
  intro hmem
  have hmem : 10 ∈ (String.utf8EncodeChar c).map UInt8.toNat := List.mem_map_of_mem hmem
  rw [String.utf8EncodeChar] at hmem
  split_ifs at hmem <;>
    simp only [List.map_cons, List.map_nil, UInt8.toNat_ofNat', List.mem_cons, List.not_mem_nil,
      or_false] at hmem <;>
    omega

namespace Cursor

private theorem foldl_advance_of_notMem {bytes : List UInt8} (h : 10 ∉ bytes) (cursor : Cursor) :
    bytes.foldl advance cursor = { cursor with offset := cursor.offset + bytes.length } := by
  induction bytes generalizing cursor with
  | nil => rfl
  | cons byte bytes ih =>
    obtain ⟨hne, hrest⟩ := not_or.1 (mt List.mem_cons.2 h)
    rw [List.foldl_cons, ih hrest, advance, if_neg (Ne.symm hne), if_neg (Ne.symm hne),
      List.length_cons, Nat.add_right_comm, Nat.add_assoc]

/-- The reader behind one more character. -/
theorem foldl_advance_char (cursor : Cursor) (c : Char) :
    (String.utf8EncodeChar c).foldl advance cursor =
      if c = '\n' then ⟨cursor.offset + 1, cursor.line + 1, cursor.offset + 1⟩
      else { cursor with offset := cursor.offset + c.utf8Size } := by
  split_ifs with hnewline
  · rw [hnewline]
    rfl
  · rw [foldl_advance_of_notMem (newline_notMem_utf8EncodeChar hnewline),
      String.length_utf8EncodeChar]

/-- What the reader keeps behind a text. -/
theorem foldl_advance_bytes (cs : List Char) :
    (cs.flatMap String.utf8EncodeChar).foldl advance start =
      ⟨byteLength cs, cs.count '\n' + 1, byteLength (earlierLines cs)⟩ := by
  induction cs using List.reverseRecOn with
  | nil => rfl
  | append_singleton cs c ih =>
    rw [List.flatMap_append, List.foldl_append, ih, List.flatMap_singleton, foldl_advance_char,
      earlierLines_concat]
    split_ifs with hnewline
    · have hsize : '\n'.utf8Size = 1 := rfl
      simp [hnewline, hsize]
    · simp [hnewline]

private theorem length_bytes (cs : List Char) :
    (cs.flatMap String.utf8EncodeChar).length = byteLength cs := by
  induction cs with
  | nil => rfl
  | cons c cs ih =>
    rw [List.flatMap_cons, List.length_append, ih, String.length_utf8EncodeChar, byteLength_cons]

variable {source : String} {before rest : List Char}

/-- The bytes of a source are those of its parts. -/
theorem bytes_eq (h : source.toList = before ++ rest) : source.toByteArray.data.toList =
    before.flatMap String.utf8EncodeChar ++ rest.flatMap String.utf8EncodeChar := by
  rw [← String.utf8Encode_toList, List.utf8Encode, List.data_toByteArray, h, List.flatMap_append]

theorem after_eq (h : source.toList = before ++ rest) :
    after source (byteLength before) =
      ⟨byteLength before, before.count '\n' + 1, byteLength (earlierLines before)⟩ := by
  rw [after, bytes_eq h, ← length_bytes before, List.take_left, foldl_advance_bytes, length_bytes]

/-- The reader behind a part of a source has read the bytes of the part. -/
theorem after_append {middle : List Char} (h : source.toList = before ++ middle ++ rest) :
    after source (byteLength (before ++ middle)) =
      (middle.flatMap String.utf8EncodeChar).foldl advance (after source (byteLength before)) := by
  have h' : source.toList = before ++ (middle ++ rest) := by rw [h, List.append_assoc]
  rw [after, after, bytes_eq h, ← length_bytes, List.take_left, ← bytes_eq h, bytes_eq h',
    ← length_bytes, List.take_left, ← List.foldl_append, List.flatMap_append]

/-- What is left to read behind a part of a source. -/
theorem drop_bytes (h : source.toList = before ++ rest) :
    source.toByteArray.data.toList.drop (byteLength before) =
      rest.flatMap String.utf8EncodeChar := by
  rw [bytes_eq h, ← length_bytes, List.drop_left]

/-- Between two characters, the place of the reader is the one that the text before it gives. -/
theorem position_after (h : source.toList = before ++ rest) :
    (after source (byteLength before)).position source = Position.after before := by
  have hline : Span.chars source ⟨byteLength (earlierLines before), byteLength before⟩ =
      lastLine before := by
    have hsplit : source.toList = earlierLines before ++ lastLine before ++ rest := by
      rw [earlierLines_append_lastLine, h]
    have hchars := Span.chars_append hsplit
    rwa [← byteLength_append, earlierLines_append_lastLine] at hchars
  rw [after_eq h, position, hline, Position.after, lastLine, List.length_reverse]

end Cursor

end TextTemplate
