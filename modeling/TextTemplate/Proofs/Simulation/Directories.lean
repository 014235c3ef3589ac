import TextTemplate.Proofs.Simulation.Paths
import TextTemplate.Source.Position

/-!
# Directories that agree

Directories with the same components have the same files below them: a path below one of them has
the same components as that below the other, and so has its parent. A file below them is read alike,
unless one of the paths is written at such a length that it is refused.

## Main results

* `Path.components_join`, `Path.components_parent?`: the components of such paths.
* `FileTree.read_join`: what is read below directories that agree.
-/

namespace TextTemplate

namespace Path

/-! ### Parts -/

private theorem segments_eq_splitOn (cs : List Char) : segments cs = cs.splitOn '/' := by
  induction cs with
  | nil => rfl
  | cons c cs ih =>
    rw [segments, List.splitOn_cons_eq_if_modifyHead, ← ih]
    by_cases hslash : c = '/'
    · rw [if_pos hslash, if_pos (by simpa using hslash)]
    · rw [if_neg hslash, if_neg (by simpa using hslash)]
      cases hsegments : segments cs with
      | nil => exact absurd hsegments (segments_ne_nil cs)
      | cons first rest => rfl

/-- The parts of a text with a slash are those before it and those behind it. -/
theorem segments_append (cs ds : List Char) :
    segments (cs ++ '/' :: ds) = segments cs ++ segments ds := by
  simp only [segments_eq_splitOn, List.splitOn]
  exact List.splitOnP_append_cons cs ds (by simp)

private theorem notMem_of_mem_segments {cs part : List Char} (h : part ∈ segments cs) :
    '/' ∉ part := by
  induction cs generalizing part with
  | nil =>
    obtain rfl : part = [] := by simpa [segments] using h
    exact List.not_mem_nil
  | cons c cs ih =>
    rw [segments] at h
    split_ifs at h with hslash
    · obtain rfl | h := List.mem_cons.1 h
      · exact List.not_mem_nil
      · exact ih h
    · split at h
      · obtain rfl : part = [c] := by simpa using h
        simpa using Ne.symm hslash
      · rename_i first rest hsegments
        obtain rfl | h := List.mem_cons.1 h
        · have hfirst := ih (hsegments ▸ List.mem_cons_self)
          simpa [Ne.symm hslash] using hfirst
        · exact ih (hsegments ▸ List.mem_cons_of_mem _ h)

private theorem exists_segments (path : Path) :
    ∃ first rest, segments path.text.toList = first :: rest :=
  List.exists_cons_of_ne_nil (segments_ne_nil _)

/-- An absolute path has an empty first part, and others behind it. -/
theorem isAbsolute_iff {path : Path} {first : List Char} {rest : List (List Char)}
    (h : segments path.text.toList = first :: rest) :
    path.isAbsolute = true ↔ first = [] ∧ rest ≠ [] := by
  rw [isAbsolute]
  cases hcs : path.text.toList with
  | nil =>
    rw [hcs] at h
    cases h
    simp
  | cons c cs =>
    rw [hcs, segments] at h
    split_ifs at h with hslash
    · cases h
      simp [hslash, segments_ne_nil]
    · refine iff_of_false (by simpa using hslash) ?_
      split at h <;> · cases h; simp

/-- The components that parts stand for that are not the first ones of a path. -/
def innerComponents (parts : List (List Char)) : List Component :=
  (parts.filter counts).map .ofPart

/-- The components of a path with these parts. -/
def componentsOf (absolute : Bool) : List (List Char) → List Component
  | [] => []
  | first :: rest =>
    if absolute then .root :: innerComponents rest
    else if first = [] then innerComponents rest
    else .ofPart first :: innerComponents rest

private theorem components_eq (path : Path) :
    path.components = componentsOf path.isAbsolute (segments path.text.toList) := by
  obtain ⟨first, rest, hsegments⟩ := path.exists_segments
  rw [components, hsegments]
  rfl

private theorem innerComponents_append (parts more : List (List Char)) :
    innerComponents (parts ++ more) = innerComponents parts ++ innerComponents more := by
  rw [innerComponents, List.filter_append, List.map_append]
  rfl

private theorem componentsOf_append {absolute : Bool} {parts : List (List Char)} (h : parts ≠ [])
    (more : List (List Char)) : componentsOf absolute (parts ++ more) =
      componentsOf absolute parts ++ innerComponents more := by
  obtain ⟨first, rest, rfl⟩ := List.exists_cons_of_ne_nil h
  rw [List.cons_append, componentsOf, componentsOf, innerComponents_append]
  split_ifs <;> rfl

/-- Only the empty path has no components. -/
theorem components_eq_nil_iff {path : Path} : path.components = [] ↔ path.text = "" := by
  rw [components_eq]
  obtain ⟨first, rest, hsegments⟩ := path.exists_segments
  rw [hsegments, componentsOf]
  constructor
  · intro hempty
    split_ifs at hempty with habsolute hfirst
    obtain rfl : rest = [] := by
      by_contra hrest
      exact habsolute ((isAbsolute_iff hsegments).2 ⟨hfirst, hrest⟩)
    -- A text without a slash, whose only part is empty, is empty.
    rw [segments_eq_splitOn, hfirst] at hsegments
    have hjoined : ['/'].intercalate (path.text.toList.splitOn '/') = path.text.toList :=
      List.intercalate_splitOn '/'
    rw [hsegments] at hjoined
    exact String.toList_eq_nil_iff.1 hjoined.symm
  · intro htext
    rw [htext] at hsegments
    cases hsegments
    rw [isAbsolute, htext]
    rfl

/-! ### Paths below a directory -/

/-- The parts of a path below a directory are those of the directory, without the empty one behind a
slash at its end, and those of the path. -/
theorem exists_segments_join {dir target : Path} (hdir : dir.text ≠ "")
    (htarget : target.isAbsolute = false) :
    ∃ parts, parts ≠ [] ∧
      segments (dir.join target).text.toList = parts ++ segments target.text.toList ∧
      (segments dir.text.toList = parts ∨ segments dir.text.toList = parts ++ [[]]) ∧
      (dir.join target).isAbsolute = dir.isAbsolute := by
  have hnonempty : dir.text.toList ≠ [] := fun h => hdir (String.toList_eq_nil_iff.1 h)
  have habsolute (cs : List Char) : (dir.text.toList ++ cs).head? = dir.text.toList.head? := by
    rw [List.head?_append_of_ne_nil _ hnonempty]
  rw [join, if_neg (by simp [htarget])]
  split_ifs with hends
  · obtain ⟨cs, hcs⟩ := List.getLast?_eq_some_iff.1 (hends.resolve_left hdir)
    refine ⟨segments cs, segments_ne_nil cs, ?_, .inr ?_, ?_⟩
    · rw [String.toList_append, hcs, List.append_assoc, List.singleton_append, segments_append]
    · rw [hcs, segments_append]
      rfl
    · rw [isAbsolute, isAbsolute, String.toList_append, habsolute]
  · refine ⟨_, segments_ne_nil dir.text.toList, ?_, .inl rfl, ?_⟩
    · rw [String.toList_append, String.toList_append, List.append_assoc]
      exact segments_append _ _
    · rw [isAbsolute, isAbsolute, String.toList_append, String.toList_append, List.append_assoc,
        habsolute]

private theorem join_of_isAbsolute {dir target : Path} (h : target.isAbsolute = true) :
    dir.join target = target := by
  rw [join, if_pos h]

/-- Below a directory that is not the empty path, the components are put behind each other. -/
theorem components_join {dir target : Path} (hdir : dir.text ≠ "")
    (htarget : target.isAbsolute = false) : (dir.join target).components =
      dir.components ++ innerComponents (segments target.text.toList) := by
  obtain ⟨parts, hparts, hjoin, hsegments, habsolute⟩ := exists_segments_join hdir htarget
  rw [components_eq, components_eq, hjoin, habsolute, componentsOf_append hparts]
  congr 1
  obtain hsegments | hsegments := hsegments
  · rw [hsegments]
  · rw [hsegments, componentsOf_append hparts]
    exact (List.append_nil _).symm

theorem agrees_iff {p q : Path} : p.agrees q = true ↔ p.components = q.components := by
  rw [agrees, beq_iff_eq]

/-- Directories that agree are the same if one of them is the empty path. -/
theorem eq_of_agrees_of_text_eq {p q : Path} (h : p.agrees q = true) (hp : p.text = "") :
    p = q := by
  have hq := components_eq_nil_iff.1 ((agrees_iff.1 h).symm.trans (components_eq_nil_iff.2 hp))
  cases p
  cases q
  exact congrArg Path.mk (hp.trans hq.symm)

/-- Below directories that agree, paths agree. -/
theorem agrees_join {dir dir' : Path} (h : dir.agrees dir' = true) (target : Path) :
    (dir.join target).agrees (dir'.join target) = true := by
  cases htarget : target.isAbsolute with
  | true =>
    rw [join_of_isAbsolute htarget, join_of_isAbsolute htarget]
    exact agrees_iff.2 rfl
  | false =>
    by_cases hdir : dir.text = ""
    · rw [eq_of_agrees_of_text_eq h hdir]
      exact agrees_iff.2 rfl
    · have hcomponents := agrees_iff.1 h
      have hdir' : dir'.text ≠ "" := fun hempty =>
        hdir (components_eq_nil_iff.1 (hcomponents.trans (components_eq_nil_iff.2 hempty)))
      rw [agrees_iff, components_join hdir htarget, components_join hdir' htarget, hcomponents]

/-! ### Parents -/

private theorem filter_counts_dropIdle (parts : List (List Char)) :
    (dropIdle parts).filter counts = parts.filter counts := by
  rw [dropIdle, List.filter_reverse]
  have hdrop (parts : List (List Char)) :
      (parts.dropWhile fun part => !counts part).filter counts = parts.filter counts := by
    induction parts with
    | nil => rfl
    | cons part parts ih =>
      rw [List.dropWhile_cons]
      split_ifs with hidle
      · rw [ih, List.filter_cons_of_neg (by simpa using hidle)]
      · rfl
  rw [hdrop, List.filter_reverse, List.reverse_reverse]

/-- What is left of parts when the idle ones at the end are dropped ends with one that counts. -/
theorem dropIdle_eq_nil_or (parts : List (List Char)) :
    dropIdle parts = [] ∨
      ∃ before last, dropIdle parts = before ++ [last] ∧ counts last = true := by
  rw [dropIdle]
  cases hparts : parts.reverse.dropWhile fun part => !counts part with
  | nil => exact .inl rfl
  | cons last before =>
    refine .inr ⟨before.reverse, last, List.reverse_cons, ?_⟩
    have hcounts := List.head?_dropWhile_not (fun part => !counts part) parts.reverse
    rw [hparts] at hcounts
    simpa using hcounts

private theorem segments_ofParts {parts : List (List Char)} (hparts : parts ≠ [])
    (hslash : ∀ part ∈ parts, '/' ∉ part) : segments (ofParts parts).text.toList = parts := by
  rw [ofParts, String.toList_intercalate, segments_eq_splitOn, List.map_map]
  have hmap : parts.map (String.toList ∘ String.ofList) = parts :=
    List.map_id'' (fun _ => String.toList_ofList) parts
  rw [hmap]
  exact List.splitOn_intercalate '/' hslash hparts

private theorem innerComponents_congr {parts parts' : List (List Char)}
    (h : parts.filter counts = parts'.filter counts) :
    innerComponents parts = innerComponents parts' := by
  rw [innerComponents, h, innerComponents]

private theorem components_ofParts {first : List Char} {rest : List (List Char)}
    (hslash : ∀ part ∈ first :: rest, '/' ∉ part) : (ofParts (first :: rest)).components =
      componentsOf (decide (first = [] ∧ rest ≠ [])) (first :: rest) := by
  have hsegments := segments_ofParts (List.cons_ne_nil _ _) hslash
  rw [components_eq, hsegments]
  congr 1
  rw [Bool.eq_iff_iff, decide_eq_true_iff, isAbsolute_iff hsegments]

private theorem mem_of_mem_dropIdle {part : List Char} {parts : List (List Char)}
    (h : part ∈ dropIdle parts) : part ∈ parts := by
  rw [dropIdle, List.mem_reverse] at h
  exact List.mem_reverse.1 ((List.dropWhile_sublist _).subset h)

private theorem ofPart_ne_root (part : List Char) : Component.ofPart part ≠ .root := fun h => by
  have hroot := ofPart_beq_root part
  rw [h] at hroot
  cases hroot

private theorem concat_ofPart_ne (components : List Component) (part : List Char) :
    ¬(components ++ [.ofPart part] = [] ∨ components ++ [.ofPart part] = [.root]) := by
  rintro (h | h)
  · exact List.append_ne_nil_of_right_ne_nil _ (List.cons_ne_nil _ _) h
  · have hlast := congrArg List.getLast? h
    rw [List.getLast?_concat] at hlast
    exact ofPart_ne_root part (Option.some.inj hlast)

section Parent

variable {path : Path} {first : List Char} {rest : List (List Char)}
  (hsegments : segments path.text.toList = first :: rest)
include hsegments

/-- A path of which only the first part can count has no parent but the empty path. -/
theorem components_parent?_of_idle (hidle : dropIdle rest = []) :
    path.parent?.map components =
      if path.components = [] ∨ path.components = [.root] then none
      else some path.components.dropLast := by
  have habsolute := isAbsolute_iff hsegments
  rw [parent?, components_eq, hsegments]
  dsimp only
  have hinner : innerComponents rest = [] := by
    rw [innerComponents_congr (filter_counts_dropIdle rest).symm, hidle]
    rfl
  rw [hidle, componentsOf, hinner, List.reverse_nil]
  dsimp only
  by_cases hfirst : first = []
  · rw [if_pos hfirst, if_pos hfirst, if_pos (by split_ifs <;> simp)]
    rfl
  · have hrelative : path.isAbsolute = false :=
      Bool.eq_false_iff.2 fun h => hfirst (habsolute.1 h).1
    rw [if_neg hfirst, hrelative, if_neg Bool.false_ne_true, if_neg hfirst,
      if_neg (by simp [ofPart_ne_root])]
    rfl

/-- The components of a path are those of the parts in front of the last one that counts, and that
one. -/
theorem components_of_dropIdle {before : List (List Char)} {last : List Char}
    (hlast : dropIdle rest = before ++ [last]) (hcounts : counts last = true) :
    path.components = componentsOf path.isAbsolute (first :: before) ++ [.ofPart last] := by
  have hinner : innerComponents rest = innerComponents before ++ [.ofPart last] := by
    rw [innerComponents_congr (filter_counts_dropIdle rest).symm, hlast, innerComponents_append]
    simp [innerComponents, hcounts]
  rw [components_eq, hsegments, componentsOf, componentsOf, hinner]
  split_ifs <;> rfl

/-- Otherwise the parent has the parts in front of the last one that counts. -/
theorem components_parent?_of_counts {before : List (List Char)} {last : List Char}
    (hlast : dropIdle rest = before ++ [last]) :
    path.parent?.map components = some (componentsOf path.isAbsolute (first :: before)) := by
  have habsolute := isAbsolute_iff hsegments
  have hrest : rest ≠ [] := by
    rintro rfl
    simp [dropIdle] at hlast
  have hkept := filter_counts_dropIdle before
  have hslash (part : List Char) (hpart : part ∈ first :: rest) : '/' ∉ part :=
    notMem_of_mem_segments (hsegments ▸ hpart)
  have hmem (part : List Char) (hpart : part ∈ first :: dropIdle before) : '/' ∉ part := by
    obtain rfl | hpart := List.mem_cons.1 hpart
    · exact hslash _ List.mem_cons_self
    · have hbefore : part ∈ dropIdle rest :=
        hlast ▸ List.mem_append_left _ (mem_of_mem_dropIdle hpart)
      exact hslash _ (List.mem_cons_of_mem _ (mem_of_mem_dropIdle hbefore))
  rw [parent?, hsegments]
  dsimp only
  rw [hlast, List.reverse_concat]
  dsimp only
  rw [List.reverse_reverse]
  cases hinside : dropIdle before with
  | nil =>
    rw [hinside] at hkept hmem
    rw [componentsOf, innerComponents_congr hkept.symm]
    dsimp only
    by_cases hroot : path.isAbsolute = true
    · rw [if_pos hroot, if_pos hroot]
      rfl
    · have hfirst : first ≠ [] := fun h => hroot (habsolute.2 ⟨h, hrest⟩)
      rw [if_neg hroot, if_neg hroot, if_neg hfirst, Option.map_some, components_ofParts hmem,
        componentsOf, if_neg (by simp), if_neg hfirst]
  | cons part inner =>
    rw [hinside] at hkept hmem
    rw [Option.map_some, components_ofParts hmem, componentsOf, componentsOf,
      innerComponents_congr hkept]
    congr 2
    rw [Bool.eq_iff_iff, decide_eq_true_iff, habsolute]
    simp [hrest]

end Parent

/-- A path has a parent unless it has no components but the root; and the parent has all of them but
the last one. -/
theorem components_parent? (path : Path) : path.parent?.map components =
    if path.components = [] ∨ path.components = [.root] then none
    else some path.components.dropLast := by
  obtain ⟨first, rest, hsegments⟩ := path.exists_segments
  obtain hidle | ⟨before, last, hlast, hcounts⟩ := dropIdle_eq_nil_or rest
  · exact components_parent?_of_idle hsegments hidle
  · rw [components_parent?_of_counts hsegments hlast,
      components_of_dropIdle hsegments hlast hcounts, List.dropLast_concat,
      if_neg (concat_ofPart_ne _ _)]

/-- The parents of paths that agree do so, too. -/
theorem agrees_parent? {path path' : Path} (h : path.agrees path' = true) :
    Option.Rel (fun p q => p.agrees q = true) path.parent? path'.parent? := by
  have hcomponents := agrees_iff.1 h
  have hparent := components_parent? path
  rw [hcomponents, ← components_parent? path'] at hparent
  generalize path.parent? = parent at hparent
  generalize path'.parent? = parent' at hparent
  cases parent with
  | none => cases parent' with
    | none => exact .none
    | some => cases hparent
  | some parent => cases parent' with
    | none => cases hparent
    | some => exact .some (agrees_iff.2 (Option.some.inj hparent))

/-- A path that leads to a file has a parent. -/
theorem exists_parent?_of_read {tree : FileTree} {path : Path} {source : String}
    (h : tree.read path = .ok source) : ∃ dir, path.parent? = some dir := by
  obtain ⟨names, time, hwalk⟩ := FileTree.exists_walk_of_read h
  obtain ⟨parts, last, hsegments, hlast⟩ := FileTree.exists_last_of_walk hwalk
  rw [parent?, hsegments]
  cases parts with
  | nil =>
    have hne : last ≠ [] := by
      rintro rfl
      cases hlast
    exact ⟨_, if_neg hne⟩
  | cons first parts =>
    have hrest : dropIdle (parts ++ [last]) ≠ [] := by
      intro hidle
      have hfilter := filter_counts_dropIdle (parts ++ [last])
      rw [hidle, List.filter_append, List.filter_cons_of_pos hlast] at hfilter
      simp at hfilter
    obtain ⟨final, before, hreverse⟩ := List.exists_cons_of_ne_nil (List.reverse_ne_nil_iff.2 hrest)
    dsimp only [List.cons_append]
    rw [hreverse]
    dsimp only
    split
    · exact ⟨_, rfl⟩
    · exact ⟨_, rfl⟩

/-- The name of a file, without a directory. -/
def IsFileName (name : String) : Prop :=
  name ≠ "" ∧ name ≠ "." ∧ name ≠ ".." ∧ '/' ∉ name.toList

private theorem IsFileName.segments_eq {name : String} (h : IsFileName name) :
    segments name.toList = [name.toList] := by
  rw [segments_eq_splitOn]
  have hsingle : (['/'].intercalate [name.toList]).splitOn '/' = [name.toList] :=
    List.splitOn_intercalate '/' (by simpa using h.2.2.2) (List.cons_ne_nil _ _)
  rwa [List.intercalate_singleton] at hsingle

private theorem IsFileName.isAbsolute_eq_false {name : String} (h : IsFileName name) :
    (Path.mk name).isAbsolute = false := by
  rw [Bool.eq_false_iff, Ne, isAbsolute_iff h.segments_eq]
  simp

private theorem IsFileName.counts_toList {name : String} (h : IsFileName name) :
    counts name.toList = true := by
  have hempty : name.toList ≠ [] := fun heq => h.1 (String.toList_eq_nil_iff.1 heq)
  have hdot : name.toList ≠ ['.'] := fun heq => h.2.1 (String.toList_inj.1 heq)
  simp [counts, hempty, hdot]

/-- A file in a directory has a parent, which agrees with the directory. -/
theorem IsFileName.exists_parent? {name : String} (h : IsFileName name) (dir : Path) :
    ∃ parent, (dir.join ⟨name⟩).parent? = some parent ∧ parent.agrees dir = true := by
  have hrelative := h.isAbsolute_eq_false
  have hcounts := h.counts_toList
  have hcomponents : (dir.join ⟨name⟩).components = dir.components ++ [.ofPart name.toList] := by
    by_cases hdir : dir.text = ""
    · have hname : name.toList ≠ [] := fun heq => h.1 (String.toList_eq_nil_iff.1 heq)
      rw [components_eq_nil_iff.2 hdir, join, if_neg (by simp [hrelative]), if_pos (.inl hdir),
        hdir, String.empty_append, components_eq, hrelative, h.segments_eq, componentsOf,
        if_neg Bool.false_ne_true, if_neg hname]
      rfl
    · rw [components_join hdir hrelative, h.segments_eq, innerComponents]
      simp [hcounts]
  have hparent := components_parent? (dir.join ⟨name⟩)
  rw [hcomponents, if_neg (concat_ofPart_ne _ _), List.dropLast_concat] at hparent
  obtain ⟨parent, hfound, hagrees⟩ := Option.map_eq_some_iff.1 hparent
  exact ⟨parent, hfound, agrees_iff.2 hagrees⟩

/-! ### Slashes at the end -/

/-- The current directory, written with slashes behind the dot. -/
def slashed (n : Nat) : Path :=
  ⟨String.ofList ('.' :: List.replicate n '/')⟩

private theorem segments_replicate (n : Nat) (cs : List Char) :
    segments (List.replicate n '/' ++ cs) = List.replicate n [] ++ segments cs := by
  induction n with
  | zero => rfl
  | succ n ih =>
    rw [List.replicate_succ, List.cons_append, segments, if_pos rfl, ih]
    rfl

private theorem segments_slashed (n : Nat) (cs : List Char) :
    segments ('.' :: (List.replicate (n + 1) '/' ++ cs)) =
      ['.'] :: (List.replicate n [] ++ segments cs) := by
  rw [segments, if_neg (by decide), segments_replicate]
  rfl

theorem agrees_slashed (n : Nat) : (slashed (n + 1)).agrees ⟨"."⟩ = true := by
  have hsegments := segments_slashed n []
  rw [List.append_nil] at hsegments
  have hrelative : (slashed (n + 1)).isAbsolute = false := by simp [slashed, isAbsolute]
  rw [agrees_iff, components_eq, hrelative, slashed, String.toList_ofList, hsegments]
  have hinner : innerComponents (List.replicate n [] ++ segments []) = [] := by
    simp [innerComponents, segments, counts]
  rw [componentsOf, if_neg Bool.false_ne_true, if_neg (by decide), hinner]
  decide

/-- A path below such a directory. -/
theorem join_slashed (n : Nat) {name : String} (h : IsFileName name) :
    (slashed (n + 1)).join ⟨name⟩ =
      ⟨String.ofList ('.' :: (List.replicate (n + 1) '/' ++ name.toList))⟩ := by
  have hslash : (slashed (n + 1)).text.toList.getLast? = some '/' := by
    rw [slashed, String.toList_ofList, List.replicate_succ', ← List.cons_append,
      List.getLast?_concat]
  rw [join, if_neg (by simp [h.isAbsolute_eq_false]), if_pos (.inr hslash), slashed]
  refine congrArg Path.mk (String.toList_inj.1 ?_)
  simp

theorem utf8ByteSize_join_slashed (n : Nat) {name : String} (h : IsFileName name) :
    ((slashed (n + 1)).join ⟨name⟩).text.utf8ByteSize = n + 2 + name.utf8ByteSize := by
  have hslashes : byteLength (List.replicate (n + 1) '/') = n + 1 := by
    induction n with
    | zero => rfl
    | succ n ih => rw [List.replicate_succ, byteLength_cons, ih]; exact Nat.add_comm ..
  rw [join_slashed n h, utf8ByteSize_ofList, byteLength_cons, byteLength_append, hslashes,
    byteLength_toList, show '.'.utf8Size = 1 from rfl]
  omega

/-- The file that it leads to is in the current directory. -/
theorem parent?_join_slashed (n : Nat) {name : String} (h : IsFileName name) :
    ((slashed (n + 1)).join ⟨name⟩).parent? = some ⟨"."⟩ := by
  have hidle (parts : List (List Char)) : dropIdle (parts ++ [name.toList]) =
      parts ++ [name.toList] := by
    simp [dropIdle, h.counts_toList]
  have hempty : dropIdle (List.replicate n []) = [] := by
    simp [dropIdle, counts]
  have hrelative (text : List Char) :
      (Path.mk (String.ofList ('.' :: text))).isAbsolute ≠ true := by simp [isAbsolute]
  rw [join_slashed n h, parent?, String.toList_ofList, segments_slashed, h.segments_eq]
  dsimp only
  rw [hidle, List.reverse_append, List.reverse_singleton, List.singleton_append]
  dsimp only
  rw [List.reverse_reverse, hempty]
  dsimp only
  rw [if_neg (hrelative _)]
  decide

end Path

/-! ### Files -/

namespace FileTree

open TextTemplate.Path

variable {tree : FileTree}

/-- A character other than the slash is in a text if it is in one of its parts. -/
theorem mem_iff_exists_segments {c : Char} (hc : c ≠ '/') {cs : List Char} :
    c ∈ cs ↔ ∃ part ∈ segments cs, c ∈ part := by
  induction cs with
  | nil => simp [segments]
  | cons d cs ih =>
    rw [segments, List.mem_cons, ih]
    split_ifs with hslash
    · simp [hslash, hc]
    · cases hsegments : segments cs with
      | nil => exact absurd hsegments (segments_ne_nil cs)
      | cons first rest => simp [or_assoc]

/-- A path below a directory is walked by the steps of the directory and the parts of the path, if
it can be walked at all. -/
theorem walk_join {dir target : Path} (hdir : dir.text ≠ "") (htarget : target.isAbsolute = false) :
    tree.walk (dir.join target) =
      if ∃ part ∈ dir.steps ++ segments target.text.toList, '\x00' ∈ part then .error .nulInName
      else if maxPathBytes < (dir.join target).text.utf8ByteSize then .error .nameTooLong
      else tree.place (tree.origin dir) >>=
        (dir.steps ++ segments target.text.toList).foldlM
          (fun here part => tree.step part here) := by
  obtain ⟨parts, hparts, hjoin, hsegments, habsolute⟩ := exists_segments_join hdir htarget
  have hsteps : dir.steps = parts.filter counts := by
    rw [steps]
    obtain hsegments | hsegments := hsegments <;> rw [hsegments]
    rw [List.filter_append]
    exact List.append_nil _
  have hnonempty : (dir.join target).text.toList ≠ [] := fun hempty => by
    rw [hempty, segments] at hjoin
    have hlength := congrArg List.length hjoin
    have hpos := List.length_pos_iff.2 hparts
    have hpos' := List.length_pos_iff.2 (segments_ne_nil target.text.toList)
    simp only [List.length_append, List.length_singleton] at hlength
    omega
  have hnul : ((dir.join target).text.toList.contains '\x00' = true) ↔
      ∃ part ∈ dir.steps ++ segments target.text.toList, '\x00' ∈ part := by
    rw [List.contains_iff_mem, mem_iff_exists_segments (by decide), hjoin, hsteps]
    simp only [List.mem_append, List.mem_filter]
    refine exists_congr fun part => and_congr_left fun hpart => or_congr_left ?_
    refine (and_iff_left ?_).symm
    have hempty : part ≠ [] := List.ne_nil_of_mem hpart
    have hdot : part ≠ ['.'] := by
      rintro rfl
      simp at hpart
    simp [counts, hempty, hdot]
  have horigin : tree.origin (dir.join target) = tree.origin dir := by
    rw [origin, origin, habsolute]
  have hfold (start : Place) : (parts ++ segments target.text.toList).foldlM
      (fun here part => tree.step part here) start = _ :=
    foldlM_step_append (segments_ne_nil target.text.toList) parts start
  rw [walk, if_neg hnonempty, hjoin, horigin]
  simp only [hfold, ← hsteps, hnul]

/-- A path that is too long is not read. -/
theorem exists_read_eq_error {path : Path} (h : maxPathBytes < path.text.utf8ByteSize) :
    ∃ e, tree.read path = .error e := by
  rw [read, walk]
  split_ifs <;> exact ⟨_, rfl⟩

/-- Below directories that agree the same is read, unless one of the paths is too long. -/
theorem read_join_of_agrees {dir dir' : Path} (h : dir.agrees dir' = true) (target : Path) :
    tree.read (dir.join target) = tree.read (dir'.join target) ∨
      (maxPathBytes < (dir.join target).text.utf8ByteSize ∧
        tree.read (dir.join target) = .error .nameTooLong) ∨
      (maxPathBytes < (dir'.join target).text.utf8ByteSize ∧
        tree.read (dir'.join target) = .error .nameTooLong) := by
  cases htarget : target.isAbsolute with
  | true => rw [join_of_isAbsolute htarget, join_of_isAbsolute htarget]; exact .inl rfl
  | false =>
    by_cases hdir : dir.text = ""
    · rw [eq_of_agrees_of_text_eq h hdir]
      exact .inl rfl
    · have hdir' : dir'.text ≠ "" := fun hempty => hdir (components_eq_nil_iff.1
        ((agrees_iff.1 h).trans (components_eq_nil_iff.2 hempty)))
      rw [read, read, walk_join hdir htarget, walk_join hdir' htarget, steps_eq_of_agrees h,
        FileTree.origin, FileTree.origin, isAbsolute_eq_of_agrees h]
      by_cases hnul : ∃ part ∈ dir'.steps ++ segments target.text.toList, '\x00' ∈ part
      · rw [if_pos hnul, if_pos hnul]
        exact .inl rfl
      · rw [if_neg hnul, if_neg hnul]
        by_cases hlong : maxPathBytes < (dir.join target).text.utf8ByteSize
        · rw [if_pos hlong]
          exact .inr (.inl ⟨hlong, rfl⟩)
        · by_cases hlong' : maxPathBytes < (dir'.join target).text.utf8ByteSize
          · rw [if_pos hlong']
            exact .inr (.inr ⟨hlong', rfl⟩)
          · rw [if_neg hlong, if_neg hlong']
            exact .inl rfl

end FileTree

end TextTemplate
