import TextTemplate.File.Tree
import TextTemplate.Proofs.Attempt

/-!
# Paths that name the same file

Two paths with the same components lead to the same place, once it is known that each of them
leads somewhere in some tree: what is left out of the components is then passed over on the way.

## Main definitions

* `Path.steps`: the parts of a path that lead somewhere.
* `FileTree.reach`: the place that these parts lead to.

## Main results

* `FileTree.reach_of_walk`: what a path leads to, its steps lead to.
* `FileTree.walk_eq_reach`: a path that leads to a file in some tree is walked by its steps in every
  tree.
-/

namespace TextTemplate

namespace Path

/-- The parts of a path that lead from one directory to another or to a file. -/
def steps (path : Path) : List (List Char) :=
  (segments path.text.toList).filter counts

theorem segments_ne_nil (cs : List Char) : segments cs ≠ [] := by
  induction cs with
  | nil => simp [segments]
  | cons c cs ih =>
    rw [segments]
    split_ifs
    · simp
    · split <;> simp

/-- A component for which a walk takes a step. -/
def Component.isStep : Component → Bool
  | .up | .name _ => true
  | .root | .here => false

private theorem isStep_ofPart {part : List Char} (h : part ≠ []) :
    (Component.ofPart part).isStep = counts part := by
  by_cases hdot : part = ['.']
  · simp [hdot, Component.ofPart, Component.isStep, counts]
  · rw [Component.ofPart, if_neg hdot]
    split_ifs <;> simp [Component.isStep, counts, h, hdot]

private theorem ofPart_injective : Function.Injective Component.ofPart := by
  intro part part' h
  unfold Component.ofPart at h
  split_ifs at h with hdot hdot'
  · rw [hdot, hdot']
  · simp_all
  · exact String.ofList_injective (Component.name.inj h)

theorem ofPart_beq_root (part : List Char) : (Component.ofPart part == .root) = false := by
  unfold Component.ofPart
  split_ifs <;> rfl

private theorem filter_isStep_map_ofPart (parts : List (List Char)) :
    ((parts.filter counts).map Component.ofPart).filter Component.isStep =
      (parts.filter counts).map Component.ofPart := by
  rw [List.filter_eq_self]
  intro component hcomponent
  obtain ⟨part, hpart, rfl⟩ := List.mem_map.1 hcomponent
  have hcounts := (List.mem_filter.1 hpart).2
  rw [isStep_ofPart (by rintro rfl; simp [counts] at hcounts), hcounts]

/-- The first part of an absolute path is empty. -/
theorem eq_nil_of_isAbsolute {path : Path} {first : List Char} {rest : List (List Char)}
    (habsolute : path.isAbsolute = true) (h : segments path.text.toList = first :: rest) :
    first = [] := by
  rw [isAbsolute] at habsolute
  cases hcs : path.text.toList with
  | nil => simp [hcs] at habsolute
  | cons c cs =>
    obtain rfl : c = '/' := by simpa [hcs] using habsolute
    rw [hcs, segments, if_pos rfl] at h
    exact (List.cons.inj h).1.symm

/-- The steps of a path can be told from its components. -/
theorem filter_isStep_components (path : Path) :
    path.components.filter Component.isStep = path.steps.map Component.ofPart := by
  rw [components, steps]
  cases hsegments : segments path.text.toList with
  | nil => exact absurd hsegments (segments_ne_nil _)
  | cons first rest =>
    dsimp only
    rw [List.filter_cons]
    by_cases hfirst : first = []
    · have hinner : (if path.isAbsolute then
          Component.root :: (rest.filter counts).map Component.ofPart
        else if first = [] then (rest.filter counts).map Component.ofPart
        else Component.ofPart first :: (rest.filter counts).map Component.ofPart).filter
          Component.isStep = (rest.filter counts).map Component.ofPart := by
        rw [if_pos hfirst]
        split_ifs
        · rw [List.filter_cons_of_neg (by simp [Component.isStep]), filter_isStep_map_ofPart]
        · exact filter_isStep_map_ofPart rest
      rw [hinner, if_neg (by simp [hfirst, counts])]
    · have habsolute : ¬path.isAbsolute = true := fun h => hfirst (eq_nil_of_isAbsolute h hsegments)
      rw [if_neg habsolute, if_neg hfirst, List.filter_cons, isStep_ofPart hfirst,
        filter_isStep_map_ofPart]
      split_ifs <;> rfl

/-- An absolute path can be told from its components. -/
theorem isAbsolute_eq (path : Path) :
    path.isAbsolute = (path.components.head? == some .root) := by
  rw [components]
  cases hsegments : segments path.text.toList with
  | nil => exact absurd hsegments (segments_ne_nil _)
  | cons first rest =>
    dsimp only
    split_ifs with habsolute hfirst
    · simpa using habsolute
    · cases rest.filter counts with
      | nil => simpa using habsolute
      | cons part parts => simpa [ofPart_beq_root] using habsolute
    · simpa [ofPart_beq_root] using habsolute

theorem steps_eq_of_agrees {p q : Path} (h : p.agrees q = true) : p.steps = q.steps := by
  have hcomponents : p.components = q.components := by simpa [agrees] using h
  have hsteps : p.steps.map Component.ofPart = q.steps.map Component.ofPart := by
    rw [← filter_isStep_components, ← filter_isStep_components, hcomponents]
  exact ofPart_injective.list_map hsteps

theorem isAbsolute_eq_of_agrees {p q : Path} (h : p.agrees q = true) :
    p.isAbsolute = q.isAbsolute := by
  have hcomponents : p.components = q.components := by simpa [agrees] using h
  rw [isAbsolute_eq, isAbsolute_eq, hcomponents]

theorem join_congr {path path' : Path} (h : path = path') (target : Path) :
    path.join target = path'.join target :=
  h ▸ rfl

theorem parent?_congr {path path' : Path} (h : path = path') :
    Option.Rel Eq path.parent? path'.parent? := by
  subst h
  cases path.parent? with
  | none => exact .none
  | some parent => exact .some rfl

end Path

namespace FileTree

open TextTemplate.Path

variable {tree : FileTree}

/-! ### Parts that do not count -/

/-- An empty part, or a dot, changes nothing where it can be passed at all, which is anywhere but
at a file. -/
theorem step_of_not_counts {part : List Char} (h : counts part = false) (here : Place) :
    tree.step part here =
      match here.entry with
      | .file .. => .error .notDirectory
      | .directory _ => .ok here := by
  obtain ⟨names, entry⟩ := here
  cases entry <;> simp [step, h]

/-- On the way to other parts, those that do not count can be left out. -/
theorem foldlM_step_append {more : List (List Char)} (hmore : more ≠ []) :
    ∀ (parts : List (List Char)) (here : Place),
      (parts ++ more).foldlM (fun here part => tree.step part here) here =
        (parts.filter counts ++ more).foldlM (fun here part => tree.step part here) here
  | [], here => rfl
  | part :: parts, here => by
    rw [List.cons_append, List.filter_cons, List.foldlM_cons]
    have hrest := foldlM_step_append hmore parts
    split_ifs with hcounts
    · rw [List.cons_append, List.foldlM_cons]
      exact congrArg _ (funext hrest)
    · rw [step_of_not_counts (by simpa using hcounts)]
      split
      · -- A file is the end of the walk, whatever part comes next.
        rename_i hfile
        obtain ⟨first, rest, hparts⟩ := List.exists_cons_of_ne_nil
          (List.append_ne_nil_of_right_ne_nil (parts.filter counts) hmore)
        rw [hparts, List.foldlM_cons, step, hfile]
        rfl
      · exact hrest here

private theorem foldlM_step_filter {last : List Char} (hlast : counts last = true)
    (parts : List (List Char)) (here : Place) :
    (parts ++ [last]).foldlM (fun here part => tree.step part here) here =
      ((parts ++ [last]).filter counts).foldlM (fun here part => tree.step part here) here := by
  have hkept : [last].filter counts = [last] := List.filter_eq_self.2 (by simpa using hlast)
  rw [foldlM_step_append (List.cons_ne_nil _ _), List.filter_append, hkept]

/-- Where all parts lead somewhere, those that do not count can be left out. -/
theorem foldlM_filter_of_eq_ok : ∀ {parts : List (List Char)} {here last : Place},
    parts.foldlM (fun here part => tree.step part here) here = .ok last →
    (parts.filter counts).foldlM (fun here part => tree.step part here) here = .ok last
  | [], _, _, h => h
  | part :: parts, here, last, h => by
    rw [List.foldlM_cons] at h
    obtain ⟨next, hnext, hrest⟩ := Attempt.bind_eq_ok_iff.1 h
    rw [List.filter_cons]
    split_ifs with hcounts
    · rw [List.foldlM_cons, hnext]
      exact foldlM_filter_of_eq_ok hrest
    · rw [step_of_not_counts (by simpa using hcounts)] at hnext
      split at hnext
      · cases hnext
      · cases hnext
        exact foldlM_filter_of_eq_ok hrest

/-! ### Walks by steps -/

/-- The place that the steps of a path lead to. -/
def reach (tree : FileTree) (path : Path) : Except FileError Place := do
  let start ← tree.place (tree.origin path)
  path.steps.foldlM (fun here part => tree.step part here) start

/-- Paths that agree have the same steps. -/
theorem reach_congr {path path' : Path} (h : path.agrees path' = true) :
    tree.reach path = tree.reach path' := by
  rw [reach, reach, origin, origin, isAbsolute_eq_of_agrees h, steps_eq_of_agrees h]

/-- What is known of a path that leads somewhere: it can be walked. -/
theorem walk_eq_ok_iff {path : Path} {here : Place} :
    tree.walk path = .ok here ↔
      path.text.toList.contains '\x00' = false ∧ path.text.toList ≠ [] ∧
      path.text.utf8ByteSize ≤ maxPathBytes ∧
      ∃ start, tree.place (tree.origin path) = .ok start ∧
        (segments path.text.toList).foldlM (fun here part => tree.step part here) start =
          .ok here := by
  rw [walk]
  split_ifs with hnul hempty hlong
  · simp [-List.contains_eq_mem, hnul]
  · simp [hempty]
  · simp [Nat.not_le.2 hlong]
  · rw [Attempt.bind_eq_ok_iff]
    exact ⟨fun h => ⟨by simpa using hnul, hempty, Nat.not_lt.1 hlong, h⟩, fun h => h.2.2.2⟩

/-- What a path leads to, its steps lead to. -/
theorem reach_of_walk {path : Path} {here : Place} (h : tree.walk path = .ok here) :
    tree.reach path = .ok here := by
  obtain ⟨-, -, -, start, hstart, hfold⟩ := walk_eq_ok_iff.1 h
  rw [reach, hstart]
  exact foldlM_filter_of_eq_ok hfold

/-- The last part of a path that leads to a file leads somewhere. -/
theorem exists_last_of_walk {path : Path} {names : List String} {content : Content} {time : Nat}
    (h : tree.walk path = .ok ⟨names, .file content time⟩) :
    ∃ parts last, segments path.text.toList = parts ++ [last] ∧ counts last = true := by
  obtain ⟨-, -, -, start, -, hfold⟩ := walk_eq_ok_iff.1 h
  obtain hnil | ⟨parts, last, hparts⟩ := List.eq_nil_or_concat' (segments path.text.toList)
  · exact absurd hnil (segments_ne_nil _)
  refine ⟨parts, last, hparts, ?_⟩
  by_contra hlast
  rw [hparts, List.foldlM_append, Attempt.bind_eq_ok_iff] at hfold
  obtain ⟨here, -, hstep⟩ := hfold
  rw [List.foldlM_cons, step_of_not_counts (by simpa using hlast)] at hstep
  split at hstep
  · cases hstep
  · rename_i hdirectory
    cases hstep
    cases hdirectory

/-- A path that leads to a file in some tree is walked by its steps. -/
theorem walk_eq_reach {path : Path} {names : List String} {content : Content} {time : Nat}
    (h : tree.walk path = .ok ⟨names, .file content time⟩) (tree' : FileTree) :
    tree'.walk path = tree'.reach path := by
  obtain ⟨hnul, hempty, hlong, -⟩ := walk_eq_ok_iff.1 h
  obtain ⟨parts, last, hparts, hlast⟩ := exists_last_of_walk h
  rw [walk, reach, hnul, if_neg Bool.false_ne_true, if_neg hempty, if_neg (Nat.not_lt.2 hlong),
    steps, hparts]
  exact bind_congr fun start => foldlM_step_filter hlast parts start

/-! ### Files -/

theorem read_of_walk {path : Path} {here : Place} (h : tree.walk path = .ok here) :
    tree.read path = here.entry.read := by
  rw [read, h]
  rfl

theorem modified?_of_walk {path : Path} {here : Place} (h : tree.walk path = .ok here) :
    tree.modified? path = some here.entry.modified := by
  rw [modified?, h]

theorem modified?_eq_some_iff {path : Path} {time : Nat} :
    tree.modified? path = some time ↔
      ∃ here, tree.walk path = .ok here ∧ here.entry.modified = time := by
  rw [modified?]
  cases tree.walk path <;> simp

/-- What can be read is a file. -/
theorem exists_walk_of_read {path : Path} {source : String} (h : tree.read path = .ok source) :
    ∃ names time, tree.walk path = .ok ⟨names, .file (.text source) time⟩ := by
  obtain ⟨⟨names, entry⟩, hwalk, hread⟩ := Attempt.bind_eq_ok_iff.1 h
  cases entry with
  | directory => cases hread
  | file content time =>
    cases content with
    | binary => cases hread
    | text s =>
      cases hread
      exact ⟨names, time, hwalk⟩

private theorem find?_of_place {names : List String} {here : Place}
    (h : tree.place names = .ok here) : tree.find? here.names = some here.entry := by
  rw [place] at h
  split at h
  · cases h
    assumption
  · cases h

private theorem find?_of_step {part : List Char} {here there : Place}
    (hhere : tree.find? here.names = some here.entry) (h : tree.step part here = .ok there) :
    tree.find? there.names = some there.entry := by
  unfold step at h
  split at h
  · cases h
  · split_ifs at h
    · cases h
      exact hhere
    · exact find?_of_place h
    · exact find?_of_place h

/-- A place that is walked to is one of the tree. -/
theorem find?_of_walk {path : Path} {here : Place} (h : tree.walk path = .ok here) :
    tree.find? here.names = some here.entry := by
  obtain ⟨-, -, -, start, hstart, hfold⟩ := walk_eq_ok_iff.1 h
  replace hstart := find?_of_place hstart
  generalize segments path.text.toList = parts at hfold
  induction parts generalizing start with
  | nil =>
    cases hfold
    exact hstart
  | cons part parts ih =>
    rw [List.foldlM_cons] at hfold
    obtain ⟨next, hnext, hrest⟩ := Attempt.bind_eq_ok_iff.1 hfold
    exact ih next (find?_of_step hstart hnext) hrest

/-- What can stand under a path: the entries of the tree, and a directory of which nothing is
known. -/
def known (tree : FileTree) : List FileEntry :=
  .directory 0 :: tree.entries.map Prod.snd

theorem mem_known_of_walk {path : Path} {here : Place} (h : tree.walk path = .ok here) :
    here.entry ∈ tree.known := by
  have hentry := find?_of_walk h
  rw [find?] at hentry
  split at hentry
  · rename_i other entry hfind
    obtain rfl := Option.some.inj hentry
    exact List.mem_cons_of_mem _ (List.mem_map_of_mem (List.mem_of_find?_eq_some hfind))
  · split_ifs at hentry
    rw [← Option.some.inj hentry]
    exact List.mem_cons_self

end FileTree

end TextTemplate
