import TextTemplate.Proofs.Likeness.Moved
import TextTemplate.Proofs.Script.Derivation
import TextTemplate.Proofs.Text.Items

/-!
# Scripts of sources with common parts

Where parts of one source stand in another one, the scripts of the two are alike: they have the same
characters, and directives with the same expressions, at other places. An include may moreover be
replaced by a script.

## Main definitions

* `Script.Alike`: scripts with the same characters and directives, apart from includes that are
  inlined.
* `Expands`: marks that are carried over to another source.
* `Outline.marks`: the marks of a source.

## Main results

* `Script.Derives.expand`: marks that are carried over are a script that is alike.
* `Expands.of_items`: what yields the same items is carried over.
-/

namespace TextTemplate

/-! ### Scripts that are alike -/

section Alike

variable (places : Places) (source source' : String) (inlines : Slot → Script → Prop)

/-- Directives of the same name and with the same body, at places that correspond. -/
structure Directive.Copied (left right : Directive) : Prop where
  name : left.name = right.name
  body : left.body.slice source = right.body.slice source'
  starts : places left.span.start right.span.start

mutual

/-- The two are the same but for where their directives stand, and for includes on the left of
scripts that stand on the right. -/
inductive Script.Alike : Script → Script → Prop
  | done : Script.Alike .done .done
  | char {rest rest' : Script} (c : Char) (follows : Script.Alike rest rest') :
      Script.Alike (.char c rest) (.char c rest')
  | action {place place' : Nat} {d d' : Directive} {left right : Action} {rest rest' : Script}
      (copied : d.Copied places source source' d')
      (alike : Action.Alike (Slot.Copied places source source') left right)
      (follows : Script.Alike rest rest') :
      Script.Alike (.action place d left rest) (.action place' d' right rest')
  | block {place place' : Nat} {d d' : Directive} {left right : Opener}
      {script script' rest rest' : Script} {others others' : Alternatives}
      (copied : d.Copied places source source' d')
      (alike : Opener.Alike (Slot.Copied places source source') left right)
      (inside : Script.Alike script script') (branches : Alternatives.Alike others others')
      (follows : Script.Alike rest rest') :
      Script.Alike (.block place d left script others rest)
        (.block place' d' right script' others' rest')
  | inlined {place : Nat} {d : Directive} {target : Slot} {contents rest rest' : Script}
      (inlined : inlines target contents) (follows : Script.Alike rest rest') :
      Script.Alike (.action place d (.includeFile target none) rest) (contents.append rest')

/-- The rests of two blocks are the same in this sense. -/
inductive Alternatives.Alike : Alternatives → Alternatives → Prop
  | closed {closer closer' : Directive}
      (body : closer.body.slice source = closer'.body.slice source') :
      Alternatives.Alike (.closed closer) (.closed closer')
  | branch {d d' : Directive} {left right : Option Slot} {script script' : Script}
      {more more' : Alternatives} (copied : d.Copied places source source' d')
      (condition : Option.Rel (Slot.Copied places source source') left right)
      (inside : Script.Alike script script') (branches : Alternatives.Alike more more') :
      Alternatives.Alike (.branch d left script more) (.branch d' right script' more')

end

end Alike

section Refl

variable {places : Places} {source : String} {inlines : Slot → Script → Prop}
  (hrefl : ∀ offset, places offset offset)

include hrefl

theorem Directive.Copied.refl (d : Directive) : d.Copied places source source d :=
  ⟨rfl, rfl, hrefl _⟩

mutual

theorem Script.Alike.refl :
    ∀ script : Script, Script.Alike places source source inlines script script
  | .done => .done
  | .char c rest => .char c (Script.Alike.refl rest)
  | .action _ d action rest =>
    .action (.refl hrefl d) (Action.Alike.refl (Slot.Copied.refl hrefl) action)
      (Script.Alike.refl rest)
  | .block _ d opener body others rest =>
    .block (.refl hrefl d) (Opener.Alike.refl (Slot.Copied.refl hrefl) opener)
      (Script.Alike.refl body) (Alternatives.Alike.refl others) (Script.Alike.refl rest)

theorem Alternatives.Alike.refl :
    ∀ others : Alternatives, Alternatives.Alike places source source inlines others others
  | .closed _ => .closed rfl
  | .branch d condition body more =>
    .branch (.refl hrefl d) (rel_refl_of_slots (Slot.Copied.refl hrefl) condition)
      (Script.Alike.refl body) (Alternatives.Alike.refl more)

end

end Refl

/-- The blocks end with the same text. -/
theorem Alternatives.Alike.closer_slice_eq {places : Places} {source source' : String}
    {inlines : Slot → Script → Prop} {others others' : Alternatives} :
    Alternatives.Alike places source source' inlines others others' →
      others.closer.body.slice source = others'.closer.body.slice source'
  | .closed h => h
  | .branch _ _ _ hmore => hmore.closer_slice_eq

/-! ### Marks that are carried over -/

/-- A directive that has moved with its body. -/
structure Directive.Moved (places : Places) (source source' : String) (left right : Directive) :
    Prop extends left.Carried (Span.Moved places source source') right where
  starts : places left.span.start right.span.start

private theorem Directive.Moved.copied {places : Places} {source source' : String}
    {d d' : Directive} (h : d.Moved places source source' d') : d.Copied places source source' d' :=
  ⟨h.name, h.body.slice_eq, h.starts⟩

section Expanding

variable (compiler : Compiler) (places : Places) (source source' : String)
  (inlines : Slot → Script → Prop)

/-- The marks of one source are carried over to another one: characters stay, directives move, and
in the place of includes there may be the marks of scripts. -/
inductive Expands : List Mark → List Mark → Prop
  | nil : Expands [] []
  | char {ms ms' : List Mark} (c : Char) (follows : Expands ms ms') :
      Expands (.char c :: ms) (.char c :: ms')
  | directive {place place' : Nat} {d d' : Directive} {ms ms' : List Mark}
      (moved : d.Moved places source source' d') (follows : Expands ms ms') :
      Expands (.directive place d :: ms) (.directive place' d' :: ms')
  | inlined {place : Nat} {d : Directive} {contents : Script} {inside ms ms' : List Mark}
      (includes : ∀ role, d.Reads compiler source role →
        ∃ target, role = .standsAlone (.includeFile target none) ∧ inlines target contents)
      (derives : contents.Derives compiler source' inside) (follows : Expands ms ms') :
      Expands (.directive place d :: ms) (inside ++ ms')

end Expanding

section Expands

variable {compiler : Compiler} {places : Places} {source source' : String}
  {inlines : Slot → Script → Prop}

namespace Expands

variable {ms ms' more more' : List Mark}

theorem append (h : Expands compiler places source source' inlines ms ms')
    (h' : Expands compiler places source source' inlines more more') :
    Expands compiler places source source' inlines (ms ++ more) (ms' ++ more') := by
  induction h with
  | nil => exact h'
  | char c _ ih => exact .char c ih
  | directive hmoved _ ih => exact .directive hmoved ih
  | inlined hincludes hderives _ ih =>
    rw [List.append_assoc]
    exact .inlined hincludes hderives ih

private theorem of_append {marks : List Mark}
    (h : Expands compiler places source source' inlines (ms ++ more) marks) :
    ∃ ms' more', marks = ms' ++ more' ∧ Expands compiler places source source' inlines ms ms' ∧
      Expands compiler places source source' inlines more more' := by
  induction ms generalizing marks with
  | nil => exact ⟨[], marks, rfl, .nil, h⟩
  | cons mark ms ih =>
    cases h with
    | char c hrest =>
      obtain ⟨ms', more', rfl, hms, hmore⟩ := ih hrest
      exact ⟨_, more', rfl, .char c hms, hmore⟩
    | directive hmoved hrest =>
      obtain ⟨ms', more', rfl, hms, hmore⟩ := ih hrest
      exact ⟨_, more', rfl, .directive hmoved hms, hmore⟩
    | inlined hincludes hderives hrest =>
      obtain ⟨ms', more', rfl, hms, hmore⟩ := ih hrest
      exact ⟨_, more', (List.append_assoc _ _ _).symm, .inlined hincludes hderives hms, hmore⟩

/-- A directive that is no include is carried over as it is. -/
theorem exists_of_directive {place : Nat} {d : Directive} {role : Role} {marks : List Mark}
    (h : Expands compiler places source source' inlines (.directive place d :: ms) marks)
    (hreads : d.Reads compiler source role)
    (hrole : ∀ target, role ≠ .standsAlone (.includeFile target none)) :
    ∃ place' d' ms', marks = .directive place' d' :: ms' ∧
      d.Moved places source source' d' ∧ Expands compiler places source source' inlines ms ms' := by
  cases h with
  | directive hmoved hrest => exact ⟨_, _, _, rfl, hmoved, hrest⟩
  | inlined hincludes =>
    obtain ⟨target, hinclude, -⟩ := hincludes role hreads
    exact absurd hinclude (hrole target)

end Expands

private theorem Action.Alike.isComment_eq {alike : Slot → Slot → Prop} {left right : Action}
    (h : Action.Alike alike left right) : left.isComment = right.isComment := by
  cases h <;> rfl

mutual

/-- Marks that are carried over are a script that is alike. -/
theorem Script.Derives.expand {ms : List Mark} {script : Script} : ∀ {ms' : List Mark},
    script.Derives compiler source ms → Expands compiler places source source' inlines ms ms' →
      ∃ script' : Script, script'.Derives compiler source' ms' ∧
        Script.Alike places source source' inlines script script'
  | _, .done, .nil => ⟨.done, .done, .done⟩
  | _, .char c hrest, .char _ hexpands => by
    obtain ⟨rest', hderives, halike⟩ := hrest.expand hexpands
    exact ⟨_, .char c hderives, .char c halike⟩
  | _, .action hreads hother hrest, .directive hmoved hexpands => by
    obtain ⟨rest', hderives, halike⟩ := hrest.expand hexpands
    obtain ⟨role', hreads', hrole⟩ :=
      hreads.carried (carries_moved compiler places source source') hmoved.toCarried
    cases hrole with
    | standsAlone haction =>
      exact ⟨_, .action hreads' (haction.isComment_eq ▸ hother) hderives,
        .action hmoved.copied haction halike⟩
  | _, .action hreads hother hrest, .inlined hincludes hinside hexpands => by
    obtain ⟨rest', hderives, halike⟩ := hrest.expand hexpands
    obtain ⟨target, hrole, hinlines⟩ := hincludes _ hreads
    cases hrole
    exact ⟨_, hinside.append hderives, .inlined hinlines halike⟩
  | _, .block hreads hblock hrest, hexpands => by
    obtain ⟨place', d', ms', rfl, hmoved, hexpands⟩ := hexpands.exists_of_directive hreads nofun
    obtain ⟨inside', more', rfl, hinside, hmore⟩ := hexpands.of_append
    obtain ⟨rest', hderives, halike⟩ := hrest.expand hmore
    obtain ⟨role', hreads', hrole⟩ :=
      hreads.carried (carries_moved compiler places source source') hmoved.toCarried
    cases hrole with
    | opens hopener =>
      obtain ⟨ended, script', others', hblock', hended, hscript, hothers⟩ :=
        hblock.expand hopener hinside
      exact ⟨_, .block hreads' hblock' hderives,
        .block hmoved.copied hended hscript hothers halike⟩

/-- So are those of the rest of a block. -/
theorem Alternatives.Derives.expand {opener opener' other : Opener} {ms ms' : List Mark}
    {script : Script} {others : Alternatives} :
    Alternatives.Derives compiler source opener ms opener' script others →
      Opener.Alike (Slot.Copied places source source') opener other →
      Expands compiler places source source' inlines ms ms' →
      ∃ other' script' others',
        Alternatives.Derives compiler source' other ms' other' script' others' ∧
          Opener.Alike (Slot.Copied places source source') opener' other' ∧
          Script.Alike places source source' inlines script script' ∧
          Alternatives.Alike places source source' inlines others others'
  | .closed hbody hreads hends, hopener, hexpands => by
    obtain ⟨inside', more', rfl, hinside, hmore⟩ := hexpands.of_append
    obtain ⟨place', d', ms', rfl, hmoved, ⟨⟩⟩ := hmore.exists_of_directive hreads nofun
    obtain ⟨script', hderives, hscript⟩ := hbody.expand hinside
    have hcarries := carries_moved compiler places source source'
    obtain ⟨other', hends', hended⟩ := hends.carried hcarries hmoved.toCarried hopener
    exact ⟨other', script', .closed d',
      .closed hderives (hreads.ends_carried hcarries hmoved.toCarried) hends', hended, hscript,
      .closed hmoved.body.slice_eq⟩
  | .branch hbody hreads hcontinues hothers, hopener, hexpands => by
    obtain ⟨inside', more', rfl, hinside, hmore⟩ := hexpands.of_append
    obtain ⟨place', d', ms', rfl, hmoved, hexpands⟩ := hmore.exists_of_directive hreads nofun
    obtain ⟨script', hderives, hscript⟩ := hbody.expand hinside
    have hcarries := carries_moved compiler places source source'
    obtain ⟨next', hcontinues', hnext⟩ := hcontinues.carried hcarries hmoved.toCarried
    obtain ⟨other', body', more', hmore', hother, hbody', hbranches⟩ :=
      hothers.expand (.conditional hnext) hexpands
    cases hopener with
    | conditional hcondition =>
      obtain ⟨hslot⟩ := hcondition
      obtain rfl := hmore'.opener_eq
      exact ⟨_, script', .branch d' next' body' more',
        .branch hderives (hreads.goesOn_carried hcarries hmoved.toCarried) hcontinues' hmore',
        .conditional (.some hslot), hscript, .branch hmoved.copied hnext hbody' hbranches⟩

end

end Expands

/-! ### The marks of a source -/

/-- The item of a mark. -/
def Mark.item (source : String) : Mark → Item
  | .char c => .char c
  | .directive _ d => .directive d.name.toList (d.body.chars source)

/-- Whether an item is a comment. -/
def Item.isComment : Item → Bool
  | .char _ => false
  | .directive name _ => name == "comment".toList

/-- The items that are no comments. -/
def Item.scripted (items : List Item) : List Item :=
  items.filter fun item => !item.isComment

section Marks

variable {source : String}

theorem Item.scripted_append (items items' : List Item) :
    scripted (items ++ items') = scripted items ++ scripted items' :=
  List.filter_append ..

theorem Item.scripted_map_char (text : List Char) :
    scripted (text.map .char) = text.map .char :=
  List.filter_eq_self.2 fun _ h => by
    obtain ⟨c, -, rfl⟩ := List.mem_map.1 h
    rfl

theorem Directive.scripted_items (d : Directive) (place : Nat) :
    Item.scripted (Piece.items source (.directive d)) =
      ((Phrase.directive d).marks source place).map (Mark.item source) := by
  rw [Piece.items, Phrase.marks, Item.scripted]
  by_cases hname : d.name = "comment"
  · simp [Item.isComment, hname]
  · have hchars : d.name.toList ≠ "comment".toList := fun h => hname (String.toList_inj.1 h)
    simp only [Item.isComment, Mark.item, hname, if_false, List.map_cons, List.map_nil]
    rw [List.filter_cons_of_pos (by simpa using hchars), List.filter_nil]

/-- What is held back leaves the marks of the text. -/
theorem marks_heldBack {spans : List Span} {comments : List Directive}
    (h : ∀ d ∈ comments, d.name = "comment") (place : Nat) :
    marks source place (heldBack spans comments) = (textOf source spans.reverse).map .char := by
  have hcomments (cs : List Directive) (hcs : ∀ d ∈ cs, d.name = "comment") (place : Nat) :
      marks source place (cs.map .directive) = [] := by
    induction cs generalizing place with
    | nil => rfl
    | cons d cs ih =>
      rw [List.map_cons, marks, Phrase.marks, if_pos (hcs d List.mem_cons_self)]
      exact ih (fun d hd => hcs d (List.mem_cons_of_mem _ hd)) _
  rw [heldBack, marks_append, hcomments _ fun d hd => h d (List.mem_reverse.1 hd), List.append_nil]
  split_ifs with hspans
  · rw [hspans]
    rfl
  · rw [marks_singleton]
    rfl

/-- Joining texts moves comments only. -/
theorem map_item_marks_joinTexts (pieces : List Piece) (spans : List Span)
    (comments : List Directive) (h : ∀ d ∈ comments, d.name = "comment") (place : Nat) :
    (marks source place (joinTexts spans comments pieces)).map (Mark.item source) =
      (textOf source spans.reverse).map .char ++
        Item.scripted (pieces.flatMap (Piece.items source)) := by
  have hchars (text : List Char) :
      (text.map Mark.char).map (Mark.item source) = text.map .char := by
    rw [List.map_map]
    rfl
  induction pieces generalizing spans comments place with
  | nil => rw [joinTexts, marks_heldBack h, hchars, List.flatMap_nil, Item.scripted,
      List.filter_nil, List.append_nil]
  | cons piece pieces ih =>
    rw [List.flatMap_cons, Item.scripted_append]
    cases piece with
    | text span =>
      rw [joinTexts, ih _ _ h, Piece.items, Item.scripted_map_char, List.reverse_cons, textOf,
        List.flatMap_append, List.flatMap_singleton, List.map_append, List.append_assoc]
      rfl
    | directive d =>
      rw [joinTexts, d.scripted_items 0]
      split_ifs with hcomment
      · rw [ih _ _ (List.forall_mem_cons.2 ⟨hcomment.1, h⟩), Phrase.marks, if_pos hcomment.1]
        rfl
      · rw [marks_append, marks_heldBack h, marks, List.map_append, List.map_append, hchars,
          ih [] [] (List.forall_mem_nil _), Phrase.marks, Phrase.marks]
        split_ifs <;> rfl

/-- The marks of a source: those of its phrases. -/
def Outline.marks (source : String) : List Mark :=
  TextTemplate.marks source 0 (ofSource source).phrases

theorem Outline.map_item_marks (source : String) :
    (Outline.marks source).map (Mark.item source) =
      Item.scripted ((ofSource source).items source) :=
  map_item_marks_joinTexts _ [] [] (List.forall_mem_nil _) 0

private theorem directive_mem_of_mem_marks {place p : Nat} {d : Directive} {phrases : List Phrase}
    (h : .directive p d ∈ marks source place phrases) : .directive d ∈ phrases := by
  obtain ⟨inside, more, hmarks⟩ := List.append_of_mem h
  obtain ⟨before, after, rfl, -⟩ := exists_of_marks_eq_append hmarks.symm
  simp

/-- The bodies of the directives stand in the source. -/
theorem Outline.exists_covers_of_mem_marks {p : Nat} {d : Directive}
    (h : .directive p d ∈ Outline.marks source) : ∃ body, d.body.Covers source body := by
  obtain hd | hd := directive_mem_of_mem_joinTexts (directive_mem_of_mem_marks h)
  · cases hd
  · exact (ofSource_eq_iff.1 rfl).exists_covers rfl hd

/-- Marks of the same items are carried over. -/
theorem Expands.of_items {compiler : Compiler} {source' : String} {inlines : Slot → Script → Prop}
    {ms ms' : List Mark} (h : ms.map (Mark.item source) = ms'.map (Mark.item source'))
    (hcovers : ∀ p d, .directive p d ∈ ms → ∃ body, d.body.Covers source body)
    (hcovers' : ∀ p d, .directive p d ∈ ms' → ∃ body, d.body.Covers source' body) :
    Expands compiler .any source source' inlines ms ms' := by
  induction ms generalizing ms' with
  | nil =>
    rw [List.map_nil, eq_comm, List.map_eq_nil_iff] at h
    subst h
    exact .nil
  | cons mark ms ih =>
    obtain ⟨mark', ms', rfl, hmark, hms⟩ := List.map_eq_cons_iff.1 h.symm
    have hrest := ih hms.symm (fun p d hd => hcovers p d (List.mem_cons_of_mem _ hd))
      fun p d hd => hcovers' p d (List.mem_cons_of_mem _ hd)
    cases mark with
    | char c =>
      cases mark' with
      | char c' =>
        cases hmark
        exact .char c hrest
      | directive => cases hmark
    | directive p d =>
      cases mark' with
      | char => cases hmark
      | directive p' d' =>
        rw [Mark.item, Mark.item, Item.directive.injEq] at hmark
        obtain ⟨body, hbody⟩ := hcovers p d List.mem_cons_self
        obtain ⟨body', hbody'⟩ := hcovers' p' d' List.mem_cons_self
        rw [hbody.chars_eq, hbody'.chars_eq] at hmark
        obtain ⟨hname, rfl⟩ := hmark
        exact .directive
          ⟨⟨(String.toList_inj.1 hname).symm, body', hbody, hbody', fun _ _ => trivial⟩,
            trivial⟩ hrest

end Marks

end TextTemplate
